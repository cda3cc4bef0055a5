import CipherCli.Library.BigEndian

/-!
# Hexadecimal text

Hexadecimal digits of either case as numbers, and two of them as a byte. The bytes
of a text spell the number that its digits spell.
-/

namespace CipherCli.Library

/-- The value of a hexadecimal digit. -/
def hexDigit? (c : Char) : Option Nat :=
  if 48 ≤ c.toNat ∧ c.toNat ≤ 57 then some (c.toNat - 48)
  else if 97 ≤ c.toNat ∧ c.toNat ≤ 102 then some (c.toNat - 87)
  else if 65 ≤ c.toNat ∧ c.toNat ≤ 70 then some (c.toNat - 55)
  else none

def IsHex (c : Char) : Prop := (hexDigit? c).isSome

instance : DecidablePred IsHex := fun c => inferInstanceAs (Decidable ((hexDigit? c).isSome = true))

/-- Two digits are a byte. -/
def decodeHex : List Char → Option (List UInt8)
  | [] => some []
  | [_] => none
  | hi :: lo :: rest => do
    let high ← hexDigit? hi
    let low ← hexDigit? lo
    let bytes ← decodeHex rest
    return UInt8.ofNat (16 * high + low) :: bytes

/-- The number that hexadecimal digits spell. -/
def hexValue (digits : List Char) : Nat :=
  Nat.ofDigits 16 (digits.reverse.map fun c => (hexDigit? c).getD 0)

theorem hexDigit?_lt {c : Char} {n : Nat} (hDigit : hexDigit? c = some n) : n < 16 := by
  unfold hexDigit? at hDigit
  split at hDigit
  · obtain rfl := Option.some.inj hDigit
    omega
  · split at hDigit
    · obtain rfl := Option.some.inj hDigit
      omega
    · split at hDigit
      · obtain rfl := Option.some.inj hDigit
        omega
      · cases hDigit

theorem hexDigit?_digitChar : ∀ n < 16, hexDigit? (Nat.digitChar n) = some n := by decide

theorem hexValue_append (front back : List Char) :
    hexValue (front ++ back) = hexValue front * 16 ^ back.length + hexValue back := by
  rw [hexValue, List.reverse_append, List.map_append, Nat.ofDigits_append, List.length_map,
    List.length_reverse, Nat.add_comm, Nat.mul_comm]
  rfl

theorem hexValue_singleton {c : Char} {n : Nat} (hDigit : hexDigit? c = some n) :
    hexValue [c] = n := by
  simp [hexValue, hDigit]

theorem hexValue_replicate_zero (count : Nat) : hexValue (List.replicate count '0') = 0 := by
  induction count with
  | zero => rfl
  | succ count ih =>
    rw [List.replicate_succ', hexValue_append, ih, Nat.zero_mul, Nat.zero_add]
    exact hexValue_singleton rfl

theorem hexValue_toDigits (n : Nat) : hexValue (Nat.toDigits 16 n) = n := by
  induction n using Nat.strong_induction_on with
  | _ n ih =>
    rw [Nat.toDigits_eq_if (by omega)]
    by_cases hSmall : n < 16
    · rw [if_pos hSmall]
      exact hexValue_singleton (hexDigit?_digitChar n hSmall)
    · have hLast := hexDigit?_digitChar (n % 16) (Nat.mod_lt n (by omega))
      rw [if_neg hSmall, hexValue_append, ih (n / 16) (by omega), hexValue_singleton hLast]
      exact Nat.div_add_mod' n 16

theorem isHex_toDigits (n : Nat) : ∀ c ∈ Nat.toDigits 16 n, IsHex c := by
  induction n using Nat.strong_induction_on with
  | _ n ih =>
    rw [Nat.toDigits_eq_if (by omega)]
    by_cases hSmall : n < 16
    · rw [if_pos hSmall, List.forall_mem_singleton, IsHex, hexDigit?_digitChar n hSmall]
      rfl
    · rw [if_neg hSmall, List.forall_mem_append, List.forall_mem_singleton, IsHex,
        hexDigit?_digitChar _ (Nat.mod_lt n (by omega))]
      exact ⟨ih (n / 16) (by omega), rfl⟩

/-- Left padding with zeros keeps the number. -/
theorem hexValue_leftpad (width : Nat) (digits : List Char) :
    hexValue (digits.leftpad width '0') = hexValue digits := by
  rw [List.leftpad, hexValue_append, hexValue_replicate_zero, Nat.zero_mul, Nat.zero_add]

theorem decodeHex_append {front : List Char} {bytes : List UInt8}
    (hFront : decodeHex front = some bytes) (back : List Char) :
    decodeHex (front ++ back) = (decodeHex back).map (bytes ++ ·) := by
  induction front using decodeHex.induct generalizing bytes with
  | case1 =>
    obtain rfl := Option.some.inj hFront
    simp
  | case2 c => cases hFront
  | case3 hi lo rest ih =>
    simp only [decodeHex, Option.bind_eq_bind, Option.bind_eq_some_iff] at hFront
    obtain ⟨high, hHigh, low, hLow, bytesRest, hRest, hBytes⟩ := hFront
    obtain rfl := Option.some.inj hBytes
    simp only [List.cons_append, decodeHex, hHigh, hLow, ih hRest]
    cases decodeHex back <;> rfl

theorem beValue_append (front back : List UInt8) :
    beValue (front ++ back) = beValue front * 256 ^ back.length + beValue back := by
  rw [beValue, List.reverse_append, List.map_append, Nat.ofDigits_append, List.length_map,
    List.length_reverse, Nat.add_comm, Nat.mul_comm]
  rfl

/-- An even number of digits is decoded to bytes that spell the same number. -/
theorem decodeHex_of_isHex {digits : List Char} {count : Nat} (hLength : digits.length = 2 * count)
    (hHex : ∀ c ∈ digits, IsHex c) :
    ∃ bytes, decodeHex digits = some bytes ∧ bytes.length = count ∧
      beValue bytes = hexValue digits := by
  induction digits using decodeHex.induct generalizing count with
  | case1 =>
    rw [List.length_nil] at hLength
    exact ⟨[], rfl, by rw [List.length_nil]; omega, rfl⟩
  | case2 c =>
    rw [List.length_singleton] at hLength
    omega
  | case3 hi lo rest ih =>
    obtain ⟨high, hHigh⟩ := Option.isSome_iff_exists.mp (hHex hi (by simp))
    obtain ⟨low, hLow⟩ := Option.isSome_iff_exists.mp (hHex lo (by simp))
    rw [List.length_cons, List.length_cons] at hLength
    obtain ⟨bytes, hBytes, hCount, hValue⟩ := @ih (count - 1) (by omega)
      fun c hMem => hHex c (by simp [hMem])
    have hHighLt := hexDigit?_lt hHigh
    have hLowLt := hexDigit?_lt hLow
    refine ⟨UInt8.ofNat (16 * high + low) :: bytes, ?_, ?_, ?_⟩
    · rw [decodeHex, hHigh, hLow, hBytes]
      rfl
    · rw [List.length_cons]
      omega
    · have hByte : beValue [UInt8.ofNat (16 * high + low)] = 16 * high + low := by
        simp only [beValue, List.reverse_singleton, List.map_singleton, Nat.ofDigits_singleton]
        exact UInt8.toNat_ofNat_of_lt (Nat.lt_of_lt_of_eq (by omega : _ < 256) rfl)
      have hPair : hexValue [hi, lo] = 16 * high + low := by
        rw [← List.singleton_append, hexValue_append, hexValue_singleton hHigh,
          hexValue_singleton hLow, List.length_singleton, Nat.pow_one, Nat.mul_comm]
      have hPower : (16 : Nat) ^ rest.length = 256 ^ bytes.length := by
        rw [show rest.length = 2 * bytes.length by omega, Nat.pow_mul]
      have hSplit : hexValue (hi :: lo :: rest) = hexValue ([hi, lo] ++ rest) := rfl
      rw [← List.singleton_append, beValue_append, hByte, hValue, hSplit, hexValue_append, hPair,
        hPower]

end CipherCli.Library
