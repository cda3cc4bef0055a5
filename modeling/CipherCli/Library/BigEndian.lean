import Mathlib.Data.Nat.Digits.Lemmas

/-!
# Big-endian bytes

Fixed-width and minimal big-endian byte strings of natural numbers. A minimal
byte string does not start with a zero byte; zero is the empty one.
-/

namespace CipherCli.Library

/-- The number that big-endian bytes spell. -/
def beValue (bytes : List UInt8) : Nat := Nat.ofDigits 256 (bytes.reverse.map UInt8.toNat)

/-- The low `width` bytes of a number, most significant first. -/
def beBytes : Nat → Nat → List UInt8
  | 0, _ => []
  | width + 1, value => beBytes width (value / 256) ++ [UInt8.ofNat (value % 256)]

/-- The bytes of a number without leading zeros. -/
def minBytes (value : Nat) : List UInt8 := ((Nat.digits 256 value).map UInt8.ofNat).reverse

def Minimal (bytes : List UInt8) : Prop := bytes.head? ≠ some 0

@[simp] theorem beBytes_length (width value : Nat) : (beBytes width value).length = width := by
  induction width generalizing value with
  | zero => rfl
  | succ width ih => simp [beBytes, ih]

theorem beValue_concat (bytes : List UInt8) (byte : UInt8) :
    beValue (bytes ++ [byte]) = beValue bytes * 256 + byte.toNat := by
  simp [beValue, Nat.ofDigits_cons]
  ring

theorem beValue_beBytes {width value : Nat} (h : value < 256 ^ width) :
    beValue (beBytes width value) = value := by
  induction width generalizing value with
  | zero => simp_all [beBytes, beValue]
  | succ width ih =>
    have hQuotient : value / 256 < 256 ^ width :=
      Nat.div_lt_of_lt_mul (by rwa [Nat.pow_succ, Nat.mul_comm] at h)
    have hByte : (UInt8.ofNat (value % 256)).toNat = value % 256 := by simp
    rw [beBytes, beValue_concat, ih hQuotient, hByte]
    omega

theorem beBytes_beValue (bytes : List UInt8) : beBytes bytes.length (beValue bytes) = bytes := by
  induction bytes using List.reverseRecOn with
  | nil => rfl
  | append_singleton bytes last ih =>
    have hLast := last.toNat_lt
    have hQuotient : (beValue bytes * 256 + last.toNat) / 256 = beValue bytes := by omega
    have hByte : (beValue bytes * 256 + last.toNat) % 256 = last.toNat := by omega
    rw [List.length_append, List.length_singleton, beBytes, beValue_concat, hQuotient, hByte, ih,
      UInt8.ofNat_toNat]

theorem beValue_lt (bytes : List UInt8) : beValue bytes < 256 ^ bytes.length := by
  have hLt := @Nat.ofDigits_lt_base_pow_length 256
    (bytes.reverse.map UInt8.toNat) (by decide) (by
      intro digit hMem
      obtain ⟨byte, _, rfl⟩ := List.mem_map.mp hMem
      exact byte.toNat_lt)
  simpa [beValue] using hLt

theorem beValue_zero_cons (bytes : List UInt8) : beValue (0 :: bytes) = beValue bytes := by
  simp [beValue, Nat.ofDigits_append]

/-- Leading zero bytes do not change the number. -/
theorem beValue_dropWhile (bytes : List UInt8) :
    beValue (bytes.dropWhile (· == 0)) = beValue bytes := by
  induction bytes with
  | nil => rfl
  | cons byte rest ih =>
    by_cases hZero : byte = 0
    · subst hZero
      rw [List.dropWhile_cons_of_pos rfl, ih, beValue_zero_cons]
    · rw [List.dropWhile_cons_of_neg (by simpa using hZero)]

theorem minimal_dropWhile (bytes : List UInt8) : Minimal (bytes.dropWhile (· == 0)) := by
  intro hHead
  have hNot := List.head?_dropWhile_not (· == 0) bytes
  rw [hHead] at hNot
  simp at hNot

@[simp] theorem beValue_minBytes (value : Nat) : beValue (minBytes value) = value := by
  have hMap : ((Nat.digits 256 value).map UInt8.ofNat).map UInt8.toNat = Nat.digits 256 value := by
    rw [List.map_map]
    refine (List.map_congr_left fun digit hMem => ?_).trans (List.map_id _)
    exact UInt8.toNat_ofNat_of_lt (Nat.digits_lt_base (by decide) hMem)
  rw [beValue, minBytes, List.reverse_reverse, hMap, Nat.ofDigits_digits]

/-- A minimal byte string is determined by its number. -/
theorem minBytes_beValue {bytes : List UInt8} (h : Minimal bytes) :
    minBytes (beValue bytes) = bytes := by
  have hDigits : Nat.digits 256 (beValue bytes) = bytes.reverse.map UInt8.toNat := by
    apply Nat.digits_ofDigits 256 (by decide)
    · intro digit hMem
      obtain ⟨byte, _, rfl⟩ := List.mem_map.mp hMem
      exact byte.toNat_lt
    · intro hNonempty hZero
      apply h
      cases bytes with
      | nil => simp at hNonempty
      | cons byte rest =>
        have hByte : byte.toNat = (0 : UInt8).toNat := by simpa using hZero
        rw [List.head?_cons, UInt8.toNat_inj.mp hByte]
  rw [minBytes, hDigits, List.map_map, ← List.map_reverse, List.reverse_reverse]
  refine (List.map_congr_left fun byte _ => ?_).trans (List.map_id _)
  simp

theorem minimal_minBytes (value : Nat) : Minimal (minBytes value) := by
  intro hHead
  rcases Nat.eq_zero_or_pos value with rfl | hPos
  · simp [minBytes] at hHead
  · have hNonempty : Nat.digits 256 value ≠ [] := Nat.digits_ne_nil_iff_ne_zero.mpr hPos.ne'
    have hLast := Nat.getLast_digit_ne_zero 256 hPos.ne'
    rw [minBytes, List.head?_reverse, List.getLast?_map,
      List.getLast?_eq_some_getLast hNonempty, Option.map_some] at hHead
    have hDigit := Nat.digits_lt_base (by decide) (List.getLast_mem hNonempty)
    have hValue := congrArg UInt8.toNat (Option.some.inj hHead)
    rw [UInt8.toNat_ofNat', Nat.mod_eq_of_lt hDigit] at hValue
    exact hLast hValue

theorem minBytes_length_le {value width : Nat} (h : value < 256 ^ width) :
    (minBytes value).length ≤ width := by
  rw [minBytes, List.length_reverse, List.length_map]
  exact (Nat.digits_length_le_iff (by decide) value).mpr h

theorem minBytes_ne_nil {value : Nat} (h : 0 < value) : minBytes value ≠ [] := by
  intro hNil
  have hValue := beValue_minBytes value
  rw [hNil] at hValue
  simp [beValue] at hValue
  omega

end CipherCli.Library
