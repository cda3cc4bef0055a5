import CipherCli.Library.BigEndian
import Mathlib.Data.List.TakeWhile

/-!
# Byte strings in a radix

A byte string is written with the symbols of an alphabet as the number that its bytes
spell, behind one zero symbol for each zero byte at its front. The bytes are read back,
and the first symbol and the length follow from bounds on the number.
-/

namespace CipherCli.Library

/-- The symbols of a numeral system, in the order of their values. -/
structure Alphabet (α : Type*) where
  symbols : List α
  nodup : symbols.Nodup
  several : 1 < symbols.length

namespace Alphabet

variable {α : Type*} (A : Alphabet α)

def radix : Nat := A.symbols.length

/-- The symbol of a digit. A number that is no digit counts modulo the radix. -/
def symbol (digit : Nat) : α :=
  A.symbols.get ⟨digit % A.symbols.length, Nat.mod_lt _ (Nat.zero_lt_of_lt A.several)⟩

/-- The zero bytes at the front. -/
def zeros (bytes : List UInt8) : Nat := (bytes.takeWhile (· == 0)).length

def encode (bytes : List UInt8) : List α :=
  List.replicate (zeros bytes) (A.symbol 0) ++
    ((Nat.digits A.radix (beValue bytes)).map A.symbol).reverse

section Decode

variable [BEq α]

def digit? (c : α) : Option Nat := A.symbols.idxOf? c

def decode (text : List α) : Option (List UInt8) :=
  (text.mapM A.digit?).map fun digits =>
    List.replicate (digits.takeWhile (· == 0)).length 0 ++
      minBytes (Nat.ofDigits A.radix digits.reverse)

end Decode

/-! ## The round trip -/

theorem symbol_mem (digit : Nat) : A.symbol digit ∈ A.symbols := List.get_mem _ _

theorem encode_mem (bytes : List UInt8) : ∀ c ∈ A.encode bytes, c ∈ A.symbols := by
  intro c hMem
  rcases List.mem_append.mp hMem with hZero | hDigit
  · rw [List.eq_of_mem_replicate hZero]
    exact A.symbol_mem 0
  · obtain ⟨digit, -, rfl⟩ := List.mem_map.mp (List.mem_reverse.mp hDigit)
    exact A.symbol_mem digit

theorem encode_eq_map (bytes : List UInt8) :
    A.encode bytes = (List.replicate (zeros bytes) 0 ++
      (Nat.digits A.radix (beValue bytes)).reverse).map A.symbol := by
  rw [List.map_append, List.map_replicate, List.map_reverse]
  rfl

theorem digit?_symbol [BEq α] [LawfulBEq α] {digit : Nat} (hDigit : digit < A.radix) :
    A.digit? (A.symbol digit) = some digit := by
  have hIndex : digit % A.symbols.length = digit := Nat.mod_eq_of_lt hDigit
  have hSymbol : A.symbol digit = A.symbols.get ⟨digit, hDigit⟩ :=
    congrArg A.symbols.get (Fin.ext hIndex)
  rw [digit?, hSymbol, List.idxOf?_eq_some_iff]
  refine ⟨hDigit, rfl, ?_⟩
  intro earlier hEarlier hSame
  exact Nat.ne_of_lt hEarlier (A.nodup.getElem_inj_iff.mp hSame)

theorem mapM_digit?_symbol [BEq α] [LawfulBEq α] {digits : List Nat}
    (hDigits : ∀ digit ∈ digits, digit < A.radix) :
    (digits.map A.symbol).mapM A.digit? = some digits := by
  induction digits with
  | nil => rfl
  | cons digit rest ih =>
    rw [List.forall_mem_cons] at hDigits
    rw [List.map_cons, List.mapM_cons, A.digit?_symbol hDigits.1, ih hDigits.2]
    rfl

/-- The digits of a number do not start with a zero. -/
theorem takeWhile_digits (count value : Nat) :
    (List.replicate count 0 ++ (Nat.digits A.radix value).reverse).takeWhile (· == 0) =
      List.replicate count 0 := by
  rw [List.takeWhile_append_of_pos (by simp)]
  suffices hNone : (Nat.digits A.radix value).reverse.takeWhile (· == 0) = [] by
    rw [hNone, List.append_nil]
  rw [List.takeWhile_eq_nil_iff]
  intro hSome hZero
  have hValue : value ≠ 0 := by
    rintro rfl
    simp at hSome
  have hLast := Nat.getLast_digit_ne_zero A.radix hValue
  rw [List.get_mk_zero, List.head_reverse] at hZero
  exact hLast (beq_iff_eq.mp hZero)

theorem replicate_zeros (bytes : List UInt8) :
    List.replicate (zeros bytes) 0 = bytes.takeWhile (· == 0) := by
  symm
  rw [List.eq_replicate_iff]
  refine ⟨rfl, ?_⟩
  intro byte hMem
  exact beq_iff_eq.mp (List.mem_takeWhile_imp (p := (· == 0)) hMem)

/-- The bytes are read back. -/
theorem decode_encode [BEq α] [LawfulBEq α] (bytes : List UInt8) :
    A.decode (A.encode bytes) = some bytes := by
  have hRadix : 1 < A.radix := A.several
  have hDigits : ∀ digit ∈ List.replicate (zeros bytes) 0 ++
      (Nat.digits A.radix (beValue bytes)).reverse, digit < A.radix := by
    intro digit hMem
    rcases List.mem_append.mp hMem with hZero | hDigit
    · rw [List.eq_of_mem_replicate hZero]
      exact Nat.zero_lt_of_lt hRadix
    · exact Nat.digits_lt_base hRadix (List.mem_reverse.mp hDigit)
  have hValue : Nat.ofDigits A.radix (List.replicate (zeros bytes) 0 ++
      (Nat.digits A.radix (beValue bytes)).reverse).reverse = beValue bytes := by
    rw [List.reverse_append, List.reverse_reverse, List.reverse_replicate,
      Nat.ofDigits_append_replicate_zero, Nat.ofDigits_digits]
  rw [decode, encode_eq_map, A.mapM_digit?_symbol hDigits, Option.map_some, takeWhile_digits,
    hValue, List.length_replicate, replicate_zeros, ← beValue_dropWhile,
    minBytes_beValue (minimal_dropWhile bytes), List.takeWhile_append_dropWhile]

/-! ## Length and first symbol -/

/-- A byte string whose number lies between two multiples of a power starts with the digit of
the lower one. -/
theorem encode_of_range {bytes : List UInt8} {digit places : Nat} (hFirst : Minimal bytes)
    (hPos : 0 < digit) (hDigit : digit < A.radix)
    (hLow : digit * A.radix ^ places ≤ beValue bytes)
    (hHigh : beValue bytes < (digit + 1) * A.radix ^ places) :
    ∃ rest, A.encode bytes = A.symbol digit :: rest ∧ rest.length = places := by
  have hRadix : 1 < A.radix := A.several
  have hPower : 0 < A.radix ^ places := Nat.pow_pos (Nat.zero_lt_of_lt hRadix)
  have hLong : places < (Nat.digits A.radix (beValue bytes)).length := by
    rw [Nat.lt_digits_length_iff hRadix]
    exact Nat.le_trans (Nat.le_mul_of_pos_left _ hPos) hLow
  have hShort : (Nat.digits A.radix (beValue bytes)).length ≤ places + 1 := by
    rw [Nat.digits_length_le_iff hRadix, Nat.pow_succ, Nat.mul_comm]
    exact Nat.lt_of_lt_of_le hHigh (Nat.mul_le_mul_right _ hDigit)
  have hLength : (Nat.digits A.radix (beValue bytes)).length = places + 1 := by omega
  have hTop : (Nat.digits A.radix (beValue bytes)).getD places 0 = digit := by
    rw [Nat.getD_digits _ _ hRadix, Nat.div_eq_of_lt_le hLow hHigh]
    exact Nat.mod_eq_of_lt hDigit
  have hNoZero : zeros bytes = 0 := by
    cases bytes with
    | nil => rfl
    | cons byte rest =>
      unfold zeros
      rw [List.takeWhile_cons_of_neg, List.length_nil]
      intro hZero
      exact hFirst (congrArg some (beq_iff_eq.mp hZero))
  rcases List.eq_nil_or_concat' (Nat.digits A.radix (beValue bytes)) with hNil | ⟨low, top, hSplit⟩
  · rw [hNil, List.length_nil] at hLength
    omega
  · rw [hSplit, List.length_append, List.length_singleton] at hLength
    obtain rfl : low.length = places := by omega
    rw [hSplit, List.getD_eq_getElem?_getD, List.getElem?_concat_length] at hTop
    obtain rfl : top = digit := hTop
    refine ⟨(low.map A.symbol).reverse, ?_, ?_⟩
    · rw [encode, hNoZero, hSplit, List.map_append, List.reverse_append]
      rfl
    · rw [List.length_reverse, List.length_map]

end Alphabet

end CipherCli.Library
