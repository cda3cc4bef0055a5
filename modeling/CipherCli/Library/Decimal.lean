import Mathlib.Algebra.Order.Ring.Nat
import Mathlib.Data.List.DropRight

/-!
# Decimal digits

Strings of decimal digits as numbers: padding with zeros on either side, cutting
and trimming. The fraction of a fixed-point number is written in a fixed number of
places, trimmed of its last zeros, and read by filling the places up again.
-/

namespace CipherCli.Library

variable {α : Type} [BEq α] [LawfulBEq α]

/-! ## Trimming and padding -/

/-- What is trimmed at the end is a run of one element. -/
theorem rdropWhile_append_replicate (a : α) (xs : List α) :
    ∃ trimmed, xs = xs.rdropWhile (· == a) ++ List.replicate trimmed a := by
  refine ⟨(xs.rtakeWhile (· == a)).length, ?_⟩
  have hRun : xs.rtakeWhile (· == a) = List.replicate (xs.rtakeWhile (· == a)).length a := by
    apply List.eq_replicate_iff.mpr
    refine ⟨rfl, fun x hMem => ?_⟩
    have hSame := List.mem_rtakeWhile_imp hMem
    exact eq_of_beq hSame
  rw [← hRun, List.rdropWhile_append_rtakeWhile]

/-- Padding gives back what trimming took, also when both are cut after `k` places. -/
theorem rightpad_take_rdropWhile (a : α) (xs : List α) (k : Nat) :
    ((xs.rdropWhile (· == a)).take k).rightpad xs.length a =
      (xs.take k).rightpad xs.length a := by
  obtain ⟨trimmed, hSplit⟩ := rdropWhile_append_replicate a xs
  generalize xs.rdropWhile (· == a) = kept at hSplit
  subst hSplit
  rcases Nat.le_total k kept.length with hInside | hBeyond
  · rw [List.take_append_of_le_length hInside]
  · have hRest : (kept ++ List.replicate trimmed a).take k =
        kept ++ List.replicate (min (k - kept.length) trimmed) a := by
      rw [List.take_append, List.take_of_length_le hBeyond, List.take_replicate]
    rw [List.take_of_length_le hBeyond, hRest]
    simp only [List.rightpad, List.length_append, List.length_replicate, List.append_assoc,
      List.replicate_append_replicate]
    congr 2
    omega

omit [BEq α] [LawfulBEq α] in
theorem length_rightpad (n : Nat) (a : α) (xs : List α) :
    (xs.rightpad n a).length = max n xs.length := by
  simp only [List.rightpad, List.length_append, List.length_replicate]
  omega

omit [BEq α] [LawfulBEq α] in
theorem take_rightpad (n : Nat) (a : α) (xs : List α) :
    (xs.rightpad n a).take n = (xs.take n).rightpad n a := by
  rcases Nat.le_total n xs.length with hLong | hShort
  · have hFull : (xs.take n).length = n := List.length_take_of_le hLong
    simp only [List.rightpad, List.take_append_of_le_length hLong, hFull, Nat.sub_self,
      List.replicate_zero, List.append_nil]
  · have hLength : (xs.rightpad n a).length = n := by
      rw [length_rightpad]
      exact Nat.max_eq_left hShort
    rw [List.take_of_length_le hShort, List.take_of_length_le (Nat.le_of_eq hLength)]

/-! ## Values -/

theorem ofDigitChars_leftpad (width : Nat) (digits : List Char) :
    Nat.ofDigitChars 10 (digits.leftpad width '0') 0 = Nat.ofDigitChars 10 digits 0 := by
  rw [List.leftpad, Nat.ofDigitChars_append, Nat.ofDigitChars_replicate_zero, Nat.mul_zero]

theorem ofDigitChars_rightpad (width : Nat) (digits : List Char) :
    Nat.ofDigitChars 10 (digits.rightpad width '0') 0 =
      Nat.ofDigitChars 10 digits 0 * 10 ^ (width - digits.length) := by
  rw [List.rightpad, Nat.ofDigitChars_append, Nat.ofDigitChars_replicate_zero, Nat.mul_comm]

theorem ofDigitChars_toDigits (n : Nat) : Nat.ofDigitChars 10 (Nat.toDigits 10 n) 0 = n :=
  Nat.ofDigitChars_toDigits (by omega) (by omega)

theorem ofDigitChars_lt {digits : List Char} (hDigits : ∀ c ∈ digits, c.isDigit) :
    Nat.ofDigitChars 10 digits 0 < 10 ^ digits.length := by
  induction digits using List.reverseRecOn with
  | nil => exact Nat.one_pos
  | append_singleton digits last ih =>
    have hShorter := ih fun c hMem => hDigits c (List.mem_append_left _ hMem)
    have hLast := hDigits last (List.mem_append_right _ List.mem_cons_self)
    obtain ⟨-, hNine⟩ := Char.isDigit_iff_toNat.mp hLast
    rw [Nat.ofDigitChars_append, Nat.ofDigitChars_cons, Nat.ofDigitChars_nil, List.length_append,
      List.length_singleton, Nat.pow_succ]
    change last.toNat ≤ 57 at hNine
    change 10 * Nat.ofDigitChars 10 digits 0 + (last.toNat - 48) < _
    omega

theorem eq_of_toString_eq {m n : Nat} (hSame : toString m = toString n) : m = n := by
  have hDigits : Nat.toDigits 10 m = Nat.toDigits 10 n := String.ofList_injective hSame
  rw [← ofDigitChars_toDigits m, hDigits, ofDigitChars_toDigits]

/-- The first `k` digits are the number without its last places. -/
theorem ofDigitChars_take {digits : List Char} (hDigits : ∀ c ∈ digits, c.isDigit) (k : Nat) :
    Nat.ofDigitChars 10 (digits.take k) 0 =
      Nat.ofDigitChars 10 digits 0 / 10 ^ (digits.length - k) := by
  have hLow := @ofDigitChars_lt (digits.drop k) fun c hMem => hDigits c (List.mem_of_mem_drop hMem)
  have hValue : Nat.ofDigitChars 10 digits 0 = 10 ^ (digits.drop k).length *
      Nat.ofDigitChars 10 (digits.take k) 0 + Nat.ofDigitChars 10 (digits.drop k) 0 := by
    rw [← Nat.ofDigitChars_eq_ofDigitChars_zero, ← Nat.ofDigitChars_append,
      List.take_append_drop]
  rw [← List.length_drop, hValue, Nat.mul_add_div (Nat.pos_of_neZero _), Nat.div_eq_of_lt hLow,
    Nat.add_zero]

/-! ## Fractions -/

/-- The places of a fraction, filled up on the left. -/
def fractionPlaces (places n : Nat) : List Char := (Nat.toDigits 10 n).leftpad places '0'

/-- The places of a fraction without its last zeros. -/
def fractionDigits (places n : Nat) : List Char :=
  (fractionPlaces places n).rdropWhile (· == '0')

/-- The fraction that digits after a point denote, in units of the last place. -/
def readFraction (places : Nat) (digits : List Char) : Nat :=
  Nat.ofDigitChars 10 (digits.rightpad places '0') 0

theorem fractionPlaces_isDigit (places n : Nat) : ∀ c ∈ fractionPlaces places n, c.isDigit := by
  intro c hMem
  rcases List.mem_append.mp hMem with hZero | hDigit
  · rw [List.eq_of_mem_replicate hZero]
    rfl
  · exact Nat.isDigit_of_mem_toDigits (by omega) (by omega) hDigit

theorem fractionPlaces_length {places n : Nat} (hPlaces : 0 < places) (hFits : n < 10 ^ places) :
    (fractionPlaces places n).length = places := by
  have hShort := (Nat.length_toDigits_le_iff (by omega) hPlaces).mpr hFits
  simp only [fractionPlaces, List.leftpad, List.length_append, List.length_replicate]
  omega

theorem ofDigitChars_fractionPlaces (places n : Nat) :
    Nat.ofDigitChars 10 (fractionPlaces places n) 0 = n := by
  rw [fractionPlaces, ofDigitChars_leftpad, ofDigitChars_toDigits]

theorem fractionDigits_subset (places n : Nat) :
    fractionDigits places n ⊆ fractionPlaces places n :=
  (List.rdropWhile_prefix _ _).subset

theorem fractionDigits_isDigit (places n : Nat) : ∀ c ∈ fractionDigits places n, c.isDigit :=
  fun c hMem => fractionPlaces_isDigit places n c (fractionDigits_subset places n hMem)

theorem fractionDigits_length_le {places n : Nat} (hPlaces : 0 < places)
    (hFits : n < 10 ^ places) : (fractionDigits places n).length ≤ places := by
  have hPrefix := (List.rdropWhile_prefix (· == '0') (fractionPlaces places n)).length_le
  rwa [fractionPlaces_length hPlaces hFits] at hPrefix

/-- A fraction that is cut after `k` places is rounded down to them. -/
theorem readFraction_take_fractionDigits {places n : Nat} (hPlaces : 0 < places)
    (hFits : n < 10 ^ places) {k : Nat} (hCut : k ≤ places) :
    readFraction places ((fractionDigits places n).take k) = n - n % 10 ^ (places - k) := by
  have hLength := fractionPlaces_length hPlaces hFits
  have hPad := rightpad_take_rdropWhile '0' (fractionPlaces places n) k
  have hTake : ((fractionPlaces places n).take k).length = k := by
    rw [List.length_take, hLength]
    exact Nat.min_eq_left hCut
  rw [hLength] at hPad
  calc readFraction places ((fractionDigits places n).take k)
      = readFraction places ((fractionPlaces places n).take k) :=
        congrArg (Nat.ofDigitChars 10 · 0) hPad
    _ = n / 10 ^ (places - k) * 10 ^ (places - k) := by
        rw [readFraction, ofDigitChars_rightpad, hTake,
          ofDigitChars_take (fractionPlaces_isDigit places n), hLength,
          ofDigitChars_fractionPlaces]
    _ = n - n % 10 ^ (places - k) := by
        have hSplit := Nat.div_add_mod' n (10 ^ (places - k))
        omega

/-- A fraction is read back from its digits. -/
theorem readFraction_fractionDigits {places n : Nat} (hPlaces : 0 < places)
    (hFits : n < 10 ^ places) : readFraction places (fractionDigits places n) = n := by
  have hAll := readFraction_take_fractionDigits hPlaces hFits (Nat.le_refl places)
  rwa [List.take_of_length_le (fractionDigits_length_le hPlaces hFits), Nat.sub_self,
    Nat.pow_zero, Nat.mod_one, Nat.sub_zero] at hAll

end CipherCli.Library
