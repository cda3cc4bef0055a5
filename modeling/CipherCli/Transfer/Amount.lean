import CipherCli.Basic
import CipherCli.Library.Decimal

/-!
# Amounts of a transfer

`parse_tks_amount` of `transfer.rs` on the characters of its argument, against
the decimal grammar that it is meant to accept. The integer parser of the
standard library also takes a plus sign, before the whole part and at the head
of the padded fraction, where it stands in the place of a digit.
-/

namespace CipherCli.Transfer

open Library

/-- One leading plus sign is taken off. -/
def stripPlus : List Char → List Char
  | '+' :: rest => rest
  | text => text

/-- `text.parse::<u128>()`. -/
def parseU128 (text : List Char) : Option Nat :=
  let digits := stripPlus text
  let value := Nat.ofDigitChars 10 digits 0
  if digits ≠ [] ∧ digits.all Char.isDigit ∧ value < 2 ^ 128 then some value else none

/-- The result of `checked_mul` and `checked_add` on `u128`. -/
def checkedU128 (n : Nat) : Option Nat := if n < 2 ^ 128 then some n else none

/-- `result.ok_or_else(|| text)`. -/
def okOr (text : String) : Option Nat → Except String Nat
  | none => .error text
  | some n => .ok n

/-- 1_000_000_000_000_000_000, with 18 decimals. -/
def weiPerTks : Nat := 10 ^ 18

/-- `format!("{:0<18}", fraction)`. -/
def padded (fraction : List Char) : List Char :=
  fraction ++ List.replicate (18 - fraction.length) '0'

/-- The whole part in the smallest unit. -/
def parseWhole (whole : List Char) : Except String Nat := do
  let whole ← okOr "Invalid whole number in amount" (parseU128 whole)
  okOr "Amount overflow" (checkedU128 (whole * weiPerTks))

def addFraction (wei : Nat) (fraction : List Char) : Except String Nat := do
  if 18 < (fraction.map Char.utf8Size).sum then .error "Too many decimals (max 18)"
  else
    let frac ← okOr "Invalid fraction in amount" (parseU128 (padded fraction))
    okOr "Amount overflow" (checkedU128 (wei + frac))

def parseTksAmount (amountStr : String) : Except String Nat :=
  let clean := trim amountStr
  if clean = [] then .error "Amount cannot be empty"
  else
    match clean.splitOn '.' with
    | [whole] => parseWhole whole
    | [whole, fraction] =>
      match parseWhole whole with
      | .error error => .error error
      | .ok wei => addFraction wei fraction
    -- more than two parts
    | _ => .error "Invalid number format"

/-! ## The grammar -/

/-- One or more ASCII digits with this value. -/
structure Numeral (digits : List Char) (n : Nat) : Prop where
  nonempty : digits ≠ []
  isDigit : ∀ c ∈ digits, c.isDigit
  value : n = Nat.ofDigitChars 10 digits 0

/-- The value of the digits after a point, in the smallest unit. -/
def fractionValue (fraction : List Char) : Nat :=
  Nat.ofDigitChars 10 fraction 0 * 10 ^ (18 - fraction.length)

/-- The decimal numbers that denote `n` times 10⁻¹⁸. -/
inductive Amount : List Char → Nat → Prop
  | whole {digits : List Char} {n : Nat} : Numeral digits n → Amount digits (n * weiPerTks)
  | fraction {digits fraction : List Char} {n : Nat} : Numeral digits n →
      (∀ c ∈ fraction, c.isDigit) → fraction.length ≤ 18 →
      Amount (digits ++ '.' :: fraction) (n * weiPerTks + fractionValue fraction)

/-- Decimal numbers with a plus sign before the whole part, at the head of the fraction in the
place of a zero, or both. -/
inductive SignedAmount : List Char → Nat → Prop
  | whole {text : List Char} {n : Nat} : Amount text n → SignedAmount ('+' :: text) n
  | fraction {digits fraction : List Char} {n : Nat} : Numeral digits n →
      (∀ c ∈ fraction, c.isDigit) → fraction.length < 18 →
      SignedAmount (digits ++ '.' :: '+' :: fraction)
        (n * weiPerTks + fractionValue ('0' :: fraction))
  | both {digits fraction : List Char} {n : Nat} : Numeral digits n →
      (∀ c ∈ fraction, c.isDigit) → fraction.length < 18 →
      SignedAmount ('+' :: digits ++ '.' :: '+' :: fraction)
        (n * weiPerTks + fractionValue ('0' :: fraction))

/-! ## The parts of an amount -/

theorem point_not_mem {digits : List Char} (hDigits : ∀ c ∈ digits, c.isDigit) : '.' ∉ digits := by
  intro hMem
  have hDigit := hDigits '.' hMem
  simp at hDigit

theorem signed_point_not_mem {digits : List Char} (hDigits : ∀ c ∈ digits, c.isDigit) :
    '.' ∉ '+' :: digits := by
  intro hMem
  rcases List.mem_cons.mp hMem with hSign | hDigit
  · cases hSign
  · exact point_not_mem hDigits hDigit

theorem plus_not_mem {digits : List Char} (hDigits : ∀ c ∈ digits, c.isDigit) : '+' ∉ digits := by
  intro hMem
  have hDigit := hDigits '+' hMem
  simp at hDigit

theorem numeral_toDigits (n : Nat) : Numeral (Nat.toDigits 10 n) n where
  nonempty := Nat.toDigits_ne_nil
  isDigit c hMem := Nat.isDigit_of_mem_toDigits (by omega) (by omega) hMem
  value := (ofDigitChars_toDigits n).symm

theorem numeral_stripPlus_iff (text : List Char) (n : Nat) :
    Numeral (stripPlus text) n ↔
      Numeral text n ∨ ∃ digits, text = '+' :: digits ∧ Numeral digits n := by
  by_cases hPlus : ∃ digits, text = '+' :: digits
  · obtain ⟨digits, rfl⟩ := hPlus
    constructor
    · intro hDigits
      exact Or.inr ⟨digits, rfl, hDigits⟩
    · rintro (hSigned | ⟨_, hSame, hDigits⟩)
      · exact absurd List.mem_cons_self (plus_not_mem hSigned.isDigit)
      · obtain ⟨-, rfl⟩ := List.cons.inj hSame
        exact hDigits
  · have hText : stripPlus text = text := by
      unfold stripPlus
      split
      · rename_i rest
        exact absurd ⟨rest, rfl⟩ hPlus
      · rfl
    rw [hText]
    constructor
    · intro hDigits
      exact Or.inl hDigits
    · rintro (hDigits | ⟨digits, hSame, -⟩)
      · exact hDigits
      · exact absurd ⟨digits, hSame⟩ hPlus

theorem parseU128_eq_some_iff (text : List Char) (n : Nat) :
    parseU128 text = some n ↔ n < 2 ^ 128 ∧ Numeral (stripPlus text) n := by
  unfold parseU128
  dsimp only
  constructor
  · intro hSome
    split at hSome
    · rename_i hDigits
      obtain ⟨hNonempty, hAll, hSmall⟩ := hDigits
      obtain rfl := Option.some.inj hSome
      exact ⟨hSmall, hNonempty, List.all_eq_true.mp hAll, rfl⟩
    · cases hSome
  · rintro ⟨hSmall, hNonempty, hDigits, rfl⟩
    rw [if_pos ⟨hNonempty, List.all_eq_true.mpr hDigits, hSmall⟩]

theorem okOr_checkedU128_eq_ok_iff (text : String) (n wei : Nat) :
    okOr text (checkedU128 n) = .ok wei ↔ wei = n ∧ wei < 2 ^ 128 := by
  unfold checkedU128
  by_cases hSmall : n < 2 ^ 128
  · rw [if_pos hSmall]
    constructor
    · intro hOk
      obtain rfl := Except.ok.inj hOk
      exact ⟨rfl, hSmall⟩
    · rintro ⟨rfl, -⟩
      rfl
  · rw [if_neg hSmall]
    constructor
    · intro hOk
      cases hOk
    · rintro ⟨rfl, hSmall'⟩
      exact absurd hSmall' hSmall

theorem okOr_bind_eq_ok_iff (text : String) (result : Option Nat) (next : Nat → Except String Nat)
    (wei : Nat) :
    (okOr text result >>= next) = .ok wei ↔ ∃ n, result = some n ∧ next n = .ok wei := by
  cases result with
  | none =>
    constructor
    · intro hOk
      cases hOk
    · rintro ⟨n, hSome, -⟩
      cases hSome
  | some n =>
    constructor
    · intro hOk
      exact ⟨n, rfl, hOk⟩
    · rintro ⟨_, hSame, hOk⟩
      obtain rfl := Option.some.inj hSame
      exact hOk

theorem parseWhole_eq_ok_iff (whole : List Char) (wei : Nat) :
    parseWhole whole = .ok wei ↔
      ∃ n, parseU128 whole = some n ∧ wei = n * weiPerTks ∧ wei < 2 ^ 128 := by
  unfold parseWhole
  rw [okOr_bind_eq_ok_iff]
  simp only [okOr_checkedU128_eq_ok_iff]

theorem addFraction_eq_ok_iff (wei : Nat) (fraction : List Char) (n : Nat) :
    addFraction wei fraction = .ok n ↔
      (fraction.map Char.utf8Size).sum ≤ 18 ∧
        ∃ frac, parseU128 (padded fraction) = some frac ∧ n = wei + frac ∧ n < 2 ^ 128 := by
  unfold addFraction
  by_cases hLong : 18 < (fraction.map Char.utf8Size).sum
  · rw [if_pos hLong]
    constructor
    · intro hOk
      cases hOk
    · rintro ⟨hShort, -⟩
      omega
  · rw [if_neg hLong, okOr_bind_eq_ok_iff]
    simp only [okOr_checkedU128_eq_ok_iff]
    exact (and_iff_right (Nat.not_lt.mp hLong)).symm

/-! ## The fraction -/

theorem not_whitespace_of_digit {c : Char} (hDigit : c.isDigit) : isWhitespace c = false := by
  obtain ⟨hZero, hNine⟩ := Char.isDigit_iff_toNat.mp hDigit
  change 48 ≤ c.toNat at hZero
  change c.toNat ≤ 57 at hNine
  simp only [isWhitespace, List.mem_cons, List.not_mem_nil, or_false, Bool.or_eq_false_iff,
    Bool.and_eq_false_iff, decide_eq_false_iff_not]
  omega

theorem utf8Size_digit {c : Char} (hDigit : c.isDigit) : c.utf8Size = 1 := by
  obtain ⟨-, hNine⟩ := Char.isDigit_iff_toNat.mp hDigit
  rw [Char.utf8Size_eq_one_iff, UInt32.le_iff_toNat_le]
  exact Nat.le_trans hNine (by decide)

theorem byteLength_of_ascii {cs : List Char} (hAscii : ∀ c ∈ cs, c.utf8Size = 1) :
    (cs.map Char.utf8Size).sum = cs.length := by
  have hOnes : cs.map Char.utf8Size = List.replicate cs.length 1 := by
    apply List.eq_replicate_iff.mpr
    refine ⟨List.length_map _, ?_⟩
    intro size hMem
    obtain ⟨c, hChar, rfl⟩ := List.mem_map.mp hMem
    exact hAscii c hChar
  rw [hOnes, List.sum_replicate_nat, Nat.mul_one]

theorem byteLength_digits {digits : List Char} (hDigits : ∀ c ∈ digits, c.isDigit) :
    (digits.map Char.utf8Size).sum = digits.length :=
  byteLength_of_ascii fun c hMem => utf8Size_digit (hDigits c hMem)

theorem numeral_padded_iff (digits : List Char) (missing n : Nat)
    (hSome : digits ++ List.replicate missing '0' ≠ []) :
    Numeral (digits ++ List.replicate missing '0') n ↔
      (∀ c ∈ digits, c.isDigit) ∧ n = Nat.ofDigitChars 10 digits 0 * 10 ^ missing := by
  have hValue : Nat.ofDigitChars 10 (digits ++ List.replicate missing '0') 0 =
      Nat.ofDigitChars 10 digits 0 * 10 ^ missing := by
    rw [Nat.ofDigitChars_append, Nat.ofDigitChars_replicate_zero, Nat.mul_comm]
  constructor
  · rintro ⟨-, hDigits, rfl⟩
    exact ⟨fun c hMem => hDigits c (List.mem_append_left _ hMem), hValue⟩
  · rintro ⟨hDigits, rfl⟩
    refine ⟨hSome, ?_, hValue.symm⟩
    intro c hMem
    rcases List.mem_append.mp hMem with hDigit | hZero
    · exact hDigits c hDigit
    · rw [List.eq_of_mem_replicate hZero]
      rfl

/-- A fraction that is read: digits, or a plus sign in the place of a first zero. -/
theorem numeral_stripPlus_padded_iff {fraction : List Char} (hShort : fraction.length ≤ 18)
    (n : Nat) :
    Numeral (stripPlus (padded fraction)) n ↔
      ((∀ c ∈ fraction, c.isDigit) ∧ n = fractionValue fraction) ∨
      ∃ rest, fraction = '+' :: rest ∧ (∀ c ∈ rest, c.isDigit) ∧
        n = fractionValue ('0' :: rest) := by
  by_cases hPlus : ∃ rest, fraction = '+' :: rest
  · obtain ⟨rest, rfl⟩ := hPlus
    have hStrip : stripPlus (padded ('+' :: rest)) =
        rest ++ List.replicate (18 - ('0' :: rest).length) '0' := rfl
    have hZero : Nat.ofDigitChars 10 ('0' :: rest) 0 = Nat.ofDigitChars 10 rest 0 := rfl
    have hSome : rest ++ List.replicate (18 - ('0' :: rest).length) '0' ≠ [] := by
      intro hNone
      have hLength := congrArg List.length hNone
      rw [List.length_append, List.length_replicate, List.length_cons, List.length_nil] at hLength
      omega
    rw [hStrip, numeral_padded_iff rest _ n hSome]
    constructor
    · rintro ⟨hDigits, hValue⟩
      refine Or.inr ⟨rest, rfl, hDigits, ?_⟩
      rw [fractionValue, hZero, hValue]
    · rintro (⟨hDigits, -⟩ | ⟨_, hSame, hDigits, hValue⟩)
      · exact absurd List.mem_cons_self (plus_not_mem hDigits)
      · obtain ⟨-, rfl⟩ := List.cons.inj hSame
        rw [fractionValue, hZero] at hValue
        exact ⟨hDigits, hValue⟩
  · have hStrip : stripPlus (padded fraction) = padded fraction := by
      cases fraction with
      | nil => rfl
      | cons first rest =>
        unfold stripPlus
        split
        · rename_i found hFound
          obtain ⟨rfl, -⟩ := List.cons.inj hFound
          exact absurd ⟨rest, rfl⟩ hPlus
        · rfl
    have hSome : fraction ++ List.replicate (18 - fraction.length) '0' ≠ [] := by
      intro hNone
      have hLength := congrArg List.length hNone
      rw [List.length_append, List.length_replicate, List.length_nil] at hLength
      omega
    rw [hStrip, padded, numeral_padded_iff fraction _ n hSome]
    constructor
    · intro hDigits
      exact Or.inl hDigits
    · rintro (hDigits | ⟨rest, hSame, -⟩)
      · exact hDigits
      · exact absurd ⟨rest, hSame⟩ hPlus

/-! ## What is accepted -/

/-- What a whole part denotes to the parser. -/
theorem parseWhole_reads_iff (whole : List Char) (wei : Nat) :
    parseWhole whole = .ok wei ↔
      wei < 2 ^ 128 ∧ ∃ n, wei = n * weiPerTks ∧
        (Numeral whole n ∨ ∃ digits, whole = '+' :: digits ∧ Numeral digits n) := by
  rw [parseWhole_eq_ok_iff]
  constructor
  · rintro ⟨n, hParse, hValue, hSmall⟩
    obtain ⟨-, hNumeral⟩ := (parseU128_eq_some_iff _ _).mp hParse
    exact ⟨hSmall, n, hValue, (numeral_stripPlus_iff _ _).mp hNumeral⟩
  · rintro ⟨hSmall, n, hValue, hNumeral⟩
    have hFits : n < 2 ^ 128 := by
      have hUnit : 0 < weiPerTks := by decide
      exact Nat.lt_of_le_of_lt (Nat.le_mul_of_pos_right n hUnit) (hValue ▸ hSmall)
    exact ⟨n, (parseU128_eq_some_iff _ _).mpr ⟨hFits, (numeral_stripPlus_iff _ _).mpr hNumeral⟩,
      hValue, hSmall⟩

/-- What a fraction adds, as the parser reads it. -/
inductive FractionReads : List Char → Nat → Prop
  | digits {fraction : List Char} : (∀ c ∈ fraction, c.isDigit) → fraction.length ≤ 18 →
      FractionReads fraction (fractionValue fraction)
  | plus {fraction : List Char} : (∀ c ∈ fraction, c.isDigit) → fraction.length < 18 →
      FractionReads ('+' :: fraction) (fractionValue ('0' :: fraction))

theorem FractionReads.length_le {fraction : List Char} {frac : Nat}
    (hReads : FractionReads fraction frac) : fraction.length ≤ 18 := by
  cases hReads with
  | digits _ hShort => exact hShort
  | plus _ hShort => exact hShort

theorem FractionReads.ascii {fraction : List Char} {frac : Nat}
    (hReads : FractionReads fraction frac) : ∀ c ∈ fraction, c.utf8Size = 1 := by
  intro c hMem
  cases hReads with
  | digits hDigits _ => exact utf8Size_digit (hDigits c hMem)
  | plus hDigits _ =>
    rcases List.mem_cons.mp hMem with rfl | hDigit
    · rfl
    · exact utf8Size_digit (hDigits c hDigit)

theorem addFraction_reads_iff (wei : Nat) (fraction : List Char) (n : Nat) :
    addFraction wei fraction = .ok n ↔
      n < 2 ^ 128 ∧ ∃ frac, n = wei + frac ∧ FractionReads fraction frac := by
  rw [addFraction_eq_ok_iff]
  constructor
  · rintro ⟨hBytes, frac, hParse, hValue, hSmall⟩
    obtain ⟨-, hPadded⟩ := (parseU128_eq_some_iff _ _).mp hParse
    have hShort := Nat.le_trans (length_le_byteLength fraction) hBytes
    refine ⟨hSmall, frac, hValue, ?_⟩
    rcases (numeral_stripPlus_padded_iff hShort _).mp hPadded with
      ⟨hDigits, rfl⟩ | ⟨rest, rfl, hDigits, rfl⟩
    · exact FractionReads.digits hDigits hShort
    · exact FractionReads.plus hDigits hShort
  · rintro ⟨hSmall, frac, hValue, hReads⟩
    have hFits : frac < 2 ^ 128 := by omega
    cases hReads with
    | digits hDigits hShort =>
      have hPadded := (numeral_stripPlus_padded_iff hShort _).mpr (Or.inl ⟨hDigits, rfl⟩)
      refine ⟨?_, _, (parseU128_eq_some_iff _ _).mpr ⟨hFits, hPadded⟩, hValue, hSmall⟩
      rw [byteLength_digits hDigits]
      exact hShort
    | @plus rest hDigits hShort =>
      have hLength : ('+' :: rest).length ≤ 18 := hShort
      have hPadded := (numeral_stripPlus_padded_iff hLength _).mpr
        (Or.inr ⟨rest, rfl, hDigits, rfl⟩)
      refine ⟨?_, _, (parseU128_eq_some_iff _ _).mpr ⟨hFits, hPadded⟩, hValue, hSmall⟩
      have hSign : Char.utf8Size '+' = 1 := rfl
      rw [List.map_cons, List.sum_cons, byteLength_digits hDigits, hSign]
      omega

theorem append_point_inj {whole whole' fraction fraction' : List Char} (hWhole : '.' ∉ whole)
    (hWhole' : '.' ∉ whole') (hFraction : '.' ∉ fraction)
    (hSame : whole ++ '.' :: fraction = whole' ++ '.' :: fraction') :
    whole' = whole ∧ fraction'.splitOn '.' = [fraction] := by
  have hParts := congrArg (List.splitOn '.') hSame
  rw [List.splitOn_append_cons_self_of_not_mem hWhole,
    List.splitOn_append_cons_self_of_not_mem hWhole', List.splitOn_eq_singleton hFraction] at hParts
  obtain ⟨rfl, hRest⟩ := List.cons.inj hParts
  exact ⟨rfl, hRest.symm⟩

/-- The two shapes of an accepted string: one part, or two parts around the point. -/
def PartsRead (text : List Char) (n : Nat) : Prop :=
  ('.' ∉ text ∧ parseWhole text = .ok n) ∨
    ∃ whole fraction wei, text = whole ++ '.' :: fraction ∧ '.' ∉ whole ∧ '.' ∉ fraction ∧
      parseWhole whole = .ok wei ∧ addFraction wei fraction = .ok n

theorem partsRead_of_no_point {text : List Char} (hPoint : '.' ∉ text) (n : Nat) :
    PartsRead text n ↔ parseWhole text = .ok n := by
  constructor
  · rintro (⟨-, hOk⟩ | ⟨whole, fraction, wei, rfl, -⟩)
    · exact hOk
    · exact absurd (List.mem_append_right whole List.mem_cons_self) hPoint
  · intro hOk
    exact Or.inl ⟨hPoint, hOk⟩

theorem partsRead_of_point {whole fraction : List Char} (hWhole : '.' ∉ whole)
    (hFraction : '.' ∉ fraction) (n : Nat) :
    PartsRead (whole ++ '.' :: fraction) n ↔
      ∃ wei, parseWhole whole = .ok wei ∧ addFraction wei fraction = .ok n := by
  constructor
  · rintro (⟨hNone, -⟩ | ⟨whole', fraction', wei, hText, hWhole', hFraction', hOk, hAdd⟩)
    · exact absurd (List.mem_append_right whole List.mem_cons_self) hNone
    · obtain ⟨rfl, hParts⟩ := append_point_inj hWhole' hWhole hFraction' hText.symm
      rw [List.splitOn_eq_singleton hFraction] at hParts
      obtain ⟨rfl, -⟩ := List.cons.inj hParts
      exact ⟨wei, hOk, hAdd⟩
  · rintro ⟨wei, hOk, hAdd⟩
    exact Or.inr ⟨whole, fraction, wei, rfl, hWhole, hFraction, hOk, hAdd⟩

/-- There is at most one point. -/
theorem not_partsRead_of_points {whole rest : List Char} (hWhole : '.' ∉ whole)
    (hPoint : '.' ∈ rest) (n : Nat) : ¬ PartsRead (whole ++ '.' :: rest) n := by
  rintro (⟨hNone, -⟩ | ⟨whole', fraction', wei, hText, hWhole', hFraction', -⟩)
  · exact hNone (List.mem_append_right whole List.mem_cons_self)
  · obtain ⟨-, hParts⟩ := append_point_inj hWhole' hWhole hFraction' hText.symm
    obtain ⟨middle, last, rfl, hMiddle⟩ := List.eq_append_cons_of_mem hPoint
    rw [List.splitOn_append_cons_self_of_not_mem hMiddle] at hParts
    exact List.splitOn_ne_nil '.' last (List.cons.inj hParts).2

theorem parseTksAmount_eq_ok_iff_parts (amountStr : String) (n : Nat) :
    parseTksAmount amountStr = .ok n ↔ PartsRead (trim amountStr) n := by
  unfold parseTksAmount
  dsimp only
  generalize trim amountStr = text
  by_cases hNil : text = []
  · subst hNil
    rw [if_pos rfl, partsRead_of_no_point List.not_mem_nil]
    apply iff_of_false
    · intro hOk
      cases hOk
    · intro hOk
      cases hOk
  · rw [if_neg hNil]
    by_cases hPoint : '.' ∈ text
    · obtain ⟨whole, rest, rfl, hWhole⟩ := List.eq_append_cons_of_mem hPoint
      rw [List.splitOn_append_cons_self_of_not_mem hWhole]
      by_cases hSecond : '.' ∈ rest
      · -- at least three parts
        refine iff_of_false ?_ (not_partsRead_of_points hWhole hSecond n)
        obtain ⟨middle, last, rfl, hMiddle⟩ := List.eq_append_cons_of_mem hSecond
        rw [List.splitOn_append_cons_self_of_not_mem hMiddle]
        obtain ⟨third, others, hThird⟩ := List.exists_cons_of_ne_nil (List.splitOn_ne_nil '.' last)
        rw [hThird]
        intro hOk
        cases hOk
      · rw [List.splitOn_eq_singleton hSecond, partsRead_of_point hWhole hSecond]
        dsimp only
        cases parseWhole whole with
        | error error => simp
        | ok wei => simp
    · rw [List.splitOn_eq_singleton hPoint, partsRead_of_no_point hPoint]

/-- A whole part and a fraction that are read make up an accepted string. -/
theorem partsRead_of_reads {whole fraction : List Char} {n frac : Nat}
    (hSmall : n * weiPerTks + frac < 2 ^ 128) (hWhole : '.' ∉ whole) (hFraction : '.' ∉ fraction)
    (hNumeral : Numeral whole n ∨ ∃ digits, whole = '+' :: digits ∧ Numeral digits n)
    (hReads : FractionReads fraction frac) :
    PartsRead (whole ++ '.' :: fraction) (n * weiPerTks + frac) := by
  have hWei : n * weiPerTks < 2 ^ 128 := by omega
  exact Or.inr ⟨whole, fraction, n * weiPerTks, rfl, hWhole, hFraction,
    (parseWhole_reads_iff _ _).mpr ⟨hWei, n, rfl, hNumeral⟩,
    (addFraction_reads_iff _ _ _).mpr ⟨hSmall, frac, rfl, hReads⟩⟩

/-- Accepted are the amounts below 2¹²⁸, with or without plus signs. -/
theorem parseTksAmount_eq_ok_iff (amountStr : String) (n : Nat) :
    parseTksAmount amountStr = .ok n ↔
      n < 2 ^ 128 ∧ (Amount (trim amountStr) n ∨ SignedAmount (trim amountStr) n) := by
  rw [parseTksAmount_eq_ok_iff_parts]
  generalize trim amountStr = text
  constructor
  · rintro (⟨hPoint, hWhole⟩ | ⟨whole, fraction, wei, rfl, hWholePoint, hPoint, hWhole, hFraction⟩)
    · obtain ⟨hSmall, value, rfl, hPlain | ⟨digits, rfl, hDigits⟩⟩ :=
        (parseWhole_reads_iff _ _).mp hWhole
      · exact ⟨hSmall, Or.inl (Amount.whole hPlain)⟩
      · exact ⟨hSmall, Or.inr (SignedAmount.whole (Amount.whole hDigits))⟩
    · obtain ⟨-, value, rfl, hNumeral⟩ := (parseWhole_reads_iff _ _).mp hWhole
      obtain ⟨hSmall, frac, rfl, hReads⟩ := (addFraction_reads_iff _ _ _).mp hFraction
      refine ⟨hSmall, ?_⟩
      cases hReads with
      | digits hDigits hShort =>
        rcases hNumeral with hPlain | ⟨digits, rfl, hPlain⟩
        · exact Or.inl (Amount.fraction hPlain hDigits hShort)
        · exact Or.inr (SignedAmount.whole (Amount.fraction hPlain hDigits hShort))
      | plus hDigits hShort =>
        rcases hNumeral with hPlain | ⟨digits, rfl, hPlain⟩
        · exact Or.inr (SignedAmount.fraction hPlain hDigits hShort)
        · exact Or.inr (SignedAmount.both hPlain hDigits hShort)
  · rintro ⟨hSmall, hAmount | hSigned⟩
    · cases hAmount with
      | whole hPlain =>
        exact Or.inl ⟨point_not_mem hPlain.isDigit,
          (parseWhole_reads_iff _ _).mpr ⟨hSmall, _, rfl, Or.inl hPlain⟩⟩
      | fraction hPlain hDigits hShort =>
        exact partsRead_of_reads hSmall (point_not_mem hPlain.isDigit) (point_not_mem hDigits)
          (Or.inl hPlain) (FractionReads.digits hDigits hShort)
    · cases hSigned with
      | whole hAmount =>
        cases hAmount with
        | whole hPlain =>
          exact Or.inl ⟨signed_point_not_mem hPlain.isDigit,
            (parseWhole_reads_iff _ _).mpr ⟨hSmall, _, rfl, Or.inr ⟨_, rfl, hPlain⟩⟩⟩
        | @fraction digits fraction _ hPlain hDigits hShort =>
          exact @partsRead_of_reads ('+' :: digits) fraction _ _ hSmall
            (signed_point_not_mem hPlain.isDigit) (point_not_mem hDigits) (Or.inr ⟨_, rfl, hPlain⟩)
            (FractionReads.digits hDigits hShort)
      | fraction hPlain hDigits hShort =>
        exact partsRead_of_reads hSmall (point_not_mem hPlain.isDigit)
          (signed_point_not_mem hDigits) (Or.inl hPlain) (FractionReads.plus hDigits hShort)
      | both hPlain hDigits hShort =>
        exact partsRead_of_reads hSmall (signed_point_not_mem hPlain.isDigit)
          (signed_point_not_mem hDigits) (Or.inr ⟨_, rfl, hPlain⟩)
          (FractionReads.plus hDigits hShort)

theorem Amount.unsigned {text : List Char} {n : Nat} (hAmount : Amount text n) : '+' ∉ text := by
  cases hAmount with
  | whole hPlain => exact plus_not_mem hPlain.isDigit
  | fraction hPlain hDigits hShort =>
    intro hMem
    rcases List.mem_append.mp hMem with hWhole | hRest
    · exact plus_not_mem hPlain.isDigit hWhole
    · rcases List.mem_cons.mp hRest with hPoint | hFraction
      · cases hPoint
      · exact plus_not_mem hDigits hFraction

theorem SignedAmount.signed {text : List Char} {n : Nat} (hSigned : SignedAmount text n) :
    '+' ∈ text := by
  cases hSigned with
  | whole hAmount => exact List.mem_cons_self
  | fraction hPlain hDigits hShort =>
    exact List.mem_append_right _ (List.mem_cons_of_mem _ List.mem_cons_self)
  | both hPlain hDigits hShort => exact List.mem_cons_self

/-- The parser accepts the amounts below 2¹²⁸ and nothing else exactly for the strings that are
not such an amount with a plus sign. -/
theorem parseTksAmount_correct_iff (amountStr : String) :
    (∀ n, parseTksAmount amountStr = .ok n ↔ Amount (trim amountStr) n ∧ n < 2 ^ 128) ↔
      ¬ ∃ n < 2 ^ 128, SignedAmount (trim amountStr) n := by
  constructor
  · rintro hCorrect ⟨n, hSmall, hSigned⟩
    have hAccepted := (parseTksAmount_eq_ok_iff amountStr n).mpr ⟨hSmall, Or.inr hSigned⟩
    obtain ⟨hAmount, -⟩ := (hCorrect n).mp hAccepted
    exact hAmount.unsigned hSigned.signed
  · intro hUnsigned n
    rw [parseTksAmount_eq_ok_iff]
    constructor
    · rintro ⟨hSmall, hAmount | hSigned⟩
      · exact ⟨hAmount, hSmall⟩
      · exact absurd ⟨n, hSmall, hSigned⟩ hUnsigned
    · rintro ⟨hAmount, hSmall⟩
      exact ⟨hSmall, Or.inl hAmount⟩

/-- `1.+5` is taken for 1.05 TKS. -/
theorem plus_in_fraction_accepted :
    parseTksAmount "1.+5" = .ok 1050000000000000000 ∧
      ¬ ∀ n, parseTksAmount "1.+5" = .ok n ↔ Amount (trim "1.+5") n ∧ n < 2 ^ 128 := by
  have hNumeral : Numeral ['1'] 1 := ⟨by decide, List.forall_mem_singleton.mpr rfl, rfl⟩
  have hSigned : SignedAmount (trim "1.+5") 1050000000000000000 :=
    @SignedAmount.fraction ['1'] ['5'] 1 hNumeral (List.forall_mem_singleton.mpr rfl) (by decide)
  have hAccepted := (parseTksAmount_eq_ok_iff "1.+5" _).mpr ⟨by decide, Or.inr hSigned⟩
  have hText : '+' ∈ trim "1.+5" := by decide
  refine ⟨hAccepted, ?_⟩
  intro hCorrect
  exact ((hCorrect _).mp hAccepted).1.unsigned hText

end CipherCli.Transfer
