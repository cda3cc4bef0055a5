import CipherCli.Library.FallibleRuns
import CipherCli.Transfer.Amount

/-!
# Amounts of the wallet

`format_balance` and `parse_amount` of `wallet_core.rs`. Neither checks its
arithmetic: a build with overflow checks panics where another one wraps around.
A part that is not a number counts as zero.
-/

namespace CipherCli.Wallet

open Library Transfer

/-- `text.parse::<u128>().unwrap_or(0)`. -/
def parseOrZero (text : List Char) : Nat := (parseU128 text).getD 0

/-- Format balance from raw to display (e.g. wei → ETH). -/
def formatBalance (build : Build) (raw : String) (decimals : UInt8) : Except Panic String :=
  let rawVal := parseOrZero raw.toList
  if rawVal = 0 then .ok "0"
  else do
    let divisor ← build.u128 (10 ^ decimals.toNat)
    -- the power wraps around to zero from the 128th on
    if divisor = 0 then .error .divisionByZero
    else
      let whole := rawVal / divisor
      let frac := rawVal % divisor
      if frac = 0 then return toString whole
      else
        let fracStr := (Nat.toDigits 10 frac).leftpad decimals.toNat '0'
        let trimmed := fracStr.rdropWhile (· == '0')
        return String.ofList (Nat.toDigits 10 whole ++ '.' :: trimmed)

/-- `frac` of `parse_amount`, from the part after the first point. -/
def parseFraction (decimals : Nat) : Option (List Char) → Except Panic Nat
  | none => .ok 0
  | some fraction => do
    let fracStr := String.ofList (fraction.rightpad decimals '0')
    let places ← sliceTo fracStr decimals
    return parseOrZero places.toList

/-- Parse display amount to raw (e.g. "1.5" ETH → wei string). -/
def parseAmount (build : Build) (display : String) (decimals : UInt8) : Except Panic String := do
  let parts := display.toList.splitOn '.'
  let whole := parseOrZero (parts.headD [])
  let frac ← parseFraction decimals.toNat parts[1]?
  let power ← build.u128 (10 ^ decimals.toNat)
  let product ← build.u128 (whole * power)
  let raw ← build.u128 (product + frac)
  return toString raw

/-! ## Numbers of 128 bits -/

theorem u128_eq_ok_iff (build : Build) (n m : Nat) :
    build.u128 n = .ok m ↔ (build.overflowChecks → n < 2 ^ 128) ∧ m = n % 2 ^ 128 := by
  unfold Build.u128
  by_cases hOverflow : build.overflowChecks ∧ 2 ^ 128 ≤ n
  · rw [if_pos hOverflow]
    apply iff_of_false
    · intro hOk
      cases hOk
    · rintro ⟨hFits, -⟩
      have hSmall := hFits hOverflow.1
      omega
  · rw [if_neg hOverflow]
    constructor
    · intro hOk
      obtain rfl := Except.ok.inj hOk
      exact ⟨fun hChecks => Nat.lt_of_not_le fun hLarge => hOverflow ⟨hChecks, hLarge⟩, rfl⟩
    · rintro ⟨-, rfl⟩
      rfl

/-- A product and a sum that are computed one after the other go wrong if the exact result
does not fit. -/
theorem u128_mul_add (build : Build) (a b c : Nat) :
    (do let product ← build.u128 (a * b); build.u128 (product + c)) = build.u128 (a * b + c) := by
  unfold Build.u128
  by_cases hProduct : build.overflowChecks ∧ 2 ^ 128 ≤ a * b
  · have hSum : build.overflowChecks ∧ 2 ^ 128 ≤ a * b + c := ⟨hProduct.1, by omega⟩
    rw [if_pos hProduct, if_pos hSum]
    rfl
  · rw [if_neg hProduct]
    change (if build.overflowChecks ∧ 2 ^ 128 ≤ a * b % 2 ^ 128 + c then _ else _) = _
    by_cases hChecks : build.overflowChecks
    · have hFits : a * b < 2 ^ 128 :=
        Nat.lt_of_not_le fun hLarge => hProduct ⟨hChecks, hLarge⟩
      rw [Nat.mod_eq_of_lt hFits]
    · rw [if_neg fun hOverflow => hChecks hOverflow.1, if_neg fun hOverflow => hChecks hOverflow.1,
        Nat.mod_add_mod]

theorem pow_lt_iff (decimals : Nat) : 10 ^ decimals < 2 ^ 128 ↔ decimals ≤ 38 := by
  constructor
  · intro hFits
    by_contra hMany
    have hPower : 10 ^ 39 ≤ 10 ^ decimals := Nat.pow_le_pow_right (by omega) (by omega)
    omega
  · intro hFew
    have hPower : 10 ^ decimals ≤ 10 ^ 38 := Nat.pow_le_pow_right (by omega) hFew
    omega

theorem parseOrZero_lt (text : List Char) : parseOrZero text < 2 ^ 128 := by
  unfold parseOrZero
  cases hParse : parseU128 text with
  | none => exact Nat.two_pow_pos 128
  | some n => exact ((parseU128_eq_some_iff text n).mp hParse).1

theorem parseOrZero_of_numeral {text : List Char} {n : Nat} (hNumeral : Numeral (stripPlus text) n)
    (hFits : n < 2 ^ 128) : parseOrZero text = n := by
  rw [parseOrZero, (parseU128_eq_some_iff text n).mpr ⟨hFits, hNumeral⟩, Option.getD_some]

theorem parseOrZero_toDigits {n : Nat} (hFits : n < 2 ^ 128) :
    parseOrZero (Nat.toDigits 10 n) = n :=
  parseOrZero_of_numeral ((numeral_stripPlus_iff _ _).mpr (Or.inl (numeral_toDigits n))) hFits

theorem parseOrZero_of_digits {digits : List Char} (hDigits : ∀ c ∈ digits, c.isDigit)
    (hFits : Nat.ofDigitChars 10 digits 0 < 2 ^ 128) :
    parseOrZero digits = Nat.ofDigitChars 10 digits 0 := by
  by_cases hNone : digits = []
  · rw [hNone]
    rfl
  · apply parseOrZero_of_numeral _ hFits
    exact (numeral_stripPlus_iff _ _).mpr (Or.inl ⟨hNone, hDigits, rfl⟩)

/-! ## The parts of an amount -/

/-- `parts[0]` -/
def wholePart (display : String) : List Char := (display.toList.splitOn '.').headD []

/-- `parts.get(1)` -/
def fractionPart (display : String) : Option (List Char) := (display.toList.splitOn '.')[1]?

theorem parts_of_no_point {display : String} (hPoint : '.' ∉ display.toList) :
    wholePart display = display.toList ∧ fractionPart display = none := by
  unfold wholePart fractionPart
  rw [List.splitOn_eq_singleton hPoint]
  exact ⟨rfl, rfl⟩

theorem parts_of_point {display : String} {whole rest : List Char}
    (hText : display.toList = whole ++ '.' :: rest) (hPoint : '.' ∉ whole) :
    wholePart display = whole ∧ fractionPart display = (rest.splitOn '.')[0]? := by
  unfold wholePart fractionPart
  rw [hText, List.splitOn_append_cons_self_of_not_mem hPoint]
  exact ⟨rfl, rfl⟩

theorem parts_of_one_point {display : String} {whole fraction : List Char}
    (hText : display.toList = whole ++ '.' :: fraction) (hPoint : '.' ∉ whole)
    (hOnly : '.' ∉ fraction) :
    wholePart display = whole ∧ fractionPart display = some fraction := by
  obtain ⟨hWhole, hFraction⟩ := parts_of_point hText hPoint
  rw [List.splitOn_eq_singleton hOnly] at hFraction
  exact ⟨hWhole, hFraction⟩

/-- What is returned, when the power of ten fits. -/
theorem parseAmount_eq (build : Build) (display : String) {decimals : UInt8}
    (hFew : decimals.toNat ≤ 38) :
    parseAmount build display decimals = do
      let frac ← parseFraction decimals.toNat (fractionPart display)
      let raw ← build.u128 (parseOrZero (wholePart display) * 10 ^ decimals.toNat + frac)
      return toString raw := by
  unfold parseAmount
  simp only [build.u128_of_lt ((pow_lt_iff _).mpr hFew), ← u128_mul_add, bind_assoc]
  rfl

theorem parseAmount_of_fits (build : Build) {display : String} {decimals : UInt8} {frac : Nat}
    (hFew : decimals.toNat ≤ 38)
    (hFrac : parseFraction decimals.toNat (fractionPart display) = .ok frac)
    (hFits : parseOrZero (wholePart display) * 10 ^ decimals.toNat + frac < 2 ^ 128) :
    parseAmount build display decimals =
      .ok (toString (parseOrZero (wholePart display) * 10 ^ decimals.toNat + frac)) := by
  rw [parseAmount_eq build display hFew, hFrac]
  change (do let raw ← build.u128 _; return toString raw) = _
  rw [build.u128_of_lt hFits]
  rfl

/-! ## Fractions -/

/-- What the part after the point is worth, if a character ends after `decimals` bytes of it and
of the zeros behind it. -/
inductive FractionWorth (decimals : Nat) : Option (List Char) → Nat → Prop
  | missing : FractionWorth decimals none 0
  | places {fraction places : List Char} : places <+: fraction.rightpad decimals '0' →
      (places.map Char.utf8Size).sum = decimals →
      FractionWorth decimals (some fraction) (parseOrZero places)

theorem parseFraction_some_eq_ok_iff (decimals : Nat) (fraction : List Char) (frac : Nat) :
    parseFraction decimals (some fraction) = .ok frac ↔
      FractionWorth decimals (some fraction) frac := by
  have hSlice := sliceTo_eq_ok_iff (String.ofList (fraction.rightpad decimals '0')) decimals
  rw [String.toList_ofList] at hSlice
  change (sliceTo _ decimals >>= fun places => .ok (parseOrZero places.toList)) = _ ↔ _
  constructor
  · intro hOk
    cases hPlaces : sliceTo (String.ofList (fraction.rightpad decimals '0')) decimals with
    | error panic =>
      rw [hPlaces] at hOk
      cases hOk
    | ok places =>
      rw [hPlaces] at hOk
      obtain rfl := Except.ok.inj hOk
      rw [← @String.ofList_toList places] at hPlaces
      obtain ⟨hPrefix, hBytes⟩ := (hSlice places.toList).mp hPlaces
      exact .places hPrefix hBytes
  · rintro (_ | @⟨_, places, hPrefix, hBytes⟩)
    rw [(hSlice places).mpr ⟨hPrefix, hBytes⟩]
    change Except.ok (parseOrZero (String.ofList places).toList) = _
    rw [String.toList_ofList]

theorem parseFraction_eq_ok_iff (decimals : Nat) (part : Option (List Char)) (frac : Nat) :
    parseFraction decimals part = .ok frac ↔ FractionWorth decimals part frac := by
  cases part with
  | none =>
    constructor
    · intro hOk
      obtain rfl := Except.ok.inj hOk
      exact .missing
    · rintro ⟨⟩
      rfl
  | some fraction => exact parseFraction_some_eq_ok_iff decimals fraction frac

theorem parseAmount_eq_ok_iff (build : Build) (display : String) {decimals : UInt8}
    (hFew : decimals.toNat ≤ 38) (n : Nat) :
    parseAmount build display decimals = .ok (toString n) ↔
      ∃ frac, FractionWorth decimals.toNat (fractionPart display) frac ∧
        (build.overflowChecks →
          parseOrZero (wholePart display) * 10 ^ decimals.toNat + frac < 2 ^ 128) ∧
        n = (parseOrZero (wholePart display) * 10 ^ decimals.toNat + frac) % 2 ^ 128 := by
  rw [parseAmount_eq build display hFew]
  constructor
  · intro hOk
    obtain ⟨frac, hFrac, hRest⟩ := bind_eq_ok hOk
    obtain ⟨raw, hRaw, hText⟩ := bind_eq_ok hRest
    obtain ⟨hChecked, rfl⟩ := (u128_eq_ok_iff _ _ _).mp hRaw
    exact ⟨frac, (parseFraction_eq_ok_iff _ _ _).mp hFrac, hChecked,
      (eq_of_toString_eq (Except.ok.inj hText)).symm⟩
  · rintro ⟨frac, hWorth, hChecked, rfl⟩
    rw [(parseFraction_eq_ok_iff _ _ _).mpr hWorth]
    change (do let raw ← build.u128 _; return toString raw) = _
    rw [(u128_eq_ok_iff build _ _).mpr ⟨hChecked, rfl⟩]
    rfl

/-- The places of a part without a character of several bytes are its first characters. -/
theorem parseFraction_of_ascii {fraction : List Char} (hAscii : ∀ c ∈ fraction, c.utf8Size = 1)
    (decimals : Nat) :
    parseFraction decimals (some fraction) =
      .ok (parseOrZero ((fraction.take decimals).rightpad decimals '0')) := by
  rw [parseFraction_eq_ok_iff, ← take_rightpad]
  refine .places (List.take_prefix decimals _) ?_
  rw [byteLength_of_ascii]
  · rw [List.length_take, length_rightpad]
    omega
  · intro c hMem
    rcases List.mem_append.mp (List.mem_of_mem_take hMem) with hChar | hZero
    · exact hAscii c hChar
    · rw [List.eq_of_mem_replicate hZero]
      rfl

/-- Digits after the point that fit are read as a fraction, cut after the last place. -/
theorem parseFraction_of_digits {fraction : List Char} (hDigits : ∀ c ∈ fraction, c.isDigit)
    {decimals : Nat} (hFew : decimals ≤ 38) :
    parseFraction decimals (some fraction) =
      .ok (readFraction decimals (fraction.take decimals)) := by
  have hPlaces : ∀ c ∈ (fraction.take decimals).rightpad decimals '0', c.isDigit := by
    intro c hMem
    rcases List.mem_append.mp hMem with hDigit | hZero
    · exact hDigits c (List.mem_of_mem_take hDigit)
    · rw [List.eq_of_mem_replicate hZero]
      rfl
  have hLength : ((fraction.take decimals).rightpad decimals '0').length = decimals := by
    rw [length_rightpad, List.length_take]
    omega
  have hSmall := ofDigitChars_lt hPlaces
  rw [hLength] at hSmall
  have hFits := Nat.lt_trans hSmall ((pow_lt_iff decimals).mpr hFew)
  rw [parseFraction_of_ascii (fun c hMem => utf8Size_digit (hDigits c hMem)),
    parseOrZero_of_digits hPlaces hFits]
  rfl

/-! ## What an amount denotes -/

/-- The decimal numbers of `n` units, of which there are `10 ^ decimals` in a whole one. Digits
after the last place are cut off, and one plus sign may stand in front. -/
inductive Denotes (decimals : Nat) : List Char → Nat → Prop
  | whole {text : List Char} {n : Nat} : Numeral (stripPlus text) n →
      Denotes decimals text (n * 10 ^ decimals)
  | fraction {whole fraction : List Char} {n : Nat} : Numeral (stripPlus whole) n →
      (∀ c ∈ fraction, c.isDigit) →
      Denotes decimals (whole ++ '.' :: fraction)
        (n * 10 ^ decimals + readFraction decimals (fraction.take decimals))

theorem point_not_mem_of_numeral {text : List Char} {n : Nat}
    (hNumeral : Numeral (stripPlus text) n) : '.' ∉ text := by
  rcases (numeral_stripPlus_iff text n).mp hNumeral with hPlain | ⟨digits, rfl, hDigits⟩
  · exact point_not_mem hPlain.isDigit
  · exact signed_point_not_mem hDigits.isDigit

/-- An amount that fits is parsed as what it denotes. -/
theorem parseAmount_of_denotes (build : Build) {display : String} {decimals : UInt8} {n : Nat}
    (hFew : decimals.toNat ≤ 38) (hDenotes : Denotes decimals.toNat display.toList n)
    (hFits : n < 2 ^ 128) : parseAmount build display decimals = .ok (toString n) := by
  have hPower : 0 < 10 ^ decimals.toNat := Nat.pow_pos (by omega)
  generalize hText : display.toList = text at hDenotes
  cases hDenotes with
  | @whole _ value hNumeral =>
    subst hText
    obtain ⟨hWhole, hNone⟩ := parts_of_no_point (point_not_mem_of_numeral hNumeral)
    have hValue : parseOrZero (wholePart display) = value := by
      rw [hWhole]
      exact parseOrZero_of_numeral hNumeral
        (Nat.lt_of_le_of_lt (Nat.le_mul_of_pos_right value hPower) hFits)
    rw [← hValue] at hFits ⊢
    exact parseAmount_of_fits build hFew (by rw [hNone]; rfl) hFits
  | @fraction whole fraction value hNumeral hDigits =>
    obtain ⟨hWhole, hFraction⟩ := parts_of_one_point hText (point_not_mem_of_numeral hNumeral)
      (point_not_mem hDigits)
    have hValue : parseOrZero (wholePart display) = value := by
      have hLe := Nat.le_mul_of_pos_right value hPower
      rw [hWhole]
      exact parseOrZero_of_numeral hNumeral (by omega)
    have hFrac : parseFraction decimals.toNat (fractionPart display) =
        .ok (readFraction decimals.toNat (fraction.take decimals.toNat)) := by
      rw [hFraction, parseFraction_of_digits hDigits hFew]
    rw [← hValue] at hFits ⊢
    exact parseAmount_of_fits build hFew hFrac hFits

/-! ## Formatted balances -/

theorem numeral_stripPlus_toDigits (n : Nat) : Numeral (stripPlus (Nat.toDigits 10 n)) n :=
  (numeral_stripPlus_iff _ _).mpr (Or.inl (numeral_toDigits n))

/-- A whole number of units, written with the digits of the quotient alone. -/
theorem denotes_of_mod_eq_zero {decimals n : Nat} (hWhole : n % 10 ^ decimals = 0) :
    Denotes decimals (Nat.toDigits 10 (n / 10 ^ decimals)) n := by
  have hSplit := Nat.div_add_mod' n (10 ^ decimals)
  rw [hWhole, Nat.add_zero] at hSplit
  have hDenotes := @Denotes.whole decimals _ _ (numeral_stripPlus_toDigits (n / 10 ^ decimals))
  rwa [hSplit] at hDenotes

theorem denotes_zero (decimals : Nat) : Denotes decimals ['0'] 0 := by
  have hDenotes := @denotes_of_mod_eq_zero decimals 0 (Nat.zero_mod _)
  rwa [Nat.zero_div] at hDenotes

/-- The digits of the quotient and, after the point, those of the remainder. -/
theorem denotes_of_mod_ne_zero {decimals n : Nat} (hFrac : n % 10 ^ decimals ≠ 0) :
    Denotes decimals (Nat.toDigits 10 (n / 10 ^ decimals) ++
      '.' :: fractionDigits decimals (n % 10 ^ decimals)) n := by
  have hPlaces : 0 < decimals := by
    rcases Nat.eq_zero_or_pos decimals with rfl | hPos
    · exact absurd (Nat.mod_one n) hFrac
    · exact hPos
  have hSmall : n % 10 ^ decimals < 10 ^ decimals := Nat.mod_lt n (Nat.pow_pos (by omega))
  have hDenotes := @Denotes.fraction decimals _ _ _
    (numeral_stripPlus_toDigits (n / 10 ^ decimals))
    (fractionDigits_isDigit decimals (n % 10 ^ decimals))
  rwa [List.take_of_length_le (fractionDigits_length_le hPlaces hSmall),
    readFraction_fractionDigits hPlaces hSmall, Nat.div_add_mod'] at hDenotes

theorem formatBalance_of_zero (build : Build) {raw : String} (decimals : UInt8)
    (hZero : parseOrZero raw.toList = 0) : formatBalance build raw decimals = .ok "0" := by
  unfold formatBalance
  exact if_pos hZero

theorem formatBalance_of_pos (build : Build) {raw : String} {decimals : UInt8} {n : Nat}
    (hRaw : parseOrZero raw.toList = n) (hPos : n ≠ 0) (hFew : decimals.toNat ≤ 38) :
    formatBalance build raw decimals =
      if n % 10 ^ decimals.toNat = 0 then .ok (toString (n / 10 ^ decimals.toNat))
      else .ok (String.ofList (Nat.toDigits 10 (n / 10 ^ decimals.toNat) ++
        '.' :: fractionDigits decimals.toNat (n % 10 ^ decimals.toNat))) := by
  have hPower : 10 ^ decimals.toNat ≠ 0 := Nat.pos_iff_ne_zero.mp (Nat.pow_pos (by omega))
  unfold formatBalance
  simp only [hRaw, if_neg hPos, build.u128_of_lt ((pow_lt_iff _).mpr hFew)]
  change (if 10 ^ decimals.toNat = 0 then _ else _) = _
  rw [if_neg hPower]
  rfl

/-- The display of a balance denotes the balance. -/
theorem formatBalance_denotes (build : Build) {raw : String} {decimals : UInt8} {n : Nat}
    (hRaw : parseOrZero raw.toList = n) (hFew : decimals.toNat ≤ 38) :
    ∃ text, formatBalance build raw decimals = .ok text ∧
      Denotes decimals.toNat text.toList n := by
  by_cases hZero : n = 0
  · subst hZero
    exact ⟨"0", formatBalance_of_zero build decimals hRaw, denotes_zero decimals.toNat⟩
  · rw [formatBalance_of_pos build hRaw hZero hFew]
    by_cases hFrac : n % 10 ^ decimals.toNat = 0
    · refine ⟨_, if_pos hFrac, ?_⟩
      rw [Nat.toString_eq_repr, Nat.toList_repr]
      exact denotes_of_mod_eq_zero hFrac
    · refine ⟨_, if_neg hFrac, ?_⟩
      rw [String.toList_ofList]
      exact denotes_of_mod_ne_zero hFrac

theorem parseOrZero_toString {n : Nat} (hFits : n < 2 ^ 128) :
    parseOrZero (toString n).toList = n := by
  rw [Nat.toString_eq_repr, Nat.toList_repr]
  exact parseOrZero_toDigits hFits

/-- A formatted balance is parsed as the balance. -/
theorem parseAmount_formatBalance (build : Build) {raw : Nat} (hRaw : raw < 2 ^ 128)
    {decimals : UInt8} (hFew : decimals.toNat ≤ 38) :
    (do
      let display ← formatBalance build (toString raw) decimals
      parseAmount build display decimals) = .ok (toString raw) := by
  obtain ⟨display, hFormat, hDenotes⟩ :=
    formatBalance_denotes build (parseOrZero_toString hRaw) hFew
  rw [hFormat]
  exact parseAmount_of_denotes build hFew hDenotes hRaw

/-- The smallest and the largest balance, with the most places. -/
theorem parseAmount_formatBalance_extremes :
    (do
      let display ← formatBalance .release (toString 1) 38
      parseAmount .release display 38) = .ok (toString 1) ∧
    (do
      let display ← formatBalance .release (toString (2 ^ 128 - 1)) 38
      parseAmount .release display 38) = .ok (toString (2 ^ 128 - 1)) :=
  ⟨parseAmount_formatBalance .release (by decide) (by decide),
    parseAmount_formatBalance .release (by decide) (by decide)⟩

/-! ## Overflow, slices and wrong amounts -/

/-- No build overflows or panics on `display`, and a number is parsed exactly. -/
def ParsesSafely (display : String) (decimals : UInt8) : Prop :=
  ∀ build, ∃ amount, parseAmount build display decimals = .ok amount ∧
    ∀ n, Denotes decimals.toNat display.toList n → amount = toString n

/-- No build overflows or panics on `raw`, and the display of a number denotes it. -/
def FormatsSafely (raw : String) (decimals : UInt8) : Prop :=
  ∀ build, ∃ display, formatBalance build raw decimals = .ok display ∧
    ∀ n, Numeral (stripPlus raw.toList) n → Denotes decimals.toNat display.toList n

/-- The power of ten, what is read and what is denoted fit into 128 bits, and the places of the
fraction end with a character. -/
structure ParseFits (display : String) (decimals : UInt8) : Prop where
  few : decimals.toNat ≤ 38
  read : ∃ frac, FractionWorth decimals.toNat (fractionPart display) frac ∧
    parseOrZero (wholePart display) * 10 ^ decimals.toNat + frac < 2 ^ 128
  number : ∀ n, Denotes decimals.toNat display.toList n → n < 2 ^ 128

/-- A number fits into 128 bits, and so does the power of ten unless the number is zero. -/
def FormatFits (raw : String) (decimals : UInt8) : Prop :=
  ∀ n, Numeral (stripPlus raw.toList) n → n < 2 ^ 128 ∧ (n = 0 ∨ decimals.toNat ≤ 38)

theorem checked_u128_eq_ok_iff (n m : Nat) :
    Build.checked.u128 n = .ok m ↔ n < 2 ^ 128 ∧ m = n := by
  rw [u128_eq_ok_iff]
  constructor
  · rintro ⟨hFits, rfl⟩
    exact ⟨hFits rfl, Nat.mod_eq_of_lt (hFits rfl)⟩
  · rintro ⟨hFits, rfl⟩
    exact ⟨fun _ => hFits, (Nat.mod_eq_of_lt hFits).symm⟩

/-- What a build with overflow checks has to compute before it returns an amount. -/
theorem fits_of_checked {display amount : String} {decimals : UInt8}
    (hOk : parseAmount Build.checked display decimals = .ok amount) :
    decimals.toNat ≤ 38 ∧ ∃ frac, FractionWorth decimals.toNat (fractionPart display) frac ∧
      parseOrZero (wholePart display) * 10 ^ decimals.toNat + frac < 2 ^ 128 ∧
      amount = toString (parseOrZero (wholePart display) * 10 ^ decimals.toNat + frac) := by
  obtain ⟨frac, hFrac, hRest⟩ := bind_eq_ok hOk
  obtain ⟨power, hPower, hRest⟩ := bind_eq_ok hRest
  obtain ⟨hPowerFits, rfl⟩ := (checked_u128_eq_ok_iff _ _).mp hPower
  obtain ⟨product, hProduct, hRest⟩ := bind_eq_ok hRest
  obtain ⟨-, rfl⟩ := (checked_u128_eq_ok_iff _ _).mp hProduct
  obtain ⟨raw, hRaw, hRest⟩ := bind_eq_ok hRest
  obtain ⟨hFits, rfl⟩ := (checked_u128_eq_ok_iff _ _).mp hRaw
  exact ⟨(pow_lt_iff _).mp hPowerFits, frac, (parseFraction_eq_ok_iff _ _ _).mp hFrac, hFits,
    (Except.ok.inj hRest).symm⟩

theorem parsesSafely_iff (display : String) (decimals : UInt8) :
    ParsesSafely display decimals ↔ ParseFits display decimals := by
  constructor
  · intro hSafe
    obtain ⟨amount, hOk, hExact⟩ := hSafe Build.checked
    obtain ⟨hFew, frac, hWorth, hFits, hAmount⟩ := fits_of_checked hOk
    refine ⟨hFew, ⟨frac, hWorth, hFits⟩, ?_⟩
    intro n hDenotes
    have hSame := hAmount.symm.trans (hExact n hDenotes)
    rw [eq_of_toString_eq hSame] at hFits
    exact hFits
  · rintro ⟨hFew, ⟨frac, hWorth, hFits⟩, hNumber⟩ build
    have hFrac := (parseFraction_eq_ok_iff _ _ _).mpr hWorth
    have hOk := parseAmount_of_fits build hFew hFrac hFits
    refine ⟨_, hOk, ?_⟩
    intro n hDenotes
    have hExact := parseAmount_of_denotes build hFew hDenotes (hNumber n hDenotes)
    exact Except.ok.inj (hOk.symm.trans hExact)

theorem eq_zero_of_denotes_zero {decimals n : Nat} (hDenotes : Denotes decimals ['0'] n) :
    n = 0 := by
  generalize hText : ['0'] = text at hDenotes
  cases hDenotes with
  | whole hNumeral =>
    subst hText
    obtain rfl := hNumeral.value
    exact Nat.zero_mul _
  | fraction hNumeral hDigits =>
    have hPoint : '.' ∈ ['0'] := hText ▸ List.mem_append_right _ List.mem_cons_self
    exact absurd hPoint (by decide)

/-- A number is read as itself or, when it does not fit, as zero. -/
theorem parseOrZero_eq_zero_iff {text : List Char} {n : Nat}
    (hNumeral : Numeral (stripPlus text) n) : parseOrZero text = 0 ↔ n < 2 ^ 128 → n = 0 := by
  constructor
  · intro hZero hFits
    rwa [parseOrZero_of_numeral hNumeral hFits] at hZero
  · intro hRead
    cases hParse : parseU128 text with
    | none =>
      rw [parseOrZero, hParse]
      rfl
    | some value =>
      obtain ⟨hFits, hSame⟩ := (parseU128_eq_some_iff text value).mp hParse
      obtain rfl : n = value := hNumeral.value.trans hSame.value.symm
      rw [parseOrZero, hParse]
      exact hRead hFits

theorem numeral_of_parseOrZero_ne_zero {text : List Char} (hRead : parseOrZero text ≠ 0) :
    Numeral (stripPlus text) (parseOrZero text) := by
  cases hParse : parseU128 text with
  | none =>
    rw [parseOrZero, hParse] at hRead
    exact absurd rfl hRead
  | some value =>
    rw [parseOrZero, hParse]
    exact ((parseU128_eq_some_iff text value).mp hParse).2

theorem formatsSafely_iff (raw : String) (decimals : UInt8) :
    FormatsSafely raw decimals ↔ FormatFits raw decimals := by
  constructor
  · intro hSafe n hNumeral
    obtain ⟨display, hOk, hExact⟩ := hSafe Build.checked
    by_cases hZero : parseOrZero raw.toList = 0
    · rw [formatBalance_of_zero _ decimals hZero] at hOk
      obtain rfl := Except.ok.inj hOk
      obtain rfl := eq_zero_of_denotes_zero (hExact n hNumeral)
      exact ⟨Nat.two_pow_pos 128, Or.inl rfl⟩
    · unfold formatBalance at hOk
      rw [if_neg hZero] at hOk
      obtain ⟨divisor, hDivisor, -⟩ := bind_eq_ok hOk
      have hPower := ((checked_u128_eq_ok_iff _ _).mp hDivisor).1
      rw [parseOrZero_eq_zero_iff hNumeral] at hZero
      exact ⟨by omega, Or.inr ((pow_lt_iff _).mp hPower)⟩
  · intro hFits build
    by_cases hZero : parseOrZero raw.toList = 0
    · refine ⟨"0", formatBalance_of_zero build decimals hZero, ?_⟩
      intro n hNumeral
      obtain rfl := (parseOrZero_eq_zero_iff hNumeral).mp hZero (hFits n hNumeral).1
      exact denotes_zero decimals.toNat
    · have hNumeral := numeral_of_parseOrZero_ne_zero hZero
      have hFew := (hFits _ hNumeral).2.resolve_left hZero
      obtain ⟨display, hOk, hDenotes⟩ := formatBalance_denotes build rfl hFew
      refine ⟨display, hOk, ?_⟩
      intro n hOther
      rw [hOther.value, ← hNumeral.value]
      exact hDenotes

/-- Exactly for what fits, the two functions overflow in no build, do not panic and are exact. -/
theorem amounts_safe_iff (text : String) (decimals : UInt8) :
    (ParsesSafely text decimals ↔ ParseFits text decimals) ∧
      (FormatsSafely text decimals ↔ FormatFits text decimals) :=
  ⟨parsesSafely_iff text decimals, formatsSafely_iff text decimals⟩

/-- 340282366920938463464 coins are paid as 0.625392568231788544, a character of two bytes is cut
in two, and a token of 128 decimals is divided by zero. -/
theorem amounts_unsafe :
    parseAmount .release "340282366920938463464" 18 = .ok "625392568231788544" ∧
      parseAmount .checked "340282366920938463464" 18 = .error .arithmeticOverflow ∧
      parseAmount .release "1.é" 1 = .error .sliceIndex ∧
      formatBalance .release "1" 128 = .error .divisionByZero ∧
      ¬ ∀ text decimals, ParsesSafely text decimals ∧ FormatsSafely text decimals := by
  refine ⟨rfl, rfl, rfl, rfl, ?_⟩
  intro hSafe
  obtain ⟨amount, hOk, -⟩ := (hSafe "1.é" 1).1 .release
  cases hOk

end CipherCli.Wallet
