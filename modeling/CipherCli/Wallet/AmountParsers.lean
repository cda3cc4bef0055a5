import CipherCli.Wallet.Amounts

/-!
# The two amount parsers

`parse_tks_amount` of the command line against `parse_amount` of the wallet with
18 decimals. The first trims its argument and refuses what is not a number; the
second reads the parts as they stand and takes zero for what it cannot read.
-/

namespace CipherCli.Wallet

open Library Transfer

/-- What one parser accepts, the other turns into the same amount; what the one refuses, the other
does not turn into a positive amount. -/
def ParsersAgree (build : Build) (s : String) : Prop :=
  (∀ n, parseTksAmount s = .ok n → parseAmount build s 18 = .ok (toString n)) ∧
    ∀ error, parseTksAmount s = .error error →
      ∀ n, 0 < n → parseAmount build s 18 ≠ .ok (toString n)

/-- `s.trim()` -/
def trimmed (s : String) : String := String.ofList (trim s)

/-- The trimmed string is a number of TKS that fits, possibly with plus signs. -/
def TksNumber (s : String) : Prop :=
  ∃ n < 2 ^ 128, Amount (trim s) n ∨ SignedAmount (trim s) n

/-- White space before a number stands before a whole part of zero, and white space after it
stands behind all places of the fraction, behind a fraction of zero, or there is none. -/
structure SpaceHarmless (s : String) : Prop where
  whole : wholePart s = wholePart (trimmed s) ∨ parseOrZero (wholePart (trimmed s)) = 0
  fraction : ∀ fraction, fractionPart (trimmed s) = some fraction →
    fractionPart s = some fraction ∨ fraction.length = 18 ∨
      parseOrZero (padded fraction) = 0 ∧ ∃ frac, FractionWorth 18 (fractionPart s) frac

/-- The parts are worth nothing, or more than fits when the build checks for overflow or wraps
around to zero, or the fraction is cut inside a character. -/
def NothingPaid (build : Build) (s : String) : Prop :=
  ∀ frac, FractionWorth 18 (fractionPart s) frac →
    parseOrZero (wholePart s) = 0 ∧ frac = 0 ∨
      2 ^ 128 ≤ parseOrZero (wholePart s) * weiPerTks + frac ∧
        (build.overflowChecks ∨ 2 ^ 128 ∣ parseOrZero (wholePart s) * weiPerTks + frac)

/-! ## What the wallet pays -/

theorem parseAmount_tks_iff (build : Build) (s : String) (n : Nat) :
    parseAmount build s 18 = .ok (toString n) ↔
      ∃ frac, FractionWorth 18 (fractionPart s) frac ∧
        (build.overflowChecks → parseOrZero (wholePart s) * weiPerTks + frac < 2 ^ 128) ∧
        n = (parseOrZero (wholePart s) * weiPerTks + frac) % 2 ^ 128 :=
  parseAmount_eq_ok_iff build s (by decide) n

theorem FractionWorth.unique {decimals : Nat} {part : Option (List Char)} {frac frac' : Nat}
    (hWorth : FractionWorth decimals part frac) (hWorth' : FractionWorth decimals part frac') :
    frac' = frac := by
  have hFrac := (parseFraction_eq_ok_iff _ _ _).mpr hWorth
  have hFrac' := (parseFraction_eq_ok_iff _ _ _).mpr hWorth'
  exact Except.ok.inj (hFrac'.symm.trans hFrac)

/-- Nothing positive is paid for what is not a number. -/
theorem nothingPaid_iff (build : Build) (s : String) :
    (∀ n, 0 < n → parseAmount build s 18 ≠ .ok (toString n)) ↔ NothingPaid build s := by
  simp only [ne_eq, parseAmount_tks_iff]
  constructor
  · intro hUnpaid frac hWorth
    have hUnit : 0 < weiPerTks := Nat.pow_pos (by omega)
    by_cases hChecked :
        build.overflowChecks → parseOrZero (wholePart s) * weiPerTks + frac < 2 ^ 128
    · have hWraps : 2 ^ 128 ∣ parseOrZero (wholePart s) * weiPerTks + frac := by
        apply Nat.dvd_of_mod_eq_zero
        by_contra hPos
        exact hUnpaid _ (Nat.pos_of_ne_zero hPos) ⟨frac, hWorth, hChecked, rfl⟩
      by_cases hZero : parseOrZero (wholePart s) * weiPerTks + frac = 0
      · obtain ⟨hWhole, hFrac⟩ := Nat.add_eq_zero_iff.mp hZero
        exact Or.inl ⟨(Nat.mul_eq_zero.mp hWhole).resolve_right (Nat.ne_of_gt hUnit), hFrac⟩
      · exact Or.inr ⟨Nat.le_of_dvd (Nat.pos_of_ne_zero hZero) hWraps, Or.inr hWraps⟩
    · obtain ⟨hBuild, hLarge⟩ := Classical.not_imp.mp hChecked
      exact Or.inr ⟨Nat.not_lt.mp hLarge, Or.inl hBuild⟩
  · rintro hNothing n hPos ⟨frac, hWorth, hChecked, rfl⟩
    rcases hNothing frac hWorth with ⟨hWhole, rfl⟩ | ⟨hLarge, hBuild | hWraps⟩
    · rw [hWhole] at hPos
      exact absurd hPos (by decide)
    · exact absurd (hChecked hBuild) (Nat.not_lt.mpr hLarge)
    · rw [Nat.mod_eq_zero_of_dvd hWraps] at hPos
      exact absurd hPos (Nat.lt_irrefl 0)

/-! ## Parts with white space -/

/-- A part that has white space in it is worth nothing. -/
theorem parseOrZero_of_space {text : List Char} {c : Char} (hMem : c ∈ text)
    (hSpace : isWhitespace c) : parseOrZero text = 0 := by
  by_contra hRead
  have hNumeral := numeral_of_parseOrZero_ne_zero hRead
  rcases (numeral_stripPlus_iff _ _).mp hNumeral with hPlain | ⟨digits, rfl, hDigits⟩
  · rw [not_whitespace_of_digit (hPlain.isDigit c hMem)] at hSpace
    cases hSpace
  · rcases List.mem_cons.mp hMem with rfl | hDigit
    · cases hSpace
    · rw [not_whitespace_of_digit (hDigits.isDigit c hDigit)] at hSpace
      cases hSpace

theorem parseOrZero_of_spaces {lead text trail : List Char} (hLead : ∀ c ∈ lead, isWhitespace c)
    (hTrail : ∀ c ∈ trail, isWhitespace c) :
    lead ++ text ++ trail = text ∨ parseOrZero (lead ++ text ++ trail) = 0 := by
  cases lead with
  | cons c rest =>
    exact Or.inr (parseOrZero_of_space List.mem_cons_self (hLead c List.mem_cons_self))
  | nil =>
    cases trail with
    | nil => exact Or.inl (List.append_nil _)
    | cons c rest =>
      exact Or.inr (parseOrZero_of_space (List.mem_append_right _ List.mem_cons_self)
        (hTrail c List.mem_cons_self))

theorem parseOrZero_of_reads {fraction : List Char} {frac : Nat}
    (hReads : FractionReads fraction frac) (hFits : frac < 2 ^ 128) :
    parseOrZero (padded fraction) = frac := by
  apply parseOrZero_of_numeral _ hFits
  rw [numeral_stripPlus_padded_iff hReads.length_le]
  cases hReads with
  | digits hDigits _ => exact Or.inl ⟨hDigits, rfl⟩
  | plus hDigits _ => exact Or.inr ⟨_, rfl, hDigits, rfl⟩

/-- White space behind all eighteen places is cut off. -/
theorem worth_of_reads {fraction : List Char} {frac : Nat}
    (hReads : FractionReads fraction frac) (hFits : frac < 2 ^ 128) {trail : List Char}
    (hFull : trail = [] ∨ fraction.length = 18) :
    FractionWorth 18 (some (fraction ++ trail)) frac := by
  have hBytes : ((padded fraction).map Char.utf8Size).sum = 18 := by
    have hShort := hReads.length_le
    rw [padded, List.map_append, List.sum_append, byteLength_of_ascii hReads.ascii,
      byteLength_of_ascii fun c hZero => by rw [List.eq_of_mem_replicate hZero]; rfl,
      List.length_replicate]
    omega
  have hPrefix : padded fraction <+: (fraction ++ trail).rightpad 18 '0' := by
    rcases hFull with rfl | hLength
    · rw [List.append_nil]
      exact List.prefix_refl _
    · rw [padded, hLength, Nat.sub_self, List.replicate_zero, List.append_nil, List.rightpad,
        List.append_assoc]
      exact List.prefix_append _ _
  rw [← parseOrZero_of_reads hReads hFits]
  exact .places hPrefix hBytes

/-- White space among the eighteen places makes the fraction worth nothing. -/
theorem worth_eq_zero_of_space {fraction : List Char} (hAscii : ∀ c ∈ fraction, c.utf8Size = 1)
    (hShort : fraction.length < 18) {c : Char} {rest : List Char} (hSpace : isWhitespace c)
    {frac : Nat} (hWorth : FractionWorth 18 (some (fraction ++ c :: rest)) frac) : frac = 0 := by
  obtain _ | @⟨_, places, hPrefix, hBytes⟩ := hWorth
  rw [List.rightpad, List.append_assoc] at hPrefix
  rcases List.prefix_or_prefix_of_prefix hPrefix (List.prefix_append fraction _) with
    hInside | ⟨more, rfl⟩
  · have hLength := hInside.length_le
    rw [byteLength_of_ascii fun c hMem => hAscii c (hInside.subset hMem)] at hBytes
    omega
  · rw [List.prefix_append_right_inj, List.cons_append] at hPrefix
    cases more with
    | nil =>
      rw [List.append_nil, byteLength_of_ascii hAscii] at hBytes
      omega
    | cons first others =>
      obtain ⟨rfl, -⟩ := List.cons_prefix_cons.mp hPrefix
      exact parseOrZero_of_space (List.mem_append_right _ List.mem_cons_self) hSpace

/-! ## Numbers with white space around them -/

theorem point_not_mem_of_spaces {spaces : List Char} (hSpaces : ∀ c ∈ spaces, isWhitespace c) :
    '.' ∉ spaces := by
  intro hMem
  cases hSpaces '.' hMem

/-- White space cannot make up for itself: the amount is the same if both parts are. -/
theorem parseAmount_spaced_iff (build : Build) {s : String} {whole frac : Nat}
    (hFits : whole * weiPerTks + frac < 2 ^ 128)
    (hWhole : parseOrZero (wholePart s) = whole ∨ parseOrZero (wholePart s) = 0)
    (hFrac : ∀ read, FractionWorth 18 (fractionPart s) read → read = frac ∨ read = 0) :
    parseAmount build s 18 = .ok (toString (whole * weiPerTks + frac)) ↔
      parseOrZero (wholePart s) = whole ∧ FractionWorth 18 (fractionPart s) frac := by
  have hUnit : 0 < weiPerTks := Nat.pow_pos (by omega)
  rw [parseAmount_tks_iff]
  constructor
  · rintro ⟨read, hWorth, -, hSame⟩
    have hRead := hFrac read hWorth
    rcases hWhole with hWhole | hWhole
    · rw [hWhole, Nat.mod_eq_of_lt (by omega)] at hSame
      obtain rfl : read = frac := by omega
      exact ⟨hWhole, hWorth⟩
    · rw [hWhole, Nat.zero_mul, Nat.zero_add, Nat.mod_eq_of_lt (by omega)] at hSame
      have hNothing : whole * weiPerTks = 0 := by omega
      obtain rfl : read = frac := by omega
      rw [(Nat.mul_eq_zero.mp hNothing).resolve_right (Nat.ne_of_gt hUnit)]
      exact ⟨hWhole, hWorth⟩
  · rintro ⟨hSame, hWorth⟩
    rw [hSame]
    exact ⟨frac, hWorth, fun _ => hFits, (Nat.mod_eq_of_lt hFits).symm⟩

theorem whole_same_iff {part spaced : List Char}
    (hSpaced : spaced = part ∨ parseOrZero spaced = 0) :
    parseOrZero spaced = parseOrZero part ↔ spaced = part ∨ parseOrZero part = 0 := by
  constructor
  · intro hSame
    exact hSpaced.imp_right hSame.symm.trans
  · rintro (rfl | hZero)
    · rfl
    · rcases hSpaced with rfl | hNothing
      · rfl
      · rw [hZero, hNothing]

/-- A fraction with white space behind it. -/
theorem fraction_same_iff {fraction trail : List Char} {frac : Nat}
    (hReads : FractionReads fraction frac) (hFits : frac < 2 ^ 128)
    (hTrail : ∀ c ∈ trail, isWhitespace c) :
    (∀ read, FractionWorth 18 (some (fraction ++ trail)) read → read = frac ∨ read = 0) ∧
      (FractionWorth 18 (some (fraction ++ trail)) frac ↔
        fraction ++ trail = fraction ∨ fraction.length = 18 ∨
          frac = 0 ∧ ∃ read, FractionWorth 18 (some (fraction ++ trail)) read) := by
  have hLength := hReads.length_le
  by_cases hFull : trail = [] ∨ fraction.length = 18
  · have hWorth := worth_of_reads hReads hFits hFull
    refine ⟨fun read hRead => Or.inl (hWorth.unique hRead), iff_of_true hWorth ?_⟩
    rcases hFull with rfl | hFull
    · exact Or.inl (List.append_nil _)
    · exact Or.inr (Or.inl hFull)
  · obtain ⟨hSome, hShort⟩ := not_or.mp hFull
    have hZero : ∀ read, FractionWorth 18 (some (fraction ++ trail)) read → read = 0 := by
      intro read hRead
      cases trail with
      | nil => exact absurd rfl hSome
      | cons c rest =>
        exact worth_eq_zero_of_space hReads.ascii (by omega) (hTrail c List.mem_cons_self) hRead
    refine ⟨fun read hRead => Or.inr (hZero read hRead), ?_⟩
    constructor
    · intro hWorth
      exact Or.inr (Or.inr ⟨hZero frac hWorth, frac, hWorth⟩)
    · rintro (hSame | hLong | ⟨rfl, read, hRead⟩)
      · exact absurd (List.append_right_eq_self.mp hSame) hSome
      · exact absurd hLong hShort
      · rwa [← hZero read hRead]

theorem parseWhole_value {whole : List Char} {wei : Nat} (hWhole : parseWhole whole = .ok wei) :
    wei = parseOrZero whole * weiPerTks ∧ wei < 2 ^ 128 := by
  obtain ⟨n, hParse, hValue, hFits⟩ := (parseWhole_eq_ok_iff _ _).mp hWhole
  rw [parseOrZero, hParse]
  exact ⟨hValue, hFits⟩

theorem whole_number_iff (build : Build) {s : String} {n : Nat} (hPoint : '.' ∉ trim s)
    (hWhole : parseWhole (trim s) = .ok n) :
    parseAmount build s 18 = .ok (toString n) ↔ SpaceHarmless s := by
  obtain ⟨lead, trail, hText, hLead, hTrail⟩ := trim_split s
  have hNoPoint : '.' ∉ s.toList := by
    rw [hText]
    simp only [List.mem_append, not_or]
    exact ⟨⟨point_not_mem_of_spaces hLead, hPoint⟩, point_not_mem_of_spaces hTrail⟩
  obtain ⟨hPart, hNone⟩ := parts_of_no_point hNoPoint
  obtain ⟨hTrimmed, hTrimmedNone⟩ := @parts_of_no_point (trimmed s) (by
    rwa [trimmed, String.toList_ofList])
  rw [trimmed, String.toList_ofList] at hTrimmed
  have hSpaced := @parseOrZero_of_spaces lead (trim s) trail hLead hTrail
  rw [← hText, ← hPart] at hSpaced
  obtain ⟨rfl, hFits⟩ := parseWhole_value hWhole
  have hRead : ∀ read, FractionWorth 18 (fractionPart s) read ↔ read = 0 := by
    intro read
    rw [hNone]
    constructor
    · rintro ⟨⟩
      rfl
    · rintro rfl
      exact .missing
  have hPaid := @parseAmount_spaced_iff build s (parseOrZero (trim s)) 0 (by rwa [Nat.add_zero])
    (hSpaced.imp_left (congrArg parseOrZero)) fun read hWorth => Or.inl ((hRead read).mp hWorth)
  rw [Nat.add_zero] at hPaid
  rw [hPaid, whole_same_iff hSpaced, and_iff_left ((hRead 0).mpr rfl), ← hTrimmed]
  constructor
  · intro hSame
    refine ⟨hSame, ?_⟩
    intro fraction hSome
    rw [hTrimmedNone] at hSome
    cases hSome
  · exact SpaceHarmless.whole

theorem decimal_number_iff (build : Build) {s : String} {whole fraction : List Char} {wei n : Nat}
    (hTrim : trim s = whole ++ '.' :: fraction) (hWholePoint : '.' ∉ whole)
    (hPoint : '.' ∉ fraction) (hWhole : parseWhole whole = .ok wei)
    (hFraction : addFraction wei fraction = .ok n) :
    parseAmount build s 18 = .ok (toString n) ↔ SpaceHarmless s := by
  obtain ⟨lead, trail, hText, hLead, hTrail⟩ := trim_split s
  obtain ⟨rfl, -⟩ := parseWhole_value hWhole
  obtain ⟨hFits, frac, rfl, hReads⟩ := (addFraction_reads_iff _ _ _).mp hFraction
  have hFracFits : frac < 2 ^ 128 := by omega
  have hSplit : s.toList = (lead ++ whole) ++ '.' :: (fraction ++ trail) := by
    rw [hText, hTrim]
    simp only [List.append_assoc, List.cons_append]
  obtain ⟨hPart, hSome⟩ := parts_of_one_point hSplit
    (fun hMem => (List.mem_append.mp hMem).elim (point_not_mem_of_spaces hLead) hWholePoint)
    (fun hMem => (List.mem_append.mp hMem).elim hPoint (point_not_mem_of_spaces hTrail))
  obtain ⟨hTrimmed, hTrimmedSome⟩ := @parts_of_one_point (trimmed s) whole fraction
    (by rw [trimmed, String.toList_ofList, hTrim]) hWholePoint hPoint
  have hSpaced := @parseOrZero_of_spaces lead whole [] hLead (by simp)
  rw [List.append_nil, ← hPart] at hSpaced
  obtain ⟨hRead, hSame⟩ := fraction_same_iff hReads hFracFits hTrail
  rw [← hSome] at hRead hSame
  rw [parseAmount_spaced_iff build hFits (hSpaced.imp_left (congrArg parseOrZero)) hRead,
    whole_same_iff hSpaced, hSame, ← hTrimmed]
  constructor
  · rintro ⟨hWholeSame, hFractionSame⟩
    refine ⟨hWholeSame, ?_⟩
    intro found hFound
    rw [hTrimmedSome] at hFound
    obtain rfl := Option.some.inj hFound
    rw [parseOrZero_of_reads hReads hFracFits, hSome, Option.some_inj]
    rwa [hSome] at hFractionSame
  · rintro ⟨hWholeSame, hFractionSame⟩
    refine ⟨hWholeSame, ?_⟩
    have hCases := hFractionSame fraction hTrimmedSome
    rwa [parseOrZero_of_reads hReads hFracFits, hSome, Option.some_inj, ← hSome] at hCases

/-- A number is paid as it is accepted if the white space around it is harmless. -/
theorem parseAmount_of_number_iff (build : Build) {s : String} {n : Nat}
    (hParts : PartsRead (trim s) n) :
    parseAmount build s 18 = .ok (toString n) ↔ SpaceHarmless s := by
  rcases hParts with ⟨hPoint, hWhole⟩ |
    ⟨whole, fraction, wei, hTrim, hWholePoint, hPoint, hWhole, hFraction⟩
  · exact whole_number_iff build hPoint hWhole
  · exact decimal_number_iff build hTrim hWholePoint hPoint hWhole hFraction

/-! ## Agreement -/

theorem tksNumber_iff (s : String) : TksNumber s ↔ ∃ n, parseTksAmount s = .ok n := by
  constructor
  · rintro ⟨n, hFits, hNumber⟩
    exact ⟨n, (parseTksAmount_eq_ok_iff s n).mpr ⟨hFits, hNumber⟩⟩
  · rintro ⟨n, hOk⟩
    exact ⟨n, (parseTksAmount_eq_ok_iff s n).mp hOk⟩

/-- The two parsers agree exactly where white space is harmless and nothing is paid for what is
not a number. -/
theorem parsersAgree_iff (build : Build) (s : String) :
    ParsersAgree build s ↔
      (TksNumber s → SpaceHarmless s) ∧ (¬ TksNumber s → NothingPaid build s) := by
  rw [tksNumber_iff, ← nothingPaid_iff]
  unfold ParsersAgree
  cases hResult : parseTksAmount s with
  | error error =>
    have hRefused : ¬ ∃ n, Except.error error = (Except.ok n : Except String Nat) := by
      rintro ⟨n, hOk⟩
      cases hOk
    constructor
    · rintro ⟨-, hUnpaid⟩
      exact ⟨fun hNumber => absurd hNumber hRefused, fun _ => hUnpaid error rfl⟩
    · rintro ⟨-, hUnpaid⟩
      exact ⟨fun n hOk => absurd ⟨n, hOk⟩ hRefused, fun _ _ => hUnpaid hRefused⟩
  | ok n =>
    have hPaid := parseAmount_of_number_iff build ((parseTksAmount_eq_ok_iff_parts s n).mp hResult)
    constructor
    · rintro ⟨hSame, -⟩
      exact ⟨fun _ => hPaid.mp (hSame n rfl), fun hRefused => absurd ⟨n, rfl⟩ hRefused⟩
    · rintro ⟨hHarmless, -⟩
      refine ⟨?_, ?_⟩
      · intro m hOk
        obtain rfl := Except.ok.inj hOk
        exact hPaid.mpr (hHarmless ⟨n, rfl⟩)
      · intro error hError
        cases hError

/-- A space turns 1 into nothing; `.5` and `1.2.3` are refused and paid. -/
theorem parsers_disagree :
    parseTksAmount " 1" = .ok weiPerTks ∧ parseAmount .checked " 1" 18 = .ok "0" ∧
      parseTksAmount ".5" = .error "Invalid whole number in amount" ∧
      parseAmount .checked ".5" 18 = .ok "500000000000000000" ∧
      parseTksAmount "1.2.3" = .error "Invalid number format" ∧
      parseAmount .checked "1.2.3" 18 = .ok "1200000000000000000" ∧
      ¬ ∀ build s, ParsersAgree build s := by
  have hNumeral : Numeral ['1'] 1 := ⟨by decide, List.forall_mem_singleton.mpr rfl, rfl⟩
  have hNumber : Amount (trim " 1") weiPerTks := Amount.whole hNumeral
  have hAccepted := (parseTksAmount_eq_ok_iff " 1" weiPerTks).mpr ⟨by decide, Or.inl hNumber⟩
  have hNothing : parseAmount .checked " 1" 18 = .ok "0" := rfl
  refine ⟨hAccepted, hNothing, rfl, rfl, rfl, rfl, ?_⟩
  intro hAgree
  have hPaid := (hAgree .checked " 1").1 _ hAccepted
  exact absurd (Except.ok.inj (hNothing.symm.trans hPaid)) (by decide)

end CipherCli.Wallet
