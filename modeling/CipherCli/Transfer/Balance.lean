import CipherCli.Transfer.Amount

/-!
# Displayed balances

`format_tks` of `balance.rs`, which shows up to four decimals, and what
`parse_tks_amount` makes of the result.
-/

namespace CipherCli.Transfer

open Library

/-- `if trimmed.len() > 4 { &trimmed[..4] } else { trimmed }` -/
def cutFraction (trimmed : List Char) : Except Panic String :=
  if 4 < (trimmed.map Char.utf8Size).sum then sliceTo (String.ofList trimmed) 4
  else .ok (String.ofList trimmed)

/-- Format a raw balance (u128, 18 decimals) as a human-readable TKS amount -/
def formatTks (raw : Nat) : Except Panic String :=
  let divisor := weiPerTks
  let whole := raw / divisor
  let frac := raw % divisor
  if frac = 0 then .ok (toString whole)
  else do
    -- Show up to 4 decimal places
    let fracStr := (Nat.toDigits 10 frac).leftpad 18 '0'
    let trimmed := fracStr.rdropWhile (· == '0')
    let displayFrac ← cutFraction trimmed
    return toString whole ++ "." ++ displayFrac

theorem cutFraction_of_digits {digits : List Char} (hDigits : ∀ c ∈ digits, c.isDigit) :
    cutFraction digits = .ok (String.ofList (digits.take 4)) := by
  rw [cutFraction, byteLength_digits hDigits]
  by_cases hLong : 4 < digits.length
  · rw [if_pos hLong, sliceTo_eq_ok_iff, String.toList_ofList]
    refine ⟨List.take_prefix 4 digits, ?_⟩
    rw [byteLength_digits fun c hMem => hDigits c (List.mem_of_mem_take hMem), List.length_take]
    exact Nat.min_eq_left (Nat.le_of_lt hLong)
  · rw [if_neg hLong, List.take_of_length_le (Nat.not_lt.mp hLong)]

theorem formatTks_of_frac {raw : Nat} (hFrac : raw % weiPerTks ≠ 0) :
    formatTks raw = .ok (String.ofList (Nat.toDigits 10 (raw / weiPerTks) ++
      '.' :: (fractionDigits 18 (raw % weiPerTks)).take 4)) := by
  have hShown := cutFraction_of_digits (fractionDigits_isDigit 18 (raw % weiPerTks))
  unfold formatTks
  dsimp only
  rw [if_neg hFrac, ← fractionPlaces, ← fractionDigits, hShown, String.ofList_append,
    ← List.singleton_append, String.ofList_append, ← String.append_assoc]
  rfl

theorem trim_of_digits {digits : List Char} (hDigits : ∀ c ∈ digits, c.isDigit) :
    trim (String.ofList digits) = digits := by
  rw [trim_of_no_space, String.toList_ofList]
  intro c hMem
  rw [String.toList_ofList] at hMem
  exact not_whitespace_of_digit (hDigits c hMem)

theorem trim_of_point {digits fraction : List Char} (hDigits : ∀ c ∈ digits, c.isDigit)
    (hFraction : ∀ c ∈ fraction, c.isDigit) :
    trim (String.ofList (digits ++ '.' :: fraction)) = digits ++ '.' :: fraction := by
  rw [trim_of_no_space, String.toList_ofList]
  intro c hMem
  rw [String.toList_ofList] at hMem
  rcases List.mem_append.mp hMem with hWhole | hRest
  · exact not_whitespace_of_digit (hDigits c hWhole)
  · rcases List.mem_cons.mp hRest with rfl | hPlace
    · rfl
    · exact not_whitespace_of_digit (hFraction c hPlace)

theorem fractionValue_eq (fraction : List Char) :
    fractionValue fraction = readFraction 18 fraction :=
  (ofDigitChars_rightpad 18 fraction).symm

/-- A displayed balance is accepted as the balance rounded down to four decimals. -/
theorem parseTksAmount_formatTks {raw : Nat} (hRaw : raw < 2 ^ 128) :
    ∃ text, formatTks raw = .ok text ∧
      parseTksAmount text = .ok (raw - raw % 10 ^ 14) := by
  have hSplit := Nat.div_add_mod' raw weiPerTks
  have hWhole := numeral_toDigits (raw / weiPerTks)
  have hLow : raw % weiPerTks % 10 ^ 14 = raw % 10 ^ 14 := Nat.mod_mod_of_dvd raw ⟨10 ^ 4, rfl⟩
  by_cases hFrac : raw % weiPerTks = 0
  · refine ⟨toString (raw / weiPerTks), if_pos hFrac, ?_⟩
    rw [parseTksAmount_eq_ok_iff, Nat.toString_eq_ofList_toDigits, trim_of_digits hWhole.isDigit]
    rw [hFrac] at hSplit hLow
    rw [← hLow, Nat.zero_mod, Nat.sub_zero]
    refine ⟨hRaw, Or.inl ?_⟩
    have hAmount := Amount.whole hWhole
    rw [Nat.add_zero] at hSplit
    rwa [hSplit] at hAmount
  · have hSmall : raw % weiPerTks < 10 ^ 18 := Nat.mod_lt raw (Nat.pow_pos (by omega))
    have hDigits : ∀ c ∈ (fractionDigits 18 (raw % weiPerTks)).take 4, c.isDigit :=
      fun c hMem => fractionDigits_isDigit _ _ c (List.mem_of_mem_take hMem)
    refine ⟨_, formatTks_of_frac hFrac, ?_⟩
    rw [parseTksAmount_eq_ok_iff, trim_of_point hWhole.isDigit hDigits]
    refine ⟨by omega, Or.inl ?_⟩
    have hShort : ((fractionDigits 18 (raw % weiPerTks)).take 4).length ≤ 18 := by
      rw [List.length_take]
      omega
    have hAmount := Amount.fraction hWhole hDigits hShort
    rw [fractionValue_eq, readFraction_take_fractionDigits (by omega) hSmall (by omega)] at hAmount
    have hValue :
        raw / weiPerTks * weiPerTks + (raw % weiPerTks - raw % weiPerTks % 10 ^ (18 - 4)) =
          raw - raw % 10 ^ 14 := by
      have hLe := Nat.mod_le (raw % weiPerTks) (10 ^ 14)
      omega
    rwa [hValue] at hAmount

/-- The largest balance, of which ten digits are not shown. -/
theorem parseTksAmount_formatTks_max :
    ∃ text, formatTks (2 ^ 128 - 1) = .ok text ∧
      parseTksAmount text = .ok (2 ^ 128 - 1 - (2 ^ 128 - 1) % 10 ^ 14) :=
  parseTksAmount_formatTks (by decide)

end CipherCli.Transfer
