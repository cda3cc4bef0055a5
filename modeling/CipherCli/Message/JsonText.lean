import CipherCli.Crates

/-!
# The text of a JSON value

What `to_string` of `serde_json` writes: no white space, numbers in decimal, and a byte
string as an array of numbers. So the text of a byte string has one, two or three digits
for each byte.
-/

namespace CipherCli

namespace Json

/-- The two-character escapes, `\u00xx` for the other control characters. -/
def escaped (c : Char) : List Char :=
  if c = '"' then ['\\', '"']
  else if c = '\\' then ['\\', '\\']
  else if c.toNat = 8 then ['\\', 'b']
  else if c.toNat = 9 then ['\\', 't']
  else if c.toNat = 10 then ['\\', 'n']
  else if c.toNat = 12 then ['\\', 'f']
  else if c.toNat = 13 then ['\\', 'r']
  else if c.toNat < 32 then
    ['\\', 'u', '0', '0', Nat.digitChar (c.toNat / 16), Nat.digitChar (c.toNat % 16)]
  else [c]

def quoted (s : String) : List Char := '"' :: s.toList.flatMap escaped ++ ['"']

/-- A number; `ryu` writes the floating-point ones. -/
def numberText (ryu : UInt64 → List Char) : JsonNumber → List Char
  | .posInt n => Nat.toDigits 10 n.toNat
  | .negInt n => (toString n.toInt).toList
  | .float bits => ryu bits

mutual

def text (ryu : UInt64 → List Char) : Json → List Char
  | .null => "null".toList
  | .bool b => if b then "true".toList else "false".toList
  | .number n => numberText ryu n
  | .string s => quoted s
  | .array values => '[' :: textOfValues ryu values ++ [']']
  | .object fields => '\x7b' :: textOfFields ryu fields ++ ['\x7d']

def textOfValues (ryu : UInt64 → List Char) : List Json → List Char
  | [] => []
  | [value] => text ryu value
  | value :: rest => text ryu value ++ ',' :: textOfValues ryu rest

def textOfFields (ryu : UInt64 → List Char) : List (String × Json) → List Char
  | [] => []
  | [(key, value)] => quoted key ++ ':' :: text ryu value
  | (key, value) :: rest => quoted key ++ ':' :: text ryu value ++ ',' :: textOfFields ryu rest

end

/-! ## Lengths -/

/-- The length of a text in bytes. -/
def byteSize (cs : List Char) : Nat := (cs.map Char.utf8Size).sum

@[simp] theorem byteSize_nil : byteSize [] = 0 := rfl

@[simp] theorem byteSize_cons (c : Char) (cs : List Char) :
    byteSize (c :: cs) = c.utf8Size + byteSize cs := List.sum_cons

@[simp] theorem byteSize_append (front back : List Char) :
    byteSize (front ++ back) = byteSize front + byteSize back := by
  rw [byteSize, List.map_append, List.sum_append]
  rfl

/-- The number of decimal digits of a byte. -/
def digitCount (b : UInt8) : Nat := if b < 10 then 1 else if b < 100 then 2 else 3

/-- The number of decimal digits of all bytes. -/
def digitsOf (bytes : Bytes) : Nat := (bytes.map digitCount).sum

theorem digitsOf_append (front back : Bytes) :
    digitsOf (front ++ back) = digitsOf front + digitsOf back := by
  rw [digitsOf, List.map_append, List.sum_append]
  rfl

theorem byteSize_digit {n : Nat} (hDigit : n < 10) : byteSize (Nat.toDigits 10 n) = 1 := by
  have hDigits : ∀ n < 10, (Nat.digitChar n).utf8Size = 1 := by decide
  rw [Nat.toDigits_of_lt_base hDigit, byteSize_cons, byteSize_nil, hDigits n hDigit]

/-- One digit more for each factor of ten. -/
theorem byteSize_toDigits {n : Nat} (hMore : 10 ≤ n) :
    byteSize (Nat.toDigits 10 n) = byteSize (Nat.toDigits 10 (n / 10)) + 1 := by
  have hDigits : ∀ n < 10, (Nat.digitChar n).utf8Size = 1 := by decide
  rw [Nat.toDigits_of_base_le (by omega) hMore, byteSize_append, byteSize_cons, byteSize_nil,
    hDigits _ (Nat.mod_lt n (by omega))]

theorem byteSize_byte (ryu : UInt64 → List Char) (b : UInt8) :
    byteSize (text ryu (.number (.posInt b.toUInt64))) = digitCount b := by
  have hByte : b.toNat < 256 := b.toNat_lt
  rw [text, numberText, UInt8.toNat_toUInt64]
  unfold digitCount
  by_cases hOne : b < 10
  · have hOne' : b.toNat < 10 := UInt8.lt_iff_toNat_lt.mp hOne
    rw [if_pos hOne, byteSize_digit hOne']
  · have hOne' : 10 ≤ b.toNat := UInt8.le_iff_toNat_le.mp (UInt8.not_lt.mp hOne)
    rw [if_neg hOne, byteSize_toDigits hOne']
    by_cases hTwo : b < 100
    · have hTwo' : b.toNat < 100 := UInt8.lt_iff_toNat_lt.mp hTwo
      rw [if_pos hTwo, byteSize_digit (by omega)]
    · have hTwo' : 100 ≤ b.toNat := UInt8.le_iff_toNat_le.mp (UInt8.not_lt.mp hTwo)
      rw [if_neg hTwo, byteSize_toDigits (by omega), byteSize_digit (by omega)]

/-- The text of a byte string: two brackets, the digits of each byte and the commas. -/
theorem byteSize_ofBytes (ryu : UInt64 → List Char) {bytes : Bytes} (hSome : bytes ≠ []) :
    byteSize (text ryu (ofBytes bytes)) = digitsOf bytes + bytes.length + 1 := by
  have hValues : ∀ bytes : Bytes, bytes ≠ [] →
      byteSize (textOfValues ryu (bytes.map fun b => .number (.posInt b.toUInt64))) + 1 =
        digitsOf bytes + bytes.length := by
    intro bytes hSome
    induction bytes with
    | nil => exact absurd rfl hSome
    | cons b rest ih =>
      cases rest with
      | nil =>
        rw [List.map_cons, List.map_nil, textOfValues, byteSize_byte]
        rfl
      | cons next others =>
        have hRest := ih (List.cons_ne_nil next others)
        rw [List.map_cons] at hRest ⊢
        rw [List.map_cons, textOfValues, byteSize_append, byteSize_cons, byteSize_byte]
        · have hComma : ','.utf8Size = 1 := rfl
          have hDigits : digitsOf (b :: next :: others) =
              digitCount b + digitsOf (next :: others) := List.sum_cons
          rw [hComma, hDigits, List.length_cons]
          omega
        · rintro ⟨⟩
  have hBrackets : '['.utf8Size = 1 ∧ ']'.utf8Size = 1 := ⟨rfl, rfl⟩
  rw [ofBytes, text, List.cons_append, byteSize_cons, byteSize_append, byteSize_cons,
    byteSize_nil, hBrackets.1, hBrackets.2]
  have hDigits := hValues bytes hSome
  omega

end Json

end CipherCli
