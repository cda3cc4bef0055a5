import CipherCli.Library.Hex

/-!
# Hosts in URLs

The texts of IP addresses and the form of an `http` URL with a host, a port and a
path. A host stands in a URL as it is when it is a name; an IPv6 address, which has
colons, stands between brackets.
-/

namespace CipherCli.Library

/-- Dotted decimal. -/
def ipv4Text (a b c d : UInt8) : List Char :=
  Nat.toDigits 10 a.toNat ++ '.' :: (Nat.toDigits 10 b.toNat ++ '.' ::
    (Nat.toDigits 10 c.toNat ++ '.' :: Nat.toDigits 10 d.toNat))

def IsIpv4 (host : List Char) : Prop := ∃ a b c d, host = ipv4Text a b c d

/-- A group of one to four hexadecimal digits. -/
def IsHexGroup (group : List Char) : Prop :=
  group ≠ [] ∧ group.length ≤ 4 ∧ ∀ c ∈ group, IsHex c

/-- A number of groups with colons between them. -/
inductive HexGroups : Nat → List Char → Prop
  | one {group : List Char} : IsHexGroup group → HexGroups 1 group
  | more {n : Nat} {group rest : List Char} : IsHexGroup group → HexGroups n rest →
      HexGroups (n + 1) (group ++ ':' :: rest)

/-- Groups of which the last two may be written as an IPv4 address. -/
inductive MixedGroups : Nat → List Char → Prop
  | one {group : List Char} : IsHexGroup group → MixedGroups 1 group
  | ipv4 {text : List Char} : IsIpv4 text → MixedGroups 2 text
  | more {n : Nat} {group rest : List Char} : IsHexGroup group → MixedGroups n rest →
      MixedGroups (n + 1) (group ++ ':' :: rest)

/-- An IPv6 address: eight groups, or fewer with `::` for the groups of zeros left out. -/
inductive IsIpv6 : List Char → Prop
  | full {text : List Char} : MixedGroups 8 text → IsIpv6 text
  | compressed {m n : Nat} {left right : List Char} :
      (left = [] ∧ m = 0 ∨ HexGroups m left) → (right = [] ∧ n = 0 ∨ MixedGroups n right) →
        m + n ≤ 7 → IsIpv6 (left ++ ':' :: ':' :: right)

/-- The characters of a registered name: letters, digits, and marks that separate nothing. -/
def isNameChar (c : Char) : Bool := c.isAlphanum || "-._~!$&'()*+,;=%".toList.contains c

/-- How a host is written in a URL. -/
inductive UrlHost : List Char → List Char → Prop
  | name {host : List Char} : host ≠ [] → (∀ c ∈ host, isNameChar c) → UrlHost host host
  | literal {host : List Char} : IsIpv6 host → UrlHost ('[' :: (host ++ [']'])) host

def IsPath (path : List Char) : Prop := path = [] ∨ ∃ rest, path = '/' :: rest

/-- The text is an `http` URL with this host, port and path. -/
def IsHttpUrl (url host : List Char) (port : Nat) (path : List Char) : Prop :=
  ∃ text digits, UrlHost text host ∧ digits ≠ [] ∧ (∀ c ∈ digits, c.isDigit) ∧
    Nat.ofDigitChars 10 digits 0 = port ∧ IsPath path ∧
      url = "http://".toList ++ (text ++ ':' :: (digits ++ path))

/-! ## The characters of an address -/

theorem isHex_of_isDigit {c : Char} (hDigit : c.isDigit) : IsHex c := by
  obtain ⟨hLow, hHigh⟩ := Char.isDigit_iff_toNat.mp hDigit
  unfold IsHex hexDigit?
  rw [if_pos ⟨hLow, hHigh⟩]
  rfl

theorem ipv4_chars {host : List Char} (hHost : IsIpv4 host) :
    ∀ c ∈ host, c.isDigit ∨ c = '.' := by
  obtain ⟨a, b, c, d, rfl⟩ := hHost
  have hOctet : ∀ (n : UInt8), ∀ x ∈ Nat.toDigits 10 n.toNat, x.isDigit ∨ x = '.' :=
    fun n x hx => Or.inl (Nat.isDigit_of_mem_toDigits (by omega) (by omega) hx)
  intro x hx
  simp only [ipv4Text, List.mem_append, List.mem_cons] at hx
  rcases hx with hx | rfl | hx | rfl | hx | rfl | hx
  · exact hOctet a x hx
  · exact Or.inr rfl
  · exact hOctet b x hx
  · exact Or.inr rfl
  · exact hOctet c x hx
  · exact Or.inr rfl
  · exact hOctet d x hx

theorem ipv4_ne_nil {host : List Char} (hHost : IsIpv4 host) : host ≠ [] := by
  obtain ⟨a, b, c, d, rfl⟩ := hHost
  simp [ipv4Text]

theorem isNameChar_of_ipv4 {host : List Char} (hHost : IsIpv4 host) : ∀ c ∈ host, isNameChar c := by
  intro c hc
  rcases ipv4_chars hHost c hc with hDigit | rfl
  · simp [isNameChar, Char.isAlphanum, hDigit]
  · decide

/-- The characters of an IPv6 address. -/
def IsIpv6Char (c : Char) : Prop := IsHex c ∨ c = ':' ∨ c = '.'

theorem hexGroup_chars {group : List Char} (hGroup : IsHexGroup group) :
    ∀ c ∈ group, IsIpv6Char c := fun c hc => Or.inl (hGroup.2.2 c hc)

theorem colon_chars {front back : List Char} (hFront : ∀ c ∈ front, IsIpv6Char c)
    (hBack : ∀ c ∈ back, IsIpv6Char c) : ∀ c ∈ front ++ ':' :: back, IsIpv6Char c := by
  intro c hc
  rcases List.mem_append.mp hc with hFirst | hRest
  · exact hFront c hFirst
  · rcases List.mem_cons.mp hRest with rfl | hLast
    · exact Or.inr (Or.inl rfl)
    · exact hBack c hLast

theorem hexGroups_chars {n : Nat} {text : List Char} (hGroups : HexGroups n text) :
    ∀ c ∈ text, IsIpv6Char c := by
  induction hGroups with
  | one hGroup => exact hexGroup_chars hGroup
  | more hGroup _ ih => exact colon_chars (hexGroup_chars hGroup) ih

theorem mixedGroups_chars {n : Nat} {text : List Char} (hGroups : MixedGroups n text) :
    ∀ c ∈ text, IsIpv6Char c := by
  induction hGroups with
  | one hGroup => exact hexGroup_chars hGroup
  | ipv4 hText =>
    intro c hc
    rcases ipv4_chars hText c hc with hDigit | hPoint
    · exact Or.inl (isHex_of_isDigit hDigit)
    · exact Or.inr (Or.inr hPoint)
  | more hGroup _ ih => exact colon_chars (hexGroup_chars hGroup) ih

theorem ipv6_chars {host : List Char} (hHost : IsIpv6 host) : ∀ c ∈ host, IsIpv6Char c := by
  cases hHost with
  | full hGroups => exact mixedGroups_chars hGroups
  | compressed hLeft hRight _ =>
    apply colon_chars
    · rcases hLeft with ⟨rfl, -⟩ | hGroups
      · exact fun c hc => absurd hc List.not_mem_nil
      · exact hexGroups_chars hGroups
    · apply @colon_chars []
      · exact fun c hc => absurd hc List.not_mem_nil
      · rcases hRight with ⟨rfl, -⟩ | hGroups
        · exact fun c hc => absurd hc List.not_mem_nil
        · exact mixedGroups_chars hGroups

theorem colon_mem_ipv6 {host : List Char} (hHost : IsIpv6 host) : ':' ∈ host := by
  cases hHost with
  | full hGroups =>
    cases hGroups with
    | more hGroup hRest => exact List.mem_append_right _ List.mem_cons_self
  | compressed _ _ _ => exact List.mem_append_right _ List.mem_cons_self

/-- An IPv6 address that stands in a URL as it is does not make one with this host. -/
theorem not_isHttpUrl_bare_ipv6 {host tail path : List Char} {port : Nat}
    (hHost : IsIpv6 host) : ¬ IsHttpUrl ("http://".toList ++ (host ++ tail)) host port path := by
  rintro ⟨text, digits, hText, -, -, -, -, hUrl⟩
  cases hText with
  | name _ hChars =>
    have hColon := hChars ':' (colon_mem_ipv6 hHost)
    exact absurd hColon (by decide)
  | literal _ =>
    have hAfter := List.append_cancel_left hUrl
    cases host with
    | nil => exact absurd (colon_mem_ipv6 hHost) List.not_mem_nil
    | cons first rest =>
      obtain rfl := (List.cons.inj hAfter).1
      have hFirst := ipv6_chars hHost _ List.mem_cons_self
      exact absurd hFirst (by unfold IsIpv6Char IsHex; decide)

end CipherCli.Library
