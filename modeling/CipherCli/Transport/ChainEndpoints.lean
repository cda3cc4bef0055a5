import CipherCli.Library.UrlSyntax
import CipherCli.Transport.ConnectionLoop

/-!
# Endpoints from the chain

`endpoint_to_http_relay` of `network_bundle.rs` on the multiaddrs of validators. It
scans the components for an address and a port and joins them with a colon, which
makes a URL of an IPv4 address and none of an IPv6 address.
-/

namespace CipherCli.Transport

open Library

/-- The loop over the components: the address and the port found so far. -/
def scanParts : List (List Char) → Option (List Char) × List Char →
    Option (List Char) × List Char
  | part :: next :: rest, (ip, port) =>
    if part = "ip4".toList ∨ part = "ip6".toList then scanParts rest (some next, port)
    else if part = "tcp".toList then scanParts rest (ip, next)
    else scanParts (next :: rest) (ip, port)
  -- a component without a next one is passed over
  | [_], found => found
  | [], found => found

/-- `endpoint_to_http_relay`. -/
def endpointToHttpRelay (endpoint : String) : Option String :=
  let endpoint := trim endpoint
  if endpoint = [] then none
  else if "http://".toList.isPrefixOf endpoint || "https://".toList.isPrefixOf endpoint then
    some (String.ofList (trimSlashes endpoint))
  else
    let parts := (endpoint.splitOn '/').filter (· ≠ [])
    let (ip, port) := scanParts parts (none, "4002".toList)
    ip.map fun host => String.ofList ("http://".toList ++ (host ++ ':' :: port))

/-! ## Multiaddrs -/

inductive IpFamily
  | ip4
  | ip6
  deriving DecidableEq

namespace IpFamily

def key : IpFamily → List Char
  | ip4 => "ip4".toList
  | ip6 => "ip6".toList

def IsLiteral : IpFamily → List Char → Prop
  | ip4 => IsIpv4
  | ip6 => IsIpv6

end IpFamily

/-- A component that the scanner acts on. -/
def IsKey (part : List Char) : Prop :=
  part = "ip4".toList ∨ part = "ip6".toList ∨ part = "tcp".toList

/-- A multiaddr that starts with an IP address and, where it has one, a TCP port, followed by
any components that are neither. -/
structure Multiaddr where
  family : IpFamily
  host : List Char
  literal : family.IsLiteral host
  port : Option UInt16
  more : List (List Char)
  others : ∀ part ∈ more, part ≠ [] ∧ '/' ∉ part ∧ ¬ IsKey part

namespace Multiaddr

variable (addr : Multiaddr)

/-- The components with the address and the port. -/
def head : List (List Char) :=
  addr.family.key :: addr.host ::
    (match addr.port with
      | some port => ["tcp".toList, Nat.toDigits 10 port.toNat]
      | none => [])

/-- Each component after a slash. -/
def join (parts : List (List Char)) : List Char := parts.flatMap fun part => '/' :: part

def text : String := String.ofList (join (addr.head ++ addr.more))

end Multiaddr

/-- The base is an `http` URL, and with any path behind it one of the same host and port. -/
def Reaches (base : Option String) (host : List Char) (port : Nat) : Prop :=
  ∃ url, base = some url ∧
    ∀ path, IsPath path → IsHttpUrl (url.toList ++ path) host port path

namespace Multiaddr

/-! ## The scan -/

theorem scanParts_other {part : List Char} (hOther : ¬ IsKey part) (rest : List (List Char))
    (found : Option (List Char) × List Char) :
    scanParts (part :: rest) found = scanParts rest found := by
  unfold IsKey at hOther
  rw [not_or, not_or] at hOther
  obtain ⟨ip, port⟩ := found
  cases rest with
  | nil => rfl
  | cons next rest =>
    rw [scanParts, if_neg (not_or.mpr ⟨hOther.1, hOther.2.1⟩), if_neg hOther.2.2]

/-- Components of which only the last may be a key leave what is found. -/
theorem scanParts_others {parts : List (List Char)}
    (hOthers : ∀ part ∈ parts.dropLast, ¬ IsKey part)
    (found : Option (List Char) × List Char) : scanParts parts found = found := by
  induction parts with
  | nil => rfl
  | cons part rest ih =>
    cases rest with
    | nil => rfl
    | cons next rest =>
      have hFirst : ¬ IsKey part := hOthers part (by simp)
      rw [scanParts_other hFirst]
      exact ih fun other hOther => hOthers other (by
        rw [List.dropLast_cons_cons]
        exact List.mem_cons_of_mem _ hOther)

/-- The port that the URL should have. -/
def portText (addr : Multiaddr) : List Char :=
  match addr.port with
  | some port => Nat.toDigits 10 port.toNat
  | none => "4002".toList

theorem scanParts_head (addr : Multiaddr) {tail : List (List Char)}
    (hTail : ∀ part ∈ tail.dropLast, ¬ IsKey part) :
    scanParts (addr.head ++ tail) (none, "4002".toList) = (some addr.host, addr.portText) := by
  have hKey : addr.family.key = "ip4".toList ∨ addr.family.key = "ip6".toList := by
    cases addr.family
    · exact Or.inl rfl
    · exact Or.inr rfl
  unfold head portText
  cases addr.port with
  | none =>
    rw [List.cons_append, List.cons_append, List.nil_append, scanParts, if_pos hKey]
    exact scanParts_others hTail _
  | some port =>
    rw [List.cons_append, List.cons_append, scanParts, if_pos hKey, List.cons_append,
      List.cons_append, List.nil_append, scanParts, if_neg (by decide), if_pos rfl]
    exact scanParts_others hTail _

/-! ## The components of the trimmed text -/

theorem join_append (front back : List (List Char)) :
    join (front ++ back) = join front ++ join back := List.flatMap_append

/-- Splitting a text at the slashes finds the components that were joined. -/
theorem splitOn_join {parts : List (List Char)} (hParts : ∀ part ∈ parts, '/' ∉ part)
    {first : List Char} (hFirst : '/' ∉ first) :
    (first ++ join parts).splitOn '/' = first :: parts := by
  induction parts generalizing first with
  | nil =>
    rw [join, List.flatMap_nil, List.append_nil]
    exact List.splitOn_eq_singleton hFirst
  | cons part rest ih =>
    have hJoin : join (part :: rest) = '/' :: (part ++ join rest) := rfl
    rw [hJoin, List.splitOn_append_cons_self_of_not_mem hFirst,
      ih (fun other hOther => hParts other (List.mem_cons_of_mem _ hOther))
        (hParts part List.mem_cons_self)]

/-- The white space at the end taken off. -/
def trimEnd (cs : List Char) : List Char := (cs.reverse.dropWhile isWhitespace).reverse

theorem trimEnd_of_no_space {cs : List Char} (hSpace : ∀ c ∈ cs, isWhitespace c = false) :
    trimEnd cs = cs := by
  unfold trimEnd
  cases hReverse : cs.reverse with
  | nil => rw [List.dropWhile_nil, ← hReverse, List.reverse_reverse]
  | cons last rest =>
    have hLast := hSpace last (List.mem_reverse.mp (by rw [hReverse]; exact List.mem_cons_self))
    rw [List.dropWhile_cons_of_neg (by rw [hLast]; exact Bool.false_ne_true), ← hReverse,
      List.reverse_reverse]

/-- Only the last component can lose white space. -/
theorem trim_join (parts : List (List Char)) (last : List Char) :
    trim (String.ofList (join (parts ++ [last]))) = join (parts ++ [trimEnd last]) := by
  have hSlash : isWhitespace '/' = false := by decide
  have hKept : ∀ rest, ('/' :: rest).dropWhile isWhitespace = '/' :: rest := by
    intro rest
    exact List.dropWhile_cons_of_neg (by rw [hSlash]; exact Bool.false_ne_true)
  have hLead : ∀ rest, (join parts ++ '/' :: rest).dropWhile isWhitespace =
      join parts ++ '/' :: rest := by
    intro rest
    cases parts with
    | nil => exact hKept rest
    | cons part others => exact hKept _
  have hJoin : ∀ end', join (parts ++ [end']) = join parts ++ '/' :: end' := by
    intro end'
    rw [join_append, join, join, List.flatMap_singleton]
  rw [trim, String.toList_ofList, hJoin, hLead, hJoin, trimEnd, List.reverse_append,
    List.reverse_cons, List.append_assoc, List.singleton_append, List.dropWhile_append]
  split
  · rename_i hEmpty
    rw [List.isEmpty_iff.mp hEmpty, hKept, List.reverse_cons, List.reverse_reverse]
    rfl
  · rw [List.reverse_append, List.reverse_cons, List.reverse_reverse, List.append_assoc]
    rfl

/-- A component without slashes and white space. -/
def Plain (part : List Char) : Prop :=
  part ≠ [] ∧ ∀ c ∈ part, c ≠ '/' ∧ isWhitespace c = false

theorem Plain.no_slash {part : List Char} (hPlain : Plain part) : '/' ∉ part :=
  fun hMem => (hPlain.2 '/' hMem).1 rfl

theorem plain_of_all {part : List Char} (hFull : part ≠ [])
    (hAll : (part.all fun c => c != '/' && !isWhitespace c) = true) : Plain part := by
  refine ⟨hFull, ?_⟩
  intro c hc
  have hChar := List.all_eq_true.mp hAll c hc
  simpa using hChar

theorem isWhitespace_of_printable {c : Char} (hLow : 33 ≤ c.toNat) (hHigh : c.toNat ≤ 126) :
    isWhitespace c = false := by
  unfold isWhitespace
  simp
  omega

theorem plain_char_of_isHex {c : Char} (hHex : IsHex c) : c ≠ '/' ∧ isWhitespace c = false := by
  obtain ⟨n, hDigit⟩ := Option.isSome_iff_exists.mp hHex
  have hRange : 48 ≤ c.toNat ∧ c.toNat ≤ 102 := by
    unfold hexDigit? at hDigit
    split_ifs at hDigit <;> omega
  refine ⟨?_, isWhitespace_of_printable (by omega) (by omega)⟩
  rintro rfl
  exact absurd hRange.1 (by decide)

theorem plain_of_digits {part : List Char} (hFull : part ≠ []) (hDigits : ∀ c ∈ part, c.isDigit) :
    Plain part :=
  ⟨hFull, fun c hc => plain_char_of_isHex (isHex_of_isDigit (hDigits c hc))⟩

theorem plain_of_ipv6Chars {part : List Char} (hFull : part ≠ [])
    (hChars : ∀ c ∈ part, IsIpv6Char c) : Plain part := by
  refine ⟨hFull, ?_⟩
  intro c hc
  rcases hChars c hc with hHex | rfl | rfl
  · exact plain_char_of_isHex hHex
  · decide
  · decide

theorem literal_plain (addr : Multiaddr) : Plain addr.host := by
  have hLiteral := addr.literal
  cases hFamily : addr.family with
  | ip4 =>
    rw [hFamily] at hLiteral
    apply plain_of_ipv6Chars (ipv4_ne_nil hLiteral)
    intro c hc
    rcases ipv4_chars hLiteral c hc with hDigit | hPoint
    · exact Or.inl (isHex_of_isDigit hDigit)
    · exact Or.inr (Or.inr hPoint)
  | ip6 =>
    rw [hFamily] at hLiteral
    apply plain_of_ipv6Chars _ (ipv6_chars hLiteral)
    intro hNil
    have hColon := colon_mem_ipv6 hLiteral
    rw [hNil] at hColon
    cases hColon

theorem toDigits_plain (n : Nat) : Plain (Nat.toDigits 10 n) :=
  plain_of_digits (by simp) fun c hc => Nat.isDigit_of_mem_toDigits (by omega) (by omega) hc

theorem head_plain (addr : Multiaddr) : ∀ part ∈ addr.head, Plain part := by
  have hKey : Plain addr.family.key := by
    cases addr.family <;> exact plain_of_all (by decide) (by decide)
  intro part hPart
  unfold head at hPart
  rcases List.mem_cons.mp hPart with rfl | hPart
  · exact hKey
  · rcases List.mem_cons.mp hPart with rfl | hPart
    · exact addr.literal_plain
    · cases hPort : addr.port with
      | none =>
        rw [hPort] at hPart
        cases hPart
      | some port =>
        rw [hPort] at hPart
        rcases List.mem_cons.mp hPart with rfl | hPart
        · exact plain_of_all (by decide) (by decide)
        · rw [List.mem_singleton.mp hPart]
          exact toDigits_plain _

theorem filter_full {parts : List (List Char)} (hFull : ∀ part ∈ parts, part ≠ []) :
    parts.filter (· ≠ []) = parts :=
  List.filter_eq_self.mpr fun part hPart => decide_eq_true (hFull part hPart)

theorem splitOn_join_full {parts : List (List Char)} (hParts : ∀ part ∈ parts, '/' ∉ part) :
    ((join parts).splitOn '/').filter (· ≠ []) = parts.filter (· ≠ []) := by
  have hSplit := @splitOn_join parts hParts [] List.not_mem_nil
  rw [List.nil_append] at hSplit
  rw [hSplit]
  rfl

theorem not_mem_trimEnd {c : Char} {cs : List Char} (hNot : c ∉ cs) : c ∉ trimEnd cs := by
  intro hMem
  have hReverse := (List.dropWhile_sublist isWhitespace).subset (List.mem_reverse.mp hMem)
  exact hNot (List.mem_reverse.mp hReverse)

/-- The components that are scanned: the head, and others of which only the last, which lost
its white space, may read like a key. -/
theorem parts_text (addr : Multiaddr) :
    (∃ rest, trim addr.text = '/' :: rest) ∧
      ∃ tail, ((trim addr.text).splitOn '/').filter (· ≠ []) = addr.head ++ tail ∧
        ∀ part ∈ tail.dropLast, ¬ IsKey part := by
  have hHead := addr.head_plain
  rcases List.eq_nil_or_concat addr.more with hMore | ⟨init, last, hMore⟩
  · have hNonempty : addr.head ≠ [] := List.cons_ne_nil _ _
    have hTrim : trim addr.text = join addr.head := by
      have hLast := hHead _ (List.getLast_mem hNonempty)
      rw [text, hMore, List.append_nil, ← List.dropLast_append_getLast hNonempty, trim_join,
        trimEnd_of_no_space fun c hc => (hLast.2 c hc).2]
    rw [hTrim]
    refine ⟨⟨_, rfl⟩, [], ?_, fun part hPart => absurd hPart List.not_mem_nil⟩
    rw [splitOn_join_full fun part hPart => (hHead part hPart).no_slash,
      filter_full fun part hPart => (hHead part hPart).1, List.append_nil]
  · rw [List.concat_eq_append] at hMore
    have hInit : ∀ part ∈ init, part ≠ [] ∧ '/' ∉ part ∧ ¬ IsKey part := by
      intro part hPart
      exact addr.others part (by rw [hMore]; exact List.mem_append_left _ hPart)
    have hLast := addr.others last (by rw [hMore]; exact List.mem_append_right _ List.mem_cons_self)
    have hTrim : trim addr.text = join (addr.head ++ init ++ [trimEnd last]) := by
      rw [text, hMore, ← List.append_assoc, trim_join]
    rw [hTrim]
    refine ⟨⟨_, rfl⟩, init ++ [trimEnd last].filter (· ≠ []), ?_, ?_⟩
    · have hSlash : ∀ part ∈ addr.head ++ init ++ [trimEnd last], '/' ∉ part := by
        intro part hPart
        rcases List.mem_append.mp hPart with hFront | hEnd
        · rcases List.mem_append.mp hFront with hIn | hIn
          · exact (hHead part hIn).no_slash
          · exact (hInit part hIn).2.1
        · rw [List.mem_singleton.mp hEnd]
          exact not_mem_trimEnd hLast.2.1
      rw [splitOn_join_full hSlash, List.filter_append, List.filter_append,
        filter_full fun part hPart => (hHead part hPart).1,
        filter_full fun part hPart => (hInit part hPart).1, List.append_assoc]
    · intro part hPart
      apply (hInit part _).2.2
      by_cases hEmpty : trimEnd last = []
      · rw [List.filter_cons_of_neg (by simpa using hEmpty), List.filter_nil,
          List.append_nil] at hPart
        exact List.mem_of_mem_dropLast hPart
      · rw [List.filter_cons_of_pos (by simpa using hEmpty), List.filter_nil,
          List.dropLast_concat] at hPart
        exact hPart

/-- What the function makes of a multiaddr. -/
theorem endpointToHttpRelay_text (addr : Multiaddr) :
    endpointToHttpRelay addr.text =
      some (String.ofList ("http://".toList ++ (addr.host ++ ':' :: addr.portText))) := by
  obtain ⟨⟨rest, hSlash⟩, tail, hParts, hTail⟩ := addr.parts_text
  have hScheme : ("http://".toList.isPrefixOf (trim addr.text) ||
      "https://".toList.isPrefixOf (trim addr.text)) = false := by
    rw [hSlash]
    rfl
  unfold endpointToHttpRelay
  dsimp only
  rw [if_neg (by rw [hSlash]; exact List.cons_ne_nil _ _), hScheme, hParts,
    scanParts_head addr hTail]
  rfl

theorem portText_digits (addr : Multiaddr) :
    addr.portText ≠ [] ∧ (∀ c ∈ addr.portText, c.isDigit) ∧
      Nat.ofDigitChars 10 addr.portText 0 = (addr.port.getD 4002).toNat := by
  unfold portText
  cases addr.port with
  | none => exact ⟨by decide, List.all_eq_true.mp (by decide), by decide⟩
  | some port =>
    refine ⟨by simp, fun c hc => Nat.isDigit_of_mem_toDigits (by omega) (by omega) hc, ?_⟩
    exact Nat.ofDigitChars_toDigits (by omega) (by omega)

end Multiaddr

open Multiaddr

/-- The base of a multiaddr reaches its host and port exactly when the host is an IPv4
address. -/
theorem endpointToHttpRelay_reaches_iff (addr : Multiaddr) :
    Reaches (endpointToHttpRelay addr.text) addr.host (addr.port.getD 4002).toNat ↔
      addr.family = .ip4 := by
  have hLiteral := addr.literal
  rw [addr.endpointToHttpRelay_text]
  constructor
  · rintro ⟨url, hUrl, hReaches⟩
    by_contra hOther
    have hFamily : addr.family = .ip6 := by
      cases hCase : addr.family with
      | ip4 => exact absurd hCase hOther
      | ip6 => rfl
    rw [hFamily] at hLiteral
    have hBase := hReaches [] (Or.inl rfl)
    rw [← Option.some.inj hUrl, String.toList_ofList, List.append_nil] at hBase
    exact not_isHttpUrl_bare_ipv6 hLiteral hBase
  · intro hFamily
    rw [hFamily] at hLiteral
    obtain ⟨hFull, hDigits, hPort⟩ := addr.portText_digits
    refine ⟨_, rfl, ?_⟩
    intro path hPath
    refine ⟨addr.host, addr.portText, ?_, hFull, hDigits, hPort, hPath, ?_⟩
    · exact .name (ipv4_ne_nil hLiteral) (isNameChar_of_ipv4 hLiteral)
    · rw [String.toList_ofList, List.append_assoc, List.append_assoc, List.cons_append]

theorem exampleHost_isIpv6 :
    IsIpv6 (['2', '0', '0', '1'] ++ ':' :: ['d', 'b', '8'] ++ ':' :: ':' :: ['1']) := by
  have hGroup : ∀ group : List Char, group ≠ [] → group.length ≤ 4 →
      (group.all fun c => (hexDigit? c).isSome) → IsHexGroup group := by
    intro group hFull hLength hHex
    exact ⟨hFull, hLength, fun c hc => List.all_eq_true.mp hHex c hc⟩
  have hLeft : HexGroups 2 (['2', '0', '0', '1'] ++ ':' :: ['d', 'b', '8']) :=
    .more (hGroup _ (by decide) (by decide) (by decide))
      (.one (hGroup _ (by decide) (by decide) (by decide)))
  have hRight : MixedGroups 1 ['1'] := .one (hGroup _ (by decide) (by decide) (by decide))
  exact .compressed (Or.inr hLeft) (Or.inr hRight) (by omega)

/-- A validator at `/ip6/2001:db8::1/tcp/4002`. -/
def ipv6Validator : Multiaddr where
  family := .ip6
  host := ['2', '0', '0', '1'] ++ ':' :: ['d', 'b', '8'] ++ ':' :: ':' :: ['1']
  literal := exampleHost_isIpv6
  port := some 4002
  more := []
  others := nofun

/-- The colon before its port is one of many, and the text is no URL of the host. -/
theorem ipv6_validator_unreachable :
    endpointToHttpRelay ipv6Validator.text = some "http://2001:db8::1:4002" ∧
      ¬ Reaches (endpointToHttpRelay ipv6Validator.text) ipv6Validator.host 4002 := by
  have hBase : endpointToHttpRelay ipv6Validator.text = some (String.ofList
      ("http://".toList ++ (ipv6Validator.host ++ ':' :: ipv6Validator.portText))) :=
    ipv6Validator.endpointToHttpRelay_text
  constructor
  · rw [hBase]
    rfl
  · rintro ⟨url, hUrl, hReaches⟩
    have hSelf := hReaches [] (Or.inl rfl)
    rw [hBase] at hUrl
    rw [← Option.some.inj hUrl, String.toList_ofList, List.append_nil] at hSelf
    exact not_isHttpUrl_bare_ipv6 exampleHost_isIpv6 hSelf

end CipherCli.Transport
