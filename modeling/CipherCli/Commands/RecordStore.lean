import CipherCli.Library.Containers
import CipherCli.Registry.UsernameRegistry
import CipherCli.Rpc.TksRpcClient

/-!
# Records in a file

The group command and the channel command keep their records in a JSON file each, which an
action loads before it looks at it and writes as a whole. JSON, SHA-256 and the Unicode
tables are parameters; what the system does with the file is an argument of the action.
-/

namespace CipherCli.Commands

open Library Registry Rpc Std

/-- The records of a file, by their ids. -/
abbrev Records (R : Type) := ExtTreeMap String R

structure RecordCrates (R : Type) where
  unicode : Unicode
  sha256 : Bytes → Bytes32
  /-- `serde_json::from_str` -/
  parse : String → Except String (Records R)
  /-- `serde_json::to_string_pretty` -/
  print : Records R → Except String String

/-- What is printed can be parsed, and no beginning of it can. -/
structure RecordCrates.Lawful {R : Type} (crates : RecordCrates R) : Prop where
  parse_print : ∀ records data, crates.print records = .ok data → crates.parse data = .ok records
  parse_cut : ∀ records data n text, crates.print records = .ok data →
    fromUtf8 ((utf8 data).dropLast.take n) = some text → (crates.parse text).toOption = none

/-- How `fs::write` ends; the texts are those of the system. -/
inductive WriteEnd
  | written
  /-- It stops after so many bytes, short of all of them. -/
  | torn (length : Nat) (error : String)
  /-- The file is not opened. -/
  | refused (error : String)
  deriving DecidableEq, Repr

/-- What a write leaves in a file that it opens. -/
def WriteEnd.leaves (contents : Bytes) : WriteEnd → Option Bytes
  | .written => some contents
  | .torn length _ => some (contents.dropLast.take length)
  | .refused _ => none

/-- Who runs an action, and what it meets. -/
structure Surroundings where
  /-- `get_identity`, with the address of the identity -/
  identity : Except String String
  /-- `resolve_recipient` -/
  resolve : String → Except RpcPanic (Except String String)
  /-- the time in the id of a new record, and the one in the record -/
  idTime : Int64
  recordTime : Int64
  readable : Bool
  write : WriteEnd

/-- What an action returns, what it leaves in the file and which texts it sends to whom. -/
structure Outcome where
  result : Except RpcPanic (Except String Unit)
  file : Option Bytes
  sent : List (String × String)

/-- The action ends and leaves the file alone. -/
def Outcome.untouched (result : Except String Unit) (file : Option Bytes) : Outcome where
  result := .ok result
  file
  sent := []

section Functions

variable {R : Type} (crates : RecordCrates R)

/-- The records in a file that can be read as text and parsed. -/
def records (file : Option Bytes) : Option (Records R) :=
  file.bind fun bytes => (fromUtf8 bytes).bind fun data => (crates.parse data).toOption

/-- `load_groups` and `load_channels`: no records where they cannot be read. -/
def load (readable : Bool) (file : Option Bytes) : Records R :=
  if readable then (records crates file).getD ∅ else ∅

/-- `save_groups` and `save_channels`; `what` is the word of their error texts. -/
def save (what : String) (after : Records R) (write : WriteEnd) (file : Option Bytes) :
    Except String Unit × Option Bytes :=
  match crates.print after with
  | .error error => (.error s!"Failed to serialize {what}: {error}", file)
  | .ok data =>
    match write with
    | .written => (.ok (), some (utf8 data))
    | .torn length error =>
      (.error s!"Failed to write {what}: {error}", some ((utf8 data).dropLast.take length))
    | .refused error => (.error s!"Failed to write {what}: {error}", file)

/-- An action that saves and then sends; an error of the save ends it. -/
def saveAndSend (what : String) (after : Records R) (env : Surroundings) (file : Option Bytes)
    (sent : List (String × String)) : Outcome :=
  match save crates what after env.write file with
  | (.error error, left) => .untouched (.error error) left
  | (.ok (), left) => { result := .ok (.ok ()), file := left, sent }

/-- Equal up to letter case. -/
def SameAddress (unicode : Unicode) (a b : String) : Prop :=
  unicode.toLowercase a = unicode.toLowercase b

instance (unicode : Unicode) : DecidableRel (SameAddress unicode) :=
  fun _ _ => inferInstanceAs (Decidable (_ = _))

/-- `md5_hash` and `hash_str`: the first half of a SHA-256 digest. -/
def halfHash (text : String) : Bytes := (crates.sha256 (utf8 text)).toList.take 16

/-- The first eight digits of the hash of a name, its owner and a second. -/
def shortId (name owner : String) (time : Int64) : String :=
  String.ofList ((hex (halfHash crates s!"{name}:{owner}:{time.toInt}")).toList.take 8)

/-- The save puts these records into the file. -/
def Saves (env : Surroundings) (after : Records R) : Prop :=
  env.write = .written ∧ ∃ data, crates.print after = .ok data

end Functions

/-! ## What a save leaves -/

section Saves

variable {R : Type} {crates : RecordCrates R} {what : String} {after : Records R}
  {env : Surroundings} {file : Option Bytes} {sent : List (String × String)}

theorem saveAndSend_of_saves (hSaves : Saves crates env after) :
    ∃ data, crates.print after = .ok data ∧ saveAndSend crates what after env file sent =
      { result := .ok (.ok ()), file := some (utf8 data), sent } := by
  obtain ⟨hWrite, data, hPrint⟩ := hSaves
  refine ⟨data, hPrint, ?_⟩
  rw [saveAndSend, save, hPrint, hWrite]

theorem saveAndSend_of_not_saves (hNot : ¬ Saves crates env after) :
    ∃ error, (saveAndSend crates what after env file sent).result = .ok (.error error) := by
  unfold saveAndSend save
  cases hPrint : crates.print after with
  | error error => exact ⟨_, rfl⟩
  | ok data =>
    cases hWrite : env.write with
    | written => exact absurd ⟨hWrite, data, hPrint⟩ hNot
    | torn length error => exact ⟨_, rfl⟩
    | refused error => exact ⟨_, rfl⟩

theorem records_utf8 (data : String) :
    records crates (some (utf8 data)) = (crates.parse data).toOption := by
  rw [records, Option.bind_some, fromUtf8_utf8, Option.bind_some]

theorem records_of_saves (hLawful : crates.Lawful) (hSaves : Saves crates env after) :
    records crates (saveAndSend crates what after env file sent).file = some after := by
  obtain ⟨data, hPrint, hSave⟩ := @saveAndSend_of_saves _ _ what _ _ file sent hSaves
  rw [hSave, records_utf8, hLawful.parse_print after data hPrint]
  rfl

/-- The file holds what the write of the printed records leaves, if it comes to that. -/
theorem saveAndSend_file (crates : RecordCrates R) (what : String) (after : Records R)
    (env : Surroundings) (file : Option Bytes) (sent : List (String × String)) :
    (saveAndSend crates what after env file sent).file =
      ((crates.print after).toOption.bind fun data => env.write.leaves (utf8 data)).or file := by
  unfold saveAndSend save
  cases crates.print after with
  | error error => rfl
  | ok data =>
    cases env.write with
    | written => rfl
    | torn length error => rfl
    | refused error => rfl

/-- A torn file has no records. -/
theorem records_of_torn (hLawful : crates.Lawful) {data : String}
    (hPrint : crates.print after = .ok data) (length : Nat) :
    records crates (some ((utf8 data).dropLast.take length)) = none := by
  rw [records, Option.bind_some, Option.bind_eq_none_iff]
  intro text hText
  exact hLawful.parse_cut after data length text hPrint hText

/-- A save that fails leaves the file as it was, or nothing that can be parsed. -/
theorem records_of_not_saves (hLawful : crates.Lawful) (hNot : ¬ Saves crates env after) :
    (saveAndSend crates what after env file sent).file = file ∨
      records crates (saveAndSend crates what after env file sent).file = none := by
  unfold saveAndSend save
  cases hPrint : crates.print after with
  | error error => exact .inl rfl
  | ok data =>
    cases hWrite : env.write with
    | written => exact absurd ⟨hWrite, data, hPrint⟩ hNot
    | refused error => exact .inl rfl
    | torn length error => exact .inr (records_of_torn hLawful hPrint length)

end Saves

/-! ## A stand-in for concrete runs -/

/-- Crates that know the texts of a few stores. -/
def tableCrates {R : Type} [DecidableEq R] (table : List (String × Records R)) :
    RecordCrates R where
  unicode := .ascii
  sha256 := prefixHash
  parse text :=
    match table.find? fun entry => entry.1 = text with
    | some entry => .ok entry.2
    | none => .error "expected value at line 1 column 1"
  print records :=
    match table.find? fun entry => entry.2 = records with
    | some entry => .ok entry.1
    | none => .error "key must be a string"

theorem tableCrates_print {R : Type} [DecidableEq R] {table : List (String × Records R)}
    {records : Records R} {data : String} (hPrint : (tableCrates table).print records = .ok data) :
    (data, records) ∈ table := by
  change (match table.find? fun entry => entry.2 = records with
    | some entry => Except.ok entry.1
    | none => .error "key must be a string") = Except.ok data at hPrint
  cases hFind : table.find? fun entry => entry.2 = records with
  | none =>
    rw [hFind] at hPrint
    cases hPrint
  | some entry =>
    rw [hFind] at hPrint
    have hEntry : entry.2 = records := by simpa using List.find?_some hFind
    obtain rfl := Except.ok.inj hPrint
    rw [← hEntry]
    exact List.mem_of_find?_eq_some hFind

theorem tableCrates_parse {R : Type} [DecidableEq R] {table : List (String × Records R)}
    {text : String} {records : Records R} (hParse : (tableCrates table).parse text = .ok records) :
    (text, records) ∈ table := by
  change (match table.find? fun entry => entry.1 = text with
    | some entry => Except.ok entry.2
    | none => .error "expected value at line 1 column 1") = Except.ok records at hParse
  cases hFind : table.find? fun entry => entry.1 = text with
  | none =>
    rw [hFind] at hParse
    cases hParse
  | some entry =>
    rw [hFind] at hParse
    have hEntry : entry.1 = text := by simpa using List.find?_some hFind
    obtain rfl := Except.ok.inj hParse
    rw [← hEntry]
    exact List.mem_of_find?_eq_some hFind

theorem tableCrates_load {R : Type} [DecidableEq R] (text : String) (found : Records R) :
    load (tableCrates [(text, found)]) true (some (utf8 text)) = found := by
  rw [load, if_pos rfl, records_utf8]
  simp [tableCrates, Except.toOption]

theorem tableCrates_print_entry {R : Type} [DecidableEq R] (text : String) (found : Records R) :
    (tableCrates [(text, found)]).print found = .ok text := by
  simp [tableCrates]

/-- The first identity, with a clock that stands still. -/
def plainSurroundings : Surroundings where
  identity := .ok "0xA"
  resolve text := .ok (.ok text)
  idTime := 0
  recordTime := 0
  readable := true
  write := .written

/-- Different texts of one length, none of them empty, are read as they were printed. -/
theorem tableCrates_lawful {R : Type} [DecidableEq R] {table : List (String × Records R)}
    (hNodup : (table.map Prod.fst).Nodup) (width : Nat)
    (hWidth : ∀ text ∈ table.map Prod.fst, (utf8 text).length = width + 1) :
    (tableCrates table).Lawful where
  parse_print found data hPrint := by
    have hMem := tableCrates_print hPrint
    have hFind : (table.find? fun entry => entry.1 = data) = some (data, found) := by
      rw [List.find?_eq_some_iff_append]
      obtain ⟨before, after, rfl⟩ := List.append_of_mem hMem
      refine ⟨by simp, before, after, rfl, fun entry hBefore => ?_⟩
      rw [List.map_append, List.map_cons] at hNodup
      have hOther := List.disjoint_of_nodup_append hNodup (List.mem_map_of_mem hBefore)
      have hNe : entry.1 ≠ data := fun hSame => hOther (by simp [hSame])
      simpa using hNe
    change (match table.find? fun entry => entry.1 = data with
      | some entry => Except.ok entry.2
      | none => .error "expected value at line 1 column 1") = .ok found
    rw [hFind]
  parse_cut found data n cut hPrint hCut := by
    have hBytes := utf8_of_fromUtf8 hCut
    cases hParse : (tableCrates table).parse cut with
    | error error => rfl
    | ok other =>
      have hData := hWidth data (List.mem_map_of_mem (tableCrates_print hPrint))
      have hText := hWidth cut (List.mem_map_of_mem (tableCrates_parse hParse))
      rw [hBytes, List.length_take, List.length_dropLast] at hText
      omega

end CipherCli.Commands
