import CipherCli.Commands.RecordStore
import CipherCli.Library.Runs

/-!
# Received files in the download folder

`recv`, `chat` and `shell` save every file that they show in one folder, under the name that
the sender gave it. The names are cleared of separators, so that each is a single component
of a path. Where it leads can depend on links that are in the folder already.
-/

namespace CipherCli.Commands

open Library Registry

/-! ## Names -/

/-- A name without a separator. -/
structure FileName where
  chars : List Char
  plain : '/' ∉ chars
  deriving DecidableEq

/-- `file_name.replace('/', "_").replace('\\', "_")`. -/
def safeName (fileName : String) : FileName where
  chars := fileName.toList.map fun c => if c = '/' ∨ c = '\\' then '_' else c
  plain := by
    intro hMem
    obtain ⟨c, -, hChar⟩ := List.mem_map.mp hMem
    split at hChar
    · exact absurd hChar (by decide)
    · rename_i hPlain
      exact hPlain (Or.inl hChar)

/-- The characters before and after the last dot. -/
def splitAtLastDot : List Char → Option (List Char × List Char)
  | [] => none
  | c :: rest =>
    match splitAtLastDot rest with
    | some (before, after) => some (c :: before, after)
    | none => if c = '.' then some ([], rest) else none

theorem splitAtLastDot_eq {cs before after : List Char}
    (hSplit : splitAtLastDot cs = some (before, after)) : cs = before ++ '.' :: after := by
  induction cs generalizing before after with
  | nil => cases hSplit
  | cons c rest ih =>
    unfold splitAtLastDot at hSplit
    cases hRest : splitAtLastDot rest with
    | some split =>
      rw [hRest] at hSplit
      obtain ⟨rfl, rfl⟩ := Prod.mk.inj (Option.some.inj hSplit)
      rw [List.cons_append, ← ih hRest]
    | none =>
      rw [hRest] at hSplit
      dsimp only at hSplit
      split at hSplit
      · rename_i hDot
        obtain ⟨rfl, rfl⟩ := Prod.mk.inj (Option.some.inj hSplit)
        rw [hDot, List.nil_append]
      · cases hSplit

/-- `file_stem` and `extension` of the folder joined with a name, the extension with its
dot. -/
def stemAndExtension (cs : List Char) : List Char × List Char :=
  -- such a path ends at the folder itself
  if cs = [] ∨ cs = ['.'] then ("cipher-files".toList, [])
  else if cs = ['.', '.'] then ([], [])
  else
    match splitAtLastDot cs with
    | some ([], _) | none => (cs, [])
    | some (before, after) => (before, '.' :: after)

theorem stemAndExtension_plain {cs : List Char} (hPlain : '/' ∉ cs) :
    '/' ∉ (stemAndExtension cs).1 ∧ '/' ∉ (stemAndExtension cs).2 := by
  unfold stemAndExtension
  split
  · decide
  · split
    · decide
    · split
      · exact ⟨hPlain, List.not_mem_nil⟩
      · exact ⟨hPlain, List.not_mem_nil⟩
      · rename_i before after hNonempty hSplit
        rw [splitAtLastDot_eq hSplit, List.mem_append] at hPlain
        exact not_or.mp hPlain

def twoDigits (n : Nat) : List Char := [Nat.digitChar (n / 10 % 10), Nat.digitChar (n % 10)]

/-- `format("%H%M%S")`. -/
def clock (now : DateTime) : List Char :=
  let second := (now / 10 ^ 9 % 86400).toNat
  twoDigits (second / 3600) ++ twoDigits (second / 60 % 60) ++ twoDigits (second % 60)

theorem twoDigits_plain (n : Nat) : '/' ∉ twoDigits n := by
  have hDigit : ∀ d : Fin 10, Nat.digitChar d ≠ '/' := by decide
  have hTens := hDigit ⟨n / 10 % 10, Nat.mod_lt _ (by decide)⟩
  have hOnes := hDigit ⟨n % 10, Nat.mod_lt _ (by decide)⟩
  simp [twoDigits, hTens.symm, hOnes.symm]

theorem clock_plain (now : DateTime) : '/' ∉ clock now := by
  simp [clock, twoDigits_plain]

/-- The name with the time of day before its extension. -/
def FileName.stamped (name : FileName) (now : DateTime) : FileName where
  chars := (stemAndExtension name.chars).1 ++ '-' :: clock now ++ (stemAndExtension name.chars).2
  plain := by
    obtain ⟨hStem, hExtension⟩ := stemAndExtension_plain name.plain
    simp [hStem, hExtension, clock_plain]

/-! ## The folder -/

/-- Where the contents of a file are kept. -/
inductive Place
  | inside (path : List Char)
  | outside (path : List Char)
  deriving DecidableEq

/-- What the system finds under a name of the folder. -/
inductive Entry
  /-- A file that is there or can be made, through a link or not -/
  | place (place : Place)
  | directory
  /-- Nothing that can be opened -/
  | nowhere
  deriving DecidableEq

structure Disk where
  entry : FileName → Entry
  dots : ∀ name : FileName, name.chars ∈ [[], ['.'], ['.', '.']] → entry name = .directory
  files : Place → Option Bytes

namespace Disk

/-- `Path::exists`. -/
def pathExists (disk : Disk) (name : FileName) : Bool :=
  match disk.entry name with
  | .place place => (disk.files place).isSome
  | .directory => true
  | .nowhere => false

def put (disk : Disk) (place : Place) (left : Bytes) : Disk :=
  { disk with files := Function.update disk.files place (some left) }

/-- `fs::write`. -/
def write (disk : Disk) (name : FileName) (contents : Bytes) (ending : WriteEnd) : Disk :=
  match disk.entry name, ending.leaves contents with
  | .place place, some left => disk.put place left
  | _, _ => disk

end Disk

/-! ## Handling a message -/

/-- Who shows a message. -/
inductive Reader
  | recv
  | chat (peer : String)
  | shell (focus : Option String)
  deriving DecidableEq, Repr

/-- A sender in short, as `recv` and the shell make it of every message. -/
def senderShort (sender : String) : Except Panic String :=
  if 10 < sender.utf8ByteSize then
    match sliceTo sender 6, sliceChars sender.toList (sender.utf8ByteSize - 4) with
    | .error panic, _ => .error panic
    | .ok _, none => .error .sliceIndex
    | .ok front, some back => .ok s!"{front}...{String.ofList (sender.toList.drop back.length)}"
  else .ok sender

/-- The reader comes to the `match` on the type of a message from this sender. -/
def Reader.shows (unicode : Unicode) (reader : Reader) (sender : String) : Bool :=
  match reader with
  | .recv => (senderShort sender).isOk
  | .chat peer => unicode.toLowercase sender = unicode.toLowercase peer
  | .shell focus => (senderShort sender).isOk &&
      focus.all fun focused => unicode.toLowercase sender = unicode.toLowercase focused

/-- A received message, who handles it, when, and how a write ends there. -/
structure Handling where
  reader : Reader
  msg : CipherMessage
  now : DateTime
  ending : WriteEnd

namespace Disk

def destination (disk : Disk) (handling : Handling) (metadata : FileMetadata) : FileName :=
  let name := safeName metadata.fileName
  match handling.reader with
  | .recv => if disk.pathExists name then name.stamped handling.now else name
  | .chat _ | .shell _ => name

def handle (unicode : Unicode) (disk : Disk) (handling : Handling) : Disk :=
  match handling.msg.msgType with
  | .file metadata =>
    if handling.reader.shows unicode handling.msg.sender then
      disk.write (disk.destination handling metadata) handling.msg.payload handling.ending
    else disk
  | _ => disk

/-- The later disk has every file of the earlier one with its contents, and nothing else
outside of the folder. -/
structure Keeps (earlier later : Disk) : Prop where
  files : ∀ place contents, earlier.files place = some contents →
    later.files place = some contents
  outside : ∀ path, later.files (.outside path) = earlier.files (.outside path)

end Disk

/-- What a handling writes: the bytes that it leaves, under the cleared name or, in `recv`, the
one with the time. -/
structure Saving where
  name : FileName
  stamped : Option FileName
  left : Bytes

/-- The file that a handling shows and gets to write, in full or in part. -/
def Handling.saving (unicode : Unicode) (handling : Handling) : Option Saving :=
  match handling.msg.msgType with
  | .file metadata =>
    if handling.reader.shows unicode handling.msg.sender then
      (handling.ending.leaves handling.msg.payload).map fun left =>
        let name := safeName metadata.fileName
        { name
          stamped := if handling.reader = .recv then some (name.stamped handling.now) else none
          left }
    else none
  | _ => none

namespace Disk

/-- The names lead there, in the folder as it is before the run. -/
def MayReach (disk : Disk) (saving : Saving) (place : Place) : Prop :=
  disk.entry saving.name = .place place ∨
    ∃ stamped ∈ saving.stamped, disk.entry stamped = .place place

/-- Where the name leads, there is a new file in the folder or one that holds these bytes, and
the earlier files that may go there leave these bytes too. -/
def Untaken (disk : Disk) (earlier : List Saving) (name : FileName) (left : Bytes) : Prop :=
  ∀ place, disk.entry name = .place place →
    (disk.files place = some left ∨ ∃ path, place = .inside path ∧ disk.files place = none) ∧
      ∀ saving ∈ earlier, disk.MayReach saving place → saving.left = left

/-- Nothing is there under the name, and no earlier file may go there. -/
def Absent (disk : Disk) (earlier : List Saving) (name : FileName) : Prop :=
  disk.entry name ≠ .directory ∧ ∀ place, disk.entry name = .place place →
    (∃ path, place = .inside path) ∧ disk.files place = none ∧
      ∀ saving ∈ earlier, ¬ disk.MayReach saving place

/-- No link leads to a missing file outside. -/
def NotDangling (disk : Disk) (name : FileName) : Prop :=
  ∀ path, disk.entry name = .place (.outside path) → disk.files (.outside path) ≠ none

/-- In a chat and the shell the cleared name is untaken. In `recv` it is absent, or the name with
the time is untaken. -/
def GoesApart (disk : Disk) (earlier : List Saving) (saving : Saving) : Prop :=
  match saving.stamped with
  | none => disk.Untaken earlier saving.name saving.left
  | some stamped => disk.Absent earlier saving.name ∨
      disk.NotDangling saving.name ∧ disk.Untaken earlier stamped saving.left

/-- Each of the files goes to a place of its own. -/
def Apart (disk : Disk) (savings : List Saving) : Prop :=
  ∀ before saving after, savings = before ++ saving :: after → disk.GoesApart before saving

/-! ## What a write changes -/

theorem Keeps.refl (disk : Disk) : disk.Keeps disk where
  files := fun _ _ hFile => hFile
  outside := fun _ => rfl

theorem Keeps.trans {first second third : Disk} (hFirst : first.Keeps second)
    (hSecond : second.Keeps third) : first.Keeps third where
  files := fun place contents hFile =>
    hSecond.files place contents (hFirst.files place contents hFile)
  outside := fun path => (hSecond.outside path).trans (hFirst.outside path)

variable {disk : Disk} {name : FileName}

@[simp] theorem put_files_self (place : Place) (left : Bytes) :
    (disk.put place left).files place = some left := Function.update_self ..

theorem put_files_ne {place other : Place} (left : Bytes) (hNe : other ≠ place) :
    (disk.put place left).files other = disk.files other := Function.update_of_ne hNe ..

/-- The name of the folder itself or of the one above it is never opened. -/
theorem write_dots (hDots : name.chars ∈ [[], ['.'], ['.', '.']]) (contents : Bytes)
    (ending : WriteEnd) : disk.write name contents ending = disk := by
  unfold write
  rw [disk.dots name hDots]

/-- A put that changes nothing but a new file in the folder keeps the others. -/
theorem keeps_put_iff (place : Place) (left : Bytes) :
    disk.Keeps (disk.put place left) ↔
      disk.files place = some left ∨ ∃ path, place = .inside path ∧ disk.files place = none := by
  constructor
  · intro hKeeps
    cases hFile : disk.files place with
    | some contents =>
      left
      have hKept := hKeeps.files place contents hFile
      rw [put_files_self] at hKept
      exact hKept.symm
    | none =>
      right
      cases place with
      | inside path => exact ⟨path, rfl, rfl⟩
      | outside path =>
        have hSame := hKeeps.outside path
        rw [put_files_self, hFile] at hSame
        cases hSame
  · intro hFree
    constructor
    · intro other contents hFile
      by_cases hSame : other = place
      · subst hSame
        rcases hFree with hHolds | ⟨path, -, hNone⟩
        · rw [put_files_self, ← hHolds, hFile]
        · rw [hNone] at hFile
          cases hFile
      · rw [put_files_ne left hSame, hFile]
    · intro path
      by_cases hSame : .outside path = place
      · subst hSame
        rcases hFree with hHolds | ⟨other, hInside, -⟩
        · rw [put_files_self, hHolds]
        · cases hInside
      · exact put_files_ne left hSame

/-- `handle`, from what it saves. -/
theorem handle_of_saving {unicode : Unicode} {handling : Handling} {saving : Saving}
    (disk : Disk) (hSaving : handling.saving unicode = some saving) :
    ∃ target, disk.handle unicode handling =
        (match disk.entry target with
          | .place place => disk.put place saving.left
          | _ => disk) ∧
      (target = saving.name ∧ (saving.stamped.isSome → ¬ disk.pathExists saving.name) ∨
        saving.stamped = some target ∧ disk.pathExists saving.name) := by
  unfold Handling.saving at hSaving
  unfold handle
  cases hType : handling.msg.msgType with
  | file metadata =>
    rw [hType] at hSaving
    dsimp only at hSaving ⊢
    split at hSaving
    · rename_i hShows
      rw [if_pos hShows]
      obtain ⟨left, hLeaves, rfl⟩ := Option.map_eq_some_iff.mp hSaving
      refine ⟨disk.destination handling metadata, ?_, ?_⟩
      · rw [write, hLeaves]
        cases disk.entry (disk.destination handling metadata) <;> rfl
      · unfold destination
        cases hReader : handling.reader with
        | recv =>
          dsimp only
          by_cases hExists : disk.pathExists (safeName metadata.fileName)
          · rw [if_pos hExists]
            exact Or.inr ⟨if_pos rfl, hExists⟩
          · rw [if_neg hExists]
            exact Or.inl ⟨rfl, fun _ => hExists⟩
        | chat peer => exact Or.inl ⟨rfl, nofun⟩
        | shell focus => exact Or.inl ⟨rfl, nofun⟩
    · cases hSaving
  | _ =>
    rw [hType] at hSaving
    cases hSaving

theorem handle_of_no_saving {unicode : Unicode} {handling : Handling} (disk : Disk)
    (hNone : handling.saving unicode = none) : disk.handle unicode handling = disk := by
  unfold Handling.saving at hNone
  unfold handle
  cases hType : handling.msg.msgType with
  | file metadata =>
    rw [hType] at hNone
    dsimp only at hNone ⊢
    split at hNone
    · rename_i hShows
      rw [if_pos hShows, write, Option.map_eq_none_iff.mp hNone]
      cases disk.entry (disk.destination handling metadata) <;> rfl
    · rename_i hHidden
      exact if_neg hHidden
  | _ => rfl

/-! ## Runs -/

/-- The disk after these savings: the names lead where they led, and what has changed is a place
that one of the savings may have reached, and left with its bytes. -/
structure Follows (start : Disk) (earlier : List Saving) (disk : Disk) : Prop where
  entry : disk.entry = start.entry
  files : ∀ place, disk.files place = start.files place ∨
    ∃ saving ∈ earlier, start.MayReach saving place ∧ disk.files place = some saving.left

theorem Follows.start (start : Disk) : start.Follows [] start where
  entry := rfl
  files := fun _ => Or.inl rfl

section Runs

variable {start : Disk} {earlier : List Saving} {saving : Saving} {unicode : Unicode}
  {handling : Handling}

/-- An untaken name is good for its bytes at the time of the write. -/
theorem Follows.untaken (hFollows : start.Follows earlier disk) {left : Bytes}
    (hUntaken : start.Untaken earlier name left) {place : Place}
    (hEntry : start.entry name = .place place) : disk.Keeps (disk.put place left) := by
  obtain ⟨hStart, hEarlier⟩ := hUntaken place hEntry
  apply (keeps_put_iff place left).mpr
  rcases hFollows.files place with hSame | ⟨other, hMem, hReach, hOther⟩
  · rwa [hSame]
  · left
    rw [hOther, hEarlier other hMem hReach]

/-- An absent name is still absent at the time of the write. -/
theorem Follows.absent (hFollows : start.Follows earlier disk)
    (hAbsent : start.Absent earlier name) : ¬ disk.pathExists name := by
  obtain ⟨hNoDirectory, hNothing⟩ := hAbsent
  rw [pathExists, hFollows.entry]
  cases hName : start.entry name with
  | directory => exact absurd hName hNoDirectory
  | nowhere => exact Bool.false_ne_true
  | place place =>
    obtain ⟨-, hNone, hUnreached⟩ := hNothing place hName
    rcases hFollows.files place with hSame | ⟨other, hMem, hReach, -⟩
    · simp [hSame, hNone]
    · exact absurd hReach (hUnreached other hMem)

/-- Where nothing is there, and the name is no link to a missing file outside, any bytes make a
new file. -/
theorem Follows.missing (hFollows : start.Follows earlier disk)
    (hName : start.Absent earlier name ∨ start.NotDangling name) {place : Place}
    (hEntry : start.entry name = .place place) (hNone : disk.files place = none) (left : Bytes) :
    disk.Keeps (disk.put place left) := by
  apply (keeps_put_iff place left).mpr
  cases place with
  | inside path => exact Or.inr ⟨path, rfl, hNone⟩
  | outside path =>
    exfalso
    rcases hName with ⟨-, hAbsent⟩ | hDangling
    · obtain ⟨⟨inner, hInside⟩, -⟩ := hAbsent _ hEntry
      cases hInside
    · rcases hFollows.files (.outside path) with hSame | ⟨other, -, -, hOther⟩
      · exact hDangling path hEntry (hSame.symm.trans hNone)
      · rw [hNone] at hOther
        cases hOther

/-- A saving that goes apart overwrites nothing. -/
theorem Follows.keeps (hFollows : start.Follows earlier disk)
    (hApart : start.GoesApart earlier saving) (hSaving : handling.saving unicode = some saving) :
    disk.Keeps (disk.handle unicode handling) := by
  obtain ⟨target, hHandle, hTarget⟩ := handle_of_saving disk hSaving
  rw [hHandle]
  cases hEntry : disk.entry target with
  | directory => exact Keeps.refl disk
  | nowhere => exact Keeps.refl disk
  | place place =>
    dsimp only
    have hStart : start.entry target = .place place := by rw [← hFollows.entry, hEntry]
    unfold GoesApart at hApart
    rcases hTarget with ⟨rfl, hMissing⟩ | ⟨hStamped, hExists⟩
    · cases hStamped : saving.stamped with
      | none =>
        rw [hStamped] at hApart
        exact hFollows.untaken hApart hStart
      | some stamped =>
        rw [hStamped] at hApart
        have hNone : disk.files place = none := by
          have hNot := hMissing (by rw [hStamped, Option.isSome_some])
          rw [pathExists, hEntry] at hNot
          simpa using hNot
        exact hFollows.missing (hApart.imp_right And.left) hStart hNone saving.left
    · rw [hStamped] at hApart
      rcases hApart with hAbsent | ⟨-, hUntaken⟩
      · exact absurd hExists (hFollows.absent hAbsent)
      · exact hFollows.untaken hUntaken hStart

theorem Follows.step (hFollows : start.Follows earlier disk)
    (hSaving : handling.saving unicode = some saving) :
    start.Follows (earlier ++ [saving]) (disk.handle unicode handling) := by
  obtain ⟨target, hHandle, hTarget⟩ := handle_of_saving disk hSaving
  rw [hHandle]
  have hBefore : ∀ place, disk.files place = start.files place ∨
      ∃ other ∈ earlier ++ [saving], start.MayReach other place ∧
        disk.files place = some other.left := by
    intro place
    rcases hFollows.files place with hSame | ⟨other, hMem, hReach⟩
    · exact Or.inl hSame
    · exact Or.inr ⟨other, List.mem_append_left _ hMem, hReach⟩
  cases hEntry : disk.entry target with
  | directory => exact ⟨hFollows.entry, hBefore⟩
  | nowhere => exact ⟨hFollows.entry, hBefore⟩
  | place place =>
    refine ⟨hFollows.entry, ?_⟩
    intro other
    by_cases hSame : other = place
    · subst hSame
      right
      rw [hFollows.entry] at hEntry
      refine ⟨saving, by simp, ?_, put_files_self ..⟩
      rcases hTarget with ⟨rfl, -⟩ | ⟨hStamped, -⟩
      · exact Or.inl hEntry
      · exact Or.inr ⟨target, hStamped, hEntry⟩
    · dsimp only
      rw [put_files_ne saving.left hSame]
      exact hBefore other

end Runs

/-- In a run whose files go apart, every step keeps the files. -/
theorem Follows.run {start : Disk} {unicode : Unicode} {handlings : List Handling}
    {earlier : List Saving} (hFollows : start.Follows earlier disk)
    (hApart : ∀ before saving after,
      handlings.filterMap (Handling.saving unicode) = before ++ saving :: after →
        start.GoesApart (earlier ++ before) saving) :
    EveryStep (handle unicode) (fun disk handling => disk.Keeps (disk.handle unicode handling))
      disk handlings := by
  induction handlings generalizing disk earlier with
  | nil => exact everyStep_nil
  | cons handling rest ih =>
    rw [everyStep_cons]
    cases hSaving : handling.saving unicode with
    | none =>
      rw [List.filterMap_cons_none hSaving] at hApart
      rw [handle_of_no_saving disk hSaving]
      exact ⟨Keeps.refl disk, ih hFollows hApart⟩
    | some saving =>
      rw [List.filterMap_cons_some hSaving] at hApart
      have hFirst := hApart [] saving _ rfl
      rw [List.append_nil] at hFirst
      refine ⟨hFollows.keeps hFirst hSaving, ih (hFollows.step hSaving) ?_⟩
      intro before other after hSplit
      rw [List.append_assoc]
      exact hApart (saving :: before) other after (congrArg (saving :: ·) hSplit)

theorem along_keeps_of_apart {unicode : Unicode} {handlings : List Handling}
    (hApart : disk.Apart (handlings.filterMap (Handling.saving unicode))) :
    Along (handle unicode) Keeps disk handlings :=
  (along_iff_everyStep Keeps.refl (fun _ _ _ => Keeps.trans) (fun _ _ => Iff.rfl) handlings).mpr
    ((Follows.start disk).run fun before saving after hSplit => hApart before saving after hSplit)

/-! ## Runs of a chat or the shell -/

section NoSuffix

variable {unicode : Unicode} {handling : Handling} {saving : Saving}

theorem handle_entry (unicode : Unicode) (disk : Disk) (handling : Handling) :
    (disk.handle unicode handling).entry = disk.entry := by
  cases hSaving : handling.saving unicode with
  | none => rw [handle_of_no_saving disk hSaving]
  | some saving =>
    obtain ⟨target, hHandle, -⟩ := handle_of_saving disk hSaving
    rw [hHandle]
    cases disk.entry target <;> rfl

theorem run_entry (unicode : Unicode) (disk : Disk) (handlings : List Handling) :
    (handlings.foldl (handle unicode) disk).entry = disk.entry := by
  induction handlings generalizing disk with
  | nil => rfl
  | cons handling rest ih => exact (ih _).trans (handle_entry unicode disk handling)

theorem stamped_of_reader (hReader : handling.reader ≠ .recv)
    (hSaving : handling.saving unicode = some saving) : saving.stamped = none := by
  unfold Handling.saving at hSaving
  simp only [if_neg hReader] at hSaving
  split at hSaving
  · split at hSaving
    · obtain ⟨left, -, rfl⟩ := Option.map_eq_some_iff.mp hSaving
      rfl
    · cases hSaving
  · cases hSaving

/-- Without the look at what is there, the file goes under its cleared name. -/
theorem handle_files_of_reader (hReader : handling.reader ≠ .recv)
    (hSaving : handling.saving unicode = some saving) {place : Place}
    (hReach : disk.MayReach saving place) :
    (disk.handle unicode handling).files place = some saving.left := by
  have hStamped := stamped_of_reader hReader hSaving
  obtain ⟨target, hHandle, ⟨rfl, -⟩ | ⟨hSome, -⟩⟩ := handle_of_saving disk hSaving
  · rcases hReach with hEntry | ⟨stamped, hSome, -⟩
    · rw [hHandle, hEntry]
      exact put_files_self ..
    · rw [hStamped] at hSome
      cases hSome
  · rw [hStamped] at hSome
    cases hSome

/-- So a run that keeps every file has let each of them go to a place of its own. -/
theorem apart_of_along_keeps {handlings : List Handling}
    (hReaders : ∀ handling ∈ handlings, handling.reader ≠ .recv)
    (hAlong : Along (handle unicode) Keeps disk handlings) :
    disk.Apart (handlings.filterMap (Handling.saving unicode)) := by
  intro before saving after hSplit
  obtain ⟨earlier, rest, rfl, rfl, hRest⟩ := List.filterMap_eq_append_iff.mp hSplit
  obtain ⟨skipped, handling, later, rfl, -, hSaving, -⟩ := List.filterMap_eq_cons_iff.mp hRest
  have hReader := hReaders handling (by simp)
  have hReached : ∀ place, disk.entry saving.name = .place place →
      ((earlier ++ skipped ++ [handling]).foldl (handle unicode) disk).files place =
        some saving.left := by
    intro place hEntry
    rw [List.foldl_append]
    apply handle_files_of_reader hReader hSaving
    rw [MayReach, run_entry]
    exact Or.inl hEntry
  unfold GoesApart
  rw [stamped_of_reader hReader hSaving]
  intro place hEntry
  constructor
  · have hKeeps := hAlong [] (earlier ++ skipped ++ [handling]) later (by simp)
    cases hFile : disk.files place with
    | some contents =>
      have hKept := hKeeps.files place contents hFile
      rw [List.nil_append, hReached place hEntry] at hKept
      exact Or.inl hKept.symm
    | none =>
      cases place with
      | inside path => exact Or.inr ⟨path, rfl, rfl⟩
      | outside path =>
        have hSame := hKeeps.outside path
        rw [List.nil_append, hReached _ hEntry] at hSame
        exact absurd (hSame.trans hFile) (by simp)
  · intro other hMem hReach
    obtain ⟨first, hFirst, hOther⟩ := List.mem_filterMap.mp hMem
    obtain ⟨front, back, rfl⟩ := List.append_of_mem hFirst
    have hKeeps := hAlong (front ++ [first]) (back ++ skipped ++ [handling]) later (by simp)
    have hLeft : ((front ++ [first]).foldl (handle unicode) disk).files place =
        some other.left := by
      rw [List.foldl_append]
      apply handle_files_of_reader (hReaders first (by simp)) hOther
      rwa [MayReach, run_entry]
    have hKept := hKeeps.files place _ hLeft
    have hRun : front ++ [first] ++ (back ++ skipped ++ [handling]) =
        front ++ first :: back ++ skipped ++ [handling] := by simp
    rw [hRun, hReached place hEntry] at hKept
    exact (Option.some.inj hKept).symm

end NoSuffix

/-! ## A folder without links -/

/-- Every file that a name leads to is in the folder. -/
def Unlinked (disk : Disk) : Prop :=
  ∀ name place, disk.entry name = .place place → ∃ path, place = .inside path

theorem write_unlinked (name : FileName) (hUnlinked : disk.Unlinked) (contents : Bytes)
    (ending : WriteEnd) :
    (disk.write name contents ending).Unlinked ∧
      ∀ path, (disk.write name contents ending).files (.outside path) =
        disk.files (.outside path) := by
  unfold write
  split
  · rename_i place left hEntry hLeaves
    obtain ⟨inner, rfl⟩ := hUnlinked name place hEntry
    exact ⟨hUnlinked, fun path => put_files_ne left nofun⟩
  · exact ⟨hUnlinked, fun _ => rfl⟩

/-- No name leads out of a folder that has no links. -/
theorem run_outside (unicode : Unicode) (hUnlinked : disk.Unlinked) (handlings : List Handling)
    (path : List Char) :
    (handlings.foldl (handle unicode) disk).files (.outside path) =
      disk.files (.outside path) := by
  induction handlings generalizing disk with
  | nil => rfl
  | cons handling rest ih =>
    have hStep : (disk.handle unicode handling).Unlinked ∧
        (disk.handle unicode handling).files (.outside path) = disk.files (.outside path) := by
      unfold handle
      split
      · split
        · obtain ⟨hKept, hOutside⟩ := write_unlinked (disk.destination handling _) hUnlinked
            handling.msg.payload handling.ending
          exact ⟨hKept, hOutside path⟩
        · exact ⟨hUnlinked, rfl⟩
      · exact ⟨hUnlinked, rfl⟩
    exact (ih hStep.1).trans hStep.2

/-- A run whose files go apart keeps them all, and writes nothing outside of the folder. For a
chat and the shell nothing less does. Without links nothing is written outside in any run. -/
theorem filesKept_of_apart (unicode : Unicode) (disk : Disk) (handlings : List Handling) :
    (disk.Apart (handlings.filterMap (Handling.saving unicode)) →
        Along (handle unicode) Keeps disk handlings) ∧
      ((∀ handling ∈ handlings, handling.reader ≠ .recv) →
        (Along (handle unicode) Keeps disk handlings ↔
          disk.Apart (handlings.filterMap (Handling.saving unicode)))) ∧
      (disk.Unlinked → ∀ path, (handlings.foldl (handle unicode) disk).files (.outside path) =
        disk.files (.outside path)) :=
  ⟨along_keeps_of_apart,
    fun hReaders => ⟨apart_of_along_keeps hReaders, along_keeps_of_apart⟩,
    fun hUnlinked => run_outside unicode hUnlinked handlings⟩

/-! ## Files of one name -/

/-- A folder with no entries. -/
def emptyFolder : Disk where
  entry name :=
    if name.chars ∈ [[], ['.'], ['.', '.']] then .directory
    else if Char.ofNat 0 ∈ name.chars then .nowhere
    else .place (.inside name.chars)
  dots := fun _ hDots => if_pos hDots
  files := fun _ => none

/-- A file of one byte from 0xb0b, saved at midnight. -/
def noteFrom (reader : Reader) (byte : UInt8) : Handling where
  reader
  msg := {
    id := 0
    sender := "0xb0b"
    recipient := "0xa11ce"
    msgType := .file {
      fileName := "note.txt", mimeType := "text/plain", sizeBytes := 1, totalChunks := 1
      merkleRoot := zeros32, thumbnail := none }
    timestamp := 0
    payload := [byte]
    nonce := zeros12
    dhPublic := zeros32
    counter := 0
    ttl := 0 }
  now := 0
  ending := .written

/-- The savings of `recv` for two files of one name, the second of them a second later. -/
def firstNote : Saving where
  name := safeName "note.txt"
  stamped := some ((safeName "note.txt").stamped 0)
  left := [1]

def secondNote : Saving where
  name := safeName "note.txt"
  stamped := some ((safeName "note.txt").stamped 1000000000)
  left := [2]

theorem notes_apart : emptyFolder.Apart [firstNote, secondNote] := by
  have hName : emptyFolder.entry (safeName "note.txt") =
    .place (.inside "note.txt".toList) := by decide
  have hStamped : emptyFolder.entry ((safeName "note.txt").stamped 1000000000) =
    .place (.inside "note-000001.txt".toList) := by decide
  rintro (_ | ⟨first, before⟩) saving after hSplit
  · obtain ⟨rfl, -⟩ := List.cons.inj hSplit
    refine Or.inl ⟨by decide, ?_⟩
    intro place hPlace
    obtain rfl := Entry.place.inj (hName.symm.trans hPlace)
    exact ⟨⟨_, rfl⟩, rfl, fun _ hMem => absurd hMem List.not_mem_nil⟩
  · obtain ⟨rfl, hTail⟩ := List.cons.inj hSplit
    obtain ⟨rfl, hPair⟩ : before = [] ∧ [secondNote] = saving :: after := by
      cases before with
      | nil => exact ⟨rfl, hTail⟩
      | cons _ _ => simp at hTail
    obtain ⟨rfl, -⟩ := List.cons.inj hPair
    refine Or.inr ⟨?_, ?_⟩
    · intro path hPlace
      rw [secondNote, hName] at hPlace
      cases hPlace
    · intro place hPlace
      obtain rfl := Entry.place.inj (hStamped.symm.trans hPlace)
      refine ⟨Or.inr ⟨_, rfl, rfl⟩, ?_⟩
      intro other hMem hReach
      obtain rfl := List.mem_singleton.mp hMem
      exfalso
      rcases hReach with hPlain | ⟨stamped, hMem, hPlain⟩
      · exact absurd hPlain (by decide)
      · obtain rfl := Option.some.inj hMem
        exact absurd hPlain (by decide)

/-- Both of them are kept. -/
theorem notes_kept :
    Along (handle .ascii) Keeps emptyFolder
      [noteFrom .recv 1, { noteFrom .recv 2 with now := 1000000000 }] :=
  (filesKept_of_apart .ascii emptyFolder
    [noteFrom .recv 1, { noteFrom .recv 2 with now := 1000000000 }]).1 notes_apart

/-- In the shell and in a chat the second file of a name replaces the first one; in `recv` the
third file of a second replaces the second one. -/
theorem later_file_overwrites :
    ¬ Along (handle .ascii) Keeps emptyFolder
        [noteFrom (.shell none) 1, noteFrom (.shell none) 2] ∧
      ¬ Along (handle .ascii) Keeps emptyFolder
        [noteFrom (.chat "0xb0b") 1, noteFrom (.chat "0xb0b") 2] ∧
      ¬ Along (handle .ascii) Keeps emptyFolder
        [noteFrom .recv 1, noteFrom .recv 2, noteFrom .recv 3] := by
  have hLost : ∀ (handlings : List Handling) (last : Handling) (name : String) (contents : Bytes),
      (handlings.foldl (handle .ascii) emptyFolder).files (.inside name.toList) = some contents →
      ((handlings ++ [last]).foldl (handle .ascii) emptyFolder).files (.inside name.toList) ≠
        some contents →
      ¬ Along (handle .ascii) Keeps emptyFolder (handlings ++ [last]) := by
    intro handlings last name contents hBefore hAfter hAlong
    exact hAfter ((hAlong handlings [last] [] (by simp)).files _ contents hBefore)
  refine ⟨?_, ?_, ?_⟩
  · exact hLost [_] _ "note.txt" [1] (by decide) (by decide)
  · exact hLost [_] _ "note.txt" [1] (by decide) (by decide)
  · exact hLost [_, _] _ "note-000000.txt" [2] (by decide) (by decide)

end Disk

end CipherCli.Commands
