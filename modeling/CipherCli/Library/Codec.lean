import CipherCli.Library.BigEndian

/-!
# Prefix codecs

A reader takes a value off the front of a byte string. A codec is a writer with
a reader that takes back what was written, whatever bytes follow. The
combinators are those of a self-delimiting layout: fixed-width little-endian
integers, a count before the items of a sequence, a tag before an optional
value and an index before the payload of a variant.
-/

namespace CipherCli.Library

abbrev Reader := StateT (List UInt8) Option

variable {α β : Type}

/-- The reader finds `a` at the front and leaves the bytes after it alone. -/
def Reads (reader : Reader α) (bytes : List UInt8) (a : α) : Prop :=
  ∀ rest, reader (bytes ++ rest) = some (a, rest)

theorem Reads.pure (a : α) : Reads (Pure.pure a) [] a := fun _ => rfl

theorem Reads.bind {reader : Reader α} {next : α → Reader β} {bytes bytes' : List UInt8} {a : α}
    {b : β} (hFirst : Reads reader bytes a) (hNext : Reads (next a) bytes' b) :
    Reads (reader >>= next) (bytes ++ bytes') b := by
  intro rest
  show (reader (bytes ++ bytes' ++ rest)).bind (fun found => next found.1 found.2) = some (b, rest)
  rw [List.append_assoc, hFirst, Option.bind_some]
  exact hNext rest

theorem Reads.map {reader : Reader α} {bytes : List UInt8} {a : α} (hReads : Reads reader bytes a)
    (f : α → β) : Reads (f <$> reader) bytes (f a) := by
  intro rest
  show (reader (bytes ++ rest)).bind (fun found => some (f found.1, found.2)) = some (f a, rest)
  rw [hReads, Option.bind_some]

/-! ## Readers -/

/-- The next `n` bytes. -/
def readBytes (n : Nat) : Reader (List UInt8) := fun bytes =>
  if n ≤ bytes.length then some (bytes.take n, bytes.drop n) else none

def readMany (reader : Reader α) : Nat → Reader (List α)
  | 0 => Pure.pure []
  | n + 1 => do
    let first ← reader
    let others ← readMany reader n
    Pure.pure (first :: others)

/-- A value that a check may refuse. -/
def accept? (found : Option α) : Reader α := fun bytes => found.map (·, bytes)

theorem reads_bytes {bytes : List UInt8} {n : Nat} (hLength : bytes.length = n) :
    Reads (readBytes n) bytes bytes := by
  intro rest
  subst hLength
  unfold readBytes
  rw [if_pos (by rw [List.length_append]; exact Nat.le_add_right _ _), List.take_left,
    List.drop_left]

theorem reads_accept (a : α) : Reads (accept? (some a)) [] a := fun _ => rfl

theorem reads_many {reader : Reader α} {write : α → List UInt8} {items : List α}
    (hItems : ∀ a ∈ items, Reads reader (write a) a) :
    Reads (readMany reader items.length) (items.flatMap write) items := by
  induction items with
  | nil => exact Reads.pure []
  | cons first others ih =>
    rw [List.flatMap_cons]
    apply Reads.bind (hItems first List.mem_cons_self)
    rw [← List.append_nil (others.flatMap write)]
    apply Reads.bind (ih fun a hMem => hItems a (List.mem_cons_of_mem _ hMem))
    exact Reads.pure (first :: others)

/-! ## Codecs -/

structure Codec (α : Type) where
  /-- The values that the layout can hold -/
  Fits : α → Prop
  write : α → List UInt8
  read : Reader α
  reads : ∀ a, Fits a → Reads read (write a) a

namespace Codec

/-- The low `width` bytes of a number, least significant first. -/
def nat (width : Nat) : Codec Nat where
  Fits value := value < 256 ^ width
  write value := (beBytes width value).reverse
  read := (fun bytes => beValue bytes.reverse) <$> readBytes width
  reads value hFits := by
    have hLength : (beBytes width value).reverse.length = width := by
      rw [List.length_reverse, beBytes_length]
    have hReads := (reads_bytes hLength).map fun bytes => beValue bytes.reverse
    rwa [List.reverse_reverse, beValue_beBytes hFits] at hReads

/-- A byte string of known length. -/
def bytes (n : Nat) : Codec (List UInt8) where
  Fits bytes := bytes.length = n
  write := id
  read := readBytes n
  reads _ hFits := reads_bytes hFits

/-- Other values written as those of a codec, with a check when they are read. -/
def view (codec : Codec α) (encode : β → α) (decode : α → Option β)
    (hView : ∀ b, decode (encode b) = some b) : Codec β where
  Fits b := codec.Fits (encode b)
  write b := codec.write (encode b)
  read := codec.read >>= fun a => accept? (decode a)
  reads b hFits := by
    rw [← List.append_nil (codec.write (encode b))]
    apply Reads.bind (codec.reads (encode b) hFits)
    rw [hView]
    exact reads_accept b

/-- A record, written as the tuple of its fields. -/
def record (codec : Codec α) (fields : β → α) (make : α → β) (hMake : ∀ b, make (fields b) = b) :
    Codec β :=
  codec.view fields (fun a => some (make a)) fun b => congrArg some (hMake b)

/-- A codec that holds every value. -/
def total (codec : Codec α) (hFits : ∀ a, codec.Fits a) : Codec α where
  Fits _ := True
  write := codec.write
  read := codec.read
  reads a _ := codec.reads a (hFits a)

def pair (first : Codec α) (second : Codec β) : Codec (α × β) where
  Fits p := first.Fits p.1 ∧ second.Fits p.2
  write p := first.write p.1 ++ second.write p.2
  read := do
    let a ← first.read
    let b ← second.read
    Pure.pure (a, b)
  reads p hFits := by
    apply Reads.bind (first.reads p.1 hFits.1)
    rw [← List.append_nil (second.write p.2)]
    exact Reads.bind (second.reads p.2 hFits.2) (Reads.pure p)

/-- What follows depends on what was read first. -/
def dependent (head : Codec α) (index : β → α) (body : β → List UInt8) (rest : α → Reader β)
    (BodyFits : β → Prop)
    (hReads : ∀ b, BodyFits b → Reads (rest (index b)) (body b) b) : Codec β where
  Fits b := head.Fits (index b) ∧ BodyFits b
  write b := head.write (index b) ++ body b
  read := head.read >>= rest
  reads b hFits := Reads.bind (head.reads (index b) hFits.1) (hReads b hFits.2)

/-- A byte string with its length in front. -/
def blob (head : Codec Nat) : Codec (List UInt8) :=
  head.dependent List.length id readBytes (fun _ => True) fun _ _ => reads_bytes rfl

/-- A sequence with its length in front. -/
def counted (head : Codec Nat) (item : Codec α) : Codec (List α) :=
  head.dependent List.length (·.flatMap item.write) (readMany item.read)
    (fun items => ∀ a ∈ items, item.Fits a)
    fun _ hFits => reads_many fun a hMem => item.reads a (hFits a hMem)

/-- A type of one value takes no bytes. -/
def unit : Codec Unit where
  Fits _ := True
  write _ := []
  read := Pure.pure ()
  reads _ _ := Reads.pure ()

/-- A tag byte, and the value if there is one. -/
def optional (item : Codec α) : Codec (Option α) :=
  (nat 1).dependent (fun value => if value.isSome then 1 else 0)
    (fun value => (value.map item.write).getD [])
    (fun
      | 0 => Pure.pure none
      | 1 => some <$> item.read
      | _ => failure)
    (fun value => ∀ a, value = some a → item.Fits a)
    fun value hFits => by
      cases value with
      | none => exact Reads.pure none
      | some a => exact (item.reads a (hFits a rfl)).map some

/-! ### What a reader finds -/

theorem bind_eq_some_iff {reader : Reader α} {next : α → Reader β} {data rest : List UInt8}
    {b : β} :
    (reader >>= next) data = some (b, rest) ↔
      ∃ a mid, reader data = some (a, mid) ∧ next a mid = some (b, rest) := by
  show (reader data).bind (fun found => next found.1 found.2) = some (b, rest) ↔ _
  rw [Option.bind_eq_some_iff]
  constructor
  · rintro ⟨⟨a, mid⟩, hFirst, hNext⟩
    exact ⟨a, mid, hFirst, hNext⟩
  · rintro ⟨a, mid, hFirst, hNext⟩
    exact ⟨(a, mid), hFirst, hNext⟩

/-- Whatever the reader finds is what the writer would write there. -/
def Canonical (codec : Codec α) : Prop :=
  ∀ data a rest, codec.read data = some (a, rest) → codec.Fits a ∧ data = codec.write a ++ rest

theorem readBytes_eq_some {n : Nat} {data front rest : List UInt8}
    (hRead : readBytes n data = some (front, rest)) : front.length = n ∧ data = front ++ rest := by
  unfold readBytes at hRead
  split at hRead
  · rename_i hFits
    cases hRead
    exact ⟨List.length_take_of_le hFits, (List.take_append_drop n data).symm⟩
  · cases hRead

theorem canonical_bytes (n : Nat) : (bytes n).Canonical :=
  fun _ _ _ hRead => readBytes_eq_some hRead

theorem canonical_nat (width : Nat) : (nat width).Canonical := by
  intro data value rest hRead
  obtain ⟨⟨front, mid⟩, hFront, hValue⟩ := Option.bind_eq_some_iff.mp hRead
  obtain ⟨hLength, rfl⟩ := readBytes_eq_some hFront
  obtain ⟨rfl, rfl⟩ := Prod.mk.inj (Option.some.inj hValue)
  have hReverse : front.reverse.length = width := by rw [List.length_reverse, hLength]
  constructor
  · show beValue front.reverse < 256 ^ width
    rw [← hReverse]
    exact beValue_lt front.reverse
  · show front ++ mid = (beBytes width (beValue front.reverse)).reverse ++ mid
    rw [← hReverse, beBytes_beValue, List.reverse_reverse]

/-- A view is canonical when its check lets through only what is written. -/
theorem canonical_view {codec : Codec α} (hCodec : codec.Canonical) {encode : β → α}
    {decode : α → Option β} {hView : ∀ b, decode (encode b) = some b}
    (hChecked : ∀ a b, codec.Fits a → decode a = some b → encode b = a) :
    (codec.view encode decode hView).Canonical := by
  intro data b rest hRead
  obtain ⟨a, mid, hFirst, hAccept⟩ := bind_eq_some_iff.mp hRead
  obtain ⟨hFits, rfl⟩ := hCodec data a mid hFirst
  obtain ⟨found, hDecode, hFound⟩ := Option.map_eq_some_iff.mp hAccept
  obtain ⟨rfl, rfl⟩ := Prod.mk.inj hFound
  have hSame := hChecked a found hFits hDecode
  constructor
  · show codec.Fits (encode found)
    rwa [hSame]
  · show codec.write a ++ mid = codec.write (encode found) ++ mid
    rw [hSame]

theorem canonical_record {codec : Codec α} (hCodec : codec.Canonical) {fields : β → α}
    {make : α → β} {hMake : ∀ b, make (fields b) = b}
    (hFields : ∀ a, codec.Fits a → fields (make a) = a) :
    (codec.record fields make hMake).Canonical :=
  canonical_view hCodec fun a b hFits hDecode => by
    rw [← Option.some.inj hDecode]
    exact hFields a hFits

theorem canonical_total {codec : Codec α} (hCodec : codec.Canonical)
    (hFits : ∀ a, codec.Fits a) : (codec.total hFits).Canonical :=
  fun data a rest hRead => ⟨trivial, (hCodec data a rest hRead).2⟩

theorem canonical_pair {first : Codec α} {second : Codec β} (hFirst : first.Canonical)
    (hSecond : second.Canonical) : (first.pair second).Canonical := by
  intro data p rest hRead
  obtain ⟨a, mid, hA, hRest⟩ := bind_eq_some_iff.mp hRead
  obtain ⟨b, last, hB, hPure⟩ := bind_eq_some_iff.mp hRest
  obtain ⟨rfl, rfl⟩ := Prod.mk.inj (Option.some.inj hPure)
  obtain ⟨hFitsA, rfl⟩ := hFirst data a mid hA
  obtain ⟨hFitsB, rfl⟩ := hSecond mid b last hB
  exact ⟨⟨hFitsA, hFitsB⟩, (List.append_assoc _ _ _).symm⟩

theorem canonical_blob {head : Codec Nat} (hHead : head.Canonical) : (blob head).Canonical := by
  intro data body rest hRead
  obtain ⟨n, mid, hCount, hBody⟩ := bind_eq_some_iff.mp hRead
  obtain ⟨hFits, rfl⟩ := hHead data n mid hCount
  obtain ⟨rfl, rfl⟩ := readBytes_eq_some hBody
  exact ⟨⟨hFits, trivial⟩, (List.append_assoc _ _ _).symm⟩

/-! ### Lengths -/

@[simp] theorem length_write_nat (width value : Nat) :
    ((nat width).write value).length = width := by
  show (beBytes width value).reverse.length = width
  rw [List.length_reverse, beBytes_length]

@[simp] theorem write_view (codec : Codec α) (encode : β → α) (decode : α → Option β)
    (hView : ∀ b, decode (encode b) = some b) (b : β) :
    (codec.view encode decode hView).write b = codec.write (encode b) := rfl

@[simp] theorem write_record (codec : Codec α) (fields : β → α) (make : α → β)
    (hMake : ∀ b, make (fields b) = b) (b : β) :
    (codec.record fields make hMake).write b = codec.write (fields b) := rfl

@[simp] theorem write_total (codec : Codec α) (hFits : ∀ a, codec.Fits a) (a : α) :
    (codec.total hFits).write a = codec.write a := rfl

@[simp] theorem length_write_pair (first : Codec α) (second : Codec β) (p : α × β) :
    ((first.pair second).write p).length =
      (first.write p.1).length + (second.write p.2).length :=
  List.length_append

@[simp] theorem length_write_blob (width : Nat) (data : List UInt8) :
    ((blob (nat width)).write data).length = width + data.length := by
  show ((nat width).write data.length ++ data).length = _
  rw [List.length_append, length_write_nat]

end Codec

/-- The payload of a variant: a value with its codec. -/
structure Payload where
  {Value : Type}
  codec : Codec Value
  value : Value

def Payload.Fits (payload : Payload) : Prop := payload.codec.Fits payload.value

def Payload.write (payload : Payload) : List UInt8 := payload.codec.write payload.value

theorem Payload.reads {payload : Payload} (hFits : payload.Fits) :
    Reads payload.codec.read payload.write payload.value :=
  payload.codec.reads payload.value hFits

/-- An enumeration: the index of the variant, then its payload. -/
def Codec.variant (head : Codec β) (index : α → β) (payload : α → Payload) (read : β → Reader α)
    (hReads : ∀ a, (payload a).Fits → Reads (read (index a)) (payload a).write a) : Codec α :=
  head.dependent index (fun a => (payload a).write) read (fun a => (payload a).Fits) hReads

@[simp] theorem Codec.length_write_variant (head : Codec β) (index : α → β)
    (payload : α → Payload) (read : β → Reader α)
    (hReads : ∀ a, (payload a).Fits → Reads (read (index a)) (payload a).write a) (a : α) :
    ((head.variant index payload read hReads).write a).length =
      (head.write (index a)).length + (payload a).write.length :=
  List.length_append

end CipherCli.Library
