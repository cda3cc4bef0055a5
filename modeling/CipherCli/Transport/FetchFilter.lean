import CipherCli.Transport.Poll

/-!
# The filter of the answers and their reader

The answers to `/fetch` pass `fetch_response_is_mailbox_api` before `poll_incoming`
reads them. The reader takes the messages from `Chunks` or from `messages`, the filter
asks for `Chunks`, so what is only under `messages` is not read.
-/

namespace CipherCli.Transport

open RelayPool

variable (crates : Crates) (body : String)

/-- The reader finds a list in the body that is not empty. -/
def Readable : Prop := ∃ msg rest, (crates.parseJson body).bind chunksOpt = some (msg :: rest)

/-- The body comes out of `post_fetch_parallel` whichever of the ranked relays it is from. -/
def LetThrough : Prop :=
  ∀ (pool : RelayPool) (request base : String), base ∈ pool.rankedMailboxBases crates →
    pool.post base "/fetch" request = some body →
      (base, body) ∈ pool.postFetchParallel crates request

/-- The messages are under `messages`, without a field `Chunks` and without an error other than
`not found`. -/
def MessagesAlone : Prop :=
  ∃ v msg rest, crates.parseJson body = some v ∧ v.get "Chunks" = none ∧
    v.get "messages" = some (.array (msg :: rest)) ∧
      ∀ err, (v.get "error").bind Json.asStr = some err → eqIgnoreAsciiCase err "not found"

variable {crates body}

theorem fetchResponseIsMailboxApi_iff {v : Json} (hParse : crates.parseJson body = some v) :
    fetchResponseIsMailboxApi crates body ↔
      v.get "Chunks" ≠ none ∨
        ∃ err, (v.get "error").bind Json.asStr = some err ∧
          ¬ eqIgnoreAsciiCase err "not found" := by
  unfold fetchResponseIsMailboxApi
  rw [hParse]
  dsimp only
  cases hChunks : v.get "Chunks" with
  | some chunks => simp
  | none =>
    cases hError : (v.get "error").bind Json.asStr with
    | none => simp
    | some err => simp

theorem letThrough_of_accepted (hAccepted : fetchResponseIsMailboxApi crates body) :
    LetThrough crates body := by
  intro pool request base hRanked hAnswer
  apply List.mem_filterMap.mpr
  refine ⟨base, hRanked, ?_⟩
  rw [hAnswer]
  exact if_pos hAccepted

/-- Without a field `Chunks` the reader takes what is under `messages`. -/
theorem chunksOpt_of_no_chunks {v : Json} (hChunks : v.get "Chunks" = none) :
    chunksOpt v = (v.get "messages").bind Json.asArray := by
  rw [chunksOpt, hChunks]
  rfl

theorem asArray_eq_some_iff {v : Option Json} {values : List Json} :
    v.bind Json.asArray = some values ↔ v = some (.array values) := by
  cases v with
  | none => simp
  | some v => cases v <;> simp [Json.asArray]

variable (crates body)

/-- What the reader would find is let through exactly when it is not under `messages` alone. -/
theorem readable_letThrough_iff :
    (Readable crates body → fetchResponseIsMailboxApi crates body ∧ LetThrough crates body) ↔
      ¬ MessagesAlone crates body := by
  constructor
  · rintro hAgree ⟨v, msg, rest, hParse, hChunks, hMessages, hError⟩
    have hReadable : Readable crates body := by
      refine ⟨msg, rest, ?_⟩
      rw [hParse, Option.bind_some, chunksOpt_of_no_chunks hChunks]
      exact asArray_eq_some_iff.mpr hMessages
    have hAccepted := (hAgree hReadable).1
    rcases (fetchResponseIsMailboxApi_iff hParse).mp hAccepted with hSome | ⟨err, hErr, hOther⟩
    · exact hSome hChunks
    · exact hOther (hError err hErr)
  · rintro hElse ⟨msg, rest, hFound⟩
    obtain ⟨v, hParse, hChunksOpt⟩ := Option.bind_eq_some_iff.mp hFound
    have hAccepted : fetchResponseIsMailboxApi crates body := by
      rw [fetchResponseIsMailboxApi_iff hParse]
      by_contra hRefused
      rw [not_or, not_not] at hRefused
      obtain ⟨hChunks, hError⟩ := hRefused
      rw [chunksOpt_of_no_chunks hChunks] at hChunksOpt
      refine hElse ⟨v, msg, rest, hParse, hChunks, asArray_eq_some_iff.mp hChunksOpt, ?_⟩
      intro err hErr
      by_contra hOther
      exact hError ⟨err, hErr, hOther⟩
    exact ⟨hAccepted, letThrough_of_accepted hAccepted⟩

/-- The body `messages: [message_id: m1]` as JSON. -/
def messagesBody : String := "\x7b\"messages\":[\x7b\"message_id\":\"m1\"\x7d]\x7d"

/-- A reader that knows this body. -/
def messagesCrates : Crates :=
  plainCrates []
    (fun text =>
      if text = messagesBody then
        some (.object [("messages", .array [.object [("message_id", .string "m1")]])])
      else none)
    fun _ => ""

/-- One message under `messages` would be read and is filtered away. -/
theorem messages_filtered_away :
    ¬ (Readable messagesCrates messagesBody →
        fetchResponseIsMailboxApi messagesCrates messagesBody ∧
          LetThrough messagesCrates messagesBody) := by
  intro hAgree
  have hParse : messagesCrates.parseJson messagesBody =
      some (.object [("messages", .array [.object [("message_id", .string "m1")]])]) := by
    simp only [messagesCrates, plainCrates]
    rfl
  have hRead : Readable messagesCrates messagesBody := by
    refine ⟨.object [("message_id", .string "m1")], [], ?_⟩
    rw [hParse]
    rfl
  have hAccepted := (hAgree hRead).1
  unfold fetchResponseIsMailboxApi at hAccepted
  rw [hParse] at hAccepted
  exact absurd hAccepted (by decide)

end CipherCli.Transport
