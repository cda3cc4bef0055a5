import CipherCli.Channels.Manager
import CipherCli.Library.Runs
import Mathlib.Data.List.Nodup

/-!
# The subscriber count

`subscriber_count` repeats the length of the subscriber list. Every operation keeps
the two equal and the addresses distinct, except an `unsubscribe` of an address that
is not subscribed: it removes nothing and counts down all the same.
-/

namespace CipherCli.Channels

open Library Groups Std

/-- The addresses of a list without one that occurs in it once. -/
theorem length_filter_ne_add_one {α β : Type} [DecidableEq β] {f : α → β} {l : List α} {b : β}
    (hDistinct : (l.map f).Nodup) (hMem : b ∈ l.map f) :
    (l.filter (f · ≠ b)).length + 1 = l.length := by
  have hOnce : l.countP (f · = b) = 1 := by
    have hCount := List.count_eq_one_of_mem hDistinct hMem
    rw [List.count_eq_countP, List.countP_map] at hCount
    rw [← hCount]
    exact List.countP_congr fun a _ => by simp
  have hSplit := List.length_eq_countP_add_countP (fun a => decide (f a = b)) (l := l)
  rw [hOnce] at hSplit
  rw [← List.countP_eq_length_filter, hSplit, Nat.add_comm]
  congr 1
  exact List.countP_congr fun a _ => by simp

theorem saturatingSub_one_toNat (n : UInt64) : (saturatingSub n 1).toNat = n.toNat - 1 := by
  unfold saturatingSub
  split
  · rename_i hZero
    have hLt := UInt64.lt_iff_toNat_lt.mp hZero
    rw [UInt64.toNat_one] at hLt
    rw [UInt64.toNat_zero]
    omega
  · rename_i hPos
    have hLe := UInt64.le_iff_toNat_le.mp (UInt64.not_lt.mp hPos)
    rw [UInt64.toNat_sub_of_le _ _ (UInt64.not_lt.mp hPos), UInt64.toNat_one]

namespace Channel

structure Consistent (ch : Channel) : Prop where
  counted : ch.subscriberCount.toNat = ch.subscribers.length
  distinct : (ch.subscribers.map (·.address)).Nodup

/-- An `unsubscribe` finds its subscriber, if there are any subscribers at all; and the count
has room for a new one. -/
def KeepsCount (ourAddress : String) (ch : Channel) : ChannelOp → Prop
  | .unsubscribe => ch.isSubscribed ourAddress ∨ ch.subscribers = []
  | .subscribe _ => ch.isSubscribed ourAddress ∨ ch.subscribers.length + 1 < 2 ^ 64
  | _ => True

/-- The subscribers and their count are left alone. -/
structure SameSubscribers (before after : Channel) : Prop where
  subscribers : after.subscribers = before.subscribers
  count : after.subscriberCount = before.subscriberCount

section Operations

variable (build : Build) {ourAddress : String} {ch : Channel}

theorem isSubscribed_iff : ch.isSubscribed ourAddress ↔
    ourAddress ∈ ch.subscribers.map (·.address) := by
  rw [isSubscribed, List.any_eq_true, List.mem_map]
  exact exists_congr fun s => and_congr_right fun _ => decide_eq_true_iff

theorem isSubscribed_of_isOwner (hOwner : ch.isOwner ourAddress) :
    ch.isSubscribed ourAddress := by
  obtain ⟨s, hMem, hBoth⟩ := List.any_eq_true.mp hOwner
  rw [isSubscribed, List.any_eq_true]
  exact ⟨s, hMem, (Bool.and_eq_true_iff.mp hBoth).1⟩

theorem setHandle_same (handle : String) :
    ch.SameSubscribers (ch.setHandle ourAddress handle).2 := by
  unfold setHandle
  split
  · exact ⟨rfl, rfl⟩
  · exact ⟨rfl, rfl⟩

theorem publishPost_same (postId : MessageId) (now : DateTime) (content : PostContent) :
    ch.SameSubscribers (ch.publishPost ourAddress postId now content).2 := by
  unfold publishPost
  split
  · exact ⟨rfl, rfl⟩
  · exact ⟨rfl, rfl⟩

theorem pinPost_same (postId : MessageId) :
    ch.SameSubscribers (ch.pinPost ourAddress postId).2 := by
  unfold pinPost
  split
  · exact ⟨rfl, rfl⟩
  · exact ⟨rfl, rfl⟩

theorem SameSubscribers.consistent {after : Channel} (hSame : ch.SameSubscribers after)
    (hCh : ch.Consistent) : after.Consistent := by
  constructor
  · rw [hSame.count, hSame.subscribers]
    exact hCh.counted
  · rw [hSame.subscribers]
    exact hCh.distinct

/-- A new subscriber is counted unless the count is at its end. -/
theorem subscribe_consistent_iff (hCh : ch.Consistent) (now : DateTime) :
    (ch.subscribe build ourAddress now).2.Consistent ↔
      ch.KeepsCount ourAddress (.subscribe now) := by
  unfold subscribe
  by_cases hSubscribed : ch.isSubscribed ourAddress
  · rw [if_pos hSubscribed]
    exact iff_of_true hCh (Or.inl hSubscribed)
  rw [if_neg hSubscribed, KeepsCount, or_iff_right hSubscribed]
  have hDistinct : ((ch.withSubscriber ourAddress now).subscribers.map (·.address)).Nodup := by
    rw [withSubscriber, List.map_append, List.map_singleton, ← List.concat_eq_append]
    exact List.Nodup.concat (mt isSubscribed_iff.mpr hSubscribed) hCh.distinct
  have hLength : (ch.withSubscriber ourAddress now).subscribers.length =
      ch.subscribers.length + 1 := by
    rw [withSubscriber, List.length_append, List.length_singleton]
  have hCount : (ch.withSubscriber ourAddress now).subscriberCount = ch.subscriberCount := rfl
  dsimp only
  rw [hCount]
  generalize ch.withSubscriber ourAddress now = joined at hDistinct hLength hCount
  have hBefore := hCh.counted
  have hLt := ch.subscriberCount.toNat_lt
  have hOne : (1 : UInt64).toNat = 1 := rfl
  unfold Build.addU64
  by_cases hChecked : build.overflowChecks ∧ 2 ^ 64 ≤ ch.subscriberCount.toNat + (1 : UInt64).toNat
  · rw [if_pos hChecked]
    refine iff_of_false ?_ (by omega)
    intro hAfter
    have hCounted : joined.subscriberCount.toNat = joined.subscribers.length := hAfter.counted
    rw [hCount, hLength] at hCounted
    omega
  · rw [if_neg hChecked]
    constructor
    · intro hAfter
      have hCounted : (ch.subscriberCount + 1).toNat = joined.subscribers.length := hAfter.counted
      rw [UInt64.toNat_add, hLength, hOne] at hCounted
      omega
    · intro hRoom
      refine ⟨?_, hDistinct⟩
      show (ch.subscriberCount + 1).toNat = joined.subscribers.length
      rw [UInt64.toNat_add, hLength, hBefore, hOne, Nat.mod_eq_of_lt hRoom]

/-- What `unsubscribe` removes is counted down exactly if it removes something, or nothing is
there. -/
theorem unsubscribe_consistent_iff (hCh : ch.Consistent) :
    (ch.unsubscribe ourAddress).2.Consistent ↔ ch.KeepsCount ourAddress .unsubscribe := by
  unfold unsubscribe
  by_cases hOwner : ch.isOwner ourAddress
  · rw [if_pos hOwner]
    exact iff_of_true hCh (Or.inl (isSubscribed_of_isOwner hOwner))
  rw [if_neg hOwner, KeepsCount]
  have hDistinct : ((ch.withoutSubscriber ourAddress).subscribers.map (·.address)).Nodup :=
    hCh.distinct.sublist (List.filter_sublist.map _)
  have hCount : (ch.withoutSubscriber ourAddress).subscriberCount.toNat =
      ch.subscribers.length - 1 := by
    rw [withoutSubscriber, saturatingSub_one_toNat, hCh.counted]
  by_cases hSubscribed : ch.isSubscribed ourAddress
  · refine iff_of_true ⟨?_, hDistinct⟩ (Or.inl hSubscribed)
    have hRemoved := length_filter_ne_add_one hCh.distinct (isSubscribed_iff.mp hSubscribed)
    dsimp only
    rw [hCount, withoutSubscriber]
    exact (Nat.eq_sub_of_add_eq hRemoved).symm
  rw [or_iff_right hSubscribed]
  have hKept : (ch.withoutSubscriber ourAddress).subscribers = ch.subscribers := by
    rw [withoutSubscriber, List.filter_eq_self]
    intro s hMem
    refine decide_eq_true fun hSame => hSubscribed (isSubscribed_iff.mpr ?_)
    exact List.mem_map.mpr ⟨s, hMem, hSame⟩
  constructor
  · intro hAfter
    have hCounted := hAfter.counted
    rw [hCount, hKept] at hCounted
    exact List.eq_nil_of_length_eq_zero (by omega)
  · intro hEmpty
    refine ⟨?_, hDistinct⟩
    rw [hCount, hKept, hEmpty]
    rfl

/-- Whatever the role of the local user, an operation on a consistent channel keeps it
consistent exactly when it meets `KeepsCount`. -/
theorem perform_consistent_iff (hCh : ch.Consistent) (op : ChannelOp) :
    (ch.perform build ourAddress op).2.Consistent ↔ ch.KeepsCount ourAddress op := by
  cases op with
  | setHandle handle => exact iff_of_true ((setHandle_same handle).consistent hCh) trivial
  | subscribe now => exact subscribe_consistent_iff build hCh now
  | unsubscribe => exact unsubscribe_consistent_iff hCh
  | publishPost postId now content =>
    exact iff_of_true ((publishPost_same postId now content).consistent hCh) trivial
  | pinPost postId => exact iff_of_true ((pinPost_same postId).consistent hCh) trivial

/-- An `unsubscribe` that finds nothing changes nothing if there is nothing. -/
theorem unsubscribe_of_empty (hCh : ch.Consistent) (hEmpty : ch.subscribers = []) :
    (ch.unsubscribe ourAddress).2 = ch := by
  have hNotOwner : ¬ ch.isOwner ourAddress := by
    rw [isOwner, hEmpty]
    exact Bool.false_ne_true
  have hZero : ch.subscriberCount = 0 := by
    apply UInt64.toNat_inj.mp
    rw [hCh.counted, hEmpty]
    rfl
  have hCount : saturatingSub ch.subscriberCount 1 = ch.subscriberCount := by
    rw [hZero]
    rfl
  have hSubscribers : ch.subscribers.filter (·.address ≠ ourAddress) = ch.subscribers := by
    rw [hEmpty]
    rfl
  rw [unsubscribe, if_neg hNotOwner, withoutSubscriber, hCount, hSubscribers]

end Operations

end Channel

namespace ChannelManager

theorem newChannel_consistent (ourAddress : String) (draws : ChannelDraws) (name : String)
    (visibility : ChannelVisibility) :
    (newChannel ourAddress draws name visibility).Consistent where
  counted := rfl
  distinct := List.nodup_singleton _

/-- An operation on the channel `ch`, which has this id, meets `KeepsCount`. -/
def KeepsCount (manager : ChannelManager) (channelId : ChannelId) (ch : Channel) :
    ChannelEvent → Prop
  | .createChannel _ _ _ => True
  | .onChannel channelId' op => channelId' = channelId → ch.KeepsCount manager.ourAddress op

/-- The local user unsubscribes from the channel `ch`, which has this id, without being one of
its subscribers. -/
def LeavesUnsubscribed (manager : ChannelManager) (channelId : ChannelId) (ch : Channel)
    (event : ChannelEvent) : Prop :=
  event = .onChannel channelId .unsubscribe ∧ ¬ ch.isSubscribed manager.ourAddress

section Events

variable (build : Build) {manager : ChannelManager} {channelId : ChannelId} {ch : Channel}

theorem step_consistent_iff (hChannel : manager.channels[channelId]? = some ch)
    (hCh : ch.Consistent) (event : ChannelEvent) :
    (∃ after, (manager.step build event).channels[channelId]? = some after ∧ after.Consistent) ↔
      manager.KeepsCount channelId ch event := by
  rw [step_lookup]
  by_cases hId : event.channelId = channelId
  · rw [if_pos hId]
    cases event with
    | createChannel draws name visibility =>
      exact iff_of_true ⟨_, rfl, newChannel_consistent ..⟩ trivial
    | onChannel channelId' op =>
      obtain rfl : channelId' = channelId := hId
      rw [left, hChannel, KeepsCount, imp_iff_right rfl,
        ← Channel.perform_consistent_iff build hCh op]
      simp
  · rw [if_neg hId]
    refine iff_of_true ⟨ch, hChannel, hCh⟩ ?_
    cases event with
    | createChannel draws name visibility => trivial
    | onChannel channelId' op => exact fun hSame => absurd hSame hId

/-- Where `KeepsCount` holds, an `unsubscribe` without a subscription changes nothing. -/
theorem step_of_leavesUnsubscribed (hChannel : manager.channels[channelId]? = some ch)
    (hCh : ch.Consistent) {event : ChannelEvent}
    (hKeeps : manager.KeepsCount channelId ch event)
    (hLeaves : manager.LeavesUnsubscribed channelId ch event) :
    manager.step build event = manager := by
  obtain ⟨rfl, hNot⟩ := hLeaves
  have hEmpty := (hKeeps rfl).resolve_left hNot
  have hSame : (ch.perform build manager.ourAddress .unsubscribe).2 = ch :=
    Channel.unsubscribe_of_empty hCh hEmpty
  rw [step_onChannel_of_some build hChannel, hSame, insert_of_getElem? hChannel]

end Events

/-! ## Runs -/

def Consistent (manager : ChannelManager) : Prop :=
  ∀ (channelId : ChannelId) (ch : Channel), manager.channels[channelId]? = some ch → ch.Consistent

def KeepsCounts (manager : ChannelManager) (event : ChannelEvent) : Prop :=
  ∀ (channelId : ChannelId) (ch : Channel), manager.channels[channelId]? = some ch →
    manager.KeepsCount channelId ch event

section Events

variable (build : Build) {manager : ChannelManager} {channelId : ChannelId} {ch : Channel}

/-- A channel that appears is new. -/
theorem step_consistent_of_new (hChannel : manager.channels[channelId]? = none)
    {event : ChannelEvent} {after : Channel}
    (hAfter : (manager.step build event).channels[channelId]? = some after) :
    after.Consistent := by
  rw [step_lookup] at hAfter
  by_cases hId : event.channelId = channelId
  · rw [if_pos hId] at hAfter
    cases event with
    | createChannel draws name visibility =>
      rw [← Option.some.inj hAfter]
      exact newChannel_consistent ..
    | onChannel channelId' op =>
      obtain rfl : channelId' = channelId := hId
      rw [left, hChannel] at hAfter
      cases hAfter
  · rw [if_neg hId, hChannel] at hAfter
    cases hAfter

/-- A channel that is there stays there. -/
theorem exists_after (hChannel : manager.channels[channelId]? = some ch) (event : ChannelEvent) :
    ∃ after, (manager.step build event).channels[channelId]? = some after := by
  rw [step_lookup]
  split
  · rename_i hId
    cases event with
    | createChannel draws name visibility => exact ⟨_, rfl⟩
    | onChannel channelId' op =>
      obtain rfl : channelId' = channelId := hId
      rw [left, hChannel]
      exact ⟨_, rfl⟩
  · exact ⟨ch, hChannel⟩

theorem step_allConsistent_iff (hManager : manager.Consistent) (event : ChannelEvent) :
    (manager.step build event).Consistent ↔ manager.KeepsCounts event := by
  constructor
  · intro hAfter channelId ch hChannel
    rw [← step_consistent_iff build hChannel (hManager channelId ch hChannel)]
    obtain ⟨after, hThere⟩ := exists_after build hChannel event
    exact ⟨after, hThere, hAfter channelId after hThere⟩
  · intro hKeeps channelId after hAfter
    cases hChannel : manager.channels[channelId]? with
    | none => exact step_consistent_of_new build hChannel hAfter
    | some ch =>
      obtain ⟨after', hThere, hConsistent⟩ :=
        (step_consistent_iff build hChannel (hManager channelId ch hChannel) event).mpr
          (hKeeps channelId ch hChannel)
      rw [hThere] at hAfter
      rwa [← Option.some.inj hAfter]

/-- All channels stay counted in exactly the runs whose steps meet `KeepsCounts`. -/
theorem run_consistent_iff (hManager : manager.Consistent) (events : List ChannelEvent) :
    Throughout (step build) Consistent manager events ↔
      EveryStep (step build) KeepsCounts manager events :=
  throughout_iff_everyStep (Q := Consistent)
    (fun _ event hReached => step_allConsistent_iff build hReached event) hManager events

end Events

/-- The local user is the Owner and the one subscriber. -/
structure OwnedBy (ourAddress : String) (ch : Channel) : Prop where
  counted : ch.subscriberCount = 1
  owner : ∃ now, ch.subscribers = [.joining ourAddress .owner now]

theorem OwnedBy.consistent {ourAddress : String} {ch : Channel} (hOwned : OwnedBy ourAddress ch) :
    ch.Consistent := by
  obtain ⟨now, hSubscribers⟩ := hOwned.owner
  constructor
  · rw [hOwned.counted, hSubscribers]
    rfl
  · rw [hSubscribers]
    exact List.nodup_singleton _

theorem OwnedBy.of_same {ourAddress : String} {ch after : Channel} (hOwned : OwnedBy ourAddress ch)
    (hSame : ch.SameSubscribers after) : OwnedBy ourAddress after where
  counted := hSame.count.trans hOwned.counted
  owner := by
    rw [hSame.subscribers]
    exact hOwned.owner

/-- The Owner neither subscribes again nor unsubscribes. -/
theorem OwnedBy.perform {ourAddress : String} {ch : Channel} (hOwned : OwnedBy ourAddress ch)
    (build : Build) (op : ChannelOp) : OwnedBy ourAddress (ch.perform build ourAddress op).2 := by
  obtain ⟨since, hSubscribers⟩ := hOwned.owner
  have hOwner : ch.isOwner ourAddress := by
    simp [Channel.isOwner, hSubscribers, ChannelSubscriber.joining]
  cases op with
  | setHandle handle => exact hOwned.of_same (Channel.setHandle_same handle)
  | subscribe now =>
    have hSame : (ch.subscribe build ourAddress now).2 = ch := by
      rw [Channel.subscribe, if_pos (Channel.isSubscribed_of_isOwner hOwner)]
    rwa [Channel.perform, withoutReply, hSame]
  | unsubscribe =>
    have hSame : (ch.unsubscribe ourAddress).2 = ch := by
      rw [Channel.unsubscribe, if_pos hOwner]
    rwa [Channel.perform, withoutReply, hSame]
  | publishPost postId now content =>
    exact hOwned.of_same (Channel.publishPost_same postId now content)
  | pinPost postId => exact hOwned.of_same (Channel.pinPost_same postId)

theorem step_ourAddress (build : Build) (manager : ChannelManager) (event : ChannelEvent) :
    (manager.step build event).ourAddress = manager.ourAddress := by
  cases event with
  | createChannel draws name visibility => rfl
  | onChannel channelId op =>
    cases hChannel : manager.channels[channelId]? with
    | none => rw [step_onChannel_of_none build hChannel]
    | some ch => rw [step_onChannel_of_some build hChannel]

/-- A manager that starts without channels holds only its own, each counted. -/
theorem new_run_owned (build : Build) (ourAddress : String) (events : List ChannelEvent) :
    (events.foldl (step build) (new ourAddress)).ourAddress = ourAddress ∧
      ∀ (channelId : ChannelId) (ch : Channel),
        (events.foldl (step build) (new ourAddress)).channels[channelId]? = some ch →
          OwnedBy ourAddress ch := by
  induction events using List.reverseRecOn with
  | nil =>
    refine ⟨rfl, ?_⟩
    intro channelId ch hChannel
    simp [new] at hChannel
  | append_singleton events event ih =>
    rw [List.foldl_append, List.foldl_cons, List.foldl_nil]
    obtain ⟨hAddress, hOwned⟩ := ih
    generalize events.foldl (step build) (new ourAddress) = manager at hAddress hOwned
    refine ⟨(step_ourAddress build manager event).trans hAddress, ?_⟩
    intro channelId after hAfter
    rw [step_lookup] at hAfter
    split at hAfter
    · cases event with
      | createChannel draws name visibility =>
        rw [← Option.some.inj hAfter, hAddress]
        exact ⟨rfl, draws.now, rfl⟩
      | onChannel channelId' op =>
        obtain ⟨ch, hChannel, rfl⟩ := Option.map_eq_some_iff.mp hAfter
        rw [hAddress]
        exact (hOwned channelId' ch hChannel).perform build op
    · exact hOwned channelId after hAfter

theorem new_run_consistent (build : Build) (ourAddress : String) (events : List ChannelEvent) :
    (events.foldl (step build) (new ourAddress)).Consistent := by
  intro channelId ch hChannel
  exact ((new_run_owned build ourAddress events).2 channelId ch hChannel).consistent

end ChannelManager

open ChannelManager

/-- From any state and for any local user, an operation keeps the count of a channel and the
distinctness of its addresses, and changes nothing when it unsubscribes without a subscription,
exactly when it meets `KeepsCount`; a new channel is counted. -/
theorem subscribers_counted_iff (build : Build) (manager : ChannelManager) :
    (∀ (channelId : ChannelId) (ch : Channel), manager.channels[channelId]? = some ch →
      ch.Consistent → ∀ event,
        ((∃ after, (manager.step build event).channels[channelId]? = some after ∧
            after.Consistent) ∧
          (manager.LeavesUnsubscribed channelId ch event → manager.step build event = manager) ↔
        manager.KeepsCount channelId ch event)) ∧
    ∀ draws name visibility, ∃ ch,
      (manager.step build (.createChannel draws name visibility)).channels[draws.id]? = some ch ∧
        ch.Consistent := by
  constructor
  · intro channelId ch hChannel hCh event
    rw [step_consistent_iff build hChannel hCh]
    exact and_iff_left_of_imp fun hKeeps =>
      step_of_leavesUnsubscribed build hChannel hCh hKeeps
  · intro draws name visibility
    refine ⟨_, ?_, newChannel_consistent manager.ourAddress draws name visibility⟩
    rw [step_createChannel]
    exact (lookup_insert ..).trans (if_pos rfl)

/-- Another user subscribes to the channel. -/
theorem plain_subscribe_counted_iff :
    (∃ after, (plain.step .release (.onChannel 1 (.subscribe 0))).channels[(1 : ChannelId)]? =
        some after ∧ after.Consistent) ∧
      (plain.LeavesUnsubscribed 1 plainChannel (.onChannel 1 (.subscribe 0)) →
        plain.step .release (.onChannel 1 (.subscribe 0)) = plain) ↔
    plain.KeepsCount 1 plainChannel (.onChannel 1 (.subscribe 0)) :=
  (subscribers_counted_iff .release plain).1 1 plainChannel plain_channel
    (newChannel_consistent ..) _

/-- An `unsubscribe` of a user that has not subscribed leaves one subscriber and the count 0. -/
theorem subscriber_uncounted :
    ((plain.step .release (.onChannel 1 .unsubscribe)).channels[(1 : ChannelId)]?.map fun ch =>
        (ch.subscribers.length, ch.subscriberCount)) = some (1, 0) ∧
      ¬ ∀ (manager : ChannelManager) (channelId : ChannelId) (ch : Channel),
        manager.channels[channelId]? = some ch → ch.Consistent → ∀ event,
          ∃ after, (manager.step .release event).channels[channelId]? = some after ∧
            after.Consistent := by
  have hLeft : (plain.step .release (.onChannel 1 .unsubscribe)).channels[(1 : ChannelId)]? =
      some (plainChannel.perform .release "0xB" .unsubscribe).2 := by
    rw [step_lookup, ChannelEvent.channelId, if_pos rfl, left, plain_channel]
    rfl
  rw [hLeft]
  refine ⟨rfl, ?_⟩
  intro hAlways
  obtain ⟨after, hAfter, hConsistent⟩ :=
    hAlways plain 1 plainChannel plain_channel (newChannel_consistent ..)
      (.onChannel 1 .unsubscribe)
  rw [hLeft] at hAfter
  rw [← Option.some.inj hAfter] at hConsistent
  cases hConsistent.counted

end CipherCli.Channels
