import CipherCli.Message
import CipherCli.Library.Containers

/-!
# Mesh routes

The routing table of `MeshCoordinator` in `mesh.rs`. A destination has one entry, which
an update replaces only by a route of fewer hops; the clock of an update is an argument.
The time at which an entry expires is written and never read, so a lookup answers with
the shortest route of the whole history, and is right only while that one is fresh.
-/

namespace CipherCli.Transport

open Std Library

/-- Available offline transport types. -/
inductive OfflineTransport
  | bleMesh
  | wifiDirect
  | wifiLan
  | loRa
  deriving DecidableEq, Repr

/-- Route entry in the MANET routing table. -/
structure RouteEntry where
  destination : String
  nextHop : String
  transport : OfflineTransport
  hopCount : UInt8
  cost : UInt32
  lastUpdated : DateTime
  expiresAt : DateTime
  deriving DecidableEq

structure MeshCoordinator where
  ourAddress : String
  routes : ExtTreeMap String RouteEntry

/-- `chrono::Duration::minutes(10)`. -/
def routeLifetime : Int := 10 * 60 * 1000000000

/-- A call of `update_route`, with the time that it reads. -/
structure RouteUpdate where
  now : DateTime
  destination : String
  nextHop : String
  transport : OfflineTransport
  hopCount : UInt8
  deriving DecidableEq

namespace RouteUpdate

variable (update : RouteUpdate)

def route : RouteEntry where
  destination := update.destination
  nextHop := update.nextHop
  transport := update.transport
  hopCount := update.hopCount
  cost := update.hopCount.toUInt32 * 10
  lastUpdated := update.now
  expiresAt := update.now + routeLifetime

/-- The update was made in the ten minutes before. -/
def Fresh (now : DateTime) : Prop := now < update.now + routeLifetime

end RouteUpdate

namespace MeshCoordinator

def new (ourAddress : String) : MeshCoordinator := { ourAddress, routes := ∅ }

variable (coordinator : MeshCoordinator)

def updateRoute (update : RouteUpdate) : MeshCoordinator :=
  match coordinator.routes[update.destination]? with
  | some existing =>
    if existing.hopCount ≤ update.hopCount then coordinator
    else
      { coordinator with
        routes := coordinator.routes.insert update.destination update.route }
  | none =>
    { coordinator with routes := coordinator.routes.insert update.destination update.route }

def getRoute (destination : String) : Option RouteEntry := coordinator.routes[destination]?

end MeshCoordinator

/-- The first of the shortest updates for a destination. -/
def FirstShortest (updates : List RouteUpdate) (destination : String) (update : RouteUpdate) :
    Prop :=
  ∃ earlier later, updates = earlier ++ update :: later ∧ update.destination = destination ∧
    (∀ other ∈ earlier, other.destination = destination → update.hopCount < other.hopCount) ∧
      ∀ other ∈ later, other.destination = destination → update.hopCount ≤ other.hopCount

/-- What a lookup should answer: a shortest one of the routes that have not expired, or
nothing when all have. -/
def BestRoute (updates : List RouteUpdate) (now : DateTime) (destination : String) :
    Option RouteEntry → Prop
  | none => ∀ update ∈ updates, update.destination = destination → ¬ update.Fresh now
  | some route =>
    now < route.expiresAt ∧
      (∃ update ∈ updates, update.destination = destination ∧ update.route = route) ∧
        ∀ update ∈ updates, update.destination = destination → update.Fresh now →
          route.hopCount ≤ update.hopCount

section History

variable {updates : List RouteUpdate} {destination : String} {update : RouteUpdate}

theorem FirstShortest.mem (hFirst : FirstShortest updates destination update) :
    update ∈ updates ∧ update.destination = destination := by
  obtain ⟨earlier, later, rfl, hDestination, -, -⟩ := hFirst
  exact ⟨List.mem_append_right _ List.mem_cons_self, hDestination⟩

theorem FirstShortest.le (hFirst : FirstShortest updates destination update)
    {other : RouteUpdate} (hMem : other ∈ updates)
    (hDestination : other.destination = destination) :
    update.hopCount ≤ other.hopCount := by
  obtain ⟨earlier, later, rfl, -, hEarlier, hLater⟩ := hFirst
  rcases List.mem_append.mp hMem with hBefore | hRest
  · exact UInt8.le_of_lt (hEarlier other hBefore hDestination)
  · rcases List.mem_cons.mp hRest with rfl | hAfter
    · exact UInt8.le_refl _
    · exact hLater other hAfter hDestination

theorem FirstShortest.unique {other : RouteUpdate}
    (hFirst : FirstShortest updates destination update)
    (hOther : FirstShortest updates destination other) : update = other := by
  have hLe := hFirst.le hOther.mem.1 hOther.mem.2
  have hGe := hOther.le hFirst.mem.1 hFirst.mem.2
  obtain ⟨earlier, later, hSplit, hDestination, hShorter, -⟩ := hFirst
  obtain ⟨earlier', later', hSplit', hDestination', hShorter', -⟩ := hOther
  -- whichever of the two came first, the later one is strictly shorter
  rcases List.append_eq_append_iff.mp (hSplit.symm.trans hSplit') with
    ⟨between, hEarlier, hRest⟩ | ⟨between, hEarlier, hRest⟩
  · cases between with
    | nil => exact (List.cons.inj hRest).1
    | cons first between =>
      obtain rfl := (List.cons.inj hRest).1
      have hMem : update ∈ earlier' := by
        rw [hEarlier]
        exact List.mem_append_right _ List.mem_cons_self
      exact absurd (hShorter' update hMem hDestination) (UInt8.not_lt.mpr hLe)
  · cases between with
    | nil => exact (List.cons.inj hRest).1.symm
    | cons first between =>
      obtain rfl := (List.cons.inj hRest).1
      have hMem : other ∈ earlier := by
        rw [hEarlier]
        exact List.mem_append_right _ List.mem_cons_self
      exact absurd (hShorter other hMem hDestination') (UInt8.not_lt.mpr hGe)

/-- An update that is not shorter leaves the first of the shortest. -/
theorem FirstShortest.snoc (hFirst : FirstShortest updates destination update)
    {last : RouteUpdate}
    (hLast : last.destination = destination → update.hopCount ≤ last.hopCount) :
    FirstShortest (updates ++ [last]) destination update := by
  obtain ⟨earlier, later, rfl, hDestination, hEarlier, hLater⟩ := hFirst
  refine ⟨earlier, later ++ [last], by simp, hDestination, hEarlier, ?_⟩
  intro other hOther
  rcases List.mem_append.mp hOther with hOld | hNew
  · exact hLater other hOld
  · rw [List.mem_singleton.mp hNew]
    exact hLast

/-- An update shorter than every other is the first of the shortest. -/
theorem firstShortest_last {last : RouteUpdate}
    (hShorter : ∀ other ∈ updates, other.destination = last.destination →
      last.hopCount < other.hopCount) :
    FirstShortest (updates ++ [last]) last.destination last :=
  ⟨updates, [], rfl, rfl, hShorter, nofun⟩

end History

namespace MeshCoordinator

/-- The table after a history of updates. -/
def after (ourAddress : String) (updates : List RouteUpdate) : MeshCoordinator :=
  updates.foldl updateRoute (new ourAddress)

/-- What the table says of a destination after a history. -/
def Records (updates : List RouteUpdate) (destination : String) : Option RouteEntry → Prop
  | none => ∀ update ∈ updates, update.destination ≠ destination
  | some route => ∃ update, FirstShortest updates destination update ∧ update.route = route

theorem getRoute_updateRoute_other (coordinator : MeshCoordinator) {update : RouteUpdate}
    {destination : String} (hOther : update.destination ≠ destination) :
    (coordinator.updateRoute update).getRoute destination = coordinator.getRoute destination := by
  unfold updateRoute getRoute
  split
  · split
    · rfl
    · dsimp only
      rw [lookup_insert, if_neg hOther]
  · dsimp only
    rw [lookup_insert, if_neg hOther]

theorem getRoute_updateRoute_self (coordinator : MeshCoordinator) (update : RouteUpdate) :
    (coordinator.updateRoute update).getRoute update.destination =
      match coordinator.getRoute update.destination with
      | some existing =>
        some (if existing.hopCount ≤ update.hopCount then existing else update.route)
      | none => some update.route := by
  unfold updateRoute getRoute
  cases hEntry : coordinator.routes[update.destination]? with
  | none => exact (lookup_insert _ _ _ _).trans (if_pos rfl)
  | some existing =>
    dsimp only
    split_ifs
    · exact hEntry
    · exact (lookup_insert _ _ _ _).trans (if_pos rfl)

/-- The entry of a destination is the first of the shortest updates for it, whatever their
times. -/
theorem getRoute_after (ourAddress : String) (updates : List RouteUpdate) (destination : String) :
    Records updates destination ((after ourAddress updates).getRoute destination) := by
  induction updates using List.reverseRecOn with
  | nil =>
    intro update hMem
    cases hMem
  | append_singleton updates last ih =>
    rw [after, List.foldl_concat, ← after]
    by_cases hDestination : last.destination = destination
    · subst hDestination
      rw [getRoute_updateRoute_self]
      cases hEntry : (after ourAddress updates).getRoute last.destination with
      | none =>
        rw [hEntry] at ih
        refine ⟨last, firstShortest_last ?_, rfl⟩
        intro other hOther hSame
        exact absurd hSame (ih other hOther)
      | some existing =>
        rw [hEntry] at ih
        obtain ⟨shortest, hFirst, rfl⟩ := ih
        dsimp only
        split_ifs with hLonger
        · exact ⟨shortest, hFirst.snoc fun _ => hLonger, rfl⟩
        · refine ⟨last, firstShortest_last ?_, rfl⟩
          intro other hOther hSame
          exact UInt8.lt_of_lt_of_le (UInt8.not_le.mp hLonger) (hFirst.le hOther hSame)
    · rw [getRoute_updateRoute_other _ hDestination]
      cases hEntry : (after ourAddress updates).getRoute destination with
      | none =>
        rw [hEntry] at ih
        intro other hOther
        rcases List.mem_append.mp hOther with hOld | hNew
        · exact ih other hOld
        · rw [List.mem_singleton.mp hNew]
          exact hDestination
      | some existing =>
        rw [hEntry] at ih
        obtain ⟨shortest, hFirst, hRoute⟩ := ih
        exact ⟨shortest, hFirst.snoc fun hSame => absurd hSame hDestination, hRoute⟩

end MeshCoordinator

open MeshCoordinator

/-- After any updates, a lookup is right exactly when the first of all the shortest updates for
the destination, however old, is fresh. -/
theorem getRoute_bestRoute_iff (ourAddress : String) (updates : List RouteUpdate) (now : DateTime)
    (destination : String) :
    BestRoute updates now destination ((after ourAddress updates).getRoute destination) ↔
      ∀ update, FirstShortest updates destination update → update.Fresh now := by
  have hRecords := getRoute_after ourAddress updates destination
  cases hEntry : (after ourAddress updates).getRoute destination with
  | none =>
    rw [hEntry] at hRecords
    constructor
    · intro _ update hFirst
      exact absurd hFirst.mem.2 (hRecords update hFirst.mem.1)
    · intro _ update hMem hDestination
      exact absurd hDestination (hRecords update hMem)
  | some route =>
    rw [hEntry] at hRecords
    obtain ⟨shortest, hShortest, rfl⟩ := hRecords
    constructor
    · rintro ⟨hFresh, -, -⟩ update hFirst
      rw [← hShortest.unique hFirst]
      exact hFresh
    · intro hFresh
      refine ⟨hFresh shortest hShortest, ⟨shortest, hShortest.mem.1, hShortest.mem.2, rfl⟩, ?_⟩
      intro update hMem hDestination _
      exact hShortest.le hMem hDestination

/-- A neighbour that went away eleven minutes ago is still the route, and keeps out the longer
one that was found since. -/
theorem dead_route_blocks :
    ¬ BestRoute
      [⟨0, "0xBob", "0xDave", .wifiDirect, 1⟩,
        ⟨660000000000, "0xBob", "0xCharlie", .bleMesh, 3⟩]
      720000000000 "0xBob"
      ((after "0xAlice"
        [⟨0, "0xBob", "0xDave", .wifiDirect, 1⟩,
          ⟨660000000000, "0xBob", "0xCharlie", .bleMesh, 3⟩]).getRoute "0xBob") := by
  have hEntry : (after "0xAlice"
      [⟨0, "0xBob", "0xDave", .wifiDirect, 1⟩,
        ⟨660000000000, "0xBob", "0xCharlie", .bleMesh, 3⟩]).getRoute "0xBob" =
      some (RouteUpdate.route ⟨0, "0xBob", "0xDave", .wifiDirect, 1⟩) := by
    decide +kernel
  rw [hEntry]
  rintro ⟨hFresh, -, -⟩
  exact absurd hFresh (by decide)

end CipherCli.Transport
