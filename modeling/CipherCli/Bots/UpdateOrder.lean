import CipherCli.Bots.BotManager

/-!
# Every update comes once

Whatever is called in between, the updates that come for a bot after it is created are taken once
each and in order, and a message is routed to the bot that registered its command last.
-/

namespace CipherCli.Bots

open Std Library BotManager

variable {manager : BotManager} {past : List BotCall} {call : BotCall} {botId : BotId}

/-! ## The handlers -/

/-- Commands are registered in order, the last one counts. -/
theorem foldl_handlers (commands : List BotCommand) (handlers : ExtTreeMap String BotId)
    (command : String) :
    (commands.foldl (fun handlers cmd => handlers.insert ("/" ++ cmd.command) botId)
        handlers)[command]? =
      (((commands.map fun cmd => ("/" ++ cmd.command, botId)).reverse.find?
        (·.1 = command)).map Prod.snd).or handlers[command]? := by
  induction commands generalizing handlers with
  | nil => rfl
  | cons cmd rest ih =>
    rw [List.foldl_cons, ih, lookup_insert, List.map_cons, List.reverse_cons, List.find?_append]
    cases (rest.map fun cmd => ("/" ++ cmd.command, botId)).reverse.find? (·.1 = command) with
    | some found => rfl
    | none =>
      by_cases hSame : "/" ++ cmd.command = command
      · simp [hSame]
      · simp [hSame]

theorem handlerAfter_snoc (command : String) :
    handlerAfter (past ++ [call]) command =
      ((call.registers.reverse.find? (·.1 = command)).map Prod.snd).or
        (handlerAfter past command) := by
  unfold handlerAfter
  rw [List.flatMap_append, List.flatMap_singleton, List.reverse_append, List.find?_append,
    Option.map_or]

theorem handlerAfter_unregistered (hNone : call.registers = []) (command : String) :
    handlerAfter (past ++ [call]) command = handlerAfter past command := by
  rw [handlerAfter_snoc, hNone]
  rfl

/-- A handler is a bot that has been created. -/
theorem created_of_handlerAfter {command : String} (hHandler : handlerAfter past command = some botId) :
    ∃ call ∈ past, call.created = some botId := by
  obtain ⟨⟨registered, id⟩, hFound, rfl⟩ := Option.map_eq_some_iff.mp hHandler
  have hMem := List.mem_of_find?_eq_some hFound
  obtain ⟨call, hCall, hRegisters⟩ := List.mem_flatMap.mp (List.mem_reverse.mp hMem)
  refine ⟨call, hCall, ?_⟩
  cases call with
  | createBot =>
    obtain ⟨cmd, -, hSame⟩ := List.mem_map.mp hRegisters
    exact congrArg some (Prod.mk.inj hSame).2
  | pushUpdate | getUpdates | routeMessage | getBot | deactivateBot => cases hRegisters

theorem created_of_addressee {text : String} (hAddressee : addressee past text = some botId) :
    ∃ call ∈ past, call.created = some botId := by
  unfold addressee at hAddressee
  split at hAddressee
  · exact created_of_handlerAfter hAddressee
  · cases hAddressee

/-- The handlers are those of the calls that have been. -/
def BotManager.Handles (past : List BotCall) (manager : BotManager) : Prop :=
  ∀ command, manager.handlers[command]? = handlerAfter past command

theorem new_handles (ourAddress : String) : (new ourAddress).Handles [] := by
  intro command
  exact ExtTreeMap.getElem?_empty

/-! ## The box of a bot -/

/-- What a call is to the box in which the updates of the bot wait. -/
def mailEvent (botId : BotId) (past : List BotCall) : BotCall → Option (MailEvent BotUpdate)
  | .createBot other .. => if other = botId then some .opens else none
  | .getUpdates other => if other = botId then some .takes else none
  | call => (arrival botId past call).map .puts

/-- The updates that an answer hands to the bot. -/
def handedTo (botId : BotId) : BotCall → BotAnswer → List BotUpdate
  | .getUpdates other, .updates updates => if other = botId then updates else []
  | _, _ => []

theorem pushUpdate_handlers (other : BotId) (update : BotUpdate) :
    (manager.pushUpdate other update).1.handlers = manager.handlers := by
  unfold pushUpdate
  split <;> rfl

theorem pushUpdate_updates (other : BotId) (update : BotUpdate) :
    (manager.pushUpdate other update).1.updates[botId]? =
      MailEvent.after manager.updates[botId]?
        (if other = botId then some (MailEvent.puts update) else none).toList := by
  unfold pushUpdate
  by_cases hSame : other = botId
  · subst hSame
    rw [if_pos rfl]
    split
    · rename_i hNone
      rw [hNone]
      rfl
    · rename_i pending hPending
      rw [hPending]
      dsimp only
      rw [lookup_insert, if_pos rfl]
      rfl
  · rw [if_neg hSame]
    split
    · rfl
    · dsimp only
      rw [lookup_insert, if_neg hSame]
      rfl

theorem pushUpdate_handed (other : BotId) (update : BotUpdate) :
    handedTo botId (.pushUpdate other update) (manager.pushUpdate other update).2 = [] := by
  unfold pushUpdate
  split <;> rfl

theorem getUpdates_handlers (other : BotId) :
    (manager.getUpdates other).1.handlers = manager.handlers := by
  unfold getUpdates
  split <;> rfl

theorem getUpdates_updates (other : BotId) :
    (manager.getUpdates other).1.updates[botId]? =
      MailEvent.after manager.updates[botId]?
        (if other = botId then some (MailEvent.takes : MailEvent BotUpdate) else none).toList := by
  unfold getUpdates
  by_cases hSame : other = botId
  · subst hSame
    rw [if_pos rfl]
    split
    · rename_i hNone
      rw [hNone]
      rfl
    · rename_i pending hPending
      rw [hPending]
      dsimp only
      rw [lookup_insert, if_pos rfl]
      rfl
  · rw [if_neg hSame]
    split
    · rfl
    · dsimp only
      rw [lookup_insert, if_neg hSame]
      rfl

theorem getUpdates_handed (other : BotId) :
    handedTo botId (.getUpdates other) (manager.getUpdates other).2 =
      MailEvent.taken manager.updates[botId]?
        (if other = botId then some (MailEvent.takes : MailEvent BotUpdate) else none).toList := by
  unfold getUpdates
  by_cases hSame : other = botId
  · subst hSame
    rw [if_pos rfl]
    split
    · rename_i hNone
      rw [hNone]
      exact if_pos rfl
    · rename_i pending hPending
      rw [hPending]
      exact (if_pos rfl).trans (List.append_nil pending).symm
  · rw [if_neg hSame]
    split
    · exact if_neg hSame
    · exact if_neg hSame

theorem deactivateBot_same (other : BotId) :
    (manager.deactivateBot other).1.handlers = manager.handlers ∧
      (manager.deactivateBot other).1.updates = manager.updates := by
  unfold deactivateBot
  split <;> exact ⟨rfl, rfl⟩

theorem routeMessage_eq (hHandles : manager.Handles past) (now : DateTime)
    (sender chatId text : String) :
    manager.routeMessage now sender chatId text =
      (addressee past text).elim (manager, .routed none) fun other =>
        ((manager.pushUpdate other (commandUpdate now sender chatId text)).1,
          .routed (some other)) := by
  unfold routeMessage addressee
  split
  · rw [hHandles]
    cases handlerAfter past (commandOf text) <;> rfl
  · rfl

/-! ## One call -/

theorem step_handles (hHandles : manager.Handles past) (call : BotCall) :
    (manager.step call).1.Handles (past ++ [call]) := by
  have hKeeps : call.registers = [] → (manager.step call).1.handlers = manager.handlers →
      (manager.step call).1.Handles (past ++ [call]) := by
    intro hNone hSame command
    rw [hSame, handlerAfter_unregistered hNone, ← hHandles]
  cases call with
  | createBot other addressId now name username botType commands =>
    intro command
    rw [handlerAfter_snoc, ← hHandles]
    exact foldl_handlers commands manager.handlers command
  | pushUpdate other update => exact hKeeps rfl (pushUpdate_handlers other update)
  | getUpdates other => exact hKeeps rfl (getUpdates_handlers other)
  | routeMessage now sender chatId text =>
    apply hKeeps rfl
    unfold step
    dsimp only
    rw [routeMessage_eq hHandles]
    cases addressee past text with
    | none => rfl
    | some other => exact pushUpdate_handlers other _
  | getBot other => exact hKeeps rfl rfl
  | deactivateBot other => exact hKeeps rfl (deactivateBot_same other).1

theorem mailEvent_pushUpdate (other : BotId) (update : BotUpdate) :
    mailEvent botId past (.pushUpdate other update) =
      if other = botId then some (.puts update) else none := by
  unfold mailEvent arrival
  dsimp only
  split <;> rfl

theorem mailEvent_routeMessage (now : DateTime) (sender chatId text : String) :
    mailEvent botId past (.routeMessage now sender chatId text) =
      if addressee past text = some botId then
        some (.puts (commandUpdate now sender chatId text)) else none := by
  unfold mailEvent arrival
  dsimp only
  split <;> rfl

theorem step_updates (hHandles : manager.Handles past) (call : BotCall) :
    (manager.step call).1.updates[botId]? =
      MailEvent.after manager.updates[botId]? (mailEvent botId past call).toList := by
  cases call with
  | createBot other addressId now name username botType commands =>
    unfold step createBot mailEvent
    dsimp only
    rw [lookup_insert]
    split <;> rfl
  | pushUpdate other update =>
    rw [mailEvent_pushUpdate]
    exact pushUpdate_updates other update
  | getUpdates other => exact getUpdates_updates other
  | routeMessage now sender chatId text =>
    rw [mailEvent_routeMessage]
    unfold step
    dsimp only
    rw [routeMessage_eq hHandles]
    cases addressee past text with
    | none => rfl
    | some other =>
      simp only [Option.some.injEq]
      exact pushUpdate_updates other _
  | getBot other => rfl
  | deactivateBot other => exact congrArg (·[botId]?) (deactivateBot_same other).2

theorem step_handed (hHandles : manager.Handles past) (call : BotCall) :
    handedTo botId call (manager.step call).2 =
      MailEvent.taken manager.updates[botId]? (mailEvent botId past call).toList := by
  cases call with
  | createBot other addressId now name username botType commands =>
    unfold mailEvent
    dsimp only
    split <;> rfl
  | pushUpdate other update =>
    rw [mailEvent_pushUpdate]
    refine (pushUpdate_handed other update).trans ?_
    split <;> rfl
  | getUpdates other => exact getUpdates_handed other
  | routeMessage now sender chatId text =>
    rw [mailEvent_routeMessage]
    unfold step
    dsimp only
    rw [routeMessage_eq hHandles]
    cases addressee past text with
    | none => rfl
    | some other => split <;> rfl
  | getBot other => rfl
  | deactivateBot other =>
    unfold step deactivateBot
    dsimp only
    split <;> rfl

theorem mailEvent_created (hCreated : call.created = some botId) :
    mailEvent botId past call = some .opens := by
  cases call with
  | createBot other addressId now name username botType commands =>
    exact if_pos (Option.some.inj hCreated)
  | pushUpdate | getUpdates | routeMessage | getBot | deactivateBot => cases hCreated

/-! ## Whole runs -/

theorem traffic_arrivals (past calls : List BotCall)
    (hOnce : ∀ call ∈ calls, call.created ≠ some botId) :
    MailEvent.opens ∉ traffic (mailEvent botId) past calls ∧
      (traffic (mailEvent botId) past calls).filterMap MailEvent.putIn =
        arrivals botId past calls := by
  induction calls generalizing past with
  | nil => exact ⟨List.not_mem_nil, rfl⟩
  | cons call rest ih =>
    obtain ⟨hRest, hArrivals⟩ := ih (past ++ [call]) fun call hCall =>
      hOnce call (List.mem_cons_of_mem _ hCall)
    have hFirst : MailEvent.opens ∉ (mailEvent botId past call).toList ∧
        (mailEvent botId past call).toList.filterMap MailEvent.putIn =
          (arrival botId past call).toList := by
      have hNew := hOnce call List.mem_cons_self
      cases call with
      | createBot other addressId now name username botType commands =>
        have hOther : other ≠ botId := fun hSame => hNew (congrArg some hSame)
        unfold mailEvent
        dsimp only
        rw [if_neg hOther]
        exact ⟨List.not_mem_nil, rfl⟩
      | getUpdates other =>
        unfold mailEvent
        dsimp only
        split
        · exact ⟨by simp, rfl⟩
        · exact ⟨List.not_mem_nil, rfl⟩
      | pushUpdate | routeMessage | getBot | deactivateBot =>
        unfold mailEvent
        dsimp only
        cases arrival botId past _ with
        | none => exact ⟨List.not_mem_nil, rfl⟩
        | some update => exact ⟨by simp, rfl⟩
    refine ⟨?_, ?_⟩
    · rw [traffic, List.mem_append, not_or]
      exact ⟨hFirst.1, hRest⟩
    · rw [traffic, List.filterMap_append, hFirst.2, hArrivals]
      rfl

/-- What comes for a bot after its creation is taken once each and in order, but for what still
waits. Before that nothing comes for it. A message is for the bot that registered its command
last. -/
theorem updates_come_once (ourAddress : String) {before after : List BotCall} {created : BotCall}
    (hCreated : created.created = some botId)
    (hOnce : ∀ call ∈ before ++ after, call.created ≠ some botId) :
    handedOver step (handedTo botId) (new ourAddress) (before ++ created :: after) ++
        ((reached step (new ourAddress) (before ++ created :: after)).updates[botId]?).getD [] =
      arrivals botId (before ++ [created]) after ∧
    (∀ earlier text, earlier <+: before → addressee earlier text ≠ some botId) ∧
    ∀ past call rest now sender chatId text, before ++ created :: after = past ++ call :: rest →
      call = .routeMessage now sender chatId text →
        ((reached step (new ourAddress) past).step call).2 = .routed (addressee past text) := by
  have hServes : ∀ past manager call, Handles past manager →
      (manager.step call).1.Handles (past ++ [call]) ∧
        (manager.step call).1.updates[botId]? =
          MailEvent.after manager.updates[botId]? (mailEvent botId past call).toList ∧
        handedTo botId call (manager.step call).2 =
          MailEvent.taken manager.updates[botId]? (mailEvent botId past call).toList :=
    fun past manager call hHandles =>
      ⟨step_handles hHandles call, step_updates hHandles call, step_handed hHandles call⟩
  have hRun := fun calls : List BotCall =>
    @handedOver_eq _ _ _ _ step (handedTo botId) Handles (·.updates[botId]?) (mailEvent botId) hServes
      [] calls _ (new_handles ourAddress)
  have hTraffic : traffic (mailEvent botId) [] (before ++ created :: after) =
      traffic (mailEvent botId) [] before ++
        .opens :: traffic (mailEvent botId) (before ++ [created]) after := by
    rw [traffic_append, traffic, mailEvent_created hCreated]
    rfl
  refine ⟨?_, ?_, ?_⟩
  · obtain ⟨-, hDelivered, hLeft⟩ := hRun (before ++ created :: after)
    have hBefore := traffic_arrivals [] before fun call hCall =>
      hOnce call (List.mem_append_left _ hCall)
    have hAfter := traffic_arrivals (before ++ [created]) after fun call hCall =>
      hOnce call (List.mem_append_right _ hCall)
    have hEmpty : (new ourAddress).updates[botId]? = none := ExtTreeMap.getElem?_empty
    rw [hEmpty, hTraffic] at hDelivered hLeft
    rw [hDelivered, hLeft, MailEvent.taken_once hBefore.1 hAfter.1, hAfter.2]
  · intro earlier text hEarlier hAddressee
    obtain ⟨call, hCall, hSame⟩ := created_of_addressee hAddressee
    exact hOnce call (List.mem_append_left _ (hEarlier.subset hCall)) hSame
  · rintro past call rest now sender chatId text - rfl
    have hHandles := (hRun past).1
    rw [List.nil_append] at hHandles
    change (routeMessage _ now sender chatId text).2 = _
    rw [routeMessage_eq hHandles]
    cases addressee past text <;> rfl

def priceBot : BotCall :=
  .createBot 1 2 0 "Price Bot" "price_bot" .service
    [{ command := "price", description := "Get crypto price", usage := some "/price BTC" }]

/-- A message is routed to the bot, which takes it. -/
def asks : List BotCall := [.routeMessage 1 "0xAlice" "chat1" "/price BTC", .getUpdates 1]

theorem updates_come_once_price :
    handedOver step (handedTo 1) (new "0xOwner") ([] ++ priceBot :: asks) ++
        ((reached step (new "0xOwner") ([] ++ priceBot :: asks)).updates[(1 : BotId)]?).getD [] =
      arrivals 1 ([] ++ [priceBot]) asks ∧
    (∀ earlier text, earlier <+: [] → addressee earlier text ≠ some 1) ∧
    ∀ past call rest now sender chatId text, [] ++ priceBot :: asks = past ++ call :: rest →
      call = .routeMessage now sender chatId text →
        ((reached step (new "0xOwner") past).step call).2 = .routed (addressee past text) :=
  updates_come_once "0xOwner" rfl (by simp [asks, BotCall.created])

example : arrivals 1 [priceBot] asks =
    [.command "0xAlice" "chat1" "/price" ["BTC"] 1] := by decide +kernel

end CipherCli.Bots
