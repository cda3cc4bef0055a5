import CipherCli.Ai.Conversations

/-!
# Calls of the AI manager beside each other

Whichever call goes on next, the conversations stay with their agents, the agents are counted for
the messages that have been sent, and no call comes back to find its conversation gone.
-/

namespace CipherCli.Ai

open Std Library AiManager

/-- The id of a conversation that is still to be put in. -/
def AiTask.starts : AiTask → Option AiId
  | .startsConversation conv => some conv.id
  | _ => none

/-- The answer says that a message to the agent has been sent. -/
def AiAnswer.SentTo (answer : AiAnswer) (agentId : AiId) : Prop :=
  match answer with
  | .sent other _ => other = agentId
  | _ => False

/-- The messages that the agent is counted for. -/
def AiManager.processed (manager : AiManager) (agentId : AiId) : UInt64 :=
  (manager.agents[agentId]?.map AiAgent.messagesProcessed).getD 0

variable {manager : AiManager} {build : Build} {now : DateTime} {task : AiTask} {result : Section}

/-! ## What a section writes -/

theorem begin_agents (manager : AiManager) (call : AiCall) :
    (manager.begin call).1.agents = manager.agents ∨
      ∃ (id : AiId) (agent : AiAgent), (AiEvent.begins call).agentId = some id ∧
        agent.messagesProcessed = 0 ∧
        (manager.begin call).1.agents = manager.agents.insert id agent := by
  cases call with
  | createAgent agentId addressId now name provider model capabilities =>
    exact Or.inr ⟨agentId, _, rfl, rfl, rfl⟩
  | startConversation | sendMessage | generateResponse | addMemory =>
    left
    unfold begin
    dsimp only
    split <;> rfl

theorem begin_conversations (manager : AiManager) (call : AiCall) :
    (manager.begin call).1.conversations = manager.conversations ∨
      ∃ (id : AiId) (conv old : AiConversation), manager.conversations[id]? = some old ∧
        (manager.begin call).1.conversations = manager.conversations.insert id conv := by
  cases call with
  | createAgent => exact Or.inl rfl
  | startConversation | sendMessage | generateResponse =>
    left
    unfold begin
    dsimp only
    split <;> rfl
  | addMemory conversationId now key value context =>
    unfold begin
    dsimp only
    split
    · exact Or.inl rfl
    · rename_i conv hConv
      exact Or.inr ⟨conversationId, _, conv, hConv, rfl⟩

theorem begin_answer {call : AiCall} {answer : AiAnswer}
    (hAnswer : (manager.begin call).2 = .inl answer) (agentId : AiId) :
    ¬ answer.SentTo agentId := by
  cases call with
  | createAgent =>
    obtain rfl := Sum.inl.inj hAnswer
    exact id
  | startConversation | sendMessage | generateResponse =>
    unfold begin at hAnswer
    dsimp only at hAnswer
    split at hAnswer <;> cases hAnswer
    exact id
  | addMemory =>
    unfold begin at hAnswer
    dsimp only at hAnswer
    split at hAnswer <;> cases hAnswer <;> exact id

theorem begin_task {call : AiCall} (hTask : (manager.begin call).2 = .inr task) :
    task.starts = none ∨ task.starts = (AiEvent.begins call).conversationId := by
  cases call with
  | createAgent => cases hTask
  | startConversation =>
    unfold begin at hTask
    dsimp only at hTask
    split at hTask <;> cases hTask
    exact Or.inr rfl
  | sendMessage | generateResponse | addMemory =>
    unfold begin at hTask
    dsimp only at hTask
    split at hTask <;> cases hTask <;> exact Or.inl rfl

/-- A section counts a message that it answers as sent, and leaves the agents alone otherwise. -/
theorem proceed_agents (hAwaits : manager.Awaits task)
    (hResult : manager.proceed build now task = .ok result) :
    (result.1.agents = manager.agents ∧
      ∀ answer, result.2 = .inl answer → ∀ agentId, ¬ answer.SentTo agentId) ∨
    ∃ (agentId : AiId) (message : AiMessage) (agent : AiAgent),
      manager.agents[agentId]? = some agent ∧ result.2 = .inl (.sent agentId message) ∧
        result.1.agents = manager.agents.insert agentId
          { agent with messagesProcessed := agent.messagesProcessed + 1 } := by
  cases task with
  | countsMessage agentId message =>
    obtain ⟨agent, hAgent⟩ := hAwaits
    unfold proceed at hResult
    dsimp only at hResult
    rw [hAgent] at hResult
    dsimp only at hResult
    split at hResult
    · cases hResult
    · rename_i messagesProcessed hSum
      obtain rfl := Except.ok.inj hResult
      unfold Build.addU64 at hSum
      split at hSum
      · cases hSum
      · obtain rfl := Except.ok.inj hSum
        exact Or.inr ⟨agentId, message, agent, hAgent, rfl, rfl⟩
  | startsConversation =>
    left
    obtain rfl := Except.ok.inj hResult
    exact ⟨rfl, fun answer hAnswer _ => Sum.inl.inj hAnswer ▸ id⟩
  | choosesRole =>
    left
    obtain rfl := Except.ok.inj hResult
    exact ⟨rfl, nofun⟩
  | pushesMessage =>
    left
    unfold proceed at hResult
    dsimp only at hResult
    split at hResult
    · cases hResult
    · obtain rfl := Except.ok.inj hResult
      exact ⟨rfl, nofun⟩
  | findsAgent =>
    left
    unfold proceed at hResult
    dsimp only at hResult
    split at hResult
    · obtain rfl := Except.ok.inj hResult
      exact ⟨rfl, fun answer hAnswer _ => Sum.inl.inj hAnswer ▸ id⟩
    · obtain rfl := Except.ok.inj hResult
      exact ⟨rfl, nofun⟩
  | pushesResponse =>
    left
    unfold proceed at hResult
    dsimp only at hResult
    split at hResult
    · cases hResult
    · obtain rfl := Except.ok.inj hResult
      exact ⟨rfl, fun answer hAnswer _ => Sum.inl.inj hAnswer ▸ id⟩
  | findsSender | findsModel =>
    left
    obtain ⟨agent, -, rfl⟩ := map_eq_ok hResult
    exact ⟨rfl, nofun⟩

theorem proceed_conversations (hResult : manager.proceed build now task = .ok result) :
    result.1.conversations = manager.conversations ∨
      ∃ (id : AiId) (conv : AiConversation),
        (task.starts = some id ∨ ∃ old : AiConversation, manager.conversations[id]? = some old) ∧
        result.1.conversations = manager.conversations.insert id conv := by
  cases task with
  | startsConversation conv =>
    obtain rfl := Except.ok.inj hResult
    exact Or.inr ⟨conv.id, conv, Or.inl rfl, rfl⟩
  | choosesRole =>
    obtain rfl := Except.ok.inj hResult
    exact Or.inl rfl
  | pushesMessage | pushesResponse =>
    unfold proceed at hResult
    dsimp only at hResult
    split at hResult
    · cases hResult
    · rename_i conv hConv
      obtain rfl := Except.ok.inj hResult
      exact Or.inr ⟨_, _, Or.inr ⟨conv, hConv⟩, rfl⟩
  | countsMessage agentId message =>
    left
    unfold proceed at hResult
    dsimp only at hResult
    split at hResult
    · obtain rfl := Except.ok.inj hResult
      rfl
    · split at hResult
      · cases hResult
      · obtain rfl := Except.ok.inj hResult
        rfl
  | findsAgent =>
    left
    unfold proceed at hResult
    dsimp only at hResult
    split at hResult
    · obtain rfl := Except.ok.inj hResult
      rfl
    · obtain rfl := Except.ok.inj hResult
      rfl
  | findsSender | findsModel =>
    left
    obtain ⟨agent, -, rfl⟩ := map_eq_ok hResult
    rfl

theorem proceed_task {rest : AiTask} (hResult : manager.proceed build now task = .ok result)
    (hRest : result.2 = .inr rest) : rest.starts = none := by
  cases task with
  | startsConversation =>
    obtain rfl := Except.ok.inj hResult
    cases hRest
  | choosesRole =>
    obtain rfl := Except.ok.inj hResult
    cases hRest
    rfl
  | pushesMessage | pushesResponse =>
    unfold proceed at hResult
    dsimp only at hResult
    split at hResult <;> cases hResult
    cases hRest <;> rfl
  | findsAgent =>
    unfold proceed at hResult
    dsimp only at hResult
    split at hResult <;> cases hResult
    · cases hRest
    · cases hRest
      rfl
  | countsMessage =>
    unfold proceed at hResult
    dsimp only at hResult
    split at hResult
    · cases hResult
      cases hRest
    · split at hResult <;> cases hResult
      cases hRest
  | findsSender | findsModel =>
    obtain ⟨agent, -, rfl⟩ := map_eq_ok hResult
    cases hRest
    rfl

/-! ## What is true after the events of a run -/

structure AiRun.KeptAfter (past : List AiEvent) (calls : AiRun) : Prop where
  kept : calls.manager.Kept
  awaits : ∀ task ∈ calls.tasks, calls.manager.Awaits task
  agents : ∀ (id : AiId) (agent : AiAgent), calls.manager.agents[id]? = some agent →
    id ∈ past.filterMap AiEvent.agentId
  conversations : ∀ (id : AiId) (conv : AiConversation),
    calls.manager.conversations[id]? = some conv → id ∈ past.filterMap AiEvent.conversationId
  starting : (calls.tasks.filterMap AiTask.starts).Nodup
  drawn : ∀ id ∈ calls.tasks.filterMap AiTask.starts, id ∈ past.filterMap AiEvent.conversationId
  waiting : ∀ id ∈ calls.tasks.filterMap AiTask.starts, calls.manager.conversations[id]? = none
  answered : calls.answers.length ≤ past.length
  counted : ∀ id, calls.manager.processed id = UInt64.ofNat (calls.sentTo id)

namespace AiRun

variable {calls : AiRun} {past : List AiEvent} {event : AiEvent} {rest : List AiTask}

theorem mem_filterMap_snoc {f : AiEvent → Option AiId} {id : AiId} :
    id ∈ (past ++ [event]).filterMap f ↔ id ∈ past.filterMap f ∨ f event = some id := by
  simp

theorem start_kept (ourAddress : String) : (start ourAddress).KeptAfter [] where
  kept := by
    intro id conv hConv
    simp [start, AiManager.new] at hConv
  awaits := nofun
  agents := by
    intro id agent hAgent
    simp [start, AiManager.new] at hAgent
  conversations := by
    intro id conv hConv
    simp [start, AiManager.new] at hConv
  starting := List.nodup_nil
  drawn := nofun
  waiting := nofun
  answered := Nat.le_refl 0
  counted := by
    intro id
    simp [start, AiManager.new, AiManager.processed, sentTo]

/-- The messages sent do not become more unless the answer says so. -/
theorem sentTo_unsent {result : Section} {agentId : AiId}
    (hUnsent : ∀ answer, result.2 = .inl answer → ¬ answer.SentTo agentId) :
    (after rest calls.answers result).sentTo agentId = calls.sentTo agentId := by
  obtain ⟨manager, answer | task⟩ := result
  · unfold after sentTo
    rw [List.countP_append, Nat.add_eq_left, List.countP_eq_zero]
    intro found hFound hSent
    obtain rfl := List.mem_singleton.mp hFound
    cases found with
    | sent other message =>
      have hSame : other = agentId := of_decide_eq_true hSent
      exact hUnsent _ rfl hSame
    | agent | conversation | response | remembered | failed => cases hSent
  · rfl

theorem sentTo_sent {result : Section} {agentId other : AiId} {message : AiMessage}
    (hSent : result.2 = .inl (.sent agentId message)) :
    (after rest calls.answers result).sentTo other =
      calls.sentTo other + if agentId = other then 1 else 0 := by
  obtain ⟨manager, answer⟩ := result
  dsimp only at hSent
  subst hSent
  unfold after sentTo
  rw [List.countP_append, Nat.add_left_cancel_iff, List.countP_singleton]
  simp only [decide_eq_true_eq]

/-- A section that has been kept, of a call that began in the event or before. -/
theorem KeptAfter.next (hKept : calls.KeptAfter past) (hRest : rest.Sublist calls.tasks)
    {result : Section} (hKeeps : calls.manager.Keeps result)
    (hAgents : ∀ (id : AiId) (agent : AiAgent), result.1.agents[id]? = some agent →
      id ∈ (past ++ [event]).filterMap AiEvent.agentId)
    (hConversations : ∀ (id : AiId) (conv : AiConversation),
      result.1.conversations[id]? = some conv →
        id ∈ (past ++ [event]).filterMap AiEvent.conversationId)
    (hWaiting : ∀ id ∈ rest.filterMap AiTask.starts, result.1.conversations[id]? = none)
    (hStarts : ∀ task id, result.2 = .inr task → task.starts = some id →
      id ∉ rest.filterMap AiTask.starts ∧ event.conversationId = some id ∧
        result.1.conversations[id]? = none)
    (hCounted : ∀ id, result.1.processed id =
      UInt64.ofNat ((after rest calls.answers result).sentTo id)) :
    (after rest calls.answers result).KeptAfter (past ++ [event]) := by
  obtain ⟨manager, answer | task⟩ := result
  · exact {
      kept := hKeeps.kept
      awaits := fun task hTask => (hKept.awaits task (hRest.subset hTask)).mono hKeeps.grows
      agents := hAgents
      conversations := hConversations
      starting := hKept.starting.sublist (hRest.filterMap _)
      drawn := fun id hId => mem_filterMap_snoc.mpr
        (Or.inl (hKept.drawn id ((hRest.filterMap _).subset hId)))
      waiting := hWaiting
      answered := by
        unfold after
        rw [List.length_append, List.length_append]
        exact Nat.add_le_add_right hKept.answered 1
      counted := hCounted }
  · have hTasks : ∀ id, id ∈ (rest ++ [task]).filterMap AiTask.starts ↔
        id ∈ rest.filterMap AiTask.starts ∨ task.starts = some id := by
      intro id
      simp
    exact {
      kept := hKeeps.kept
      awaits := by
        intro other hOther
        rcases List.mem_append.mp hOther with hOld | hNew
        · exact (hKept.awaits other (hRest.subset hOld)).mono hKeeps.grows
        · obtain rfl := List.mem_singleton.mp hNew
          exact hKeeps.awaits other rfl
      agents := hAgents
      conversations := hConversations
      starting := by
        unfold after
        rw [List.filterMap_append, List.nodup_append]
        refine ⟨hKept.starting.sublist (hRest.filterMap _), ?_, ?_⟩
        · rw [List.filterMap_cons, List.filterMap_nil]
          split
          · exact List.nodup_nil
          · exact List.nodup_singleton _
        · intro id hOld other hNew hSame
          subst hSame
          have hStart : task.starts = some id := by simpa using hNew
          exact (hStarts task id rfl hStart).1 hOld
      drawn := by
        intro id hId
        rcases (hTasks id).mp hId with hOld | hNew
        · exact mem_filterMap_snoc.mpr
            (Or.inl (hKept.drawn id ((hRest.filterMap _).subset hOld)))
        · exact mem_filterMap_snoc.mpr (Or.inr (hStarts task id rfl hNew).2.1)
      waiting := by
        intro id hId
        rcases (hTasks id).mp hId with hOld | hNew
        · exact hWaiting id hOld
        · exact (hStarts task id rfl hNew).2.2
      answered := by
        rw [List.length_append]
        exact hKept.answered.trans (Nat.le_add_right _ _)
      counted := hCounted }

/-- A new agent has not been counted for anything. -/
theorem begin_processed (manager : AiManager) (call : AiCall)
    (hNew : ∀ id, (AiEvent.begins call).agentId = some id → manager.agents[id]? = none)
    (agentId : AiId) : (manager.begin call).1.processed agentId = manager.processed agentId := by
  unfold AiManager.processed
  rcases begin_agents manager call with hSame | ⟨id, agent, hId, hZero, hInsert⟩
  · rw [hSame]
  · rw [hInsert, lookup_insert]
    split
    · rename_i hSame
      subst hSame
      rw [hNew id hId]
      exact hZero
    · rfl

theorem begin_absent {call : AiCall} {id : AiId} (hNone : manager.conversations[id]? = none) :
    (manager.begin call).1.conversations[id]? = none := by
  rcases begin_conversations manager call with hSame | ⟨other, conv, old, hOld, hInsert⟩
  · rw [hSame, hNone]
  · rw [hInsert, lookup_insert, if_neg, hNone]
    rintro rfl
    rw [hNone] at hOld
    cases hOld

/-- A call begins, with ids that have not been drawn before. -/
theorem KeptAfter.begins (hKept : calls.KeptAfter past) {call : AiCall}
    (hAgent : ∀ id, (AiEvent.begins call).agentId = some id →
      id ∉ past.filterMap AiEvent.agentId)
    (hConversation : ∀ id, (AiEvent.begins call).conversationId = some id →
      id ∉ past.filterMap AiEvent.conversationId) :
    (after calls.tasks calls.answers (calls.manager.begin call)).KeptAfter
      (past ++ [.begins call]) := by
  have hNewAgent : ∀ id, (AiEvent.begins call).agentId = some id →
      calls.manager.agents[id]? = none := by
    intro id hId
    by_contra hSome
    obtain ⟨agent, hFound⟩ := Option.ne_none_iff_exists'.mp hSome
    exact hAgent id hId (hKept.agents id agent hFound)
  have hNewConversation : ∀ id, (AiEvent.begins call).conversationId = some id →
      calls.manager.conversations[id]? = none := by
    intro id hId
    by_contra hSome
    obtain ⟨conv, hFound⟩ := Option.ne_none_iff_exists'.mp hSome
    exact hConversation id hId (hKept.conversations id conv hFound)
  apply hKept.next (List.Sublist.refl _) (begin_keeps hKept.kept call hNewAgent)
  · intro id agent hFound
    rcases begin_agents calls.manager call with hSame | ⟨other, drawn, hDrawn, -, hInsert⟩
    · rw [hSame] at hFound
      exact mem_filterMap_snoc.mpr (Or.inl (hKept.agents id agent hFound))
    · rw [hInsert, lookup_insert] at hFound
      split at hFound
      · rename_i hSame
        subst hSame
        exact mem_filterMap_snoc.mpr (Or.inr hDrawn)
      · exact mem_filterMap_snoc.mpr (Or.inl (hKept.agents id agent hFound))
  · intro id conv hFound
    cases hOld : calls.manager.conversations[id]? with
    | none =>
      rw [begin_absent hOld] at hFound
      cases hFound
    | some old => exact mem_filterMap_snoc.mpr (Or.inl (hKept.conversations id old hOld))
  · intro id hId
    exact begin_absent (hKept.waiting id hId)
  · intro task id hTask hStart
    rcases begin_task hTask with hNone | hSome
    · rw [hNone] at hStart
      cases hStart
    · rw [hSome] at hStart
      refine ⟨?_, hStart, begin_absent (hNewConversation id hStart)⟩
      intro hEarlier
      exact hConversation id hStart (hKept.drawn id hEarlier)
  · intro id
    rw [begin_processed _ _ hNewAgent, hKept.counted, sentTo_unsent]
    intro answer hAnswer
    exact begin_answer hAnswer id

/-- A call goes on. -/
theorem KeptAfter.proceeds (hKept : calls.KeptAfter past) {i : Nat} {task : AiTask}
    (hTask : calls.tasks[i]? = some task) {result : Section}
    (hResult : calls.manager.proceed build now task = .ok result)
    (hKeeps : calls.manager.Keeps result) :
    (after (calls.tasks.eraseIdx i) calls.answers result).KeptAfter
      (past ++ [.proceeds i now]) := by
  have hMem := List.mem_of_getElem? hTask
  have hStarting : ∀ id, task.starts = some id → id ∈ calls.tasks.filterMap AiTask.starts :=
    fun id hId => List.mem_filterMap.mpr ⟨task, hMem, hId⟩
  have hOnce : ∀ id, task.starts = some id →
      id ∉ (calls.tasks.eraseIdx i).filterMap AiTask.starts := by
    intro id hId hRest
    obtain ⟨hLt, rfl⟩ := List.getElem?_eq_some_iff.mp hTask
    have hNodup := ((List.getElem_cons_eraseIdx_perm hLt).filterMap AiTask.starts).nodup_iff.mpr
      hKept.starting
    rw [List.filterMap_cons_some hId] at hNodup
    exact (List.nodup_cons.mp hNodup).1 hRest
  apply hKept.next (List.eraseIdx_sublist _ _) hKeeps
  · intro id agent hFound
    apply mem_filterMap_snoc.mpr ∘ Or.inl
    rcases proceed_agents (hKept.awaits task hMem) hResult with
      ⟨hSame, -⟩ | ⟨agentId, message, old, hOld, -, hInsert⟩
    · rw [hSame] at hFound
      exact hKept.agents id agent hFound
    · rw [hInsert, lookup_insert] at hFound
      split at hFound
      · rename_i hSame
        subst hSame
        exact hKept.agents _ old hOld
      · exact hKept.agents id agent hFound
  · intro id conv hFound
    apply mem_filterMap_snoc.mpr ∘ Or.inl
    rcases proceed_conversations hResult with hSame | ⟨other, written, hPresent, hInsert⟩
    · rw [hSame] at hFound
      exact hKept.conversations id conv hFound
    · rw [hInsert, lookup_insert] at hFound
      split at hFound
      · rename_i hSame
        subst hSame
        rcases hPresent with hStart | ⟨old, hOld⟩
        · exact hKept.drawn _ (hStarting _ hStart)
        · exact hKept.conversations _ old hOld
      · exact hKept.conversations id conv hFound
  · intro id hId
    have hNone := hKept.waiting id (((List.eraseIdx_sublist _ _).filterMap _).subset hId)
    rcases proceed_conversations hResult with hSame | ⟨other, written, hPresent, hInsert⟩
    · rw [hSame, hNone]
    · rw [hInsert, lookup_insert, if_neg, hNone]
      rintro rfl
      rcases hPresent with hStart | ⟨old, hOld⟩
      · exact hOnce _ hStart hId
      · rw [hNone] at hOld
        cases hOld
  · intro rest id hRest hStart
    rw [proceed_task hResult hRest] at hStart
    cases hStart
  · intro id
    rcases proceed_agents (hKept.awaits task hMem) hResult with
      ⟨hSame, hUnsent⟩ | ⟨agentId, message, old, hOld, hSent, hInsert⟩
    · rw [sentTo_unsent fun answer hAnswer => hUnsent answer hAnswer id, ← hKept.counted]
      unfold AiManager.processed
      rw [hSame]
    · rw [sentTo_sent hSent]
      have hBefore := hKept.counted id
      unfold AiManager.processed at hBefore ⊢
      rw [hInsert, lookup_insert]
      split
      · rename_i hSame
        subst hSame
        rw [hOld] at hBefore
        rw [UInt64.ofNat_add, ← hBefore]
        rfl
      · exact hBefore

theorem KeptAfter.stays (hKept : calls.KeptAfter past) {i : Nat} :
    calls.KeptAfter (past ++ [.proceeds i now]) := by
  have hAgents : (past ++ [AiEvent.proceeds i now]).filterMap AiEvent.agentId =
      past.filterMap AiEvent.agentId := by
    rw [List.filterMap_append]
    exact List.append_nil _
  have hConversations : (past ++ [AiEvent.proceeds i now]).filterMap AiEvent.conversationId =
      past.filterMap AiEvent.conversationId := by
    rw [List.filterMap_append]
    exact List.append_nil _
  exact { hKept with
    agents := by rw [hAgents]; exact hKept.agents
    conversations := by rw [hConversations]; exact hKept.conversations
    drawn := by rw [hConversations]; exact hKept.drawn
    answered := by
      rw [List.length_append]
      exact hKept.answered.trans (Nat.le_add_right _ _) }

/-- No id is drawn twice. -/
structure Fresh (events : List AiEvent) : Prop where
  agents : (events.filterMap AiEvent.agentId).Nodup
  conversations : (events.filterMap AiEvent.conversationId).Nodup

theorem Fresh.before {more : List AiEvent} (hFresh : Fresh (past ++ more)) : Fresh past := by
  constructor
  · have hAgents := hFresh.agents
    rw [List.filterMap_append] at hAgents
    exact hAgents.of_append_left
  · have hConversations := hFresh.conversations
    rw [List.filterMap_append] at hConversations
    exact hConversations.of_append_left

theorem not_mem_of_nodup_snoc {f : AiEvent → Option AiId} {id : AiId}
    (hNodup : ((past ++ [event]).filterMap f).Nodup) (hEvent : f event = some id) :
    id ∉ past.filterMap f := by
  rw [List.filterMap_append, List.filterMap_cons_some hEvent, List.filterMap_nil] at hNodup
  exact fun hEarlier => List.nodup_append.mp hNodup |>.2.2 id hEarlier id
    (List.mem_singleton_self _) rfl

theorem after_manager (rest : List AiTask) (answers : List AiAnswer) (result : Section) :
    (after rest answers result).manager = result.1 := by
  obtain ⟨manager, answer | task⟩ := result <;> rfl

/-- An event is a section of a call that is kept, or a count overflows. -/
theorem KeptAfter.step_cases (hKept : calls.KeptAfter past) (hFresh : Fresh (past ++ [event]))
    (build : Build) :
    (∃ next, step build calls event = .ok next ∧ next.KeptAfter (past ++ [event]) ∧
      calls.manager.Grows next.manager) ∨
    ∃ (agentId : AiId) (panic : Panic),
      build.addU64 (calls.manager.processed agentId) 1 = .error panic ∧
        step build calls event = .error (.arithmetic panic) := by
  cases event with
  | begins call =>
    left
    have hNext := hKept.begins (fun id hId => not_mem_of_nodup_snoc hFresh.agents hId)
      (fun id hId => not_mem_of_nodup_snoc hFresh.conversations hId)
    refine ⟨_, rfl, hNext, ?_⟩
    rw [after_manager]
    refine (begin_keeps hKept.kept call ?_).grows
    intro id hId
    by_contra hSome
    obtain ⟨agent, hFound⟩ := Option.ne_none_iff_exists'.mp hSome
    exact not_mem_of_nodup_snoc hFresh.agents hId (hKept.agents id agent hFound)
  | proceeds i now =>
    unfold step
    dsimp only
    split
    · exact Or.inl ⟨calls, rfl, hKept.stays, .refl _⟩
    · rename_i task hTask
      have hMem := List.mem_of_getElem? hTask
      have hNew : ∀ conv, task = .startsConversation conv →
          calls.manager.conversations[conv.id]? = none := by
        rintro conv rfl
        exact hKept.waiting conv.id (List.mem_filterMap.mpr ⟨_, hMem, rfl⟩)
      rcases proceed_keeps hKept.kept (hKept.awaits task hMem) hNew build now with
        ⟨result, hResult, hKeeps⟩ | ⟨agentId, message, agent, panic, rfl, hAgent, hSum⟩
      · left
        refine ⟨_, by rw [hResult]; rfl, hKept.proceeds hTask hResult hKeeps, ?_⟩
        rw [after_manager]
        exact hKeeps.grows
      · right
        refine ⟨agentId, panic, ?_, ?_⟩
        · unfold AiManager.processed
          rw [hAgent]
          exact hSum
        · unfold proceed
          dsimp only
          rw [hAgent]
          dsimp only
          rw [hSum]
          rfl

/-! ## Whole runs -/

variable {ourAddress : String} {events more : List AiEvent} {later : AiRun}

theorem KeptAfter.run_rest (hKept : calls.KeptAfter past) (hFresh : Fresh (past ++ more))
    (hRest : more.foldlM (step build) calls = .ok later) :
    later.KeptAfter (past ++ more) ∧ calls.manager.Grows later.manager := by
  induction more generalizing past calls with
  | nil =>
    obtain rfl := Except.ok.inj hRest
    rw [List.append_nil]
    exact ⟨hKept, .refl _⟩
  | cons event more ih =>
    rw [List.append_cons] at hFresh ⊢
    obtain ⟨next, hStep, hMore⟩ := foldlM_cons_ok.mp hRest
    rcases hKept.step_cases hFresh.before build with
      ⟨_, hSame, hNext, hGrows⟩ | ⟨_, _, -, hPanics⟩
    · obtain rfl := Except.ok.inj (hSame.symm.trans hStep)
      obtain ⟨hLater, hGrowsLater⟩ := ih hNext hFresh hMore
      exact ⟨hLater, hGrows.trans hGrowsLater⟩
    · rw [hPanics] at hStep
      cases hStep

theorem run_kept (hFresh : Fresh events) (hRun : run build ourAddress events = .ok calls) :
    calls.KeptAfter events :=
  ((start_kept ourAddress).run_rest hFresh hRun).1

/-- Whatever other calls do in between, what was there at some time of a run is still there later,
each conversation has its agent among its participants, what was generated in it replies to what it
had been before, and the agent has been counted once for each message that was sent. -/
theorem conversations_are_kept (hFresh : Fresh (events ++ more))
    (hRun : run build ourAddress events = .ok calls)
    (hMore : more.foldlM (step build) calls = .ok later) :
    calls.manager.Grows later.manager ∧
      ∀ (id : AiId) (conv : AiConversation), later.manager.conversations[id]? = some conv →
        ∃ agent : AiAgent, later.manager.agents[conv.agentId]? = some agent ∧
          agent.address ∈ conv.participants ∧ RepliesOf agent conv.messages ∧
          agent.messagesProcessed = UInt64.ofNat (later.sentTo conv.agentId) := by
  obtain ⟨hLater, hGrows⟩ := (run_kept hFresh.before hRun).run_rest hFresh hMore
  refine ⟨hGrows, ?_⟩
  intro id conv hConv
  obtain ⟨agent, hHolds⟩ := hLater.kept id conv hConv
  refine ⟨agent, hHolds.found, hHolds.participant, hHolds.replies, ?_⟩
  rw [← hLater.counted, AiManager.processed, hHolds.found]
  rfl

/-- An agent is asked to reply, and a message is sent beside it. -/
def asked : List AiEvent :=
  [.begins (.createAgent 1 2 0 "Bot" .openClaw "small" []),
    .begins (.startConversation 3 0 1 ["0xHuman"]),
    .proceeds 0 0,
    .begins (.generateResponse 3),
    .begins (.sendMessage 3 "0xHuman" "Hello")]

/-- The message is put in before the reply. -/
def answered : List AiEvent :=
  [.proceeds 1 1, .proceeds 1 1, .proceeds 0 2, .proceeds 1 2, .proceeds 1 2, .proceeds 1 3,
    .proceeds 0 4]

theorem conversations_are_kept_meanwhile : ∃ calls later,
    Fresh (asked ++ answered) ∧ run .release "0xHuman" asked = .ok calls ∧
    answered.foldlM (step .release) calls = .ok later ∧
    calls.manager.Grows later.manager ∧
      ∀ (id : AiId) (conv : AiConversation), later.manager.conversations[id]? = some conv →
        ∃ agent : AiAgent, later.manager.agents[conv.agentId]? = some agent ∧
          agent.address ∈ conv.participants ∧ RepliesOf agent conv.messages ∧
          agent.messagesProcessed = UInt64.ofNat (later.sentTo conv.agentId) := by
  have hFresh : Fresh (asked ++ answered) := ⟨by decide, by decide⟩
  have hAsked : ∃ calls, run .release "0xHuman" asked = .ok calls ∧
      ∃ later, answered.foldlM (step .release) calls = .ok later := ⟨_, rfl, _, rfl⟩
  obtain ⟨calls, hRun, later, hMore⟩ := hAsked
  exact ⟨calls, later, hFresh, hRun, hMore, conversations_are_kept hFresh hRun hMore⟩

/-- No `unwrap` of a call fails, whatever other calls do in between. -/
theorem ai_calls_do_not_panic {event : AiEvent} (hFresh : Fresh (events ++ [event]))
    (hRun : run build ourAddress events = .ok calls)
    (hFew : build.overflowChecks → events.length + 1 < 2 ^ 64) :
    ∃ next, step build calls event = .ok next := by
  have hKept := run_kept hFresh.before hRun
  rcases hKept.step_cases hFresh build with ⟨next, hStep, -⟩ | ⟨agentId, panic, hSum, -⟩
  · exact ⟨next, hStep⟩
  · exfalso
    unfold Build.addU64 at hSum
    split at hSum
    · rename_i hOverflow
      have hSent : calls.sentTo agentId ≤ events.length :=
        List.countP_le_length.trans hKept.answered
      have hCount : (calls.manager.processed agentId).toNat ≤ events.length := by
        rw [hKept.counted, UInt64.toNat_ofNat']
        exact (Nat.mod_le _ _).trans hSent
      have hLess := hFew hOverflow.1
      have hMost := hOverflow.2
      rw [UInt64.toNat_one] at hMost
      omega
    · cases hSum

theorem ai_calls_do_not_panic_meanwhile : ∃ calls,
    Fresh (asked ++ [.proceeds 0 1]) ∧ run .checked "0xHuman" asked = .ok calls ∧
    ∃ next, step .checked calls (.proceeds 0 1) = .ok next := by
  have hFresh : Fresh (asked ++ [.proceeds 0 1]) := ⟨by decide, by decide⟩
  have hAsked : ∃ calls, run .checked "0xHuman" asked = .ok calls := ⟨_, rfl⟩
  obtain ⟨calls, hRun⟩ := hAsked
  exact ⟨calls, hFresh, hRun, ai_calls_do_not_panic hFresh hRun fun _ => by decide⟩

end AiRun

end CipherCli.Ai
