import CipherCli.Ai.Manager

/-!
# Conversations while calls go on beside each other

Agents and conversations are never removed, and a conversation only gets longer. So what a call
has found stays there, and each reply of an agent answers the conversation as it has been at some
time before, although other messages may have come in between.
-/

namespace CipherCli.Ai

open Std Library AiManager

/-! ## What is said of a manager -/

/-- The agent is the same, but for the messages that it is counted for. -/
def AiAgent.Same (agent later : AiAgent) : Prop :=
  later = { agent with messagesProcessed := later.messagesProcessed }

/-- The conversation has only got longer. -/
structure AiConversation.Goes (conv later : AiConversation) : Prop where
  agentId : later.agentId = conv.agentId
  participants : later.participants = conv.participants
  messages : conv.messages <+: later.messages
  memory : conv.memory <+: later.memory

/-- Nothing is taken back. -/
structure AiManager.Grows (manager next : AiManager) : Prop where
  agents : ∀ (id : AiId) (agent : AiAgent), manager.agents[id]? = some agent →
    ∃ later : AiAgent, next.agents[id]? = some later ∧ agent.Same later
  conversations : ∀ (id : AiId) (conv : AiConversation), manager.conversations[id]? = some conv →
    ∃ later : AiConversation, next.conversations[id]? = some later ∧ conv.Goes later

/-- A reply of the agent to what the conversation has been at some time before. -/
structure Reply (agent : AiAgent) (before : List AiMessage) (message : AiMessage) : Prop where
  role : message.role = .ai
  sender : message.sender = agent.address
  model : message.model = some agent.model
  tokensUsed : message.tokensUsed = some 42
  content : ∃ earlier, earlier <+: before ∧
    message.content = responseText agent (lastContent earlier)

/-- The messages that have been generated are replies of the agent. -/
def RepliesOf (agent : AiAgent) (messages : List AiMessage) : Prop :=
  ∀ before message after, messages = before ++ message :: after → message.tokensUsed.isSome →
    Reply agent before message

/-- The conversation has its agent among the participants. -/
structure AiManager.Holds (manager : AiManager) (conv : AiConversation) (agent : AiAgent) :
    Prop where
  found : manager.agents[conv.agentId]? = some agent
  participant : agent.address ∈ conv.participants
  replies : RepliesOf agent conv.messages

/-- The conversation and its agent are there, and this is true of them. -/
def AiManager.Finds (manager : AiManager) (conversationId : AiId)
    (P : AiConversation → AiAgent → Prop) : Prop :=
  ∃ (conv : AiConversation) (agent : AiAgent),
    manager.conversations[conversationId]? = some conv ∧
      manager.agents[conv.agentId]? = some agent ∧ P conv agent

/-- What the calls under way rely on. -/
def AiManager.Awaits (manager : AiManager) : AiTask → Prop
  | .startsConversation conv => ∃ agent, manager.Holds conv agent
  | .choosesRole conversationId .. | .pushesMessage conversationId .. =>
    manager.Finds conversationId fun _ _ => True
  | .countsMessage agentId _ => ∃ agent : AiAgent, manager.agents[agentId]? = some agent
  | .findsAgent conversationId agentId lastMsg =>
    manager.Finds conversationId fun conv _ => conv.agentId = agentId ∧
      ∃ earlier, earlier <+: conv.messages ∧ lastMsg = lastContent earlier
  | .findsSender conversationId text =>
    manager.Finds conversationId fun conv agent =>
      ∃ earlier, earlier <+: conv.messages ∧ text = responseText agent (lastContent earlier)
  | .findsModel conversationId text sender =>
    manager.Finds conversationId fun conv agent => sender = agent.address ∧
      ∃ earlier, earlier <+: conv.messages ∧ text = responseText agent (lastContent earlier)
  | .pushesResponse conversationId text sender model =>
    manager.Finds conversationId fun conv agent =>
      sender = agent.address ∧ model = agent.model ∧
        ∃ earlier, earlier <+: conv.messages ∧ text = responseText agent (lastContent earlier)

/-! ## What stays true -/

variable {manager next last : AiManager} {agent later : AiAgent} {conv : AiConversation}
  {messages : List AiMessage}

theorem AiAgent.Same.rfl (agent : AiAgent) : agent.Same agent := by
  unfold AiAgent.Same
  exact Eq.refl agent

theorem AiAgent.Same.trans {third : AiAgent} (hFirst : agent.Same later)
    (hSecond : later.Same third) : agent.Same third := by
  unfold AiAgent.Same at hFirst hSecond ⊢
  rw [hFirst] at hSecond
  exact hSecond

theorem AiAgent.Same.address (hSame : agent.Same later) : later.address = agent.address := by
  rw [hSame]

theorem AiAgent.Same.model (hSame : agent.Same later) : later.model = agent.model := by
  rw [hSame]

theorem AiAgent.Same.responseText (hSame : agent.Same later) (lastMsg : String) :
    AiManager.responseText later lastMsg = AiManager.responseText agent lastMsg := by
  rw [hSame]
  rfl

theorem Reply.same {before : List AiMessage} {message : AiMessage}
    (hReply : Reply agent before message) (hSame : agent.Same later) :
    Reply later before message := by
  obtain ⟨hRole, hSender, hModel, hTokens, earlier, hPrefix, hContent⟩ := hReply
  refine ⟨hRole, hSender.trans hSame.address.symm, ?_, hTokens, earlier, hPrefix, ?_⟩
  · rw [hSame.model]
    exact hModel
  · rw [hSame.responseText]
    exact hContent

theorem RepliesOf.same (hReplies : RepliesOf agent messages) (hSame : agent.Same later) :
    RepliesOf later messages := by
  intro before message after hSplit hTokens
  exact (hReplies before message after hSplit hTokens).same hSame

/-- One more message is a reply or has not been generated. -/
theorem RepliesOf.snoc {message : AiMessage} (hReplies : RepliesOf agent messages)
    (hLast : message.tokensUsed.isSome → Reply agent messages message) :
    RepliesOf agent (messages ++ [message]) := by
  intro before found after hSplit hTokens
  rcases List.eq_nil_or_concat after with rfl | ⟨front, final, rfl⟩
  · obtain ⟨rfl, hSame⟩ := List.append_inj' hSplit rfl
    obtain rfl := List.cons.inj hSame |>.1
    exact hLast hTokens
  · rw [List.concat_eq_append, ← List.cons_append, ← List.append_assoc] at hSplit
    obtain ⟨hFront, -⟩ := List.append_inj' hSplit rfl
    exact hReplies before found front hFront hTokens

theorem AiConversation.Goes.refl (conv : AiConversation) : conv.Goes conv :=
  ⟨rfl, rfl, List.prefix_rfl, List.prefix_rfl⟩

theorem AiConversation.Goes.trans {second third : AiConversation} (hFirst : conv.Goes second)
    (hSecond : second.Goes third) : conv.Goes third :=
  ⟨hSecond.agentId.trans hFirst.agentId, hSecond.participants.trans hFirst.participants,
    hFirst.messages.trans hSecond.messages, hFirst.memory.trans hSecond.memory⟩

theorem AiManager.Grows.refl (manager : AiManager) : manager.Grows manager :=
  ⟨fun _ agent hAgent => ⟨agent, hAgent, .rfl agent⟩,
    fun _ conv hConv => ⟨conv, hConv, .refl conv⟩⟩

theorem AiManager.Grows.trans (hFirst : manager.Grows next) (hSecond : next.Grows last) :
    manager.Grows last := by
  constructor
  · intro id agent hAgent
    obtain ⟨later, hLater, hSame⟩ := hFirst.agents id agent hAgent
    obtain ⟨final, hFinal, hStill⟩ := hSecond.agents id later hLater
    exact ⟨final, hFinal, hSame.trans hStill⟩
  · intro id conv hConv
    obtain ⟨later, hLater, hGoes⟩ := hFirst.conversations id conv hConv
    obtain ⟨final, hFinal, hStill⟩ := hSecond.conversations id later hLater
    exact ⟨final, hFinal, hGoes.trans hStill⟩

theorem AiManager.Finds.mono {conversationId : AiId} {P Q : AiConversation → AiAgent → Prop}
    (hFinds : manager.Finds conversationId P) (hGrows : manager.Grows next)
    (hMono : ∀ conv agent longer later, P conv agent → AiConversation.Goes conv longer →
      AiAgent.Same agent later → Q longer later) : next.Finds conversationId Q := by
  obtain ⟨conv, agent, hConv, hAgent, hP⟩ := hFinds
  obtain ⟨longer, hLonger, hGoes⟩ := hGrows.conversations _ _ hConv
  obtain ⟨later, hLater, hSame⟩ := hGrows.agents _ _ hAgent
  refine ⟨longer, later, hLonger, ?_, hMono conv agent longer later hP hGoes hSame⟩
  rw [hGoes.agentId]
  exact hLater

theorem AiManager.Holds.mono (hHolds : manager.Holds conv agent) (hGrows : manager.Grows next) :
    ∃ later, next.Holds conv later := by
  obtain ⟨later, hLater, hSame⟩ := hGrows.agents _ _ hHolds.found
  refine ⟨later, hLater, ?_, hHolds.replies.same hSame⟩
  rw [hSame.address]
  exact hHolds.participant

theorem AiManager.Awaits.mono {task : AiTask} (hAwaits : manager.Awaits task)
    (hGrows : manager.Grows next) : next.Awaits task := by
  cases task with
  | startsConversation conv =>
    obtain ⟨agent, hHolds⟩ := hAwaits
    exact hHolds.mono hGrows
  | choosesRole conversationId sender content =>
    exact Finds.mono hAwaits hGrows fun _ _ _ _ _ _ _ => trivial
  | pushesMessage conversationId role sender content =>
    exact Finds.mono hAwaits hGrows fun _ _ _ _ _ _ _ => trivial
  | countsMessage agentId message =>
    obtain ⟨agent, hAgent⟩ := hAwaits
    obtain ⟨later, hLater, -⟩ := hGrows.agents _ _ hAgent
    exact ⟨later, hLater⟩
  | findsAgent conversationId agentId lastMsg =>
    apply Finds.mono hAwaits hGrows
    rintro conv agent longer later ⟨hAgentId, earlier, hPrefix, hLast⟩ hGoes -
    exact ⟨hGoes.agentId.trans hAgentId, earlier, hPrefix.trans hGoes.messages, hLast⟩
  | findsSender conversationId text =>
    apply Finds.mono hAwaits hGrows
    rintro conv agent longer later ⟨earlier, hPrefix, hText⟩ hGoes hSame
    exact ⟨earlier, hPrefix.trans hGoes.messages, hText.trans (hSame.responseText _).symm⟩
  | findsModel conversationId text sender =>
    apply Finds.mono hAwaits hGrows
    rintro conv agent longer later ⟨hSender, earlier, hPrefix, hText⟩ hGoes hSame
    exact ⟨hSender.trans hSame.address.symm, earlier, hPrefix.trans hGoes.messages,
      hText.trans (hSame.responseText _).symm⟩
  | pushesResponse conversationId text sender model =>
    apply Finds.mono hAwaits hGrows
    rintro conv agent longer later ⟨hSender, hModel, earlier, hPrefix, hText⟩ hGoes hSame
    exact ⟨hSender.trans hSame.address.symm, hModel.trans hSame.model.symm, earlier,
      hPrefix.trans hGoes.messages, hText.trans (hSame.responseText _).symm⟩

/-! ## Sections -/

/-- Every conversation has its agent. -/
def AiManager.Kept (manager : AiManager) : Prop :=
  ∀ (id : AiId) (conv : AiConversation), manager.conversations[id]? = some conv →
    ∃ agent, manager.Holds conv agent

/-- A section takes nothing back, and leaves what the rest of the call relies on. -/
structure AiManager.Keeps (manager : AiManager) (result : Section) : Prop where
  grows : manager.Grows result.1
  kept : result.1.Kept
  awaits : ∀ task, result.2 = .inr task → result.1.Awaits task

theorem keeps_same (hKept : manager.Kept) {result : AiAnswer ⊕ AiTask}
    (hAwaits : ∀ task, result = .inr task → manager.Awaits task) :
    manager.Keeps (manager, result) :=
  ⟨.refl manager, hKept, hAwaits⟩

theorem keeps_agent (hKept : manager.Kept) {id : AiId}
    (hSame : ∀ old : AiAgent, manager.agents[id]? = some old → old.Same agent)
    (answer : AiAnswer) :
    manager.Keeps ({ manager with agents := manager.agents.insert id agent }, .inl answer) := by
  have hGrows : manager.Grows { manager with agents := manager.agents.insert id agent } := by
    constructor
    · intro other old hOld
      rw [lookup_insert]
      by_cases hId : id = other
      · subst hId
        exact ⟨agent, if_pos rfl, hSame old hOld⟩
      · exact ⟨old, by rw [if_neg hId, hOld], .rfl old⟩
    · intro other old hOld
      exact ⟨old, hOld, .refl old⟩
  refine ⟨hGrows, ?_, nofun⟩
  intro other old hOld
  obtain ⟨found, hHolds⟩ := hKept other old hOld
  exact hHolds.mono hGrows

theorem keeps_conversation (hKept : manager.Kept) {id : AiId}
    (hGoes : ∀ old : AiConversation, manager.conversations[id]? = some old → old.Goes conv)
    (hHolds : manager.Holds conv agent) {result : AiAnswer ⊕ AiTask}
    (hAwaits : ∀ task, result = .inr task → manager.Awaits task) :
    manager.Keeps
      ({ manager with conversations := manager.conversations.insert id conv }, result) := by
  have hGrows : manager.Grows
      { manager with conversations := manager.conversations.insert id conv } := by
    constructor
    · intro other old hOld
      exact ⟨old, hOld, .rfl old⟩
    · intro other old hOld
      rw [lookup_insert]
      by_cases hId : id = other
      · subst hId
        exact ⟨conv, if_pos rfl, hGoes old hOld⟩
      · exact ⟨old, by rw [if_neg hId, hOld], .refl old⟩
  refine ⟨hGrows, entries_insert ?_ (hHolds.mono hGrows), ?_⟩
  · intro other old hOld
    obtain ⟨found, hFound⟩ := hKept other old hOld
    exact hFound.mono hGrows
  · intro task hTask
    exact (hAwaits task hTask).mono hGrows

theorem finds_of_kept (hKept : manager.Kept) {conversationId : AiId}
    (hConv : manager.conversations[conversationId]? = some conv)
    {P : AiConversation → AiAgent → Prop} (hP : ∀ agent, P conv agent) :
    manager.Finds conversationId P := by
  obtain ⟨agent, hHolds⟩ := hKept conversationId conv hConv
  exact ⟨conv, agent, hConv, hHolds.found, hP agent⟩

theorem begin_keeps (hKept : manager.Kept) (call : AiCall)
    (hNew : ∀ id, (AiEvent.begins call).agentId = some id → manager.agents[id]? = none) :
    manager.Keeps (manager.begin call) := by
  cases call with
  | createAgent agentId addressId now name provider model capabilities =>
    apply keeps_agent hKept
    intro old hOld
    rw [hNew agentId rfl] at hOld
    cases hOld
  | startConversation conversationId now agentId participants =>
    unfold begin
    dsimp only
    split
    · exact keeps_same hKept nofun
    · rename_i agent hAgent
      apply keeps_same hKept
      rintro task ⟨⟩
      refine ⟨agent, hAgent, ?_, ?_⟩
      · dsimp only
        split
        · rename_i hIn
          exact hIn
        · exact List.mem_append_right _ (List.mem_singleton_self _)
      · intro before message after hSplit
        simp at hSplit
  | sendMessage conversationId sender content =>
    unfold begin
    dsimp only
    split
    · exact keeps_same hKept nofun
    · rename_i conv hConv
      apply keeps_same hKept
      rintro task ⟨⟩
      exact finds_of_kept hKept hConv fun _ => trivial
  | generateResponse conversationId =>
    unfold begin
    dsimp only
    split
    · exact keeps_same hKept nofun
    · rename_i conv hConv
      apply keeps_same hKept
      rintro task ⟨⟩
      exact finds_of_kept hKept hConv fun _ => ⟨rfl, conv.messages, List.prefix_rfl, rfl⟩
  | addMemory conversationId now key value context =>
    unfold begin
    dsimp only
    split
    · exact keeps_same hKept nofun
    · rename_i conv hConv
      obtain ⟨agent, hHolds⟩ := hKept conversationId conv hConv
      apply keeps_conversation hKept
      · intro old hOld
        obtain rfl := Option.some.inj (hConv.symm.trans hOld)
        exact ⟨rfl, rfl, List.prefix_rfl, List.prefix_append _ _⟩
      · exact ⟨hHolds.found, hHolds.participant, hHolds.replies⟩
      · nofun

theorem agentOf_eq_ok {conversationId : AiId} {P : AiConversation → AiAgent → Prop}
    (hFinds : manager.Finds conversationId P) :
    ∃ (conv : AiConversation) (agent : AiAgent), manager.agentOf conversationId = .ok agent ∧
      manager.conversations[conversationId]? = some conv ∧
      manager.agents[conv.agentId]? = some agent ∧ P conv agent := by
  obtain ⟨conv, agent, hConv, hAgent, hP⟩ := hFinds
  refine ⟨conv, agent, ?_, hConv, hAgent, hP⟩
  unfold agentOf
  rw [hConv]
  dsimp only
  rw [hAgent]

/-- A section that is waited for does not find nothing. It panics if a count overflows. -/
theorem proceed_keeps (hKept : manager.Kept) {task : AiTask} (hAwaits : manager.Awaits task)
    (hNew : ∀ conv, task = .startsConversation conv → manager.conversations[conv.id]? = none)
    (build : Build) (now : DateTime) :
    (∃ result, manager.proceed build now task = .ok result ∧ manager.Keeps result) ∨
      ∃ (agentId : AiId) (message : AiMessage) (agent : AiAgent) (panic : Panic),
        task = .countsMessage agentId message ∧ manager.agents[agentId]? = some agent ∧
          build.addU64 agent.messagesProcessed 1 = .error panic := by
  cases task with
  | startsConversation conv =>
    obtain ⟨agent, hHolds⟩ := hAwaits
    refine Or.inl ⟨_, rfl, keeps_conversation hKept ?_ hHolds nofun⟩
    intro old hOld
    rw [hNew conv rfl] at hOld
    cases hOld
  | choosesRole conversationId sender content =>
    refine Or.inl ⟨_, rfl, keeps_same hKept ?_⟩
    rintro task ⟨⟩
    exact hAwaits
  | pushesMessage conversationId role sender content =>
    obtain ⟨conv, agent, hConv, hAgent, -⟩ := hAwaits
    obtain ⟨agent', hHolds⟩ := hKept conversationId conv hConv
    left
    unfold proceed
    dsimp only
    rw [hConv]
    refine ⟨_, rfl, ?_⟩
    apply keeps_conversation hKept
    · intro old hOld
      obtain rfl := Option.some.inj (hConv.symm.trans hOld)
      exact ⟨rfl, rfl, List.prefix_append _ _, List.prefix_rfl⟩
    · exact ⟨hHolds.found, hHolds.participant, hHolds.replies.snoc nofun⟩
    · rintro task ⟨⟩
      exact ⟨agent, hAgent⟩
  | countsMessage agentId message =>
    obtain ⟨agent, hAgent⟩ := hAwaits
    cases hSum : build.addU64 agent.messagesProcessed 1 with
    | error panic => exact Or.inr ⟨agentId, message, agent, panic, rfl, hAgent, hSum⟩
    | ok messagesProcessed =>
      left
      unfold proceed
      dsimp only
      rw [hAgent]
      dsimp only
      rw [hSum]
      refine ⟨_, rfl, keeps_agent hKept ?_ _⟩
      intro old hOld
      obtain rfl := Option.some.inj (hAgent.symm.trans hOld)
      rfl
  | findsAgent conversationId agentId lastMsg =>
    obtain ⟨conv, agent, hConv, hAgent, rfl, hEarlier⟩ := hAwaits
    left
    unfold proceed
    dsimp only
    rw [hAgent]
    refine ⟨_, rfl, keeps_same hKept ?_⟩
    rintro task ⟨⟩
    obtain ⟨earlier, hPrefix, rfl⟩ := hEarlier
    exact ⟨conv, agent, hConv, hAgent, earlier, hPrefix, rfl⟩
  | findsSender conversationId text =>
    obtain ⟨conv, agent, hFound, hConv, hAgent, hText⟩ := agentOf_eq_ok hAwaits
    left
    unfold proceed
    dsimp only
    rw [hFound]
    refine ⟨_, rfl, keeps_same hKept ?_⟩
    rintro task ⟨⟩
    exact ⟨conv, agent, hConv, hAgent, rfl, hText⟩
  | findsModel conversationId text sender =>
    obtain ⟨conv, agent, hFound, hConv, hAgent, hSender, hText⟩ := agentOf_eq_ok hAwaits
    left
    unfold proceed
    dsimp only
    rw [hFound]
    refine ⟨_, rfl, keeps_same hKept ?_⟩
    rintro task ⟨⟩
    exact ⟨conv, agent, hConv, hAgent, hSender, rfl, hText⟩
  | pushesResponse conversationId text sender model =>
    obtain ⟨conv, agent, hConv, hAgent, rfl, rfl, hText⟩ := hAwaits
    obtain ⟨agent', hHolds⟩ := hKept conversationId conv hConv
    obtain rfl := Option.some.inj (hHolds.found.symm.trans hAgent)
    left
    unfold proceed
    dsimp only
    rw [hConv]
    refine ⟨_, rfl, ?_⟩
    apply keeps_conversation hKept
    · intro old hOld
      obtain rfl := Option.some.inj (hConv.symm.trans hOld)
      exact ⟨rfl, rfl, List.prefix_append _ _, List.prefix_rfl⟩
    · exact ⟨hHolds.found, hHolds.participant,
        hHolds.replies.snoc fun _ => ⟨rfl, rfl, rfl, rfl, hText⟩⟩
    · nofun

end CipherCli.Ai
