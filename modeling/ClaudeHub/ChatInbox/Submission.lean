import ClaudeHub.ChatInbox.Run

/-! # At most one submission of a message

What decides about submissions is a message's owner, state and mark, its core. A
marked message is never unsent and never enters `dispatching` again; every
operation but the call back of a submission leaves the marks alone.
-/

namespace ClaudeHub

open StepSystem

structure MessageOwner where
  tabId : TabId
  kind : ChatMessageKind
  questionRef : Option QuestionRef
  scheduled : Bool
  deriving DecidableEq, Repr

structure MessageCore where
  owner : MessageOwner
  state : ChatMessageState
  marked : Bool
  deriving DecidableEq, Repr

def ChatMessageEnvelope.owner (item : ChatMessageEnvelope) : MessageOwner :=
  ⟨item.tabId, item.kind, item.questionRef, item.scheduled⟩

def ChatMessageEnvelope.core (item : ChatMessageEnvelope) : MessageCore :=
  ⟨item.owner, item.state, item.submissionStarted⟩

namespace InboxPayload

def core (p : InboxPayload) (id : MessageId) : Option MessageCore :=
  (p.messages.get? id).map ChatMessageEnvelope.core

variable {item : ChatMessageEnvelope}

theorem core_of_get? {p : InboxPayload} {id : MessageId} (h : p.messages.get? id = some item) :
    p.core id = some item.core := by
  simp [core, h]

theorem core_putMessage (p : InboxPayload) (item : ChatMessageEnvelope) (id : MessageId) :
    (p.putMessage item).core id = if id = item.messageId then some item.core else p.core id := by
  unfold core putMessage
  rw [Table.get?_insert]
  split <;> rfl

theorem core_putMessage_of_eq {p : InboxPayload} (h : p.core item.messageId = some item.core) :
    (p.putMessage item).core = p.core := by
  funext id
  rw [core_putMessage]
  split
  next heq => rw [heq, h]
  · rfl

@[simp] theorem core_putQuestion (p : InboxPayload) (q : ChatQuestion) :
    (p.putQuestion q).core = p.core := rfl

@[simp] theorem messages_target (p : InboxPayload) (tabId : TabId) (raw : InboxTarget) :
    (p.target tabId raw).1.messages = p.messages := rfl

@[simp] theorem core_target (p : InboxPayload) (tabId : TabId) (raw : InboxTarget) :
    (p.target tabId raw).1.core = p.core := rfl

def MarksAreSent (p : InboxPayload) : Prop :=
  ∀ id c, p.core id = some c → c.marked = true → c.state.unsent = false

/-- Every message stays, keeps its mark, and enters `dispatching` only unmarked. -/
def Moves (p q : InboxPayload) : Prop :=
  ∀ id c, p.core id = some c → ∃ c', q.core id = some c' ∧ c'.owner = c.owner ∧
    (c.marked = true → c'.marked = true ∧ (c'.state = .dispatching → c.state = .dispatching))

/-- Every message stays and its mark does not change. -/
def Evolves (p q : InboxPayload) : Prop :=
  ∀ id c, p.core id = some c → ∃ c', q.core id = some c' ∧ c'.owner = c.owner ∧
    c'.marked = c.marked

/-- What an operation other than a call back may write. -/
structure Legal (p q : InboxPayload) : Prop where
  moves : Moves p q
  evolves : Evolves p q
  sent : MarksAreSent q

variable {q : InboxPayload}

theorem Moves.of_core_eq {p : InboxPayload} (h : q.core = p.core) : Moves p q :=
  fun id c hc => ⟨c, by rw [h, hc], rfl, fun hmark => ⟨hmark, fun hstate => hstate⟩⟩

theorem Moves.trans {p r : InboxPayload} (h : Moves p q) (h' : Moves q r) : Moves p r := by
  intro id c hc
  obtain ⟨c', hc', howner, hmark⟩ := h id c hc
  obtain ⟨c'', hc'', howner', hmark'⟩ := h' id c' hc'
  refine ⟨c'', hc'', howner'.trans howner, fun hmarked => ?_⟩
  obtain ⟨hmarked', hdisp⟩ := hmark hmarked
  obtain ⟨hmarked'', hdisp'⟩ := hmark' hmarked'
  exact ⟨hmarked'', fun hstate => hdisp (hdisp' hstate)⟩

theorem Evolves.of_core_eq {p : InboxPayload} (h : q.core = p.core) : Evolves p q :=
  fun id c hc => ⟨c, by rw [h, hc], rfl, rfl⟩

variable {l : InboxPayload}

theorem legal_put {p : InboxPayload} {c : MessageCore} (hsent : MarksAreSent l)
    (hp : p.core = l.core) (hc : l.core item.messageId = some c) (howner : item.owner = c.owner)
    (hmark : item.submissionStarted = c.marked)
    (hstate : c.marked = true →
        item.state.unsent = false ∧ (item.state = .dispatching → c.state = .dispatching)) :
    Legal l (p.putMessage item) := by
  have hother : ∀ id, id ≠ item.messageId → (p.putMessage item).core id = l.core id := by
    intro id hid
    rw [core_putMessage, if_neg hid, hp]
  have hself : (p.putMessage item).core item.messageId = some item.core := by
    rw [core_putMessage, if_pos rfl]
  refine ⟨?_, ?_, ?_⟩
  · intro id d hd
    by_cases hid : id = item.messageId
    · subst hid
      obtain rfl : c = d := Option.some.inj (hc.symm.trans hd)
      exact ⟨item.core, hself, howner,
        fun hmarked => ⟨hmark.trans hmarked, (hstate hmarked).2⟩⟩
    · exact ⟨d, by rw [hother id hid, hd], rfl, fun hmarked => ⟨hmarked, fun hstate => hstate⟩⟩
  · intro id d hd
    by_cases hid : id = item.messageId
    · subst hid
      obtain rfl : c = d := Option.some.inj (hc.symm.trans hd)
      exact ⟨item.core, hself, howner, hmark⟩
    · exact ⟨d, by rw [hother id hid, hd], rfl, rfl⟩
  · intro id d hd hmarked
    by_cases hid : id = item.messageId
    · subst hid
      obtain rfl : item.core = d := Option.some.inj (hself.symm.trans hd)
      exact (hstate (hmark.symm.trans hmarked)).1
    · exact hsent id d (by rw [← hother id hid, hd]) hmarked

theorem legal_put_new {p : InboxPayload} (hsent : MarksAreSent l) (hp : p.core = l.core)
    (hnew : l.core item.messageId = none) (hmark : item.submissionStarted = false) :
    Legal l (p.putMessage item) := by
  have hother : ∀ id c, l.core id = some c → (p.putMessage item).core id = some c := by
    intro id c hc
    rw [core_putMessage, if_neg, hp, hc]
    rintro rfl
    simp [hnew] at hc
  refine ⟨fun id c hc => ?_, fun id c hc => ⟨c, hother id c hc, rfl, rfl⟩, ?_⟩
  · exact ⟨c, hother id c hc, rfl, fun hmarked => ⟨hmarked, fun hstate => hstate⟩⟩
  · intro id c hc hmarked
    rw [core_putMessage] at hc
    split at hc
    · cases hc
      simp [ChatMessageEnvelope.core, hmark] at hmarked
    · exact hsent id c (by rw [← hp, hc]) hmarked

theorem Legal.of_core_eq {p : InboxPayload} (hsent : MarksAreSent l) (h : p.core = l.core) :
    Legal l p :=
  ⟨.of_core_eq h, .of_core_eq h, fun id c hc => hsent id c (by rw [← h, hc])⟩

end InboxPayload

/-- An effect that leaves the marks alone, and the cores as well unless it saves. -/
def InboxEffect.Legal {α : Type} (l : InboxPayload) : InboxEffect α → Prop
  | .keep memory _ => memory.core = l.core
  | .write memory _ => InboxPayload.Legal l memory

namespace InboxPayload

variable {l p : InboxPayload} {closing : Bool} {item : ChatMessageEnvelope}
  {state : ChatMessageState} {reason : Option String} {now : Time}

/-- `_change` of a message to a state that its mark allows. -/
theorem change_legal (hsent : MarksAreSent l) (hp : p.core = l.core)
    (hitem : l.core item.messageId = some item.core)
    (hstate : item.submissionStarted = true →
      state.unsent = false ∧ (state = .dispatching → item.state = .dispatching)) :
    (p.change closing item state reason now).Legal l := by
  unfold change
  split
  · exact hp
  · exact legal_put hsent hp hitem rfl rfl hstate

/-- `_change` to a state that is neither unsent nor `dispatching`. -/
theorem change_legal_of_sent (hsent : MarksAreSent l) (hp : p.core = l.core)
    (hitem : l.core item.messageId = some item.core) (hunsent : state.unsent = false)
    (hdisp : state ≠ .dispatching) : (p.change closing item state reason now).Legal l :=
  change_legal hsent hp hitem fun _ => ⟨hunsent, fun h => (hdisp h).elim⟩

/-- `_change` of an unmarked message. -/
theorem change_legal_of_unmarked (hsent : MarksAreSent l) (hp : p.core = l.core)
    (hitem : l.core item.messageId = some item.core) (hmark : item.submissionStarted = false) :
    (p.change closing item state reason now).Legal l :=
  change_legal hsent hp hitem fun h => by simp [hmark] at h

theorem item_core {id : MessageId} (h : l.messages.get? id = some item) :
    l.core item.messageId = some item.core := by
  rw [Table.key_of_get? h]
  exact core_of_get? h

theorem item_core_of_mem (h : item ∈ l.messages.rows) : l.core item.messageId = some item.core :=
  core_of_get? (Table.get?_eq_some.mpr ⟨h, rfl⟩)

theorem unmarked_of_unsent (hsent : MarksAreSent l) (hitem : l.core item.messageId = some item.core)
    (hunsent : item.state.unsent = true) : item.submissionStarted = false := by
  cases hmark : item.submissionStarted with
  | false => rfl
  | true => simp [show item.state.unsent = false from hsent _ _ hitem hmark] at hunsent

/-! ## Operations -/

variable {tabId : TabId} {principal : String} {messageId : MessageId}

theorem enqueue_legal (hsent : MarksAreSent l) {limits : InboxLimits} {actor : String}
    {email : Option String} {payload : ChatMessageCreate} {resolved : Except InboxError InboxTarget}
    (hnew : l.messages.get? messageId = none) :
    (l.enqueue limits closing tabId principal actor email payload resolved messageId now).Legal
      l := by
  unfold enqueue
  split
  · rfl
  split
  · rfl
  simp only
  split
  · split
    · exact core_target ..
    · split <;> exact core_target ..
  · split
    · exact core_target ..
    · split
      · exact core_target ..
      · exact legal_put_new hsent (core_target ..) (by simp [core, hnew]) rfl

theorem admitScheduled_legal (hsent : MarksAreSent l) {limits : InboxLimits}
    {intent : ScheduledIntent} {resolved : Except InboxError InboxTarget} {enforceLimit : Bool} :
    (l.admitScheduled limits closing intent resolved enforceLimit).Legal l := by
  unfold admitScheduled
  split
  · rfl
  next hnone =>
  have hnew : l.core intent.id = none := by simp [core, hnone]
  cases resolved with
  | error =>
    simp only
    split
    · rfl
    · split
      · rfl
      · exact legal_put_new hsent rfl hnew rfl
  | ok =>
    simp only
    split
    · exact core_target ..
    · split
      · exact core_target ..
      · exact legal_put_new hsent (core_target ..) hnew rfl

theorem owned_ok (h : l.owned tabId messageId principal = .ok item) :
    l.messages.get? messageId = some item := by
  unfold owned at h
  split at h
  · simp at h
  · split at h
    · simp at h
    · split at h
      · simp at h
      · cases h
        assumption

theorem cancel_legal (hsent : MarksAreSent l) :
    (l.cancel closing tabId messageId principal now).Legal l := by
  unfold cancel
  split
  · rfl
  split
  · rfl
  next item howned =>
  have hitem := item_core (owned_ok howned)
  split
  · rfl
  · split
    · rfl
    · exact change_legal_of_sent hsent rfl hitem rfl (by decide)

theorem cancelScheduled_legal (hsent : MarksAreSent l) {release : Bool} :
    (l.cancelScheduled closing messageId release now).Legal l := by
  unfold cancelScheduled
  split
  · rfl
  next item hget =>
  split
  · exact change_legal_of_sent hsent rfl (item_core hget) rfl (by decide)
  · rfl

theorem completedState_terminal (item : ChatMessageEnvelope) (status : String) :
    (completedState item status).terminal = true := by
  unfold completedState
  split
  · rfl
  · split <;> rfl

theorem terminal_sent (h : state.terminal = true) :
    state.unsent = false ∧ state ≠ .dispatching := by
  cases state <;> simp_all [ChatMessageState.terminal, ChatMessageState.unsent]

theorem completed_legal (hsent : MarksAreSent l) {turnId : TurnId} {status : String} :
    (l.completed closing tabId turnId status now).Legal l := by
  unfold completed
  split
  · rfl
  split
  · rfl
  next item hfind =>
  have hstate := terminal_sent (completedState_terminal item status)
  exact change_legal_of_sent hsent rfl (item_core_of_mem (List.mem_of_find?_eq_some hfind))
    hstate.1 hstate.2

theorem head_spec (h : l.head tabId = some item) :
    item ∈ l.messages.rows ∧ item.tabId = tabId ∧ item.kind = .message ∧
      item.state.unsent = true := by
  unfold head at h
  split at h
  · simp at h
  next hnone =>
  have hmem : item ∈ l.active tabId := List.argmin_mem h
  obtain ⟨hrow, hactive⟩ := List.mem_filter.mp hmem
  simp only [Bool.and_eq_true, decide_eq_true_eq] at hactive
  obtain ⟨⟨htab, hblocks⟩, hkind⟩ := hactive
  refine ⟨hrow, htab, hkind, ?_⟩
  have hidle : (item.state.inFlight || decide (item.state = .uncertain)) = false := by
    simp only [List.any_eq_true, not_exists, not_and, Bool.not_eq_true] at hnone
    exact hnone item hmem
  unfold ChatMessageEnvelope.blocksQueue at hblocks
  cases hstate : item.state <;>
    simp_all [ChatMessageState.inFlight, ChatMessageState.terminal, ChatMessageState.unsent]

end InboxPayload

def PumpTurn.Legal (l : InboxPayload) : PumpTurn → Prop
  | .ended effect => effect.Legal l
  | .pinned memory _ => InboxPayload.Legal l memory
  | .submits effect => effect.Legal l

namespace InboxPayload

variable {l p : InboxPayload} {closing : Bool} {item : ChatMessageEnvelope}
  {state : ChatMessageState} {reason : Option String} {now : Time}

theorem dispatchHead_legal (hsent : MarksAreSent l) (hp : p.core = l.core)
    (hitem : l.core item.messageId = some item.core) (hmark : item.submissionStarted = false)
    {target : EpochTarget} : (p.dispatchHead closing item target now).Legal l := by
  unfold dispatchHead
  split
  · exact change_legal_of_unmarked hsent hp hitem hmark
  · split
    · exact change_legal_of_unmarked hsent hp hitem hmark
    · simp only [PumpTurn.Legal]
      refine change_legal_of_unmarked hsent ?_ hitem hmark
      rw [core_putMessage_of_eq, hp]
      rw [hp]
      exact hitem

theorem admitHead_legal (hsent : MarksAreSent l) (hitem : l.core item.messageId = some item.core)
    (hmark : item.submissionStarted = false) {resolved : Except InboxError InboxTarget} :
    (l.admitHead closing item resolved now).Legal l := by
  unfold admitHead
  split
  · exact change_legal_of_unmarked hsent rfl hitem hmark
  · simp only
    split
    · refine Legal.of_core_eq hsent ?_
      exact core_putMessage_of_eq hitem
    · exact dispatchHead_legal hsent (core_target ..) hitem hmark

theorem preparedHead_legal (hsent : MarksAreSent l)
    (hitem : l.core item.messageId = some item.core) (hmark : item.submissionStarted = false)
    {resolved : Except InboxError InboxTarget} :
    (l.preparedHead closing item reason resolved now).Legal l := by
  unfold preparedHead
  split
  · rfl
  · split
    · exact change_legal_of_unmarked hsent rfl hitem hmark
    · exact admitHead_legal hsent hitem hmark

theorem submitReturned_legal (hsent : MarksAreSent l) {messageId : MessageId} :
    (l.submitReturned closing messageId now).Legal l := by
  unfold submitReturned
  split
  · rfl
  next item hget =>
  split
  · exact change_legal_of_sent hsent rfl (item_core hget) rfl (by decide)
  · rfl

/-- What is made of one message: nothing, a change of one that has not ended, which puts back only
what has no mark, or one put back with other bookkeeping. -/
inductive Redelivers (l : InboxPayload) (closing : Bool) (id : MessageId) (now : Time) :
    InboxEffect Unit → Prop
  | nothing : Redelivers l closing id now (.keep l (.ok ()))
  | changes {item : ChatMessageEnvelope} (state : ChatMessageState) (reason : Option String)
      (hget : l.messages.get? id = some item) (hterm : item.state.terminal = false)
      (hstate : item.submissionStarted = true → state.unsent = false ∧ state ≠ .dispatching) :
      Redelivers l closing id now (l.change closing item state reason now)
  | putsBack {item : ChatMessageEnvelope} (attempts : Nat) (legacyRecovery : Bool)
      (state : ChatMessageState) (reason : Option String)
      (hget : l.messages.get? id = some item) (hterm : item.state.terminal = false)
      (hmark : item.submissionStarted = false) :
      Redelivers l closing id now
        ((l.putMessage { item with attempts := attempts, legacyRecovery := legacyRecovery }).change
          closing { item with attempts := attempts, legacyRecovery := legacyRecovery } state reason
          now)

theorem submitRaised_redelivers {messageId : MessageId} {exc : SubmitException} :
    l.Redelivers closing messageId now (l.submitRaised closing messageId exc now) := by
  unfold submitRaised
  split
  · exact .nothing
  next live hget =>
  simp only
  split
  · exact .nothing
  next hterm =>
  have hterm : live.state.terminal = false := by simpa using hterm
  split
  · exact .changes _ _ hget hterm fun _ => by decide
  next hmark =>
  have hmark : live.submissionStarted = false := by simpa using hmark
  have hfail (detail : String) :
      l.Redelivers closing messageId now (l.change closing live .failed (some detail) now) :=
    .changes _ _ hget hterm fun _ => by decide
  -- An unmarked message may be put back, with another number of attempts.
  have hretry (attempts : Nat) (reason : String) :
      l.Redelivers closing messageId now ((l.putMessage { live with attempts := attempts }).change
        closing { live with attempts := attempts } .waiting (some reason) now) :=
    .putsBack attempts live.legacyRecovery _ _ hget hterm hmark
  have hdefault (limit : Nat) :
      l.Redelivers closing messageId now (if limit ≤ live.attempts then
          l.change closing live .failed (some "Chat runtime unavailable after 12 attempts") now
        else (l.putMessage { live with attempts := live.attempts }).change closing
          { live with attempts := live.attempts } .waiting (some "Waiting for Chat runtime")
          now) := by
    split
    · exact hfail _
    · exact hretry _ _
  cases exc with
  | runtimeError =>
    simp only
    split
    · exact hdefault _
    · split
      · exact hretry _ _
      · exact hfail _
  | exception =>
    simp only
    split
    · exact hfail _
    · exact hdefault _
  | inboxError =>
    simp only
    split
    · exact hfail _
    · split
      · exact hretry _ _
      · exact hdefault _
  | cancelled => exact hdefault _

theorem resolve_redelivers {seen : Observation} {proof : InboxEvidence}
    {probedDead restarting : Bool} : l.Redelivers closing seen.messageId now
      (l.resolve closing seen proof probedDead restarting now) := by
  unfold resolve
  split
  · exact .nothing
  next item hget =>
  split
  · exact .nothing
  split
  · exact .nothing
  next hterm =>
  have hterm : item.state.terminal = false := by simpa using hterm
  have hsettle (state : ChatMessageState) (reason : Option String)
      (hstate : state.unsent = false ∧ state ≠ .dispatching) :
      l.Redelivers closing seen.messageId now (l.change closing item state reason now) :=
    .changes _ _ hget hterm fun _ => hstate
  -- Evidence of an end ends the message; otherwise only an unmarked one is put back.
  split
  · exact hsettle _ _ (by decide)
  · exact hsettle _ _ (by decide)
  · exact hsettle _ _ (by decide)
  all_goals
    split
    · split
      · exact .nothing
      · split
        next hput => exact .putsBack item.attempts false _ _ hget hterm hput.2
        · exact hsettle _ _ (by decide)
    · split
      · exact hsettle _ _ (by decide)
      · split
        · split
          next hput => exact .changes _ _ hget hterm fun hmark => by simp [hput.2.1] at hmark
          · exact hsettle _ _ (by decide)
        · exact .nothing

theorem Redelivers.legal {id : MessageId} {effect : InboxEffect Unit}
    (h : l.Redelivers closing id now effect) (hsent : MarksAreSent l) : effect.Legal l := by
  cases h with
  | nothing => rfl
  | changes state reason hget _ hstate =>
    exact change_legal hsent rfl (item_core hget) fun hmark =>
      ⟨(hstate hmark).1, fun heq => absurd heq (hstate hmark).2⟩
  | putsBack attempts legacyRecovery state reason hget _ hmark =>
    have hitem := item_core hget
    exact change_legal_of_unmarked hsent (core_putMessage_of_eq hitem) hitem hmark

theorem restartAnswer_legal (hsent : MarksAreSent l)
    (hitem : l.core item.messageId = some item.core) :
    (l.restartAnswer closing item now).Legal l := by
  unfold restartAnswer
  split
  next hmark =>
    have hmark : item.submissionStarted = false := by simpa using hmark
    have h := @change_legal_of_unmarked l l closing item .queued
      (some "Recovered before answer submission") now hsent rfl hitem hmark
    split <;> simp_all [InboxEffect.Legal]
  · have h := @change_legal_of_sent l l closing item .uncertain
      (some "Answer delivery needs reconciliation") now hsent rfl hitem rfl (by decide)
    split <;> simp_all [InboxEffect.Legal]

theorem core_observe (hitem : l.core item.messageId = some item.core) (recovering : Bool) :
    (l.observe item recovering now).1.core = l.core := by
  have hchecked : (l.putMessage { item with recoveryCheckedAt := some now }).core = l.core :=
    core_putMessage_of_eq hitem
  unfold observe
  split
  · rfl
  · split
    · rfl
    · simp only
      split <;> split <;> first | exact hchecked | rfl

theorem prune_legal (hsent : MarksAreSent l) : (l.prune now).Legal l := by
  unfold prune
  simp only
  split
  · rfl
  · refine Legal.of_core_eq hsent ?_
    funext id
    simp only [core, Table.get?_map, Option.map_map]
    congr 1
    funext item
    simp only [Function.comp_apply, expireMessage]
    split <;> rfl

variable {q : ChatQuestion}

section

variable (hsent : MarksAreSent l)
include hsent

theorem capture_legal : (l.capture closing q).Legal l := by
  unfold capture
  split
  · rfl
  · split
    · rfl
    · simp only
      split
      · rfl
      · exact Legal.of_core_eq hsent rfl

theorem claimAnswer_legal {limits : InboxLimits} {questionRef : QuestionRef}
    {principal actor : String} {email : Option String} {payload : QuestionAnswerCreate}
    {callback : Option (String × String)} {answerId : MessageId}
    (hnew : l.messages.get? answerId = none) :
    (l.claimAnswer limits closing questionRef principal actor email payload callback answerId
      now).Legal l := by
  unfold claimAnswer
  split
  · rfl
  split
  · rfl
  simp only
  split
  · split
    · rfl
    · split <;> rfl
  · split
    · split
      · rfl
      · split <;> rfl
    · split
      · rfl
      · split
        · rfl
        · exact legal_put_new hsent (core_putQuestion ..) (by simp [core, hnew]) rfl

theorem finishAnswer_legal (hitem : l.core item.messageId = some item.core)
    {raised : Option SubmitException} : (l.finishAnswer closing item raised now).Legal l := by
  unfold finishAnswer answerOutcome
  split
  next h =>
  split at h
  · obtain ⟨rfl, rfl⟩ := Prod.mk.inj h
    exact change_legal_of_sent hsent rfl hitem rfl (by decide)
  · split at h
    next hbusy =>
      exact change_legal_of_unmarked hsent rfl hitem hbusy.1
    · split at h <;> obtain ⟨rfl, rfl⟩ := Prod.mk.inj h <;>
        exact change_legal_of_sent hsent rfl hitem rfl (by decide)

theorem settleQuestion_legal : (l.settleQuestion item).Legal l := by
  unfold settleQuestion
  split
  · rfl
  · exact Legal.of_core_eq hsent rfl

theorem restartQuestion_legal : (l.restartQuestion item).Legal l := by
  unfold restartQuestion
  split
  · rfl
  · exact Legal.of_core_eq hsent rfl

theorem approvalResolved_legal : (l.approvalResolved closing q now).Legal l := by
  unfold approvalResolved
  split
  · rfl
  simp only
  split
  · rfl
  next item hget =>
  obtain ⟨id, -, hget⟩ := Option.bind_eq_some_iff.mp hget
  split
  · exact change_legal_of_sent hsent rfl (item_core hget) rfl (by decide)
  · rfl

theorem handoffPersisted_legal : (l.handoffPersisted closing q now).Legal l := by
  unfold handoffPersisted
  split
  · rfl
  · split
    · rfl
    next item hget =>
      obtain ⟨id, -, hget⟩ := Option.bind_eq_some_iff.mp hget
      exact change_legal_of_sent hsent rfl (item_core hget) rfl (by decide)

theorem questionGone_legal : (l.questionGone q).Legal l := by
  unfold questionGone
  split
  · exact Legal.of_core_eq hsent rfl
  · rfl

theorem rememberNonce_legal {key fingerprint : String} :
    (l.rememberNonce key fingerprint now).Legal l := by
  unfold rememberNonce
  simp only
  split
  · split <;> rfl
  · exact Legal.of_core_eq hsent rfl

end

end InboxPayload

end ClaudeHub
