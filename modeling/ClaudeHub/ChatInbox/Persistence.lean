import ClaudeHub.ChatInbox.AnswerSteps
import ClaudeHub.ChatInbox.File
import ClaudeHub.ChatInbox.Order

/-! # What the inbox saves can be loaded again

Every step carries out one effect. The payloads that effects leave are ones that a
start accepts, and an inbox whose save has raised refuses every effect of a step that
looks at whether the inbox is closed.
-/

namespace ClaudeHub

open StepSystem InboxPayload

def ChatMessageEnvelope.record (item : ChatMessageEnvelope) : ChatMessageEnvelope :=
  { item with attempts := 0, legacyRecovery := false, recoveryCheckedAt := none }

namespace InboxPayload

/-- The questions and answers belong together; nothing is said about the pumps of answers. -/
abbrev Owned (p : InboxPayload) : Prop := p.AnswersOk fun _ => True

theorem Owned.restore {p : InboxPayload} (h : p.Owned) : p.dump.restore = .ok p := by
  rw [restore_dump, h.checkOwnership]
  rfl

theorem owned_empty : ({} : InboxPayload).Owned := by
  constructor <;> simp [core]

/-- The messages, questions, receipts and nonces are the same. -/
structure SameRecords (p q : InboxPayload) : Prop where
  messages : ∀ id, (q.messages.get? id).map ChatMessageEnvelope.record =
    (p.messages.get? id).map ChatMessageEnvelope.record
  questions : q.questions = p.questions
  callbackReceipts : q.callbackReceipts = p.callbackReceipts
  callbackNonces : q.callbackNonces = p.callbackNonces

variable {l p q r : InboxPayload} {closing : Bool} {item : ChatMessageEnvelope}
  {state : ChatMessageState} {reason : Option String} {now : Time}

theorem SameRecords.refl (p : InboxPayload) : SameRecords p p :=
  ⟨fun _ => rfl, rfl, rfl, rfl⟩

theorem SameRecords.trans (h : SameRecords p q) (h' : SameRecords q r) : SameRecords p r where
  messages id := (h'.messages id).trans (h.messages id)
  questions := h'.questions.trans h.questions
  callbackReceipts := h'.callbackReceipts.trans h.callbackReceipts
  callbackNonces := h'.callbackNonces.trans h.callbackNonces

theorem sameRecords_target (p : InboxPayload) (tabId : TabId) (raw : InboxTarget) :
    SameRecords p (p.target tabId raw).1 :=
  ⟨fun _ => rfl, rfl, rfl, rfl⟩

theorem SameRecords.put (h : SameRecords l p) {old : ChatMessageEnvelope}
    (hget : p.messages.get? item.messageId = some old) (hrecord : item.record = old.record) :
    SameRecords l (p.putMessage item) := by
  refine h.trans ⟨fun id => ?_, rfl, rfl, rfl⟩
  show ((p.messages.insert item).get? id).map _ = _
  rw [Table.get?_insert]
  split
  next heq => rw [heq, hget, Option.map_some, Option.map_some, hrecord]
  · rfl

end InboxPayload

def InboxEffect.Refuses {α : Type} (l : InboxPayload) : InboxEffect α → Prop
  | .keep memory _ => SameRecords l memory
  | .write _ _ => False

def InboxEffect.Saves {α : Type} (outcome : SaveOutcome) : InboxEffect α → Prop
  | .keep _ _ => False
  | .write _ _ => outcome = .saved

def InboxEffect.SavesOrRaises {α : Type} : InboxEffect α → Prop
  | .keep _ (.ok _) => False
  | .keep _ (.error _) => True
  | .write _ _ => True

def PumpTurn.Refuses (l : InboxPayload) : PumpTurn → Prop
  | .ended effect => effect.Refuses l
  | .pinned _ _ => False
  | .submits effect => effect.Refuses l

namespace InboxPayload

variable {l p q r : InboxPayload} {item : ChatMessageEnvelope}
  {state : ChatMessageState} {reason : Option String} {now : Time}

/-! ## Refusals of a closed inbox -/

variable {closing : Bool}

theorem change_savesOrRaises :
    (l.change closing item state reason now).SavesOrRaises := by
  unfold change
  split <;> trivial

theorem restartAnswer_savesOrRaises :
    (l.restartAnswer closing item now).SavesOrRaises := by
  unfold restartAnswer change
  cases closing <;> split <;> trivial

theorem cancelScheduled_refuses {messageId : MessageId} {release : Bool} :
    (l.cancelScheduled true messageId release now).Refuses l := by
  unfold cancelScheduled
  split
  · exact .refl l
  · split <;> exact .refl l

theorem admitScheduled_refuses {limits : InboxLimits} {intent : ScheduledIntent}
    {resolved : Except InboxError InboxTarget} {enforceLimit : Bool} :
    (l.admitScheduled limits true intent resolved enforceLimit).Refuses l := by
  unfold admitScheduled
  split
  · exact .refl l
  · cases resolved with
    | error => exact .refl l
    | ok raw => exact sameRecords_target l _ raw

theorem preparedHead_refuses (hget : l.messages.get? item.messageId = some item)
    {resolved : Except InboxError InboxTarget}
    (hpin : reason = none → item.blocksQueue = true → item.scheduled = true →
      item.incarnation = .text "" → ∃ e, resolved = .error e) :
    (l.preparedHead true item reason resolved now).Refuses l := by
  unfold preparedHead
  split
  · exact .refl l
  next hblocks =>
  cases reason with
  | some => exact .refl l
  | none =>
    unfold admitHead
    cases resolved with
    | error => exact .refl l
    | ok raw =>
      have htarget := sameRecords_target l item.tabId raw
      simp only
      split
      next hscheduled =>
        obtain ⟨e, he⟩ := hpin rfl (by simpa using hblocks) hscheduled.1 hscheduled.2
        simp at he
      · unfold dispatchHead
        split
        · exact htarget
        · split
          · exact htarget
          · exact htarget.put hget rfl

theorem submitReturned_refuses {id : MessageId} :
    (l.submitReturned true id now).Refuses l := by
  unfold submitReturned
  split
  · exact .refl l
  · split <;> exact .refl l

theorem Redelivers.refuses {id : MessageId} {effect : InboxEffect Unit}
    (h : l.Redelivers true id now effect) : effect.Refuses l := by
  cases h with
  | nothing => exact .refl l
  | changes => exact SameRecords.refl l
  | putsBack attempts legacyRecovery state reason hget =>
    obtain rfl := Table.key_of_get? hget
    exact (SameRecords.refl l).put hget rfl

theorem restartAnswer_refuses : (l.restartAnswer true item now).Refuses l := by
  unfold restartAnswer
  split <;> exact SameRecords.refl l

theorem observe_sameRecords (hget : l.messages.get? item.messageId = some item)
    (recovering : Bool) : SameRecords l (l.observe item recovering now).1 := by
  have hchecked : SameRecords l (l.putMessage { item with recoveryCheckedAt := some now }) :=
    (SameRecords.refl l).put hget rfl
  unfold observe
  split
  · exact .refl l
  · split
    · exact .refl l
    · simp only
      split <;> split <;> first | exact hchecked | exact .refl l

def due (p : InboxPayload) (now : Time) : Bool :=
  p.messages.rows.any (fun m => expireMessage now m ≠ m) ||
    p.questions.rows.any fun q => p.expireQuestion now q ≠ q

theorem prune_refuses (hdue : l.due now = false) : (l.prune now).Refuses l := by
  simp only [due, Bool.or_eq_false_iff, List.any_eq_false, decide_eq_true_eq, not_not] at hdue
  obtain ⟨hmessages, hquestions⟩ := hdue
  have hkept : l.messages.map (expireMessage now) (expireMessage_messageId now) = l.messages :=
    Table.map_eq_self hmessages
  unfold prune
  simp only [hkept]
  rw [if_pos (by rw [Table.map_eq_self hquestions])]
  exact .refl l

def freshNonce (p : InboxPayload) (key : String) (now : Time) : Bool :=
  (p.callbackNonces.get? key).isNone || p.callbackNonces.rows.any fun nonce => nonce.expiresAt ≤ now

theorem rememberNonce_refuses {key fingerprint : String} (hfresh : l.freshNonce key now = false) :
    (l.rememberNonce key fingerprint now).Refuses l := by
  simp only [freshNonce, Bool.or_eq_false_iff, List.any_eq_false, decide_eq_true_eq, not_le,
    Option.isNone_eq_false_iff] at hfresh
  obtain ⟨hknown, hlive⟩ := hfresh
  have hkept : l.callbackNonces.filter (fun nonce => now < nonce.expiresAt) = l.callbackNonces :=
    Table.filter_eq_self fun nonce hnonce => by simpa using hlive nonce hnonce
  obtain ⟨previous, hprevious⟩ := Option.isSome_iff_exists.mp hknown
  unfold rememberNonce
  simp only [hkept, hprevious]
  split <;> exact .refl l

theorem approvalResolved_refuses {q : ChatQuestion} (hget : l.questions.get? q.questionRef = some q)
    (hstate : q.state ≠ .claimed → q.state = .resolved) (hclosing : closing = true) :
    (l.approvalResolved closing q now).Refuses l := by
  unfold approvalResolved
  split
  · exact .refl l
  next hclaimed =>
  have hsame : l.putQuestion { q with state := .resolved } = l := by
    rw [← hstate hclaimed]
    exact congrArg (fun questions => { l with questions := questions })
      (Table.insert_eq_self hget)
  simp only [hsame]
  split
  · exact .refl l
  · split
    · rw [hclosing]
      exact .refl l
    · exact .refl l

theorem handoffPersisted_refuses {q : ChatQuestion}
    (hstate : q.state = .uncertain → q.mode = .followup →
        ¬ terminalTabSession <+: q.sessionId.toList → q.answerId.bind l.messages.get? = none) :
    (l.handoffPersisted closing q now).Refuses l := by
  unfold handoffPersisted
  split
  · exact .refl l
  next hopen =>
    simp only [not_or, not_not] at hopen
    rw [hstate hopen.1 hopen.2.1 hopen.2.2]
    exact .refl l

end InboxPayload

namespace InboxPayload

variable {l : InboxPayload} {closing : Bool} {item : ChatMessageEnvelope}
  {state : ChatMessageState} {reason : Option String} {now : Time}

theorem change_owned (h : l.Owned) (hitem : l.core item.messageId = some item.core) :
    (l.change closing item state reason now).memory.Owned :=
  change_ends h hitem fun _ _ _ _ _ => trivial

theorem cancel_owned (h : l.Owned) {tabId : TabId} {messageId : MessageId} {principal : String} :
    (l.cancel closing tabId messageId principal now).memory.Owned := by
  unfold cancel
  split
  · exact h
  split
  · exact h
  next item howned =>
  split
  · exact h
  · split
    · exact h
    · exact change_owned h (item_core (owned_ok howned))

theorem completed_owned (h : l.Owned) {tabId : TabId} {turnId : TurnId} {status : String} :
    (l.completed closing tabId turnId status now).memory.Owned := by
  unfold completed
  split
  · exact h
  split
  · exact h
  next item hfind => exact change_owned h (item_core_of_mem (List.mem_of_find?_eq_some hfind))

theorem settleQuestion_owned (h : l.Owned) (hitem : l.core item.messageId = some item.core)
    (hkind : item.kind = .questionAnswer) : (l.settleQuestion item).memory.Owned := by
  obtain ⟨memory, heffect, -, hmemory⟩ := settleQuestion_answers h hitem hkind
  rw [heffect]
  exact hmemory.mono fun _ _ => trivial

end InboxPayload

namespace ChatMessageInbox

/-- What is in memory, what was committed and what the file has are accepted by a start. -/
structure Restorable (inbox : ChatMessageInbox) : Prop where
  live : inbox.live.Owned
  committed : inbox.committed.Owned
  file : inbox.file.Owned

variable {inbox : ChatMessageInbox} {α : Type} {effect : InboxEffect α} {outcome : SaveOutcome}

theorem Restorable.perform (h : inbox.Restorable) (hmemory : effect.memory.Owned) :
    (inbox.perform effect outcome).1.Restorable := by
  cases effect with
  | keep memory reply => cases reply <;> exact ⟨hmemory, h.committed, h.file⟩
  | write =>
    cases outcome with
    | saved => exact ⟨hmemory, hmemory, hmemory⟩
    | notReplaced => exact ⟨h.committed, h.committed, h.file⟩
    | replacedThenRaised => exact ⟨h.committed, h.committed, hmemory⟩

theorem perform_fails (hfailed : inbox.failed = false)
    (hfails : (inbox.perform effect outcome).1.failed = true) :
    (inbox.perform effect outcome).1.closing = true ∧
      (inbox.perform effect outcome).1.live = inbox.committed ∧
      (inbox.perform effect outcome).1.committed = inbox.committed := by
  cases effect with
  | keep memory reply =>
    cases reply <;> simp [ChatMessageInbox.perform, hfailed] at hfails
  | write =>
    cases outcome with
    | saved => simp [ChatMessageInbox.perform, save, hfailed] at hfails
    | notReplaced => exact ⟨rfl, rfl, rfl⟩
    | replacedThenRaised => exact ⟨rfl, rfl, rfl⟩

theorem perform_refuses (outcome : SaveOutcome) (hrefuses : effect.Refuses inbox.live) :
    SameRecords inbox.live (inbox.perform effect outcome).1.live ∧
      (inbox.perform effect outcome).1.committed = inbox.committed ∧
      (inbox.perform effect outcome).1.file = inbox.file := by
  cases effect with
  | keep memory reply => cases reply <;> exact ⟨hrefuses, rfl, rfl⟩
  | write => exact hrefuses.elim

theorem closing_perform (hclosing : inbox.closing = true) :
    (inbox.perform effect outcome).1.closing = true := by
  cases effect with
  | keep memory reply => cases reply <;> exact hclosing
  | write => cases outcome <;> first | exact hclosing | rfl

end ChatMessageInbox

namespace InboxRun

/-! ## Steps -/

/-- A step that may save without a look at whether the inbox is closed, or that changes a
question before it looks. -/
def unfenced (run : InboxRun) : InboxOp → Bool
  | .prepared tabId none (.ok _) _ _ =>
    match run.pumps.get? tabId with
    | some ⟨_, messageId, .preparing⟩ =>
      match run.inbox.live.messages.get? messageId with
      | some item => item.blocksQueue && item.scheduled && item.incarnation = .text ""
      | none => false
    | _ => false
  | .prune now _ => run.inbox.live.due now
  | .turnStarted .. | .turnCompleted .. | .flush _ => true
  | .approvalResolved questionRef _ _ =>
    (run.inbox.live.questions.get? questionRef).any fun q =>
      q.state ≠ .claimed && q.state ≠ .resolved
  | .handoffPersisted questionRef _ _ =>
    (run.inbox.live.questions.get? questionRef).any fun q =>
      q.state = .uncertain && q.mode = .followup &&
        !decide (terminalTabSession <+: q.sessionId.toList) &&
        (q.answerId.bind run.inbox.live.messages.get?).isSome
  | .questionGone questionRef _ =>
    (run.inbox.live.questions.get? questionRef).any fun q => q.state = .opened
  | .mirrorQuestion questionRef _ _ => (run.inbox.live.questions.get? questionRef).isSome
  | .rememberNonce key _ now _ => run.inbox.live.freshNonce key now
  | _ => false

def fenced (run : InboxRun) : InboxOp → Bool
  | .crash => false
  | op => !run.unfenced op

theorem fenced_spec {run : InboxRun} {op : InboxOp} (h : run.fenced op = true) :
    op ≠ .crash ∧ run.unfenced op = false := by
  cases op <;> simp_all [fenced]

/-- What a step does: it carries out one effect, and goes on at a critical point only
where that has succeeded. -/
inductive Carries (run : InboxRun) (op : InboxOp) (next : InboxRun) : Prop
  | intro {α : Type} (effect : InboxEffect α) (outcome : SaveOutcome)
      (hinbox : { next.inbox with
          closing := (run.inbox.perform effect outcome).1.closing
          restartRecovery := (run.inbox.perform effect outcome).1.restartRecovery } =
        (run.inbox.perform effect outcome).1)
      (hclosing : (run.inbox.perform effect outcome).1.closing = true → next.inbox.closing = true)
      (hquiet : next.critical ≠ none → effect.Saves outcome)
      (hanswer : ∀ id, next.critical = some (.settleQuestion id) ∨
        next.critical = some (.restartQuestion id) → run.inbox.live.HoldsAnswer id)
      (howned : run.inbox.live.Owned → effect.memory.Owned)
      (hrefuses : run.inbox.closing = true → run.critical = none → run.unfenced op = false →
        effect.Refuses run.inbox.live)

variable {run next : InboxRun} {op : InboxOp} {α : Type} {effect : InboxEffect α}
  {outcome : SaveOutcome} {limits : InboxLimits} {now : Time}

theorem carries_perform (effect : InboxEffect α) (outcome : SaveOutcome)
    (hinbox : next.inbox = (run.inbox.perform effect outcome).1)
    (hcritical : next.critical = none)
    (howned : run.inbox.live.Owned → effect.memory.Owned)
    (hrefuses : run.inbox.closing = true → run.critical = none → run.unfenced op = false →
      effect.Refuses run.inbox.live) : run.Carries op next :=
  .intro effect outcome (by rw [hinbox]) (by rw [hinbox]; exact id) (absurd hcritical)
    (by simp [hcritical]) howned hrefuses

theorem saves_of_succeeds (heffect : effect.SavesOrRaises)
    (h : run.succeeds effect outcome = true) : effect.Saves outcome := by
  cases effect with
  | keep memory reply =>
    cases reply with
    | ok => exact heffect.elim
    | error => simp [succeeds, ChatMessageInbox.perform] at h
  | write =>
    cases outcome with
    | saved => rfl
    | notReplaced => simp [succeeds, ChatMessageInbox.perform, SaveOutcome.raises] at h
    | replacedThenRaised => simp [succeeds, ChatMessageInbox.perform, SaveOutcome.raises] at h

theorem carries_nothing (hinbox : next.inbox = run.inbox) (hcritical : next.critical = none) :
    run.Carries op next :=
  carries_perform (.keep run.inbox.live (.ok ()) : InboxEffect Unit) .saved hinbox hcritical id
    fun _ _ _ => .refl _

theorem carries_pumpTurn {base : InboxRun} {tabId : TabId} {id : MessageId} {turn : PumpTurn}
    (hinbox : base.inbox = run.inbox) (hcritical : base.critical = none)
    (howned : run.inbox.live.Owned → turn.memory.Owned)
    (hrefuses : run.inbox.closing = true → run.critical = none → run.unfenced op = false →
      turn.Refuses run.inbox.live) : run.Carries op (base.pumpTurn tabId id turn outcome) := by
  cases turn with
  | ended effect =>
    exact carries_perform effect outcome (by rw [← hinbox]; rfl) hcritical howned hrefuses
  | pinned memory =>
    refine .intro (.write memory () : InboxEffect Unit) outcome (by rw [← hinbox]; rfl)
      (by rw [← hinbox]; exact fun h => h) ?_ ?_ howned hrefuses
    · intro hcrit
      simp only [InboxRun.pumpTurn] at hcrit
      split at hcrit
      next hsucceeds => exact saves_of_succeeds trivial hsucceeds
      · simp at hcrit
    · intro id h
      simp only [InboxRun.pumpTurn] at h
      split at h <;> simp at h
  | submits effect =>
    exact carries_perform effect outcome (by rw [← hinbox]; rfl) hcritical howned hrefuses

section

variable (hcritical : run.critical = none)
include hcritical

theorem carries_startPump {tabId : TabId} {prepares : Bool}
    {resolved : Except InboxError InboxTarget} (hclosing : ¬ run.inbox.closing = true) :
    run.Carries op (run.startPump tabId prepares resolved now outcome) := by
  unfold InboxRun.startPump
  split
  · exact carries_nothing rfl hcritical
  next item hhead =>
  obtain ⟨hrow, -, hkind, -⟩ := head_spec hhead
  split
  · exact carries_nothing rfl hcritical
  · exact carries_pumpTurn rfl hcritical
      (fun h => admitHead_answers h (item_core_of_mem hrow) hkind) fun h => absurd h hclosing

theorem carries_atQuestion {questionRef : QuestionRef} {change : ChatQuestion → InboxEffect Unit}
    (howned : ∀ q ∈ run.inbox.live.questions.rows, run.inbox.live.Owned → (change q).memory.Owned)
    (hrefuses : ∀ q, run.inbox.live.questions.get? questionRef = some q →
      run.inbox.closing = true → run.unfenced op = false → (change q).Refuses run.inbox.live) :
    run.Carries op (run.atQuestion questionRef change outcome) := by
  unfold InboxRun.atQuestion
  split
  · exact carries_nothing rfl hcritical
  next q hget =>
    exact carries_perform (change q) outcome rfl hcritical
      (howned q (Table.get?_eq_some.mp hget).1) fun h _ hfenced => hrefuses q hget h hfenced

theorem carries_beforeDelivery {messageId : MessageId} {resolved : Except InboxError InboxTarget}
    (hstep : run.beforeDelivery messageId resolved outcome = some next) : run.Carries op next := by
  obtain ⟨called, hcalled, rfl⟩ := Option.map_eq_some_iff.mp hstep
  obtain ⟨hinbox, hcrit, -⟩ := calledBack_spec hcalled
  refine carries_perform (run.inbox.live.beforeDelivery run.inbox.closing messageId resolved)
    outcome (by rw [← hinbox]; rfl) (hcrit.trans hcritical)
    (fun h => beforeDelivery_answers h) fun hclosing _ _ => ?_
  rw [hclosing]
  exact .refl _

theorem carries_observe {item : ChatMessageEnvelope} {restarting : Bool}
    (hget : run.inbox.live.messages.get? item.messageId = some item) :
    run.Carries op (run.observe item restarting now outcome) := by
  have hitem := core_of_get? hget
  unfold InboxRun.observe
  simp only
  split
  next hkind =>
    have howned : run.inbox.live.Owned →
        (run.inbox.live.restartAnswer run.inbox.closing item now).memory.Owned :=
      fun h => restartAnswer_answers h hitem
    have hrefuses (hclosing : run.inbox.closing = true) :
        (run.inbox.live.restartAnswer run.inbox.closing item now).Refuses run.inbox.live := by
      rw [hclosing]
      exact restartAnswer_refuses
    split
    · split
      next hok =>
        refine .intro _ outcome rfl (fun h => h) ?_ ?_ howned fun h _ _ => hrefuses h
        · have hsucceeds : run.succeeds
              (run.inbox.live.restartAnswer run.inbox.closing item now) outcome = true := by
            simp [InboxRun.succeeds, hok]
          exact fun _ => saves_of_succeeds restartAnswer_savesOrRaises hsucceeds
        · intro id hid
          obtain rfl : item.messageId = id := by simpa using hid
          exact ⟨item.entry, entry_of_get? hget, hkind⟩
      · exact carries_perform _ outcome rfl hcritical howned fun h _ _ => hrefuses h
    · exact carries_nothing rfl hcritical
  next hkind =>
    have hmessage : item.kind = .message := by
      cases hcase : item.kind with
      | message => rfl
      | questionAnswer => exact absurd hcase hkind
    exact carries_perform (.keep (run.inbox.live.observe item
        (item.messageId ∈ run.inbox.restartRecovery) now).1 (.ok ()) : InboxEffect Unit) .saved rfl
      hcritical (fun h => observe_answers h hitem hmessage _)
      fun _ _ _ => observe_sameRecords hget _

theorem carries_answerDone {item : ChatMessageEnvelope} {raised : Option SubmitException}
    (hkind : item.kind = .questionAnswer)
    (hget : run.inbox.live.messages.get? item.messageId = some item) :
    run.Carries op (run.answerDone item raised now outcome) := by
  have howned (h : run.inbox.live.Owned) :
      (run.inbox.live.finishAnswer run.inbox.closing item raised now).memory.Owned :=
    change_owned h (core_of_get? hget)
  have hrefuses (hclosing : run.inbox.closing = true) :
      (run.inbox.live.finishAnswer run.inbox.closing item raised now).Refuses run.inbox.live := by
    rw [hclosing]
    exact SameRecords.refl _
  unfold InboxRun.answerDone
  simp only
  split
  next hdone =>
    refine .intro _ outcome rfl (fun h => h) ?_ ?_ howned fun h _ _ => hrefuses h
    · exact fun _ => saves_of_succeeds change_savesOrRaises hdone.1
    · intro id hid
      obtain rfl : item.messageId = id := by simpa using hid
      exact ⟨item.entry, entry_of_get? hget, hkind⟩
  · exact carries_perform _ outcome rfl hcritical howned fun h _ _ => hrefuses h

end

theorem carries_resume (hq : run.Queued)
    (hanswer : ∀ id, run.critical = some (.settleQuestion id) ∨
      run.critical = some (.restartQuestion id) → run.inbox.live.HoldsAnswer id) :
    run.Carries op (run.resume now outcome) := by
  have hkind {id : MessageId} {item : ChatMessageEnvelope} (hholds : run.inbox.live.HoldsAnswer id)
      (hget : run.inbox.live.messages.get? id = some item) : item.kind = .questionAnswer := by
    obtain ⟨e, he, hkind⟩ := hholds
    cases (entry_of_get? hget).symm.trans he
    exact hkind
  unfold InboxRun.resume
  split
  next hcritical => exact carries_nothing rfl hcritical
  next critical hcrit =>
  have hbusy (h : run.critical = none) : False := by simp [hcrit] at h
  cases critical with
  | dispatchHead tabId id target =>
    obtain ⟨⟨e, he, -, hekind, -⟩, -, -⟩ := hq.critical tabId id target hcrit
    simp only
    split
    · exact carries_nothing rfl rfl
    next item hget =>
    cases (entry_of_get? hget).symm.trans he
    exact carries_pumpTurn rfl rfl
      (fun h => dispatchHead_answers h (item_core hget) hekind) fun _ h => (hbusy h).elim
  | settleQuestion =>
    simp only
    split
    · exact carries_nothing rfl rfl
    next item hget =>
      exact carries_perform _ outcome rfl rfl
        (fun h => settleQuestion_owned h (item_core hget) (hkind (hanswer _ (.inl hcrit)) hget))
        fun _ h => (hbusy h).elim
  | restartQuestion =>
    simp only
    split
    · exact carries_nothing rfl rfl
    next item hget =>
      exact carries_perform _ outcome rfl rfl
        (fun h => restartQuestion_answers h (item_core hget)
          (hkind (hanswer _ (.inr hcrit)) hget))
        fun _ h => (hbusy h).elim

theorem carries_stepFree (hq : run.Queued) (hcritical : run.critical = none)
    (hstep : run.stepFree limits op = some next) : run.Carries op next := by
  cases op with
    simp only [InboxRun.stepFree, Option.ite_none_left_eq_some, Option.map_eq_some_iff, not_or,
      Option.some.injEq, reduceCtorEq] at hstep
  | enqueue tabId principal actor email payload resolved messageId now outcome =>
    obtain ⟨⟨-, hnew⟩, rfl⟩ := hstep
    refine carries_perform _ outcome rfl hcritical
      (fun h => enqueue_answers h (by simpa using hnew)) fun hclosing _ _ => ?_
    rw [hclosing]
    exact .refl _
  | admitScheduled intent resolved enforceLimit outcome =>
    obtain rfl := hstep
    refine carries_perform _ outcome rfl hcritical (fun h => admitScheduled_answers h)
      fun hclosing _ _ => ?_
    rw [hclosing]
    exact admitScheduled_refuses
  | cancelScheduled messageId release now outcome =>
    obtain rfl := hstep
    refine carries_perform _ outcome rfl hcritical (fun h => cancelScheduled_answers h)
      fun hclosing _ _ => ?_
    rw [hclosing]
    exact cancelScheduled_refuses
  | cancel tabId messageId principal now outcome =>
    obtain ⟨-, rfl⟩ := hstep
    refine carries_perform _ outcome rfl hcritical (fun h => cancel_owned h)
      fun hclosing _ _ => ?_
    rw [hclosing]
    exact .refl _
  | completed tabId turnId status now outcome =>
    obtain ⟨-, rfl⟩ := hstep
    refine carries_perform _ outcome rfl hcritical (fun h => completed_owned h)
      fun hclosing _ _ => ?_
    rw [hclosing]
    exact .refl _
  | pump =>
    obtain ⟨⟨-, hclosing, -⟩, rfl⟩ := hstep
    exact carries_startPump hcritical hclosing
  | prepared tabId reason resolved =>
    split at hstep
    next tab messageId hpump =>
      obtain rfl : tab = tabId := Table.key_of_get? hpump
      obtain ⟨e, he, -, hkind, -⟩ := hq.preparing _ (Table.get?_eq_some.mp hpump).1 rfl
      split at hstep
      · cases hstep
        exact carries_nothing rfl hcritical
      next item hget =>
        cases hstep
        cases (entry_of_get? hget).symm.trans he
        refine carries_pumpTurn rfl hcritical
          (fun h => preparedHead_answers h (item_core hget) hkind) fun hclosing _ hfenced => ?_
        have hself : run.inbox.live.messages.get? item.messageId = some item := by
          rw [Table.key_of_get? hget]
          exact hget
        rw [hclosing]
        refine preparedHead_refuses hself fun hreason hblocks hscheduled hincarnation => ?_
        cases resolved with
        | error e => exact ⟨e, rfl⟩
        | ok =>
          subst hreason
          simp [unfenced, hpump, hget, hblocks, hscheduled, hincarnation] at hfenced
    · simp at hstep
  | prepareFails tabId reason now outcome =>
    split at hstep
    · split at hstep
      · simp at hstep
      next item hget =>
        cases hstep
        refine carries_perform _ outcome rfl hcritical
          (fun h => change_owned h (item_core hget)) fun hclosing _ _ => ?_
        rw [hclosing]
        exact SameRecords.refl _
    · simp at hstep
  | beforeDelivery => exact carries_beforeDelivery hcritical hstep
  | submitReturned tabId now outcome =>
    obtain ⟨-, id, -, rfl⟩ := hstep
    refine carries_perform (run.inbox.live.submitReturned run.inbox.closing id now) outcome rfl
      hcritical (fun h => submitReturned_answers h) fun hclosing _ _ => ?_
    rw [hclosing]
    exact submitReturned_refuses
  | submitRaised tabId exc now outcome =>
    obtain ⟨-, id, -, rfl⟩ := hstep
    refine carries_perform (run.inbox.live.submitRaised run.inbox.closing id exc now) outcome rfl
      hcritical (fun h => submitRaised_redelivers.answers h fun _ _ _ _ => trivial)
      fun hclosing _ _ => ?_
    rw [hclosing]
    exact submitRaised_redelivers.refuses
  | reconcile =>
    obtain rfl := hstep
    exact .intro (.keep run.inbox.live (.ok ()) : InboxEffect Unit) .saved rfl (fun h => h)
      (absurd hcritical) (by simp [hcritical]) id fun _ _ _ => .refl _
  | observe =>
    obtain ⟨item, hget, rfl⟩ := hstep
    have hid := Table.key_of_get? hget
    exact carries_observe hcritical (by rw [hid]; exact hget)
  | resolve seen proof probedDead restarting now outcome =>
    obtain ⟨-, rfl⟩ := hstep
    refine carries_perform _ outcome rfl hcritical
      (fun h => resolve_redelivers.answers h fun _ _ _ _ => trivial) fun hclosing _ _ => ?_
    rw [hclosing]
    exact resolve_redelivers.refuses
  | prune now outcome =>
    obtain ⟨-, rfl⟩ := hstep
    exact carries_perform _ outcome rfl hcritical (fun h => prune_answers h)
      fun _ _ hdue => prune_refuses hdue
  | capture q outcome =>
    obtain ⟨⟨-, hnew⟩, rfl⟩ := hstep
    refine carries_perform _ outcome rfl hcritical
      (fun h => capture_answers h (by simpa using hnew)) fun hclosing _ _ => ?_
    rw [hclosing]
    exact .refl _
  | claimAnswer questionRef principal actor email payload callback answerId now outcome =>
    obtain ⟨⟨-, hnew⟩, rfl⟩ := hstep
    refine carries_perform _ outcome rfl hcritical
      (fun h => claimAnswer_answers h (by simpa using hnew)) fun hclosing _ _ => ?_
    rw [hclosing]
    exact .refl _
  | pumpAnswer answerId now outcome =>
    split at hstep
    · simp at hstep
    next item hget =>
    simp only [Option.ite_none_left_eq_some, not_or, Option.some.injEq] at hstep
    obtain ⟨⟨-, -, -, hopen⟩, rfl⟩ := hstep
    exact carries_perform _ outcome rfl hcritical (fun h => change_owned h (item_core hget))
      fun hclosing => absurd hclosing hopen
  | answerDone =>
    split at hstep
    next task item htask hget =>
      cases hstep
      have hid := Table.key_of_get? hget
      obtain ⟨htask, hkey⟩ := Table.get?_eq_some.mp htask
      obtain ⟨e, he, hkind⟩ := hq.answers task htask
      rw [hkey, entry_of_get? hget] at he
      cases he
      exact carries_answerDone hcritical hkind (by rw [hid]; exact hget)
    · simp at hstep
  | turnStarted sessionId turnId outcome =>
    obtain rfl := hstep
    exact carries_perform _ outcome rfl hcritical (fun h => staleQuestions_answers h _)
      fun _ _ hfenced => by simp [unfenced] at hfenced
  | turnCompleted sessionId turnId status outcome =>
    obtain rfl := hstep
    exact carries_perform _ outcome rfl hcritical (fun h => staleQuestions_answers h _)
      fun _ _ hfenced => by simp [unfenced] at hfenced
  | approvalResolved =>
    obtain rfl := hstep
    refine carries_atQuestion hcritical (fun q hq h => approvalResolved_answers h hq)
      fun q hget hclosing hfenced => ?_
    obtain rfl := Table.key_of_get? hget
    exact approvalResolved_refuses hget (by simpa [unfenced, hget] using hfenced) hclosing
  | handoffPersisted =>
    obtain rfl := hstep
    refine carries_atQuestion hcritical (fun q hq h => handoffPersisted_answers h hq)
      fun q hget _ hfenced => ?_
    exact handoffPersisted_refuses (by simpa [unfenced, hget] using hfenced)
  | questionGone =>
    obtain rfl := hstep
    refine carries_atQuestion hcritical (fun q hq h => questionGone_answers h hq)
      fun q hget _ hfenced => ?_
    simp only [unfenced, hget, Option.any_some, decide_eq_false_iff_not] at hfenced
    unfold questionGone
    rw [if_neg hfenced]
    exact .refl _
  | rememberNonce key fingerprint now outcome =>
    obtain ⟨-, rfl⟩ := hstep
    exact carries_perform _ outcome rfl hcritical (fun h => rememberNonce_answers h)
      fun _ _ hfresh => rememberNonce_refuses hfresh
  | mirrorQuestion questionRef card =>
    obtain rfl := hstep
    exact carries_atQuestion hcritical (fun q hq h => h.put_card hq card)
      fun q hget _ hfenced => by simp [unfenced, hget] at hfenced
  | flush outcome =>
    obtain rfl := hstep
    exact carries_perform _ outcome rfl hcritical id fun _ _ hfenced => by
      simp [unfenced] at hfenced
  | stop =>
    obtain rfl := hstep
    exact .intro (.keep run.inbox.live (.ok ()) : InboxEffect Unit) .saved rfl (fun _ => rfl)
      (absurd hcritical) (by simp [hcritical]) id fun _ _ _ => .refl _

/-! ## Runs -/

/-- The tasks of a run know their messages, and every payload can be loaded. -/
structure Restorable (run : InboxRun) : Prop where
  queued : run.Queued
  inbox : run.inbox.Restorable
  answer : ∀ id, run.critical = some (.settleQuestion id) ∨
    run.critical = some (.restartQuestion id) → run.inbox.live.HoldsAnswer id

theorem restorable_init : ({} : InboxRun).Restorable where
  queued := queued_init
  inbox := ⟨owned_empty, owned_empty, owned_empty⟩
  answer := by simp

theorem Restorable.carries (h : run.Restorable) (hop : op ≠ .crash)
    (hstep : InboxRun.step limits run op = some next) : run.Carries op next := by
  have hfree (hstep : (if run.critical.isSome then none else run.stepFree limits op) =
      some next) : run.Carries op next := by
    simp only [Option.ite_none_left_eq_some] at hstep
    exact carries_stepFree h.queued (by simpa using hstep.1) hstep.2
  cases op with
  | crash => exact absurd rfl hop
  | resume =>
    cases hstep
    exact carries_resume h.queued h.answer
  | _ => exact hfree hstep

theorem load_eq (file : InboxPayload) :
    ChatMessageInbox.load file =
      file.dump.restore.map fun p => { live := p, committed := p, file := p } := by
  rw [restore_dump]
  unfold ChatMessageInbox.load
  cases file.checkOwnership <;> rfl

theorem Restorable.crash (limits : InboxLimits) (h : run.Restorable) :
    ∃ next, InboxRun.step limits run .crash = some next ∧ next.Restorable ∧
      next.inbox.live = run.inbox.file := by
  have hstep : InboxRun.step limits run .crash =
      some { inbox := { live := run.inbox.file, committed := run.inbox.file,
                        file := run.inbox.file }, submitted := run.submitted } := by
    show run.crash = _
    unfold InboxRun.crash
    rw [load_eq, h.inbox.file.restore]
    rfl
  exact ⟨_, hstep, ⟨(h.queued.step hstep).queued,
    ⟨h.inbox.file, h.inbox.file, h.inbox.file⟩, by simp⟩, rfl⟩

theorem Restorable.step (h : run.Restorable) (hstep : InboxRun.step limits run op = some next) :
    next.Restorable := by
  by_cases hop : op = .crash
  · subst hop
    obtain ⟨next', hstep', hrestorable, -⟩ := h.crash limits
    cases hstep.symm.trans hstep'
    exact hrestorable
  · obtain ⟨effect, outcome, hinbox, -, -, hanswer, howned, -⟩ := h.carries hop hstep
    have hadvances := h.queued.step hstep
    have hperform : (run.inbox.perform effect outcome).1.Restorable :=
      h.inbox.perform (howned h.inbox.live)
    rw [← hinbox] at hperform
    exact ⟨hadvances.queued, ⟨hperform.live, hperform.committed, hperform.file⟩,
      fun id hid => (hanswer id hid).extend hadvances.extended⟩

/-- After a failed save of this payload's inbox: the inbox is closed, no task goes on past
it, and the records are those of the payload. -/
structure Halted (run : InboxRun) (committed file : InboxPayload) : Prop where
  closing : run.inbox.closing = true
  idle : run.critical = none
  committed : run.inbox.committed = committed
  file : run.inbox.file = file
  records : SameRecords run.inbox.committed run.inbox.live

theorem Restorable.halts (h : run.Restorable) (hstep : InboxRun.step limits run op = some next)
    (hfailed : run.inbox.failed = false) (hfails : next.inbox.failed = true) :
    next.inbox.live = run.inbox.committed ∧
      next.Halted run.inbox.committed next.inbox.file := by
  have hop : op ≠ .crash := by
    rintro rfl
    obtain ⟨next', hstep', -⟩ := h.crash limits
    cases hstep.symm.trans hstep'
    unfold InboxRun.step InboxRun.crash at hstep
    rw [load_eq, h.inbox.file.restore] at hstep
    cases hstep
    simp at hfails
  obtain ⟨effect, outcome, hinbox, hclosing, hquiet, -, -, -⟩ := h.carries hop hstep
  have hraised : (run.inbox.perform effect outcome).1.failed = true := by
    rw [← hinbox]
    exact hfails
  obtain ⟨hclosed, hlive, hcommitted⟩ := ChatMessageInbox.perform_fails hfailed hraised
  have hidle : next.critical = none := by
    by_contra hcrit
    have hsaves := hquiet hcrit
    cases effect with
    | keep => exact hsaves
    | write =>
      obtain rfl : outcome = .saved := hsaves
      simp [ChatMessageInbox.perform, ChatMessageInbox.save, hfailed] at hraised
  rw [← hinbox] at hlive hcommitted
  refine ⟨hlive, hclosing hclosed, hidle, hcommitted, rfl, ?_⟩
  rw [show next.inbox.live = next.inbox.committed from hlive.trans hcommitted.symm]
  exact .refl _

theorem Halted.step {committed file : InboxPayload} (h : run.Halted committed file)
    (hr : run.Restorable) (hfenced : run.fenced op = true)
    (hstep : InboxRun.step limits run op = some next) : next.Halted committed file := by
  obtain ⟨hop, hfenced⟩ := fenced_spec hfenced
  obtain ⟨effect, outcome, hinbox, hclosing, hquiet, -, -, hrefuses⟩ := hr.carries hop hstep
  have hrefused := hrefuses h.closing h.idle hfenced
  obtain ⟨hlive, hcommitted, hfile⟩ :=
    ChatMessageInbox.perform_refuses outcome hrefused
  rw [← hinbox] at hlive hcommitted hfile
  have hidle : next.critical = none := by
    by_contra hcrit
    have hsaves := hquiet hcrit
    cases effect with
    | keep => exact hsaves
    | write => exact hrefused
  have hrecords := h.records.trans hlive
  rw [show run.inbox.committed = next.inbox.committed from hcommitted.symm] at hrecords
  exact ⟨hclosing (ChatMessageInbox.closing_perform h.closing), hidle,
    hcommitted.trans h.committed, hfile.trans h.file, hrecords⟩

end InboxRun

private def askedOnce : List InboxOp :=
  [.capture ⟨"q", "tab", "terminal-tab-tab", "run", "turn", "ask", "question", "Go on?",
      .followup, 0, .opened, none, {}⟩ .saved,
    .claimAnswer "q" "user" "User" none ⟨"c1", "yes"⟩ (some ("event", "body")) "a1" 1 .saved,
    .capture ⟨"q2", "tab", "terminal-tab-tab", "run", "turn", "ask2", "question", "And now?",
      .followup, 2, .opened, none, {}⟩ .saved]

private def lostSave : InboxOp :=
  .enqueue "tab" "user" "User" none ⟨"hello", "c2", none⟩ (.ok ⟨"run", none, none⟩) "m1" 3
    .replacedThenRaised

private def refusedLater : List InboxOp :=
  [.enqueue "tab" "user" "User" none ⟨"hello", "c2", none⟩ (.ok ⟨"run", none, none⟩) "m2" 4 .saved,
    .cancel "tab" "a1" "user" 5 .saved,
    .claimAnswer "q2" "user" "User" none ⟨"c3", "no"⟩ none "a2" 6 .saved,
    .approvalResolved "q" 7 .saved]

private def startNextTurn : InboxOp := .turnStarted "terminal-tab-tab" "turn2" .saved

end ClaudeHub
