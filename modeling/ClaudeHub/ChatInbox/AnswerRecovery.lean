import ClaudeHub.ChatInbox.AnswerSteps

/-! # Questions and answers across restarts

The file of a process may lag behind its memory or be ahead of it, but a claimed
question whose answer is finished in any of them has a pump that is about to save
the question. A run in which every such pump gets there leaves a file from which
a restart recovers.
-/

namespace ClaudeHub

open StepSystem InboxPayload

namespace InboxRun

def finished (run : InboxRun) (id : MessageId) : Bool :=
  ((run.inbox.live.messages.get? id).map fun m => m.state.terminal).getD false

def unsettled (run : InboxRun) : Bool :=
  run.answerTasks.rows.any fun task => run.finished task.answerId

/-- An operation may finish this message: it answers no claimed question, or its pump is
still in flight and the file is not replaced behind a save that raises. -/
def MayFinish (run : InboxRun) (m : ChatMessageEnvelope) (outcome : SaveOutcome) : Prop :=
  m.kind = .message ∨
    (∀ q ∈ run.inbox.live.questions.rows, q.answerId = some m.messageId → q.state ≠ .claimed) ∨
    ((run.answerTasks.get? m.messageId).isSome ∧ outcome ≠ .replacedThenRaised)

instance (run : InboxRun) (m : ChatMessageEnvelope) (outcome : SaveOutcome) :
    Decidable (run.MayFinish m outcome) :=
  inferInstanceAs (Decidable (_ ∨ _ ∨ _))

/-- The pump of an answer finishes it: the submission returned, or it raised before its
mark and not because the question is busy. -/
def Finishes (m : ChatMessageEnvelope) (raised : Option SubmitException) : Prop :=
  raised = none ∨ (m.submissionStarted = false ∧
    raised ≠ some (.inboxError ⟨409, "question_busy"⟩))

instance (m : ChatMessageEnvelope) (raised : Option SubmitException) :
    Decidable (Finishes m raised) :=
  inferInstanceAs (Decidable (_ ∨ _))

/-- No answer of a claimed question is finished outside its pump's flight, and the pump of
a finished answer is neither cut off by a crash nor stopped at one of its two saves. -/
def StepSafe (run : InboxRun) : InboxOp → Prop
  | .crash => run.unsettled = false
  | .cancel tabId id principal _ outcome =>
    ∀ m, run.inbox.live.owned tabId id principal = .ok m → run.MayFinish m outcome
  | .completed tabId turnId _ _ outcome =>
    ∀ m, run.inbox.live.turnMessage tabId turnId = some m → run.MayFinish m outcome
  | .answerDone id raised _ outcome =>
    (run.inbox.closing = true ∨ outcome.raises = true → run.finished id = false) ∧
      ∀ m, run.inbox.live.messages.get? id = some m → Finishes m raised →
        outcome ≠ .replacedThenRaised
  | .resume _ outcome =>
    match run.critical with
    | some (.settleQuestion id) => outcome.raises = true → run.finished id = false
    | _ => True
  | _ => True

instance (run : InboxRun) (op : InboxOp) : Decidable (run.StepSafe op) := by
  cases op with
  | resume =>
    unfold StepSafe
    dsimp only
    split <;> infer_instance
  | _ => unfold StepSafe; infer_instance

/-! ## The invariant -/

def Busy (run : InboxRun) (id : MessageId) : Prop :=
  ∃ task ∈ run.answerTasks.rows, task.answerId = id

end InboxRun

def InboxPayload.Finished (p : InboxPayload) (id : MessageId) : Prop :=
  ∃ c, p.core id = some c ∧ c.state.terminal = true

def InboxPayload.IsAnswer (p : InboxPayload) (id : MessageId) : Prop :=
  ∃ c, p.core id = some c ∧ c.owner.kind = .questionAnswer

theorem InboxPayload.Ordinary.moves {p q : InboxPayload} {id : MessageId} (h : p.Ordinary id)
    (hmoves : Moves p q) : q.Ordinary id := by
  obtain ⟨c, hc, hkind⟩ := h
  obtain ⟨c', hc', howner, -⟩ := hmoves id c hc
  exact ⟨c', hc', by rw [howner, hkind]⟩

theorem InboxPayload.IsAnswer.moves {p q : InboxPayload} {id : MessageId} (h : p.IsAnswer id)
    (hmoves : Moves p q) : q.IsAnswer id := by
  obtain ⟨c, hc, hkind⟩ := h
  obtain ⟨c', hc', howner, -⟩ := hmoves id c hc
  exact ⟨c', hc', by rw [howner, hkind]⟩

/-- The answers in memory, in the committed payload and in the file. -/
structure ChatMessageInbox.AnswersKept (inbox : ChatMessageInbox) (busy : MessageId → Prop) :
    Prop where
  live : inbox.live.AnswersOk busy
  committed : inbox.committed.AnswersOk busy
  file : inbox.file.AnswersOk fun id => busy id ∧ inbox.live.Finished id

namespace ChatMessageInbox.AnswersKept

variable {inbox : ChatMessageInbox} {busy busy' : MessageId → Prop}

theorem finished_congr {p q : InboxPayload} (h : p.core = q.core) (id : MessageId) :
    p.Finished id ↔ q.Finished id := by
  unfold InboxPayload.Finished
  rw [h]

theorem restrict_self {p : InboxPayload} (h : p.AnswersOk busy) :
    p.AnswersOk fun id => busy id ∧ p.Finished id :=
  h.restrict fun _ c hid hc hterm => ⟨hid, c, hc, hterm⟩

theorem perform {α : Type} (h : inbox.AnswersKept busy)
    (hagree : inbox.committed.core = inbox.live.core) {effect : InboxEffect α}
    (hkeep : ∀ memory reply, effect = .keep memory reply → memory.core = inbox.live.core)
    {outcome : SaveOutcome} (hmemory : effect.memory.AnswersOk busy)
    (hfile : outcome = .replacedThenRaised →
      effect.memory.AnswersOk fun id => busy id ∧ inbox.live.Finished id) :
    (inbox.perform effect outcome).1.AnswersKept busy := by
  -- After a restore the memory has the cores that it had before the operation.
  have hback {p : InboxPayload}
      (hp : p.AnswersOk fun id => busy id ∧ inbox.live.Finished id) :
      p.AnswersOk fun id => busy id ∧ inbox.committed.Finished id :=
    hp.mono fun id hid => ⟨hid.1, (finished_congr hagree id).mpr hid.2⟩
  cases effect with
  | keep memory reply =>
    have hcore := hkeep memory reply rfl
    have hkept : ({ inbox with live := memory } : ChatMessageInbox).AnswersKept busy :=
      ⟨hmemory, h.committed, h.file.mono fun id hid =>
        ⟨hid.1, (finished_congr hcore id).mpr hid.2⟩⟩
    cases reply with
    | ok => exact hkept
    | error => exact hkept
  | write =>
    cases outcome with
    | saved => exact ⟨hmemory, hmemory, restrict_self hmemory⟩
    | notReplaced => exact ⟨h.committed, h.committed, hback h.file⟩
    | replacedThenRaised => exact ⟨h.committed, h.committed, hback (hfile rfl)⟩

theorem rebusy (h : inbox.AnswersKept busy) (hagree : inbox.committed.core = inbox.live.core)
    (himp : ∀ id, busy id → inbox.live.Finished id → busy' id) : inbox.AnswersKept busy' where
  live := h.live.restrict fun id c hid hc hterm => himp id hid ⟨c, hc, hterm⟩
  committed := h.committed.restrict fun id c hid hc hterm =>
    himp id hid ((finished_congr hagree id).mp ⟨c, hc, hterm⟩)
  file := h.file.mono fun id hid => ⟨himp id hid.1 hid.2, hid.2⟩

end ChatMessageInbox.AnswersKept

namespace InboxRun

structure Safe (run : InboxRun) : Prop where
  inv : run.Inv
  answers : run.inbox.AnswersKept run.Busy
  pumps : ∀ pump ∈ run.pumps.rows, run.inbox.live.Ordinary pump.messageId
  seen : ∀ seen ∈ run.observations, run.inbox.live.Ordinary seen.messageId
  tasks : ∀ task ∈ run.answerTasks.rows, run.inbox.live.IsAnswer task.answerId
  settling : ∀ id, run.critical = some (.settleQuestion id) →
    run.Busy id ∧ run.inbox.live.IsAnswer id
  restarting : ∀ id, run.critical = some (.restartQuestion id) → run.inbox.live.IsAnswer id

theorem safe_init : ({} : InboxRun).Safe where
  inv := inv_init
  answers := by
    have hempty (busy : MessageId → Prop) : ({} : InboxPayload).AnswersOk busy := by
      constructor <;> simp [core]
    exact ⟨hempty _, hempty _, hempty _⟩
  pumps := by simp
  seen := by simp
  tasks := by simp
  settling := by simp
  restarting := by simp

variable {run next : InboxRun} {α : Type} {effect : InboxEffect α} {outcome : SaveOutcome}

theorem finished_iff {id : MessageId} : run.finished id = true ↔ run.inbox.live.Finished id := by
  unfold finished InboxPayload.Finished core
  cases run.inbox.live.messages.get? id <;> simp [ChatMessageEnvelope.core]

theorem unsettled_eq_false : run.unsettled = false ↔
    ∀ id, run.Busy id → ¬ run.inbox.live.Finished id := by
  unfold unsettled Busy
  simp only [List.any_eq_false, finished_iff]
  constructor
  · rintro h id ⟨task, htask, rfl⟩
    exact h task htask
  · exact fun h task htask => h _ ⟨task, htask, rfl⟩

theorem Safe.settled (h : run.Safe) (hsettled : run.unsettled = false) :
    run.inbox.live.AnswersOk (fun _ => False) ∧ run.inbox.file.AnswersOk fun _ => False := by
  have hnone := unsettled_eq_false.1 hsettled
  exact ⟨h.answers.live.restrict fun id c hid hc hterm => hnone id hid ⟨c, hc, hterm⟩,
    h.answers.file.mono fun id hid => hnone id hid.1 hid.2⟩

theorem Leads.safe (hleads : run.Leads next)
    (hanswers : next.inbox.AnswersKept next.Busy)
    (hpumps : ∀ pump ∈ next.pumps.rows, run.inbox.live.Ordinary pump.messageId)
    (hseen : ∀ seen ∈ next.observations, run.inbox.live.Ordinary seen.messageId)
    (htasks : ∀ task ∈ next.answerTasks.rows, run.inbox.live.IsAnswer task.answerId)
    (hsettling : ∀ id, next.critical = some (.settleQuestion id) →
      next.Busy id ∧ run.inbox.live.IsAnswer id)
    (hrestarting : ∀ id, next.critical = some (.restartQuestion id) →
      run.inbox.live.IsAnswer id) : next.Safe where
  inv := hleads.1
  answers := hanswers
  pumps := fun pump hpump => (hpumps pump hpump).moves hleads.2
  seen := fun seen hmem => (hseen seen hmem).moves hleads.2
  tasks := fun task htask => (htasks task htask).moves hleads.2
  settling := fun id hid => ⟨(hsettling id hid).1, (hsettling id hid).2.moves hleads.2⟩
  restarting := fun id hid => (hrestarting id hid).moves hleads.2

theorem keep_core {l : InboxPayload} (hlegal : effect.Legal l) (memory : InboxPayload)
    (reply : Except InboxError α) (h : effect = .keep memory reply) : memory.core = l.core := by
  subst h
  exact hlegal

theorem Safe.inbox (h : run.Safe)
    (hkeep : ∀ memory reply, effect = .keep memory reply → memory.core = run.inbox.live.core)
    (hkeeps : ∀ busy, run.inbox.live.AnswersOk busy → effect.memory.AnswersOk busy) :
    (run.inbox.perform effect outcome).1.AnswersKept run.Busy :=
  h.answers.perform h.inv.inbox.agree hkeep (hkeeps _ h.answers.live) fun _ =>
    hkeeps _ (ChatMessageInbox.AnswersKept.restrict_self h.answers.live)

theorem Safe.perform (h : run.Safe) (hlegal : effect.Legal run.inbox.live)
    (hkeeps : ∀ busy, run.inbox.live.AnswersOk busy → effect.memory.AnswersOk busy) :
    (run.perform effect outcome).Safe :=
  (h.inv.perform hlegal).safe (h.inbox (keep_core hlegal) hkeeps) h.pumps h.seen h.tasks
    h.settling h.restarting

theorem Safe.finish (h : run.Safe) (hlegal : effect.Legal run.inbox.live)
    {m : ChatMessageEnvelope} (hmay : run.MayFinish m outcome)
    (hkeeps : ∀ busy, run.inbox.live.AnswersOk busy →
      (m.kind = .questionAnswer → ∀ q ∈ run.inbox.live.questions.rows, q.state = .claimed →
        q.answerId = some m.messageId → busy m.messageId) → effect.memory.AnswersOk busy) :
    (run.perform effect outcome).Safe := by
  have hlive := h.answers.live
  rcases hmay with hkind | hclaimed | ⟨hbusy, houtcome⟩
  · exact h.perform hlegal fun busy hok => hkeeps busy hok fun hanswer => by
      simp [hkind] at hanswer
  · exact h.perform hlegal fun busy hok => hkeeps busy hok fun _ q hq hstate hid =>
      (hclaimed q hq hid hstate).elim
  · obtain ⟨task, htask⟩ := Option.isSome_iff_exists.mp hbusy
    have hin : run.Busy m.messageId :=
      ⟨task, (Table.get?_eq_some.mp htask).1, Table.key_of_get? htask⟩
    refine (h.inv.perform hlegal).safe ?_ h.pumps h.seen h.tasks h.settling h.restarting
    exact h.answers.perform h.inv.inbox.agree (keep_core hlegal)
      (hkeeps _ hlive fun _ _ _ _ _ => hin) fun heq => (houtcome heq).elim

variable {tabId : TabId}

theorem Safe.pumpTurn (h : run.Safe) {id : MessageId} {turn : PumpTurn}
    (hleads : run.Leads (run.pumpTurn tabId id turn outcome)) (hturn : turn.Legal run.inbox.live)
    (hid : run.inbox.live.Ordinary id)
    (hkeeps : ∀ busy, run.inbox.live.AnswersOk busy → turn.memory.AnswersOk busy) :
    (run.pumpTurn tabId id turn outcome).Safe := by
  have herase (pump : Pump) (hpump : pump ∈ (run.pumps.erase tabId).rows) :
      run.inbox.live.Ordinary pump.messageId :=
    h.pumps pump (Table.mem_erase.mp hpump).1
  cases turn with
  | ended =>
    exact hleads.safe (h.inbox (keep_core hturn) hkeeps) herase h.seen h.tasks h.settling
      h.restarting
  | pinned memory target =>
    have hno {critical : Critical} (hother : ∀ tab other target',
        critical ≠ .dispatchHead tab other target') :
        (run.pumpTurn tabId id (.pinned memory target) outcome).critical ≠ some critical := by
      simp only [InboxRun.pumpTurn]
      split
      · exact fun heq => hother _ _ _ (Option.some.inj heq).symm
      · simp
    exact hleads.safe (h.inbox (by simp) hkeeps) herase h.seen h.tasks
      (fun other hcrit => (hno (by simp) hcrit).elim)
      (fun other hcrit => (hno (by simp) hcrit).elim)
  | submits =>
    refine hleads.safe (h.inbox (keep_core hturn) hkeeps) ?_ h.seen h.tasks h.settling
      h.restarting
    intro pump hpump
    simp only [InboxRun.pumpTurn] at hpump
    split at hpump
    · rcases Table.mem_insert.mp hpump with rfl | ⟨hold, -⟩
      · exact hid
      · exact h.pumps pump hold
    · exact herase pump hpump

theorem Safe.release (h : run.Safe) (tabId : TabId) : (run.release tabId).Safe :=
  { h with
    inv := h.inv.release tabId
    pumps := fun pump hpump => h.pumps pump (Table.mem_erase.mp hpump).1 }

theorem Safe.startPump (h : run.Safe) {prepares : Bool} {resolved : Except InboxError InboxTarget}
    {now : Time} (hcritical : run.critical = none) :
    (run.startPump tabId prepares resolved now outcome).Safe := by
  have hleads : run.Leads (run.startPump tabId prepares resolved now outcome) :=
    h.inv.startPump hcritical
  unfold InboxRun.startPump at hleads ⊢
  split
  · exact h
  next item hhead =>
  obtain ⟨hrow, -, hkind, hunsent⟩ := head_spec hhead
  have hitem := item_core_of_mem hrow
  have hmark := unmarked_of_unsent h.inv.inbox.sent hitem hunsent
  have hid : run.inbox.live.Ordinary item.messageId := ⟨_, hitem, hkind⟩
  simp only [hhead] at hleads
  split
  next hprepares =>
    rw [if_pos hprepares] at hleads
    refine hleads.safe h.answers ?_ h.seen h.tasks h.settling h.restarting
    intro pump hpump
    rcases Table.mem_insert.mp hpump with rfl | ⟨hold, -⟩
    · exact hid
    · exact h.pumps pump hold
  next hprepares =>
    rw [if_neg hprepares] at hleads
    exact h.pumpTurn hleads (admitHead_legal h.inv.inbox.sent hitem hmark) hid
      fun busy hok => admitHead_answers hok hitem hkind

theorem Safe.beforeDelivery (h : run.Safe) {id : MessageId}
    {resolved : Except InboxError InboxTarget} (hcritical : run.critical = none)
    (hstep : run.beforeDelivery id resolved outcome = some next) : next.Safe := by
  have hleads := h.inv.beforeDelivery hcritical hstep
  obtain ⟨called, hcalled, rfl⟩ := Option.map_eq_some_iff.mp hstep
  have hkeep : ∀ memory reply, run.inbox.live.beforeDelivery run.inbox.closing id resolved =
      .keep memory reply → memory.core = run.inbox.live.core := by
    intro memory reply heq
    rcases @beforeDelivery_spec resolved run.inbox.live run.inbox.closing id with
      ⟨memory', e, heffect, hcore⟩ | ⟨memory', c, heffect, -⟩
    · rw [heffect] at heq
      obtain rfl := (InboxEffect.keep.inj heq).1
      exact hcore
    · simp [heffect] at heq
  have hanswers := @Safe.inbox run Unit _ outcome h hkeep
    fun busy hok => beforeDelivery_answers hok
  unfold InboxRun.calledBack at hcalled
  split at hcalled
  next pump hfind =>
    cases hcalled
    refine hleads.safe hanswers ?_ h.seen h.tasks ?_ ?_
    · intro other hother
      rcases Table.mem_insert.mp hother with rfl | ⟨hold, -⟩
      · exact h.pumps pump (List.mem_of_find?_eq_some hfind)
      · exact h.pumps other hold
    · exact fun other hcrit => h.settling other hcrit
    · exact fun other hcrit => h.restarting other hcrit
  next hnone =>
    split at hcalled
    next task hget =>
      split at hcalled
      · simp at hcalled
      cases hcalled
      have hid := Table.key_of_get? hget
      have hmem := (Table.get?_eq_some.mp hget).1
      have hbusy (other : MessageId) (hother : run.Busy other) :
          InboxRun.Busy { run with answerTasks := run.answerTasks.insert ⟨id, true⟩ } other := by
        obtain ⟨task', htask', rfl⟩ := hother
        by_cases heq : task'.answerId = id
        · exact ⟨_, Table.mem_insert.mpr (.inl rfl), heq.symm⟩
        · exact ⟨task', Table.mem_insert.mpr (.inr ⟨htask', heq⟩), rfl⟩
      refine hleads.safe ?_ h.pumps h.seen ?_ ?_ ?_
      · exact hanswers.rebusy hleads.1.inbox.agree fun other hother _ => hbusy other hother
      · intro other hother
        rcases Table.mem_insert.mp hother with rfl | ⟨hold, -⟩
        · exact hid ▸ h.tasks task hmem
        · exact h.tasks other hold
      · exact fun other hcrit => ⟨hbusy other (h.settling other hcrit).1, (h.settling other hcrit).2⟩
      · exact fun other hcrit => h.restarting other hcrit
    · simp at hcalled

variable {item : ChatMessageEnvelope}

theorem Safe.observe (h : run.Safe) {restarting : Bool} {now : Time}
    (hget : run.inbox.live.messages.get? item.messageId = some item) :
    (run.observe item restarting now outcome).Safe := by
  have hleads : run.Leads (run.observe item restarting now outcome) := h.inv.observe hget
  have hitem := core_of_get? hget
  unfold InboxRun.observe at hleads ⊢
  simp only at hleads ⊢
  split
  next hkind =>
    simp only [hkind, if_true] at hleads
    split
    next hrestart =>
      rw [if_pos hrestart] at hleads
      have hanswers := @Safe.inbox run Bool _ outcome h
        (keep_core (@restartAnswer_legal run.inbox.live run.inbox.closing item now
          h.inv.inbox.sent hitem)) fun busy hok => restartAnswer_answers hok hitem
      split
      next hdone =>
        rw [hdone] at hleads
        refine hleads.safe hanswers h.pumps h.seen h.tasks (by simp) ?_
        intro id hcrit
        obtain rfl := Critical.restartQuestion.inj (Option.some.inj hcrit)
        exact ⟨_, hitem, hkind⟩
      next hdone =>
        refine Leads.safe ?_ hanswers h.pumps h.seen h.tasks h.settling h.restarting
        split at hleads
        next hother => exact (hdone hother).elim
        · exact hleads
    · exact h
  next hkind =>
    rw [if_neg hkind] at hleads
    have hkind : item.kind = .message := by
      cases hk : item.kind with
      | message => rfl
      | questionAnswer => exact (hkind hk).elim
    refine hleads.safe ?_ h.pumps ?_ h.tasks h.settling h.restarting
    · exact @Safe.inbox run Unit (.keep (run.inbox.live.observe item
        (item.messageId ∈ run.inbox.restartRecovery) now).1 (.ok ())) .saved h
        (fun memory reply heq => by
          obtain rfl := (InboxEffect.keep.inj heq).1
          exact core_observe hitem _)
        fun busy hok => observe_answers hok hitem hkind _
    · intro seen hseen
      rcases List.mem_append.mp hseen with hold | hnew
      · exact h.seen seen hold
      · rw [observe_messageId (Option.mem_toList.mp hnew)]
        exact ⟨_, hitem, hkind⟩

theorem Safe.erase (h : run.Safe) {id : MessageId} (hleads : run.Leads next)
    (hinbox : next.inbox.AnswersKept run.Busy) (hopen : ¬ next.inbox.live.Finished id)
    (htasks : next.answerTasks = run.answerTasks.erase id) (hpumps : next.pumps = run.pumps)
    (hseen : next.observations = run.observations) (hcritical : next.critical = none) :
    next.Safe := by
  refine hleads.safe ?_ (hpumps ▸ h.pumps) (hseen ▸ h.seen) ?_ (by simp [hcritical])
    (by simp [hcritical])
  · refine hinbox.rebusy hleads.1.inbox.agree fun other hother hfinished => ?_
    obtain ⟨task, htask, rfl⟩ := hother
    refine ⟨task, ?_, rfl⟩
    rw [htasks]
    exact Table.mem_erase.mpr ⟨htask, fun heq => hopen (heq ▸ hfinished)⟩
  · rw [htasks]
    exact fun task htask => h.tasks task (Table.mem_erase.mp htask).1

theorem perform_core_of_raises {inbox : ChatMessageInbox} {submitted : List MessageId}
    (h : inbox.SubmissionsOk submitted) {memory : InboxPayload} {reply : α}
    (hraises : outcome.raises = true) :
    (inbox.perform (.write memory reply) outcome).1.live.core = inbox.live.core := by
  cases outcome with
  | saved => simp [SaveOutcome.raises] at hraises
  | notReplaced => exact h.agree
  | replacedThenRaised => exact h.agree

theorem answerOutcome_finishes {raised : Option SubmitException}
    (h : (answerOutcome item raised).1.terminal = true) : Finishes item raised := by
  unfold answerOutcome at h
  split at h
  · exact .inl rfl
  next exc =>
  split at h
  · simp [ChatMessageState.terminal] at h
  next hbusy =>
  split at h
  · simp [ChatMessageState.terminal] at h
  next hmark =>
  have hmark : item.submissionStarted = false := by simpa using hmark
  exact .inr ⟨hmark, fun heq => hbusy ⟨hmark, Option.some.inj heq⟩⟩

theorem Safe.answerDone (h : run.Safe) {raised : Option SubmitException} {now : Time}
    (hget : run.inbox.live.messages.get? item.messageId = some item)
    (hbusy : run.Busy item.messageId) (hcritical : run.critical = none)
    (hopen : run.inbox.closing = true ∨ outcome.raises = true →
        run.finished item.messageId = false)
    (hfinish : Finishes item raised → outcome ≠ .replacedThenRaised) :
    (run.answerDone item raised now outcome).Safe := by
  have hleads : run.Leads (run.answerDone item raised now outcome) := h.inv.answerDone hget
  have hitem := core_of_get? hget
  have hlegal := @finishAnswer_legal run.inbox.live run.inbox.closing item now h.inv.inbox.sent
    hitem raised
  have hnotDone : run.inbox.closing = true ∨ outcome.raises = true →
      ¬ run.inbox.live.Finished item.messageId := fun hcase hdone => by
    rw [← finished_iff, hopen hcase] at hdone
    exact Bool.noConfusion hdone
  have hmemory (busy : MessageId → Prop) (hok : run.inbox.live.AnswersOk busy)
      (hend : (answerOutcome item raised).1.terminal = true → busy item.messageId) :
      (run.inbox.live.finishAnswer run.inbox.closing item raised now).memory.AnswersOk busy :=
    change_ends hok hitem fun hterm _ _ _ _ => hend hterm
  -- Behind a save that raises the file may only hold an unfinished answer.
  have hkept : (run.inbox.perform (run.inbox.live.finishAnswer run.inbox.closing item raised now)
      outcome).1.AnswersKept run.Busy := by
    refine h.answers.perform h.inv.inbox.agree (keep_core hlegal)
      (hmemory _ h.answers.live fun _ => hbusy) fun houtcome => ?_
    refine hmemory _ (ChatMessageInbox.AnswersKept.restrict_self h.answers.live) fun hterm => ?_
    exact (hfinish (answerOutcome_finishes hterm) houtcome).elim
  unfold InboxRun.answerDone at hleads ⊢
  simp only at hleads ⊢
  split
  next hdone =>
    rw [if_pos hdone] at hleads
    refine hleads.safe hkept h.pumps h.seen h.tasks ?_ (by simp)
    intro id hcrit
    obtain rfl := Critical.settleQuestion.inj (Option.some.inj hcrit)
    obtain ⟨task, htask, hid⟩ := hbusy
    exact ⟨⟨task, htask, hid⟩, hid ▸ h.tasks task htask⟩
  next hdone =>
    rw [if_neg hdone] at hleads
    refine h.erase hleads hkept ?_ rfl rfl rfl hcritical
    -- The task ends early: refused by a closed inbox, a save that raised, or put back.
    cases hclosing : run.inbox.closing with
    | true =>
      have hsame : ((run.inbox.perform (run.inbox.live.finishAnswer true item raised
          now) outcome).1.live.core) = run.inbox.live.core := rfl
      simp only [InboxRun.perform]
      exact fun hfin => hnotDone (.inl hclosing)
        ((ChatMessageInbox.AnswersKept.finished_congr hsame _).mp hfin)
    | false =>
      have hwrite : ∃ memory, run.inbox.live.finishAnswer run.inbox.closing item raised now =
          .write memory () ∧ memory.core item.messageId = some
            { item.core with state := (answerOutcome item raised).1 } := by
        simp only [finishAnswer, change, hclosing]
        exact ⟨_, rfl, core_put_self _ _⟩
      obtain ⟨memory, heffect, hcore⟩ := hwrite
      simp only [InboxRun.perform, ← hclosing, heffect]
      cases hraises : outcome.raises with
      | true =>
        have hsame := @perform_core_of_raises Unit outcome run.inbox run.submitted h.inv.inbox
          memory () hraises
        exact fun hfin => hnotDone (.inr hraises)
          ((ChatMessageInbox.AnswersKept.finished_congr hsame _).mp hfin)
      | false =>
        obtain rfl : outcome = .saved := by
          cases outcome <;> simp_all [SaveOutcome.raises]
        rintro ⟨c, hc, hterm⟩
        cases hcore.symm.trans hc
        refine hdone ⟨by simp [InboxRun.succeeds, heffect, ChatMessageInbox.perform,
          SaveOutcome.raises], fun hwaiting => ?_⟩
        simp [hwaiting, ChatMessageState.terminal] at hterm

theorem Safe.resume (h : run.Safe) {now : Time}
    (hopen : ∀ id, run.critical = some (.settleQuestion id) → outcome.raises = true →
      run.finished id = false) : (run.resume now outcome).Safe := by
  have hleads : run.Leads (run.resume now outcome) := h.inv.resume
  unfold InboxRun.resume at hleads ⊢
  cases hcrit : run.critical with
  | none => exact h
  | some critical =>
    have hrest : ({ run with critical := none } : InboxRun).Safe :=
      { h with
        inv := { h.inv with critical := by simp }
        settling := by simp
        restarting := by simp }
    simp only [hcrit] at hleads
    cases critical with
    | dispatchHead tabId id target =>
      obtain ⟨c, hc, htab, hkind, hmark⟩ := h.inv.critical tabId id target hcrit
      simp only at hleads ⊢
      split
      · exact hrest
      next item hget =>
      simp only [hget] at hleads
      have hcore := core_of_get? hget
      obtain rfl : item.core = c := Option.some.inj (hcore.symm.trans hc)
      exact hrest.pumpTurn hleads
        (dispatchHead_legal h.inv.inbox.sent rfl (item_core hget) hmark)
        ⟨_, hcore, hkind⟩
        fun busy hok => dispatchHead_answers hok (item_core hget) hkind
    | settleQuestion id =>
      obtain ⟨hbusy, c, hc, hkind⟩ := h.settling id hcrit
      obtain ⟨item, hget, rfl⟩ := Option.map_eq_some_iff.mp hc
      have hid := Table.key_of_get? hget
      simp only [hget] at hleads ⊢
      obtain ⟨memory, heffect, hcore, hmemory⟩ :=
        settleQuestion_answers h.answers.live (item_core hget) hkind
      have hall : memory.AnswersOk run.Busy := hmemory.mono fun _ hother => hother.1
      rw [heffect] at hleads ⊢
      cases hraises : outcome.raises with
      | true =>
        have hback := @perform_core_of_raises Unit outcome run.inbox run.submitted
          h.inv.inbox memory () hraises
        refine hrest.erase hleads ?_ ?_ rfl rfl rfl rfl
        · refine h.answers.perform h.inv.inbox.agree (by simp) hall fun _ => ?_
          refine (ChatMessageInbox.AnswersKept.restrict_self hall).mono fun other hother => ?_
          exact ⟨hother.1,
            (ChatMessageInbox.AnswersKept.finished_congr hcore other).mp hother.2⟩
        · intro hfin
          have hdone := finished_iff.2
            ((ChatMessageInbox.AnswersKept.finished_congr hback id).mp hfin)
          simp [hopen id hcrit hraises] at hdone
      | false =>
        obtain rfl : outcome = .saved := by
          cases outcome <;> simp_all [SaveOutcome.raises]
        have hdone : memory.AnswersOk (InboxRun.Busy
            { run with answerTasks := run.answerTasks.erase id }) := by
          refine hmemory.mono fun other hother => ?_
          obtain ⟨⟨task, htask, rfl⟩, hne⟩ := hother
          exact ⟨task, Table.mem_erase.mpr ⟨htask, hid ▸ hne⟩, rfl⟩
        exact hleads.safe
          ⟨hdone, hdone, ChatMessageInbox.AnswersKept.restrict_self hdone⟩ h.pumps h.seen
          (fun task htask => h.tasks task (Table.mem_erase.mp htask).1)
          (by simp [InboxRun.perform]) (by simp [InboxRun.perform])
    | restartQuestion id =>
      obtain ⟨c, hc, hkind⟩ := h.restarting id hcrit
      obtain ⟨item, hget, rfl⟩ := Option.map_eq_some_iff.mp hc
      simp only [hget]
      exact hrest.perform (restartQuestion_legal h.inv.inbox.sent)
        fun busy hok => restartQuestion_answers hok (item_core hget) hkind

theorem Safe.atQuestion (h : run.Safe) {questionRef : QuestionRef}
    {effect : ChatQuestion → InboxEffect Unit}
    (hlegal : ∀ q, (effect q).Legal run.inbox.live)
    (hkeeps : ∀ q ∈ run.inbox.live.questions.rows, ∀ busy, run.inbox.live.AnswersOk busy →
      (effect q).memory.AnswersOk busy) : (run.atQuestion questionRef effect outcome).Safe := by
  unfold InboxRun.atQuestion
  split
  · exact h
  next q hget => exact h.perform (hlegal q) (hkeeps q (Table.get?_eq_some.mp hget).1)

theorem Safe.submitting (h : run.Safe) {id : MessageId} (hid : run.submitting tabId = some id) :
    run.inbox.live.Ordinary id := by
  obtain ⟨calledBack, hget⟩ := submitting_spec hid
  exact h.pumps _ (Table.get?_eq_some.mp hget).1

theorem Safe.cancel (h : run.Safe) {id : MessageId} {principal : String} {now : Time}
    (hmay : ∀ m, run.inbox.live.owned tabId id principal = .ok m →
        run.MayFinish m outcome) :
    (run.perform (run.inbox.live.cancel run.inbox.closing tabId id principal now)
      outcome).Safe := by
  have hlegal : (run.inbox.live.cancel run.inbox.closing tabId id principal now).Legal _ :=
    cancel_legal h.inv.inbox.sent
  cases howned : run.inbox.live.owned tabId id principal with
  | error =>
    refine h.perform hlegal fun busy hok => ?_
    unfold InboxPayload.cancel
    rw [howned]
    split <;> exact hok
  | ok m =>
    refine h.finish hlegal (hmay m howned) fun busy hok hend => ?_
    have hitem := item_core (owned_ok howned)
    unfold InboxPayload.cancel
    rw [howned]
    split
    · exact hok
    · simp only
      split
      · exact hok
      · split
        · exact hok
        · cases hkind : m.kind with
          | message => exact change_message hok hitem hkind
          | questionAnswer => exact change_ends hok hitem fun _ => hend hkind

theorem Safe.completed (h : run.Safe) {turnId : TurnId} {status : String} {now : Time}
    (hmay : ∀ m, run.inbox.live.turnMessage tabId turnId = some m →
        run.MayFinish m outcome) :
    (run.perform (run.inbox.live.completed run.inbox.closing tabId turnId status now)
      outcome).Safe := by
  have hlegal : (run.inbox.live.completed run.inbox.closing tabId turnId status now).Legal _ :=
    completed_legal h.inv.inbox.sent
  cases hturn : run.inbox.live.turnMessage tabId turnId with
  | none =>
    refine h.perform hlegal fun busy hok => ?_
    unfold InboxPayload.completed
    rw [hturn]
    split <;> exact hok
  | some m =>
    refine h.finish hlegal (hmay m hturn) fun busy hok hend => ?_
    have hitem := item_core_of_mem (List.mem_of_find?_eq_some hturn)
    unfold InboxPayload.completed
    rw [hturn]
    split
    · exact hok
    · cases hkind : m.kind with
      | message => exact change_message hok hitem hkind
      | questionAnswer => exact change_ends hok hitem fun _ => hend hkind

theorem Safe.pumpAnswer (h : run.Safe) {id : MessageId} {now : Time}
    (hget : run.inbox.live.messages.get? id = some item) (hkind : item.kind = .questionAnswer)
    (hlegal : (run.inbox.live.change run.inbox.closing item .dispatching none now).Legal
        run.inbox.live)
    (hnext : next = { run.perform (run.inbox.live.change run.inbox.closing item .dispatching none
        now) outcome with
        answerTasks
    :=
        if run.succeeds (run.inbox.live.change run.inbox.closing item .dispatching none now)
          outcome then run.answerTasks.insert ⟨id, false⟩ else run.answerTasks })
    (hcritical : run.critical = none) (hleads : run.Leads next) : next.Safe := by
  have hitem := item_core hget
  have hanswers := @Safe.inbox run Unit _ outcome h (keep_core hlegal)
    fun busy hok => change_unfinished hok hitem rfl
  have hbusy (other : MessageId) (hother : run.Busy other) : next.Busy other := by
    obtain ⟨task, htask, rfl⟩ := hother
    subst hnext
    simp only [InboxRun.Busy]
    split
    · by_cases heq : task.answerId = id
      · exact ⟨_, Table.mem_insert.mpr (.inl rfl), heq.symm⟩
      · exact ⟨task, Table.mem_insert.mpr (.inr ⟨htask, heq⟩), rfl⟩
    · exact ⟨task, htask, rfl⟩
  have hinbox : next.inbox = (run.perform (run.inbox.live.change run.inbox.closing item
      .dispatching none now) outcome).inbox := by rw [hnext]
  have hnone : next.critical = none := by rw [hnext]; exact hcritical
  refine hleads.safe ?_ (by rw [hnext]; exact h.pumps) (by rw [hnext]; exact h.seen) ?_
    (by simp [hnone]) (by simp [hnone])
  · have hagree := hleads.1.inbox.agree
    rw [hinbox] at hagree ⊢
    exact hanswers.rebusy hagree fun other hother _ => hbusy other hother
  · intro task htask
    subst hnext
    simp only at htask
    split at htask
    · rcases Table.mem_insert.mp htask with rfl | ⟨hold, -⟩
      · exact ⟨_, core_of_get? hget, hkind⟩
      · exact h.tasks task hold
    · exact h.tasks task htask

variable {limits : InboxLimits}

theorem Safe.stepFree (h : run.Safe) {op : InboxOp} (hsafe : run.StepSafe op)
    (hcritical : run.critical = none) (hstep : run.stepFree limits op = some next) : next.Safe := by
  have hleads := h.inv.stepFree hcritical hstep
  have hsent := h.inv.inbox.sent
  cases op with
    simp only [InboxRun.stepFree, Option.ite_none_left_eq_some, Option.map_eq_some_iff, not_or,
      Option.some.injEq, reduceCtorEq] at hstep
  | enqueue tabId principal actor email payload resolved messageId =>
    obtain ⟨⟨-, hnew⟩, rfl⟩ := hstep
    have hnew : run.inbox.live.messages.get? messageId = none := by simpa using hnew
    exact h.perform (enqueue_legal hsent hnew) fun busy hok => enqueue_answers hok hnew
  | admitScheduled =>
    obtain rfl := hstep
    exact h.perform (admitScheduled_legal hsent) fun busy hok => admitScheduled_answers hok
  | cancelScheduled =>
    obtain rfl := hstep
    exact h.perform (cancelScheduled_legal hsent) fun busy hok => cancelScheduled_answers hok
  | cancel =>
    obtain ⟨-, rfl⟩ := hstep
    exact h.cancel hsafe
  | completed =>
    obtain ⟨-, rfl⟩ := hstep
    exact h.completed hsafe
  | pump =>
    obtain ⟨-, rfl⟩ := hstep
    exact h.startPump hcritical
  | prepared tabId =>
    split at hstep
    next tab messageId hpump =>
      obtain rfl : tab = tabId := Table.key_of_get? hpump
      have hfree := h.inv.pumps _ (Table.get?_eq_some.mp hpump).1 (by simp)
      split at hstep
      · cases hstep
        exact h.release tab
      next item hget =>
        cases hstep
        have hkind := hfree.ordinary.kind hget
        obtain ⟨c, hc, -, -, hmark⟩ := hfree
        obtain rfl : item.core = c := Option.some.inj ((core_of_get? hget).symm.trans hc)
        exact (h.release tab).pumpTurn hleads (preparedHead_legal hsent (item_core hget) hmark)
          ⟨_, hc, hkind⟩ fun busy hok => preparedHead_answers hok (item_core hget) hkind
    · simp at hstep
  | prepareFails =>
    split at hstep
    next tab messageId hpump =>
      have hid := h.pumps _ (Table.get?_eq_some.mp hpump).1
      split at hstep
      · simp at hstep
      next item hget =>
        cases hstep
        exact h.perform (change_legal_of_sent hsent rfl (item_core hget) rfl (by decide))
          fun busy hok => change_message hok (item_core hget) (hid.kind hget)
    · simp at hstep
  | beforeDelivery => exact h.beforeDelivery hcritical hstep
  | submitReturned tabId =>
    obtain ⟨-, id, -, rfl⟩ := hstep
    exact (h.release tabId).perform (submitReturned_legal hsent)
      fun busy hok => submitReturned_answers hok
  | submitRaised tabId =>
    obtain ⟨-, id, hid, rfl⟩ := hstep
    exact (h.release tabId).perform (submitRaised_redelivers.legal hsent)
      fun busy hok => submitRaised_redelivers.answers hok ((h.submitting hid).finishes hok)
  | reconcile =>
    obtain rfl := hstep
    exact hleads.safe { h.answers with } h.pumps h.seen h.tasks h.settling h.restarting
  | observe =>
    obtain ⟨item, hget, rfl⟩ := hstep
    have hid := Table.key_of_get? hget
    exact h.observe (by rw [hid]; exact hget)
  | resolve seen =>
    obtain ⟨⟨-, hmem⟩, rfl⟩ := hstep
    refine hleads.safe ?_ h.pumps ?_ h.tasks h.settling h.restarting
    · exact h.inbox (keep_core (resolve_redelivers.legal hsent))
        fun busy hok =>
          resolve_redelivers.answers hok ((h.seen seen (not_not.mp hmem)).finishes hok)
    · exact fun other hother => h.seen other (List.mem_of_mem_erase hother)
  | prune =>
    obtain ⟨-, rfl⟩ := hstep
    exact h.perform (prune_legal hsent) fun busy hok => prune_answers hok
  | capture =>
    obtain ⟨⟨-, hnew⟩, rfl⟩ := hstep
    exact h.perform (capture_legal hsent)
      fun busy hok => capture_answers hok (by simpa using hnew)
  | claimAnswer questionRef principal actor email payload callback answerId =>
    obtain ⟨⟨-, hnew⟩, rfl⟩ := hstep
    have hnew : run.inbox.live.messages.get? answerId = none := by simpa using hnew
    exact h.perform (claimAnswer_legal hsent hnew) fun busy hok => claimAnswer_answers hok hnew
  | pumpAnswer =>
    split at hstep
    · simp at hstep
    next item hget =>
    simp only [Option.ite_none_left_eq_some, not_or, Option.some.injEq] at hstep
    obtain ⟨⟨hkind, -, hunsent, -⟩, hnext⟩ := hstep
    have hmark := unmarked_of_unsent hsent (item_core hget) (by simpa using hunsent)
    exact h.pumpAnswer hget (by simpa using hkind)
      (change_legal_of_unmarked hsent rfl (item_core hget) hmark) hnext.symm hcritical hleads
  | answerDone =>
    split at hstep
    next task item htask hget =>
      cases hstep
      obtain rfl := Table.key_of_get? hget
      exact h.answerDone hget ⟨task, (Table.get?_eq_some.mp htask).1, Table.key_of_get? htask⟩
        hcritical hsafe.1 (hsafe.2 item hget)
    · simp at hstep
  | turnStarted =>
    obtain rfl := hstep
    exact h.perform (Legal.of_core_eq hsent rfl) fun busy hok => staleQuestions_answers hok _
  | turnCompleted =>
    obtain rfl := hstep
    exact h.perform (Legal.of_core_eq hsent rfl) fun busy hok => staleQuestions_answers hok _
  | approvalResolved =>
    obtain rfl := hstep
    exact h.atQuestion (fun q => approvalResolved_legal hsent)
      fun q hq busy hok => approvalResolved_answers hok hq
  | handoffPersisted =>
    obtain rfl := hstep
    exact h.atQuestion (fun q => handoffPersisted_legal hsent)
      fun q hq busy hok => handoffPersisted_answers hok hq
  | questionGone =>
    obtain rfl := hstep
    exact h.atQuestion (fun q => questionGone_legal hsent)
      fun q hq busy hok => questionGone_answers hok hq
  | rememberNonce =>
    obtain ⟨-, rfl⟩ := hstep
    exact h.perform (rememberNonce_legal hsent) fun busy hok => rememberNonce_answers hok
  | mirrorQuestion questionRef card =>
    obtain rfl := hstep
    exact h.atQuestion (fun q => Legal.of_core_eq hsent rfl)
      fun q hq busy hok => hok.put_card hq card
  | flush =>
    obtain rfl := hstep
    exact h.perform (Legal.of_core_eq hsent rfl) fun busy hok => hok
  | stop =>
    obtain rfl := hstep
    exact hleads.safe { h.answers with } h.pumps h.seen h.tasks h.settling h.restarting

theorem Safe.crash (h : run.Safe) (hsettled : run.unsettled = false) :
    ∃ next, run.crash = some next ∧ next.Safe ∧ next.critical = none ∧
      next.answerTasks = Table.empty ∧ next.inbox.live = run.inbox.file := by
  have hfile := (h.settled hsettled).2
  have hload : ChatMessageInbox.load run.inbox.file =
      .ok { live := run.inbox.file, committed := run.inbox.file, file := run.inbox.file } := by
    simp [ChatMessageInbox.load, hfile.checkOwnership, Except.map]
  have hcrash : run.crash = some
      { inbox :=
          { live := run.inbox.file, committed := run.inbox.file, file := run.inbox.file }
        submitted := run.submitted } := by
    simp [InboxRun.crash, hload]
  have hall (busy : MessageId → Prop) : run.inbox.file.AnswersOk busy :=
    hfile.mono fun _ hfalse => hfalse.elim
  exact ⟨_, hcrash, (h.inv.crash hcrash).safe ⟨hall _, hall _, hall _⟩ (by simp) (by simp)
    (by simp) (by simp) (by simp), rfl, rfl, rfl⟩

theorem Safe.step (h : run.Safe) {op : InboxOp} (hsafe : run.StepSafe op)
    (hstep : InboxRun.step limits run op = some next) : next.Safe := by
  have hfree (hstep : (if run.critical.isSome then none else run.stepFree limits op) =
      some next) : next.Safe := by
    simp only [Option.ite_none_left_eq_some] at hstep
    exact h.stepFree hsafe (by simpa using hstep.1) hstep.2
  cases op with
  | crash =>
    obtain ⟨after, hcrash, hnext, -⟩ := h.crash hsafe
    cases hcrash.symm.trans hstep
    exact hnext
  | resume =>
    cases hstep
    refine h.resume fun id hcrit hraises => ?_
    simp only [StepSafe, hcrit] at hsafe
    exact hsafe hraises
  | _ => exact hfree hstep

/-! ## Restarts -/

/-- A crash and the restart pass over the messages of the file, each with the save of its
question that may follow. The evidence for ordinary messages is read later. -/
def recoveryOps (file : InboxPayload) (now : Time) : List InboxOp :=
  .crash :: .reconcile true :: file.messages.rows.flatMap fun m =>
    [.observe m.messageId true now .saved, .resume now .saved]

/-- A process in its restart pass. -/
structure Recovering (run : InboxRun) : Prop where
  safe : run.Safe
  critical : run.critical = none
  tasks : run.answerTasks = Table.empty

theorem observe_spec (run : InboxRun) (item : ChatMessageEnvelope) (restarting : Bool)
    (now : Time) (outcome : SaveOutcome) (hcritical : run.critical = none) :
    (run.observe item restarting now outcome).answerTasks = run.answerTasks ∧
      ((run.observe item restarting now outcome).critical = none ∨
        ∃ id, (run.observe item restarting now outcome).critical = some (.restartQuestion id)) := by
  unfold InboxRun.observe
  simp only
  split
  · split
    · split
      · exact ⟨rfl, .inr ⟨_, rfl⟩⟩
      · exact ⟨rfl, .inl hcritical⟩
    · exact ⟨rfl, .inl hcritical⟩
  · exact ⟨rfl, .inl hcritical⟩

theorem resume_spec (run : InboxRun) (now : Time) (outcome : SaveOutcome)
    (hcritical : run.critical = none ∨ ∃ id, run.critical = some (.restartQuestion id)) :
    (run.resume now outcome).critical = none ∧
      (run.resume now outcome).answerTasks = run.answerTasks := by
  unfold InboxRun.resume
  rcases hcritical with hnone | ⟨id, hid⟩
  · simp [hnone]
  · simp only [hid]
    split <;> exact ⟨rfl, rfl⟩

theorem Recovering.message (h : run.Recovering) {id : MessageId}
    (hid : (run.inbox.live.core id).isSome) (now : Time) :
    ∃ next, exec (InboxRun.step limits) run [.observe id true now .saved, .resume now .saved] =
        some next ∧ next.Recovering ∧ Moves run.inbox.live next.inbox.live := by
  obtain ⟨c, hc⟩ := Option.isSome_iff_exists.mp hid
  obtain ⟨item, hget, -⟩ := Option.map_eq_some_iff.mp hc
  have hobserve : InboxRun.step limits run (.observe id true now .saved) =
      some (run.observe item true now .saved) := by
    simp [InboxRun.step, InboxRun.stepFree, h.critical, hget]
  obtain ⟨htasks, hcritical⟩ := observe_spec run item true now .saved h.critical
  have hmid := h.safe.step (show run.StepSafe (.observe id true now .saved) from trivial) hobserve
  have hresume : InboxRun.step limits (run.observe item true now .saved) (.resume now .saved) =
      some ((run.observe item true now .saved).resume now .saved) := rfl
  have hsaved : (run.observe item true now .saved).StepSafe (.resume now .saved) := by
    simp only [StepSafe]
    split
    · exact fun hraises => Bool.noConfusion hraises
    · trivial
  have hnext := hmid.step hsaved hresume
  obtain ⟨hnone, htasks'⟩ := resume_spec _ now .saved hcritical
  refine ⟨_, by rw [exec_cons, hobserve]; rfl, ⟨hnext, hnone, ?_⟩, ?_⟩
  · rw [htasks', htasks, h.tasks]
  · exact (h.safe.inv.step hobserve).2.trans (hmid.inv.step hresume).2

theorem Recovering.messages (h : run.Recovering) (now : Time) (rows : List ChatMessageEnvelope)
    (hrows : ∀ m ∈ rows, (run.inbox.live.core m.messageId).isSome) :
    ∃ next, exec (InboxRun.step limits) run (rows.flatMap fun m =>
        [.observe m.messageId true now .saved, .resume now .saved]) = some next ∧
      next.Recovering ∧ Moves run.inbox.live next.inbox.live := by
  induction rows generalizing run with
  | nil => exact ⟨run, rfl, h, .of_core_eq rfl⟩
  | cons m rows ih =>
    obtain ⟨mid, hmid, hrecovering, hmoves⟩ := h.message (hrows m (by simp)) now
    obtain ⟨next, hnext, hdone, hrest⟩ := ih hrecovering fun other hother => by
      obtain ⟨c, hc⟩ := Option.isSome_iff_exists.mp
        (hrows other (List.mem_cons_of_mem _ hother))
      obtain ⟨c', hc', -⟩ := hmoves _ c hc
      exact Option.isSome_iff_exists.mpr ⟨c', hc'⟩
    refine ⟨next, ?_, hdone, hmoves.trans hrest⟩
    rw [List.flatMap_cons]
    exact ((Run.of_exec hmid).append (Run.of_exec hnext)).exec_eq

theorem Safe.recovers (h : run.Safe) (hsettled : run.unsettled = false) (now : Time) :
    ∃ next, exec (InboxRun.step limits) run (recoveryOps run.inbox.file now) = some next ∧
      next.Recovering ∧ Moves run.inbox.live next.inbox.live := by
  obtain ⟨loaded, hcrash, hloaded, hcritical, htasks, hlive⟩ := h.crash hsettled
  have hstart : InboxRun.step limits loaded (.reconcile true) = some { loaded with
      inbox := { loaded.inbox with
        restartRecovery := loaded.inbox.restartRecovery.filter
          (· ∈ loaded.inbox.live.scheduledInflight) ++ loaded.inbox.live.scheduledInflight } } := by
    simp [InboxRun.step, InboxRun.stepFree, hcritical]
  have hready := hloaded.step (show loaded.StepSafe (.reconcile true) from trivial) hstart
  obtain ⟨next, hnext, hdone, hmoves⟩ := @Recovering.messages _ limits
    ⟨hready, hcritical, htasks⟩ now run.inbox.file.messages.rows fun m hm => by
      rw [show _ = run.inbox.file from hlive, item_core_of_mem hm]
      rfl
  refine ⟨next, ?_, hdone, (h.inv.crash hcrash).2.trans ((hloaded.inv.step hstart).2.trans hmoves)⟩
  rw [recoveryOps, exec_cons, show InboxRun.step limits run .crash = some loaded from hcrash]
  simp only [Option.bind_some]
  rw [exec_cons, hstart]
  exact hnext

theorem oneAnswer_moves {p q : InboxPayload} {busy : MessageId → Prop} (hmoves : Moves p q)
    (hq : q.AnswersOk busy) {m m' : ChatMessageEnvelope} (hm : m ∈ p.messages.rows)
    (hm' : m' ∈ q.messages.rows) (hkind : m.kind = .questionAnswer)
    (hkind' : m'.kind = .questionAnswer) (href : m.questionRef = m'.questionRef) :
    m'.messageId = m.messageId := by
  obtain ⟨c, hc, howner, -⟩ := hmoves _ _ (item_core_of_mem hm)
  obtain ⟨x, hx, hcore⟩ := Option.map_eq_some_iff.mp hc
  have hx' := Table.get?_eq_some.mp hx
  subst hcore
  have hxkind : x.kind = .questionAnswer :=
    (congrArg MessageOwner.kind howner).trans hkind
  have hxref : x.questionRef = m.questionRef := congrArg MessageOwner.questionRef howner
  rw [← hx'.2, hq.oneAnswer x hx'.1 m' hm' hxkind hkind' (hxref.trans href)]

end InboxRun

private def askedAndAnswered : List InboxOp :=
  [.capture ⟨"q1", "tab", "terminal-tab-tab", "run", "turn", "call", "id", "Go on?", .native, 0,
      .opened, none, {}⟩ .saved,
    .claimAnswer "q1" "user" "User" none ⟨"answer-call", "yes"⟩ none "a1" 1 .saved]

private def answerMarked : List InboxOp :=
  [.pumpAnswer "a1" 2 .saved, .beforeDelivery "a1" (.error ⟨404, ""⟩) .saved]

end ClaudeHub
