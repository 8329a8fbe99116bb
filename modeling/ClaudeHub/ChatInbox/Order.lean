import ClaudeHub.ChatInbox.Entries

/-! # Submissions in order

The pump of a tab submits a message only when no ordinary message of the tab with a
lower sequence holds the queue. Between the choice of a scheduled message and its
submission the inbox is locked, and what may still happen settles messages or adds
later ones.
-/

namespace ClaudeHub

open StepSystem InboxPayload MessageEntry

/-- The inbox over its file: what it committed agrees with its memory, and the file is the
same or ahead. -/
structure ChatMessageInbox.OrderOk (inbox : ChatMessageInbox) : Prop where
  agree : inbox.committed.entry = inbox.live.entry
  ordered : inbox.live.Ordered
  fileOrdered : inbox.file.Ordered
  ahead : Extends (fun _ => True) inbox.live inbox.file

theorem ChatMessageInbox.OrderOk.perform {α : Type} {inbox : ChatMessageInbox}
    (h : inbox.OrderOk) {exempt : MessageId → Prop} {effect : InboxEffect α}
    (hgrows : effect.Grows exempt inbox.live) (outcome : SaveOutcome) :
    (inbox.perform effect outcome).1.OrderOk ∧
      Extends exempt inbox.live (inbox.perform effect outcome).1.live := by
  cases effect with
  | keep memory reply =>
    have hentry : memory.entry = inbox.live.entry := hgrows
    have hok : ({ inbox with live := memory } : ChatMessageInbox).OrderOk :=
      ⟨h.agree.trans hentry.symm, h.ordered.of_entry_eq hentry, h.fileOrdered,
        (Extends.of_entry_eq hentry.symm).trans h.ahead⟩
    cases reply with
    | ok => exact ⟨hok, .of_entry_eq hentry⟩
    | error => exact ⟨hok, .of_entry_eq hentry⟩
  | write memory =>
    have hgrows : InboxPayload.Grows exempt inbox.live memory := hgrows
    have hback : inbox.committed.Ordered := h.ordered.of_entry_eq h.agree
    have hahead : Extends (fun _ => True) inbox.committed inbox.live :=
      .of_entry_eq h.agree.symm
    cases outcome with
    | saved => exact ⟨⟨rfl, hgrows.ordered, hgrows.ordered, .of_entry_eq rfl⟩, hgrows.grown⟩
    | notReplaced =>
      exact ⟨⟨rfl, hback, h.fileOrdered, hahead.trans h.ahead⟩, .of_entry_eq h.agree⟩
    | replacedThenRaised =>
      refine ⟨⟨rfl, hback, hgrows.ordered, ?_⟩, .of_entry_eq h.agree⟩
      exact hahead.trans (hgrows.grown.mono fun _ _ => trivial)

namespace InboxPayload

/-- No ordinary message of the tab with a lower sequence holds the queue. -/
def First (p : InboxPayload) (tabId : TabId) (id : MessageId) : Prop :=
  ∃ e, p.entry id = some e ∧ e.owner.tabId = tabId ∧ e.owner.kind = .message ∧
    ∀ id' e', p.entry id' = some e' → e'.owner.tabId = tabId → e'.owner.kind = .message →
      e'.sequence < e.sequence → e'.Settled

def HoldsAnswer (p : InboxPayload) (id : MessageId) : Prop :=
  ∃ e, p.entry id = some e ∧ e.owner.kind = .questionAnswer

variable {p q : InboxPayload} {tabId : TabId} {id : MessageId}

theorem First.extend (h : p.First tabId id) (hext : Extends (fun _ => False) p q) :
    q.First tabId id := by
  obtain ⟨e, he, htab, hkind, hbefore⟩ := h
  obtain ⟨e', he', hrewrites, -⟩ := hext.kept id e he
  refine ⟨e', he', by rw [hrewrites.owner, htab], by rw [hrewrites.owner, hkind], ?_⟩
  intro other d hd hdtab hdkind hlt
  rw [hrewrites.sequence] at hlt
  cases hold : p.entry other with
  | none => exact absurd (hext.later other d hd hold id e he) (by omega)
  | some c =>
    obtain ⟨c', hc', hrew, hsettled⟩ := hext.kept other c hold
    obtain rfl : c' = d := Option.some.inj (hc'.symm.trans hd)
    rw [hrew.owner] at hdtab hdkind
    rw [hrew.sequence] at hlt
    exact hsettled not_false (hbefore other c hold hdtab hdkind hlt)

theorem HoldsAnswer.extend {exempt : MessageId → Prop} (h : p.HoldsAnswer id)
    (hext : Extends exempt p q) : q.HoldsAnswer id := by
  obtain ⟨e, he, hkind⟩ := h
  obtain ⟨e', he', hrewrites, -⟩ := hext.kept id e he
  exact ⟨e', he', by rw [hrewrites.owner, hkind]⟩

theorem head_first {item : ChatMessageEnvelope} (h : p.head tabId = some item) :
    p.First tabId item.messageId ∧ ¬ item.entry.Settled := by
  obtain ⟨hrow, htab, hkind, hunsent⟩ := head_spec h
  refine ⟨⟨item.entry, entry_of_mem hrow, htab, hkind, ?_⟩,
    not_settled_of_blocks (blocksQueue_of_unsent hunsent)⟩
  intro id e he hetab hekind hlt
  obtain ⟨other, hmem, -, rfl⟩ := exists_of_entry he
  refine other.settled_entry.mpr ⟨hekind, ?_⟩
  -- A message that held the queue would have been chosen before.
  by_contra hblocks
  unfold head at h
  split at h
  · simp at h
  have hactive : other ∈ p.active tabId := by
    refine List.mem_filter.mpr ⟨hmem, ?_⟩
    have hetab : other.tabId = tabId := hetab
    have hekind : other.kind = .message := hekind
    simp [hetab, hekind, Bool.eq_true_of_not_eq_false hblocks]
  have hle := List.le_of_mem_argmin hactive h
  have hlt : other.sequence < item.sequence := hlt
  omega

end InboxPayload

/-! ## Steps -/

def PumpTurn.Works (id : MessageId) : PumpTurn → Prop
  | .ended _ => True
  | .pinned memory _ => ∃ e, memory.entry id = some e ∧ ¬ e.Settled
  | .submits (.write memory _) => ∃ e, memory.entry id = some e ∧ e.state = .dispatching
  | .submits (.keep _ (.error _)) => True
  | .submits (.keep _ (.ok _)) => False

namespace InboxPayload

variable {l p : InboxPayload} {closing : Bool} {item : ChatMessageEnvelope}
  {reason : Option String} {now : Time}

theorem dispatchHead_works {target : EpochTarget} :
    (p.dispatchHead closing item target now).Works item.messageId := by
  unfold dispatchHead
  split
  · trivial
  · split
    · trivial
    · simp only [change]
      split
      · trivial
      · exact ⟨_, by rw [entry_putMessage, if_pos rfl], rfl⟩

theorem admitHead_works (hopen : ¬ item.entry.Settled)
    {resolved : Except InboxError InboxTarget} :
    (l.admitHead closing item resolved now).Works item.messageId := by
  unfold admitHead
  split
  · trivial
  · simp only
    split
    · refine ⟨_, (entry_putMessage ..).trans (if_pos rfl), ?_⟩
      exact hopen
    · exact dispatchHead_works

theorem preparedHead_works {resolved : Except InboxError InboxTarget} :
    (l.preparedHead closing item reason resolved now).Works item.messageId := by
  unfold preparedHead
  split
  · trivial
  next hblocks =>
    split
    · trivial
    · exact admitHead_works (not_settled_of_blocks (by simpa using hblocks))

end InboxPayload

namespace InboxRun

def started (run next : InboxRun) : List Pump :=
  next.pumps.rows.filter fun pump => pump.phase = .submitting false && pump ∉ run.pumps.rows

theorem mem_started {run next : InboxRun} {pump : Pump} :
    pump ∈ started run next ↔
      pump ∈ next.pumps.rows ∧ pump.phase = .submitting false ∧ pump ∉ run.pumps.rows := by
  simp [started]

def TabFree (run : InboxRun) (tabId : TabId) : Prop :=
  ∀ pump ∈ run.pumps.rows, pump.tabId = tabId → pump.phase = .preparing

structure Queued (run : InboxRun) : Prop where
  inbox : run.inbox.OrderOk
  preparing : ∀ pump ∈ run.pumps.rows, pump.phase = .preparing →
    run.inbox.live.First pump.tabId pump.messageId
  answers : ∀ task ∈ run.answerTasks.rows, run.inbox.live.HoldsAnswer task.answerId
  critical : ∀ tabId id target, run.critical = some (.dispatchHead tabId id target) →
    run.inbox.live.First tabId id ∧ run.TabFree tabId ∧
      ∃ e, run.inbox.live.entry id = some e ∧ ¬ e.Settled

def StartsFirst (run next : InboxRun) (pump : Pump) : Prop :=
  next.inbox.live.First pump.tabId pump.messageId ∧ run.TabFree pump.tabId ∧
    ∃ e, next.inbox.live.entry pump.messageId = some e ∧ e.state = .dispatching

/-- A step keeps the invariant and the messages, and submits in order. -/
structure Advances (run next : InboxRun) : Prop where
  queued : next.Queued
  extended : Extends (fun _ => True) run.inbox.live next.inbox.live
  first : ∀ pump ∈ started run next, StartsFirst run next pump

theorem ordered_empty : ({} : InboxPayload).Ordered := by
  constructor <;> simp [entry]

theorem queued_init : ({} : InboxRun).Queued where
  inbox := ⟨rfl, ordered_empty, ordered_empty, .of_entry_eq rfl⟩
  preparing := by simp
  answers := by simp
  critical := by simp

variable {run next : InboxRun} {α : Type} {effect : InboxEffect α} {outcome : SaveOutcome}
  {exempt : MessageId → Prop}

theorem no_start (hold : ∀ pump ∈ next.pumps.rows, pump.phase = .submitting false →
    pump ∈ run.pumps.rows) : ∀ pump ∈ started run next, StartsFirst run next pump := by
  intro pump hpump
  obtain ⟨hmem, hphase, hnew⟩ := mem_started.1 hpump
  exact absurd (hold pump hmem hphase) hnew

theorem Queued.advances (h : run.Queued) (exempt : MessageId → Prop)
    (hgrows : effect.Grows exempt run.inbox.live) (outcome : SaveOutcome)
    (hinbox : next.inbox = (run.inbox.perform effect outcome).1)
    (hold : ∀ pump ∈ next.pumps.rows, pump.phase = .submitting false → pump ∈ run.pumps.rows)
    (hpreparing : ∀ pump ∈ next.pumps.rows, pump.phase = .preparing →
      (∀ id, ¬ exempt id) ∧ run.inbox.live.First pump.tabId pump.messageId)
    (hanswers : ∀ task ∈ next.answerTasks.rows, run.inbox.live.HoldsAnswer task.answerId)
    (hcritical : ∀ tabId id target, next.critical ≠ some (.dispatchHead tabId id target)) :
    run.Advances next := by
  obtain ⟨hok, hext⟩ := h.inbox.perform hgrows outcome
  rw [← hinbox] at hok hext
  refine ⟨⟨hok, ?_, ?_, ?_⟩, hext.mono fun _ _ => trivial, no_start hold⟩
  · intro pump hpump hphase
    obtain ⟨hnone, hfirst⟩ := hpreparing pump hpump hphase
    exact hfirst.extend (hext.mono hnone)
  · intro task htask
    exact (hanswers task htask).extend hext
  · intro tabId id target hcrit
    exact absurd hcrit (hcritical tabId id target)

theorem Queued.perform (h : run.Queued) (hcritical : run.critical = none)
    (hgrows : effect.Grows (fun _ => False) run.inbox.live) :
    run.Advances (run.perform effect outcome) :=
  h.advances _ hgrows outcome rfl (fun _ hpump _ => hpump)
    (fun pump hpump hphase => ⟨fun _ => not_false, h.preparing pump hpump hphase⟩) h.answers
    (by simp [InboxRun.perform, hcritical])

theorem Queued.perform_unlocked (h : run.Queued) (hcritical : run.critical = none)
    (hlocked : ¬ run.locked = true) (hgrows : effect.Grows exempt run.inbox.live) :
    run.Advances (run.perform effect outcome) := by
  refine h.advances _ hgrows outcome rfl (fun _ hpump _ => hpump) ?_ h.answers
    (by simp [InboxRun.perform, hcritical])
  intro pump hpump hphase
  refine absurd ?_ hlocked
  exact List.any_eq_true.mpr ⟨pump, hpump, by simpa using hphase⟩

theorem Queued.refl (h : run.Queued) : run.Advances run :=
  ⟨h, .of_entry_eq rfl, no_start fun _ hpump _ => hpump⟩

variable {tabId : TabId}

theorem mem_of_mem_erase {pump : Pump} (hpump : pump ∈ (run.pumps.erase tabId).rows) :
    pump ∈ run.pumps.rows :=
  (Table.mem_erase.mp hpump).1

theorem Queued.release (h : run.Queued) (hcritical : run.critical = none) (tabId : TabId) :
    (run.release tabId).Queued where
  inbox := h.inbox
  preparing pump hpump hphase := h.preparing pump (mem_of_mem_erase hpump) hphase
  answers := h.answers
  critical := by simp [InboxRun.release, hcritical]

theorem Advances.of_release (h : (run.release tabId).Advances next)
    (hold : ∀ pump ∈ next.pumps.rows, pump.phase = .submitting false → pump ∈ run.pumps.rows) :
    run.Advances next :=
  ⟨h.queued, h.extended, no_start hold⟩

theorem Advances.of_before (mid : InboxRun) (h : mid.Advances next)
    (hlive : mid.inbox.live = run.inbox.live)
    (hsub : ∀ pump ∈ mid.pumps.rows, pump ∈ run.pumps.rows)
    (hgone : ∀ pump ∈ run.pumps.rows, pump ∈ mid.pumps.rows ∨ pump.phase = .preparing) :
    run.Advances next := by
  refine ⟨h.queued, by rw [← hlive]; exact h.extended, ?_⟩
  intro pump hpump
  obtain ⟨hmem, hphase, hnew⟩ := mem_started.1 hpump
  obtain ⟨hfirst, hfree, hdispatching⟩ :=
    h.first pump (mem_started.2 ⟨hmem, hphase, fun hold => hnew (hsub pump hold)⟩)
  refine ⟨hfirst, fun other hother htab => ?_, hdispatching⟩
  rcases hgone other hother with hold | hprep
  · exact hfree other hold htab
  · exact hprep

theorem locked_release (hlocked : ¬ run.locked = true) (tabId : TabId) :
    ¬ (run.release tabId).locked = true := by
  intro hrelease
  obtain ⟨pump, hpump, hphase⟩ := List.any_eq_true.mp hrelease
  exact hlocked (List.any_eq_true.mpr ⟨pump, mem_of_mem_erase hpump, hphase⟩)

theorem Queued.pumpTurn (h : run.Queued) {id : MessageId} {turn : PumpTurn}
    (hgrows : turn.Grows (fun _ => False) run.inbox.live) (hworks : turn.Works id)
    (hfirst : run.inbox.live.First tabId id) (hfree : run.TabFree tabId)
    (hcritical : run.critical = none) : run.Advances (run.pumpTurn tabId id turn outcome) := by
  have hkeep (pump : Pump) (hpump : pump ∈ (run.pumps.erase tabId).rows)
      (hphase : pump.phase = .preparing) :
      (∀ id : MessageId, ¬ False) ∧ run.inbox.live.First pump.tabId pump.messageId :=
    ⟨fun _ => not_false, h.preparing pump (mem_of_mem_erase hpump) hphase⟩
  cases turn with
  | ended =>
    exact h.advances _ hgrows outcome rfl (fun _ hpump _ => mem_of_mem_erase hpump) hkeep
      h.answers (by simp [InboxRun.pumpTurn, InboxRun.perform, hcritical])
  | pinned memory =>
    have hwrite : (InboxEffect.write memory () : InboxEffect Unit).Grows (fun _ => False)
      run.inbox.live := hgrows
    obtain ⟨hok, hext⟩ := h.inbox.perform hwrite outcome
    refine ⟨⟨hok, ?_, fun task htask => (h.answers task htask).extend hext, ?_⟩,
      hext.mono fun _ _ => trivial, no_start fun _ hpump _ => mem_of_mem_erase hpump⟩
    · intro pump hpump hphase
      exact (hkeep pump hpump hphase).2.extend hext
    · intro tab other target' hcrit
      simp only [InboxRun.pumpTurn] at hcrit
      split at hcrit
      next hsucceeds =>
        obtain ⟨rfl, rfl, -⟩ := Critical.dispatchHead.inj (Option.some.inj hcrit)
        refine ⟨hfirst.extend hext, ?_, ?_⟩
        · intro pump hpump htab
          exact absurd htab (Table.mem_erase.mp hpump).2
        · cases outcome with
          | saved => exact hworks
          | notReplaced => simp [succeeds, ChatMessageInbox.perform, SaveOutcome.raises] at hsucceeds
          | replacedThenRaised =>
            simp [succeeds, ChatMessageInbox.perform, SaveOutcome.raises] at hsucceeds
      · simp at hcrit
  | submits effect =>
    have hwrite : effect.Grows (fun _ => False) run.inbox.live := hgrows
    obtain ⟨hok, hext⟩ := h.inbox.perform hwrite outcome
    refine ⟨⟨hok, ?_, fun task htask => (h.answers task htask).extend hext, ?_⟩,
      hext.mono fun _ _ => trivial, ?_⟩
    · intro pump hpump hphase
      simp only [InboxRun.pumpTurn] at hpump
      split at hpump
      · rcases Table.mem_insert.mp hpump with rfl | ⟨hold, -⟩
        · simp at hphase
        · exact (h.preparing pump hold hphase).extend hext
      · exact (hkeep pump hpump hphase).2.extend hext
    · intro tab other target' hcrit
      simp [InboxRun.pumpTurn, InboxRun.perform, hcritical] at hcrit
    · intro pump hpump
      obtain ⟨hmem, -, hnew⟩ := mem_started.1 hpump
      simp only [InboxRun.pumpTurn] at hmem
      split at hmem
      next hsucceeds =>
        rcases Table.mem_insert.mp hmem with rfl | ⟨hold, -⟩
        · refine ⟨hfirst.extend hext, hfree, ?_⟩
          cases effect with
          | keep memory reply =>
            cases reply with
            | ok => exact hworks.elim
            | error => simp [succeeds, ChatMessageInbox.perform] at hsucceeds
          | write =>
            cases outcome with
            | saved => exact hworks
            | notReplaced =>
              simp [succeeds, ChatMessageInbox.perform, SaveOutcome.raises] at hsucceeds
            | replacedThenRaised =>
              simp [succeeds, ChatMessageInbox.perform, SaveOutcome.raises] at hsucceeds
        · exact absurd hold hnew
      · exact absurd (mem_of_mem_erase hmem) hnew

variable {now : Time}

theorem Queued.startPump (h : run.Queued) {prepares : Bool}
    {resolved : Except InboxError InboxTarget} (hfree : run.TabFree tabId)
    (hcritical : run.critical = none) :
    run.Advances (run.startPump tabId prepares resolved now outcome) := by
  unfold InboxRun.startPump
  split
  · exact h.refl
  next item hhead =>
  obtain ⟨hfirst, hopen⟩ := head_first hhead
  have hitem := entry_of_mem (head_spec hhead).1
  split
  · refine ⟨{ h with preparing := ?_, critical := by simp [hcritical] }, .of_entry_eq rfl,
      no_start ?_⟩
    · intro pump hpump hphase
      rcases Table.mem_insert.mp hpump with rfl | ⟨hold, -⟩
      · exact hfirst
      · exact h.preparing pump hold hphase
    · intro pump hpump hphase
      rcases Table.mem_insert.mp hpump with rfl | ⟨hold, -⟩
      · simp at hphase
      · exact hold
  · exact h.pumpTurn (admitHead_grows h.inbox.ordered hitem hopen) (admitHead_works hopen) hfirst
      hfree hcritical

theorem calledBack_spec {id : MessageId} (h : run.calledBack id = some next) :
    next.inbox = run.inbox ∧ next.critical = run.critical ∧
      (∀ pump ∈ next.pumps.rows, pump.phase ≠ .submitting true → pump ∈ run.pumps.rows) ∧
      ∀ task ∈ next.answerTasks.rows, ∃ old ∈ run.answerTasks.rows,
        task.answerId = old.answerId := by
  unfold InboxRun.calledBack at h
  split at h
  · cases h
    refine ⟨rfl, rfl, ?_, fun task htask => ⟨task, htask, rfl⟩⟩
    intro pump hpump hphase
    rcases Table.mem_insert.mp hpump with rfl | ⟨hold, -⟩
    · simp at hphase
    · exact hold
  · split at h
    next task hget =>
      split at h
      · simp at h
      cases h
      refine ⟨rfl, rfl, fun _ hpump _ => hpump, ?_⟩
      intro other hother
      rcases Table.mem_insert.mp hother with rfl | ⟨hold, -⟩
      · exact ⟨task, (Table.get?_eq_some.mp hget).1, (Table.key_of_get? hget).symm⟩
      · exact ⟨other, hold, rfl⟩
    · simp at h

theorem Queued.beforeDelivery (h : run.Queued) {id : MessageId}
    {resolved : Except InboxError InboxTarget} (hcritical : run.critical = none)
    (hstep : run.beforeDelivery id resolved outcome = some next) : run.Advances next := by
  obtain ⟨called, hcalled, rfl⟩ := Option.map_eq_some_iff.mp hstep
  obtain ⟨hinbox, hcrit, hpumps, hanswers⟩ := calledBack_spec hcalled
  refine h.advances (fun _ => False) (beforeDelivery_grows h.inbox.ordered) outcome
    (by rw [← hinbox]; rfl) ?_ ?_ ?_ ?_
  · intro pump hpump hphase
    exact hpumps pump hpump (by simp [hphase])
  · intro pump hpump hphase
    exact ⟨fun _ => not_false,
      h.preparing pump (hpumps pump hpump (by simp [hphase])) hphase⟩
  · intro task htask
    obtain ⟨old, hold, hid⟩ := hanswers task htask
    rw [hid]
    exact h.answers old hold
  · simp [InboxRun.perform, hcrit, hcritical]

theorem Queued.observe (h : run.Queued) {item : ChatMessageEnvelope} {restarting : Bool}
    (hcritical : run.critical = none)
    (hget : run.inbox.live.messages.get? item.messageId = some item) :
    run.Advances (run.observe item restarting now outcome) := by
  have hitem := entry_of_get? hget
  have hpreparing (pump : Pump) (hpump : pump ∈ run.pumps.rows) (hphase : pump.phase = .preparing) :
      (∀ id : MessageId, ¬ False) ∧ run.inbox.live.First pump.tabId pump.messageId :=
    ⟨fun _ => not_false, h.preparing pump hpump hphase⟩
  unfold InboxRun.observe
  simp only
  split
  next hkind =>
    split
    · have hgrows := @restartAnswer_grows (fun _ => False) run.inbox.live run.inbox.closing item now
        h.inbox.ordered hkind hitem
      split
      · exact h.advances _ hgrows outcome rfl (fun _ hpump _ => hpump) hpreparing h.answers (by simp)
      · exact h.perform hcritical hgrows
    · exact h.refl
  · have hentry := @entry_observe run.inbox.live item now hitem
      (item.messageId ∈ run.inbox.restartRecovery)
    have hgrows : (InboxEffect.keep (run.inbox.live.observe item
        (item.messageId ∈ run.inbox.restartRecovery) now).1 (.ok ()) : InboxEffect Unit).Grows
        (fun _ => False) run.inbox.live := hentry
    exact h.advances _ hgrows .saved rfl (fun _ hpump _ => hpump) hpreparing h.answers
      (by simp [hcritical])

theorem Queued.resume (h : run.Queued) :
    run.Advances (run.resume now outcome) := by
  unfold InboxRun.resume
  split
  · exact h.refl
  next critical hcrit =>
  have hrest : ({ run with critical := none } : InboxRun).Queued :=
    { h with critical := by simp }
  refine Advances.of_before { run with critical := none } ?_ rfl (fun _ h => h)
    fun _ h => .inl h
  cases critical with
  | dispatchHead tabId id target =>
    obtain ⟨hfirst, hfree, e, he, hopen⟩ := h.critical tabId id target hcrit
    simp only
    split
    · exact hrest.refl
    next item hget =>
    obtain rfl : item.entry = e := Option.some.inj ((entry_of_get? hget).symm.trans he)
    obtain rfl := Table.key_of_get? hget
    exact hrest.pumpTurn (dispatchHead_grows h.inbox.ordered rfl (item_entry hget) hopen)
      dispatchHead_works hfirst hfree rfl
  | settleQuestion =>
    simp only
    split
    · exact ⟨{ hrest with
        answers := fun task htask => h.answers task (Table.mem_erase.mp htask).1 },
        .of_entry_eq rfl, no_start fun _ hpump _ => hpump⟩
    next item hget =>
      have hgrows := @settleQuestion_grows (fun _ => False) run.inbox.live item h.inbox.ordered
      exact hrest.advances _ hgrows outcome rfl (fun _ hpump _ => hpump)
        (fun pump hpump hphase => ⟨fun _ => not_false, h.preparing pump hpump hphase⟩)
        (fun task htask => h.answers task (Table.mem_erase.mp htask).1)
        (by simp [InboxRun.perform])
  | restartQuestion =>
    simp only
    split
    · exact hrest.refl
    · exact hrest.perform rfl (restartQuestion_grows h.inbox.ordered)

theorem Queued.answerDone (h : run.Queued) {item : ChatMessageEnvelope}
    {raised : Option SubmitException} (hcritical : run.critical = none)
    (hkind : item.kind = .questionAnswer)
    (hget : run.inbox.live.messages.get? item.messageId = some item) :
    run.Advances (run.answerDone item raised now outcome) := by
  have hgrows := @finishAnswer_grows (fun _ => False) run.inbox.live run.inbox.closing item now
    h.inbox.ordered hkind (entry_of_get? hget) raised
  have hpreparing (pump : Pump) (hpump : pump ∈ run.pumps.rows) (hphase : pump.phase = .preparing) :
      (∀ id : MessageId, ¬ False) ∧ run.inbox.live.First pump.tabId pump.messageId :=
    ⟨fun _ => not_false, h.preparing pump hpump hphase⟩
  unfold InboxRun.answerDone
  simp only
  split
  · exact h.advances _ hgrows outcome rfl (fun _ hpump _ => hpump) hpreparing h.answers (by simp)
  · exact h.advances _ hgrows outcome rfl (fun _ hpump _ => hpump) hpreparing
      (fun task htask => h.answers task (Table.mem_erase.mp htask).1)
      (by simp [InboxRun.perform, hcritical])

theorem Queued.crash (h : run.Queued) (hstep : run.crash = some next) : run.Advances next := by
  unfold InboxRun.crash at hstep
  split at hstep
  · simp at hstep
  next inbox hload =>
  cases hstep
  obtain ⟨-, -, rfl⟩ := Except.map_ok_iff.mp hload
  exact ⟨⟨⟨rfl, h.inbox.fileOrdered, h.inbox.fileOrdered, .of_entry_eq rfl⟩, by simp, by simp,
    by simp⟩, h.inbox.ahead, by simp [started]⟩

theorem Queued.atQuestion (h : run.Queued) (hcritical : run.critical = none)
    {questionRef : QuestionRef} {effect : ChatQuestion → InboxEffect Unit}
    (hgrows : ∀ q, (effect q).Grows (fun _ => False) run.inbox.live) :
    run.Advances (run.atQuestion questionRef effect outcome) := by
  unfold InboxRun.atQuestion
  split
  · exact h.refl
  · exact h.perform hcritical (hgrows _)

/-- The pump of a tab whose lock nobody holds, and the one that prepared its message, run
while no submission of the tab is under way. -/
theorem tabFree_of_none (h : ¬ (run.pumps.get? tabId).isSome = true) :
    run.TabFree tabId := by
  intro pump hpump htab
  have hnone : run.pumps.get? tabId = none := by simpa using h
  exact absurd htab (Table.get?_eq_none.mp hnone pump hpump)

theorem tabFree_of_preparing {tab : TabId} {id : MessageId}
    (h : run.pumps.get? tabId = some ⟨tab, id, .preparing⟩) : run.TabFree tabId := by
  intro pump hpump htab
  have hget : run.pumps.get? tabId = some pump := Table.get?_eq_some.mpr ⟨hpump, htab⟩
  cases hget.symm.trans h
  rfl

theorem Queued.stepFree (h : run.Queued) {limits : InboxLimits} {op : InboxOp}
    (hcritical : run.critical = none) (hstep : run.stepFree limits op = some next) :
    run.Advances next := by
  have hl := h.inbox.ordered
  cases op with
    simp only [InboxRun.stepFree, Option.ite_none_left_eq_some, Option.map_eq_some_iff, not_or,
      Option.some.injEq, reduceCtorEq] at hstep
  | enqueue =>
    obtain ⟨⟨-, hnew⟩, rfl⟩ := hstep
    exact h.perform hcritical (enqueue_grows hl (by simpa using hnew))
  | admitScheduled =>
    obtain rfl := hstep
    exact h.perform hcritical (admitScheduled_grows hl)
  | cancelScheduled =>
    obtain rfl := hstep
    exact h.perform hcritical (cancelScheduled_grows hl)
  | cancel =>
    obtain ⟨-, rfl⟩ := hstep
    exact h.perform hcritical (cancel_grows hl)
  | completed =>
    obtain ⟨-, rfl⟩ := hstep
    exact h.perform hcritical (completed_grows hl)
  | pump =>
    obtain ⟨⟨-, -, hnone⟩, rfl⟩ := hstep
    exact h.startPump (tabFree_of_none hnone) hcritical
  | prepared tabId =>
    split at hstep
    next tab messageId hpump =>
      have hfree := tabFree_of_preparing hpump
      obtain rfl : tab = tabId := Table.key_of_get? hpump
      have hfirst := h.preparing _ (Table.get?_eq_some.mp hpump).1 rfl
      have hreleased := h.release hcritical tab
      have hfreed : (run.release tab).TabFree tab := fun pump hpump =>
        hfree pump (mem_of_mem_erase hpump)
      split at hstep
      · cases hstep
        exact ⟨hreleased, .of_entry_eq rfl, no_start fun _ hpump _ => mem_of_mem_erase hpump⟩
      next item hget =>
        cases hstep
        obtain rfl := Table.key_of_get? hget
        refine Advances.of_before (run.release tab) (hreleased.pumpTurn (preparedHead_grows hl (item_entry hget))
          preparedHead_works hfirst hfreed hcritical) rfl (fun _ => mem_of_mem_erase) ?_
        intro pump hpump
        by_cases htab : pump.tabId = tab
        · exact .inr (hfree pump hpump htab)
        · exact .inl (Table.mem_erase.mpr ⟨hpump, htab⟩)
    · simp at hstep
  | prepareFails =>
    split at hstep
    · split at hstep
      · simp at hstep
      next item hget =>
        cases hstep
        exact h.perform hcritical (change_grows_of_terminal hl rfl (item_entry hget) rfl)
    · simp at hstep
  | beforeDelivery => exact h.beforeDelivery hcritical hstep
  | submitReturned tabId =>
    obtain ⟨hlocked, id, -, rfl⟩ := hstep
    exact ((h.release hcritical tabId).perform hcritical (submitReturned_grows hl)).of_release
      fun _ hpump _ => mem_of_mem_erase hpump
  | submitRaised tabId exc now =>
    obtain ⟨hlocked, id, -, rfl⟩ := hstep
    have hgrows : (run.inbox.live.submitRaised run.inbox.closing id exc now).Grows (· = id)
        run.inbox.live := submitRaised_redelivers.grows hl rfl
    exact ((h.release hcritical tabId).perform_unlocked hcritical (locked_release hlocked tabId)
      hgrows).of_release fun _ hpump _ => mem_of_mem_erase hpump
  | reconcile =>
    obtain rfl := hstep
    exact ⟨⟨{ h.inbox with }, h.preparing, h.answers, h.critical⟩, .of_entry_eq rfl,
      no_start fun _ hpump _ => hpump⟩
  | observe =>
    obtain ⟨item, hget, rfl⟩ := hstep
    have hid := Table.key_of_get? hget
    exact h.observe hcritical (by rw [hid]; exact hget)
  | resolve seen proof probedDead restarting now outcome =>
    obtain ⟨⟨hlocked, -⟩, rfl⟩ := hstep
    have hgrows : (run.inbox.live.resolve run.inbox.closing seen proof probedDead restarting
        now).Grows (· = seen.messageId) run.inbox.live := resolve_redelivers.grows hl rfl
    have hadvances : run.Advances (run.perform _ outcome) :=
      h.perform_unlocked hcritical hlocked hgrows
    exact ⟨{ hadvances.queued with }, hadvances.extended, hadvances.first⟩
  | prune =>
    obtain ⟨-, rfl⟩ := hstep
    exact h.perform hcritical (prune_grows hl)
  | capture =>
    obtain ⟨-, rfl⟩ := hstep
    exact h.perform hcritical (capture_grows hl)
  | claimAnswer =>
    obtain ⟨⟨-, hnew⟩, rfl⟩ := hstep
    exact h.perform hcritical (claimAnswer_grows hl (by simpa using hnew))
  | pumpAnswer answerId now outcome =>
    split at hstep
    · simp at hstep
    next item hget =>
    simp only [Option.ite_none_left_eq_some, not_or, Option.some.injEq] at hstep
    obtain ⟨⟨hkind, -, -, -⟩, rfl⟩ := hstep
    have hkind : item.kind = .questionAnswer := by simpa using hkind
    refine h.advances (fun _ => False)
      (change_grows_of_open hl rfl (item_entry hget) (not_settled_of_answer hkind)) outcome rfl
      (fun _ hpump _ => hpump)
      (fun pump hpump hphase => ⟨fun _ => not_false, h.preparing pump hpump hphase⟩) ?_
      (by simp [InboxRun.perform, hcritical])
    intro task htask
    split at htask
    · rcases Table.mem_insert.mp htask with rfl | ⟨hold, -⟩
      · exact ⟨item.entry, entry_of_get? hget, hkind⟩
      · exact h.answers task hold
    · exact h.answers task htask
  | answerDone =>
    split at hstep
    next task item htask hget =>
      cases hstep
      have hid := Table.key_of_get? hget
      obtain ⟨htask, hkey⟩ := Table.get?_eq_some.mp htask
      obtain ⟨e, he, hkind⟩ := h.answers task htask
      rw [hkey, entry_of_get? hget] at he
      cases he
      exact h.answerDone hcritical hkind (by rw [hid]; exact hget)
    · simp at hstep
  | turnStarted =>
    obtain rfl := hstep
    exact h.perform hcritical (Grows.of_entry_eq hl rfl)
  | turnCompleted =>
    obtain rfl := hstep
    exact h.perform hcritical (Grows.of_entry_eq hl rfl)
  | approvalResolved =>
    obtain rfl := hstep
    exact h.atQuestion hcritical fun q => approvalResolved_grows hl
  | handoffPersisted =>
    obtain rfl := hstep
    exact h.atQuestion hcritical fun q => handoffPersisted_grows hl
  | questionGone =>
    obtain rfl := hstep
    exact h.atQuestion hcritical fun q => questionGone_grows hl
  | rememberNonce =>
    obtain ⟨-, rfl⟩ := hstep
    exact h.perform hcritical (rememberNonce_grows hl)
  | mirrorQuestion =>
    obtain rfl := hstep
    exact h.atQuestion hcritical fun q => Grows.of_entry_eq hl rfl
  | flush =>
    obtain rfl := hstep
    exact h.perform hcritical (Grows.of_entry_eq hl rfl)
  | stop =>
    obtain rfl := hstep
    exact ⟨⟨{ h.inbox with }, h.preparing, h.answers, h.critical⟩, .of_entry_eq rfl,
      no_start fun _ hpump _ => hpump⟩

theorem Queued.step (h : run.Queued) {limits : InboxLimits} {op : InboxOp}
    (hstep : InboxRun.step limits run op = some next) : run.Advances next := by
  have hfree (hstep : (if run.critical.isSome then none else run.stepFree limits op) =
      some next) : run.Advances next := by
    simp only [Option.ite_none_left_eq_some] at hstep
    exact h.stepFree (by simpa using hstep.1) hstep.2
  cases op with
  | crash => exact h.crash hstep
  | resume =>
    cases hstep
    exact h.resume
  | _ => exact hfree hstep

end InboxRun

end ClaudeHub
