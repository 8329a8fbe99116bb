import ClaudeHub.ChatInbox.Order

/-! # Runs submit in order

A run together with the submissions that its pumps have started. What is submitted is
first in its queue when it is submitted, and whatever was cleared from before it stays
cleared, so that direct messages of a tab are submitted in the order of their sequences.
-/

namespace ClaudeHub

open StepSystem InboxPayload MessageEntry

structure SubmissionTrace where
  run : InboxRun := {}
  submits : List MessageId := []
  deriving DecidableEq

def SubmissionTrace.step (limits : InboxLimits) (trace : SubmissionTrace) (op : InboxOp) :
    Option SubmissionTrace :=
  (InboxRun.step limits trace.run op).map fun next =>
    ⟨next, trace.submits ++ (InboxRun.started trace.run next).map Pump.messageId⟩

namespace InboxPayload

/-- Every direct message of the same tab with a lower sequence has ended. -/
def Cleared (p : InboxPayload) (id : MessageId) : Prop :=
  ∃ e, p.entry id = some e ∧ ∀ id' e', p.entry id' = some e' → e'.Direct →
    e'.owner.tabId = e.owner.tabId → e'.sequence < e.sequence → e'.state.terminal = true

variable {p q : InboxPayload} {tabId : TabId} {id : MessageId}

theorem First.cleared (h : p.First tabId id) : p.Cleared id := by
  obtain ⟨e, he, htab, hkind, hbefore⟩ := h
  refine ⟨e, he, fun id' e' he' hdirect hetab hlt => ?_⟩
  exact (hbefore id' e' he' (hetab.trans htab) hdirect.1 hlt).terminal hdirect

theorem Cleared.extend {exempt : MessageId → Prop} (h : p.Cleared id) (hext : Extends exempt p q) :
    q.Cleared id := by
  obtain ⟨e, he, hbefore⟩ := h
  obtain ⟨e', he', hrewrites, -⟩ := hext.kept id e he
  refine ⟨e', he', fun other d hd hdirect htab hlt => ?_⟩
  rw [hrewrites.sequence] at hlt
  cases hold : p.entry other with
  | none => exact absurd (hext.later other d hd hold id e he) (by omega)
  | some c =>
    obtain ⟨c', hc', hrew, -⟩ := hext.kept other c hold
    obtain rfl : c' = d := Option.some.inj (hc'.symm.trans hd)
    have hcdirect := hrew.direct.mp hdirect
    rw [hrew.owner, hrewrites.owner] at htab
    rw [hrew.sequence] at hlt
    exact hrew.ended hcdirect.1 (hbefore other c hold hcdirect htab hlt)

def InSequence (p : InboxPayload) (id id' : MessageId) : Prop :=
  ∀ e e', p.entry id = some e → p.entry id' = some e' → e.Direct → e'.Direct →
    e.owner.tabId = e'.owner.tabId → e.sequence ≤ e'.sequence

theorem InSequence.extend {exempt : MessageId → Prop} {id' : MessageId} (h : p.InSequence id id')
    (hmem : (p.entry id).isSome) (hmem' : (p.entry id').isSome) (hext : Extends exempt p q) :
    q.InSequence id id' := by
  obtain ⟨e, he⟩ := Option.isSome_iff_exists.mp hmem
  obtain ⟨e', he'⟩ := Option.isSome_iff_exists.mp hmem'
  obtain ⟨d, hd, hrew, -⟩ := hext.kept id e he
  obtain ⟨d', hd', hrew', -⟩ := hext.kept id' e' he'
  intro c c' hc hc' hdirect hdirect' htab
  obtain rfl : d = c := Option.some.inj (hd.symm.trans hc)
  obtain rfl : d' = c' := Option.some.inj (hd'.symm.trans hc')
  rw [hrew.owner, hrew'.owner] at htab
  rw [hrew.sequence, hrew'.sequence]
  exact h e e' he he' (hrew.direct.mp hdirect) (hrew'.direct.mp hdirect') htab

theorem Cleared.inSequence {id' : MessageId} {e' : MessageEntry} (h : p.Cleared id)
    (he' : p.entry id' = some e') (hopen : e'.state = .dispatching) : p.InSequence id id' := by
  obtain ⟨e, he, hbefore⟩ := h
  intro c c' hc hc' hdirect hdirect' htab
  obtain rfl : e = c := Option.some.inj (he.symm.trans hc)
  obtain rfl : e' = c' := Option.some.inj (he'.symm.trans hc')
  by_contra hlt
  have hterm := hbefore id' e' he' hdirect' htab.symm (by omega)
  simp [hopen, ChatMessageState.terminal] at hterm

end InboxPayload

namespace SubmissionTrace

structure Inv (trace : SubmissionTrace) : Prop where
  queued : trace.run.Queued
  cleared : ∀ id ∈ trace.submits, trace.run.inbox.live.Cleared id
  inSequence : trace.submits.Pairwise trace.run.inbox.live.InSequence

variable {limits : InboxLimits} {trace next : SubmissionTrace} {op : InboxOp}

theorem started_inSequence {run after : InboxRun} (h : run.Advances after) {pump other : Pump}
    (hpump : pump ∈ InboxRun.started run after) (hother : other ∈ InboxRun.started run after) :
    after.inbox.live.InSequence pump.messageId other.messageId := by
  obtain ⟨hfirst, -, -⟩ := h.first pump hpump
  obtain ⟨-, -, e, he, hstate⟩ := h.first other hother
  exact hfirst.cleared.inSequence he hstate

theorem Inv.step (h : trace.Inv) (hstep : SubmissionTrace.step limits trace op = some next) :
    next.Inv ∧ Extends (fun _ => True) trace.run.inbox.live next.run.inbox.live := by
  obtain ⟨after, hafter, rfl⟩ := Option.map_eq_some_iff.mp hstep
  have hadvances := h.queued.step hafter
  have hext := hadvances.extended
  have hkept (id : MessageId) (hid : id ∈ trace.submits) : after.inbox.live.Cleared id :=
    (h.cleared id hid).extend hext
  have hnew (id : MessageId) (hid : id ∈ (InboxRun.started trace.run after).map Pump.messageId) :
      ∃ pump ∈ InboxRun.started trace.run after, pump.messageId = id := by
    simpa using hid
  refine ⟨⟨hadvances.queued, ?_, ?_⟩, hext⟩
  · intro id hid
    rcases List.mem_append.mp hid with hold | hstarted
    · exact hkept id hold
    · obtain ⟨pump, hpump, rfl⟩ := hnew id hstarted
      exact (hadvances.first pump hpump).1.cleared
  · refine List.pairwise_append.mpr ⟨?_, ?_, ?_⟩
    · refine h.inSequence.imp_of_mem fun {id id'} hid hid' hseq => ?_
      obtain ⟨e, he, -⟩ := h.cleared id hid
      obtain ⟨e', he', -⟩ := h.cleared id' hid'
      exact hseq.extend (by simp [he]) (by simp [he']) hext
    · refine List.pairwise_map.mpr (List.pairwise_of_forall_mem_list ?_)
      exact fun pump hpump other hother => started_inSequence hadvances hpump hother
    · intro id hid id' hid'
      obtain ⟨pump, hpump, rfl⟩ := hnew id' hid'
      obtain ⟨-, -, e, he, hstate⟩ := hadvances.first pump hpump
      exact (hkept id hid).inSequence he hstate

theorem inv_init : ({} : SubmissionTrace).Inv where
  queued := InboxRun.queued_init
  cleared := by simp
  inSequence := .nil

end SubmissionTrace

/-- The sequences of messages are unique, and a pump submits an ordinary message only when every
ordinary one of its tab with a lower sequence has ended or is scheduled and undecided. -/
theorem inbox_submits_in_order {limits : InboxLimits} {ops more : List InboxOp}
    {trace later : SubmissionTrace}
    (hrun : Run (SubmissionTrace.step limits) (fun _ _ => True) {} ops trace)
    (hmore : Run (SubmissionTrace.step limits) (fun _ _ => True) trace more later) :
    (∀ m ∈ trace.run.inbox.live.messages.rows, ∀ m' ∈ later.run.inbox.live.messages.rows,
      (m.sequence = m'.sequence ↔ m.messageId = m'.messageId) ∧
      (trace.run.inbox.live.messages.get? m'.messageId = none → m.sequence < m'.sequence)) ∧
    (∀ op next pump, InboxRun.step limits trace.run op = some next →
      pump ∈ InboxRun.started trace.run next →
      (∀ other ∈ trace.run.pumps.rows, other.tabId = pump.tabId → other.phase = .preparing) ∧
      ∃ m, next.inbox.live.messages.get? pump.messageId = some m ∧ m.tabId = pump.tabId ∧
        m.kind = .message ∧ ∀ m' ∈ next.inbox.live.messages.rows, m'.tabId = m.tabId →
          m'.kind = .message → m'.sequence < m.sequence →
          m'.state.terminal = true ∨ (m'.scheduled = true ∧ m'.state = .uncertain)) ∧
    trace.submits.Pairwise fun id id' => ∀ m m',
      trace.run.inbox.live.messages.get? id = some m →
      trace.run.inbox.live.messages.get? id' = some m' → m.kind = .message → m'.kind = .message →
      m.scheduled = false → m'.scheduled = false → m.tabId = m'.tabId →
      m.sequence ≤ m'.sequence := by
  have hinv : trace.Inv := hrun.invariant SubmissionTrace.inv_init
    fun _ _ _ h _ hstep => (h.step hstep).1
  obtain ⟨hlater, hext⟩ := hmore.invariant
    (P := fun t => t.Inv ∧ Extends (fun _ => True) trace.run.inbox.live t.run.inbox.live)
    ⟨hinv, .of_entry_eq rfl⟩
    fun mid op after hmid _ hstep =>
      ⟨(hmid.1.step hstep).1, hmid.2.trans (hmid.1.step hstep).2⟩
  refine ⟨fun m hm m' hm' => ⟨⟨fun hseq => ?_, fun hid => ?_⟩, fun hnone => ?_⟩, ?_, ?_⟩
  · obtain ⟨e, he, hrewrites, -⟩ := hext.kept _ _ (entry_of_mem hm)
    exact hlater.queued.inbox.ordered.sequenced _ _ e m'.entry he (entry_of_mem hm')
      (hrewrites.sequence.trans hseq)
  · obtain ⟨e, he, hrewrites, -⟩ := hext.kept _ _ (entry_of_mem hm)
    rw [hid, entry_of_mem hm'] at he
    cases he
    exact hrewrites.sequence.symm
  · exact hext.later m'.messageId m'.entry (entry_of_mem hm') (by simp [entry, hnone])
      m.messageId m.entry (entry_of_mem hm)
  · intro op next pump hstep hpump
    obtain ⟨⟨e, he, htab, hkind, hbefore⟩, hfree, -⟩ :=
      (hinv.queued.step hstep).first pump hpump
    obtain ⟨m, hm, rfl⟩ := Option.map_eq_some_iff.mp he
    refine ⟨hfree, m, hm, htab, hkind, fun m' hm' htab' hkind' hlt => ?_⟩
    exact (hbefore m'.messageId m'.entry (entry_of_mem hm') (htab'.trans htab) hkind' hlt).2
  · refine hinv.inSequence.imp fun {id id'} hseq m m' hm hm' hkind hkind' hs hs' htab => ?_
    exact hseq m.entry m'.entry (entry_of_get? hm) (entry_of_get? hm') ⟨hkind, hs⟩ ⟨hkind', hs'⟩
      htab

private def deferredThenSent : List InboxOp :=
  [.enqueue "tab" "user" "User" none ⟨"first", "c1", none⟩ (.ok ⟨"run", none, none⟩) "m1" 1 .saved,
    .enqueue "tab" "user" "User" none ⟨"second", "c2", none⟩ (.ok ⟨"run", none, none⟩) "m2" 2
      .saved,
    .pump "tab" false (.ok ⟨"run", none, none⟩) 3 .saved,
    .submitRaised "tab" (.exception "offline") 4 .saved,
    .pump "tab" false (.ok ⟨"run", none, none⟩) 5 .saved,
    .beforeDelivery "m1" (.ok ⟨"run", none, none⟩) .saved,
    .submitReturned "tab" 6 .saved,
    .completed "tab" "hub-message-m1" "completed" 7 .saved]

private def sendSecond : List InboxOp :=
  [.pump "tab" false (.ok ⟨"run", none, none⟩) 8 .saved]

/-- A message that was deferred is submitted again before a later one is. -/
theorem inbox_submits_in_order_deferred :
    ∃ trace later, exec (SubmissionTrace.step {}) {} deferredThenSent = some trace ∧
      exec (SubmissionTrace.step {}) trace sendSecond = some later ∧
      trace.submits = ["m1", "m1"] ∧ later.submits = ["m1", "m1", "m2"] ∧
      ∀ m ∈ trace.run.inbox.live.messages.rows, ∀ m' ∈ later.run.inbox.live.messages.rows,
        m.sequence = m'.sequence ↔ m.messageId = m'.messageId := by
  have hends : ((exec (SubmissionTrace.step {}) {} deferredThenSent).bind fun trace =>
      (exec (SubmissionTrace.step {}) trace sendSecond).map fun later =>
        (trace.submits, later.submits)) = some (["m1", "m1"], ["m1", "m1", "m2"]) := by
    decide +kernel
  obtain ⟨trace, htrace, hrest⟩ := Option.bind_eq_some_iff.mp hends
  obtain ⟨later, hlater, hpair⟩ := Option.map_eq_some_iff.mp hrest
  obtain ⟨hsubmits, hall⟩ := Prod.mk.inj hpair
  have horder := inbox_submits_in_order (Run.of_exec htrace) (Run.of_exec hlater)
  exact ⟨trace, later, htrace, hlater, hsubmits, hall, fun m hm m' hm' => (horder.1 m hm m' hm').1⟩

private def answerStillQueued : List InboxOp :=
  [.capture ⟨"q", "tab", "terminal-tab-tab", "run", "turn", "ask", "question", "", .followup, 0,
      .opened, none, {}⟩ .saved,
    .claimAnswer "q" "user" "User" none ⟨"c1", "yes"⟩ none "a1" 1 .saved,
    .enqueue "tab" "user" "User" none ⟨"hello", "c2", none⟩ (.ok ⟨"run", none, none⟩) "m1" 2
      .saved]

private def sendPastAnswer : InboxOp :=
  .pump "tab" false (.ok ⟨"run", none, none⟩) 3 .saved

/-- An answer that is still queued does not hold the ordinary messages of its tab back. -/
theorem message_submitted_before_answer :
    ∃ run next pump m m', exec (InboxRun.step {}) {} answerStillQueued = some run ∧
      InboxRun.step {} run sendPastAnswer = some next ∧
      pump ∈ InboxRun.started run next ∧
      next.inbox.live.messages.get? pump.messageId = some m ∧
      m' ∈ next.inbox.live.messages.rows ∧ m'.tabId = m.tabId ∧ m'.sequence < m.sequence ∧
      m'.state.terminal = false ∧ m'.scheduled = false := by
  have hends : ((exec (InboxRun.step {}) {} answerStillQueued).bind fun run =>
      (InboxRun.step {} run sendPastAnswer).bind fun next =>
        (InboxRun.started run next).head?.bind fun pump =>
          (next.inbox.live.messages.get? pump.messageId).bind fun m =>
            (next.inbox.live.messages.get? "a1").map fun m' =>
              decide (m'.tabId = m.tabId ∧ m'.sequence < m.sequence ∧
                m'.state.terminal = false ∧ m'.scheduled = false)) = some true := by
    decide +kernel
  obtain ⟨run, hrun, hrest⟩ := Option.bind_eq_some_iff.mp hends
  obtain ⟨next, hnext, hrest⟩ := Option.bind_eq_some_iff.mp hrest
  obtain ⟨pump, hpump, hrest⟩ := Option.bind_eq_some_iff.mp hrest
  obtain ⟨m, hm, hrest⟩ := Option.bind_eq_some_iff.mp hrest
  obtain ⟨m', hm', htest⟩ := Option.map_eq_some_iff.mp hrest
  obtain ⟨htab, hlt, hopen, hsched⟩ := of_decide_eq_true htest
  exact ⟨run, next, pump, m, m', hrun, hnext, List.mem_of_mem_head? hpump, hm,
    (Table.get?_eq_some.mp hm').1, htab, hlt, hopen, hsched⟩

end ClaudeHub
