import ClaudeHub.ChatInbox.Submission
import ClaudeHub.Lib.Except

/-! # Submissions over whole runs

What a process holds and what it last committed agree on every core, and the file
is either the committed payload or a legal step ahead of it. A task that has yet
to call back works on an unmarked message, and no two tasks on the same one.
-/

namespace ClaudeHub

open StepSystem InboxPayload

def InboxPayload.Unmarked (p : InboxPayload) (id : MessageId) (tabId : TabId) : Prop :=
  ∃ c, p.core id = some c ∧ c.owner.tabId = tabId ∧ c.owner.kind = .message ∧ c.marked = false

def InboxPayload.UnmarkedAnswer (p : InboxPayload) (id : MessageId) : Prop :=
  ∃ c, p.core id = some c ∧ c.owner.kind = .questionAnswer ∧ c.marked = false

theorem InboxPayload.Unmarked.evolve {p q : InboxPayload} {id : MessageId} {tabId : TabId}
    (h : p.Unmarked id tabId) (hevolves : Evolves p q) : q.Unmarked id tabId := by
  obtain ⟨c, hc, htab, hkind, hmark⟩ := h
  obtain ⟨c', hc', howner, hmark'⟩ := hevolves id c hc
  exact ⟨c', hc', by rw [howner, htab], by rw [howner, hkind], hmark'.trans hmark⟩

theorem InboxPayload.UnmarkedAnswer.evolve {p q : InboxPayload} {id : MessageId}
    (h : p.UnmarkedAnswer id) (hevolves : Evolves p q) : q.UnmarkedAnswer id := by
  obtain ⟨c, hc, hkind, hmark⟩ := h
  obtain ⟨c', hc', howner, hmark'⟩ := hevolves id c hc
  exact ⟨c', hc', by rw [howner, hkind], hmark'.trans hmark⟩

/-- The inbox over its file, and the messages whose mark was durably saved. -/
structure ChatMessageInbox.SubmissionsOk (inbox : ChatMessageInbox) (submitted : List MessageId) :
    Prop where
  agree : inbox.committed.core = inbox.live.core
  sent : MarksAreSent inbox.live
  fileSent : MarksAreSent inbox.file
  ahead : Moves inbox.live inbox.file
  nodup : submitted.Nodup
  marked : ∀ id ∈ submitted, ∃ c, inbox.live.core id = some c ∧ c.marked = true

theorem ChatMessageInbox.SubmissionsOk.perform {α : Type} {inbox : ChatMessageInbox}
    {submitted : List MessageId} (h : inbox.SubmissionsOk submitted) {effect : InboxEffect α}
    (hlegal : effect.Legal inbox.live) (outcome : SaveOutcome) :
    (inbox.perform effect outcome).1.SubmissionsOk submitted ∧
      Evolves inbox.live (inbox.perform effect outcome).1.live ∧
      Moves inbox.live (inbox.perform effect outcome).1.live := by
  -- A payload with the cores of the memory before stands for it in every clause.
  have hsame (p : InboxPayload) (hp : p.core = inbox.live.core) :
      MarksAreSent p ∧ Moves p inbox.file ∧
        ∀ id ∈ submitted, ∃ c, p.core id = some c ∧ c.marked = true := by
    refine ⟨fun id c hc => h.sent id c (by rw [← hp, hc]), ?_, fun id hid => ?_⟩
    · exact (Moves.of_core_eq hp.symm).trans h.ahead
    · rw [hp]
      exact h.marked id hid
  cases effect with
  | keep memory reply =>
    have hcore : memory.core = inbox.live.core := hlegal
    obtain ⟨hsent, hahead, hmarked⟩ := hsame memory hcore
    have hok : ({ inbox with live := memory } : ChatMessageInbox).SubmissionsOk submitted :=
      ⟨h.agree.trans hcore.symm, hsent, h.fileSent, hahead, h.nodup, hmarked⟩
    cases reply with
    | ok => exact ⟨hok, .of_core_eq hcore, .of_core_eq hcore⟩
    | error => exact ⟨hok, .of_core_eq hcore, .of_core_eq hcore⟩
  | write memory =>
    have hlegal : InboxPayload.Legal inbox.live memory := hlegal
    obtain ⟨hsent, hahead, hmarked⟩ := hsame inbox.committed h.agree
    have hrestored : Evolves inbox.live inbox.committed ∧ Moves inbox.live inbox.committed :=
      ⟨.of_core_eq h.agree, .of_core_eq h.agree⟩
    cases outcome with
    | saved =>
      refine ⟨⟨rfl, hlegal.sent, hlegal.sent, .of_core_eq rfl, h.nodup, ?_⟩,
        hlegal.evolves, hlegal.moves⟩
      intro id hid
      obtain ⟨c, hc, hmark⟩ := h.marked id hid
      obtain ⟨c', hc', -, hmark'⟩ := hlegal.moves id c hc
      exact ⟨c', hc', (hmark' hmark).1⟩
    | notReplaced => exact ⟨⟨rfl, hsent, h.fileSent, hahead, h.nodup, hmarked⟩, hrestored⟩
    | replacedThenRaised =>
      refine ⟨⟨rfl, hsent, hlegal.sent, ?_, h.nodup, hmarked⟩, hrestored⟩
      exact (Moves.of_core_eq h.agree.symm).trans hlegal.moves

/-! ## Steps -/

namespace InboxRun

structure Inv (run : InboxRun) : Prop where
  inbox : run.inbox.SubmissionsOk run.submitted
  pumps : ∀ pump ∈ run.pumps.rows, pump.phase ≠ .submitting true →
    run.inbox.live.Unmarked pump.messageId pump.tabId
  answers : ∀ task ∈ run.answerTasks.rows, task.calledBack = false →
    run.inbox.live.UnmarkedAnswer task.answerId
  critical : ∀ tabId id target, run.critical = some (.dispatchHead tabId id target) →
    run.inbox.live.Unmarked id tabId

/-- A step keeps the invariant and moves every message as it may. -/
def Leads (run next : InboxRun) : Prop :=
  next.Inv ∧ Moves run.inbox.live next.inbox.live

theorem inv_init : ({} : InboxRun).Inv where
  inbox := ⟨rfl, by simp [MarksAreSent, core], by simp [MarksAreSent, core], .of_core_eq rfl,
    List.nodup_nil, by simp⟩
  pumps := by simp
  answers := by simp
  critical := by simp

variable {run next : InboxRun} {α : Type} {effect : InboxEffect α} {outcome : SaveOutcome}

theorem Inv.leads (h : run.Inv) (hlegal : effect.Legal run.inbox.live) (outcome : SaveOutcome)
    (hinbox : next.inbox = (run.inbox.perform effect outcome).1)
    (hsubmitted : next.submitted = run.submitted)
    (hpumps : ∀ pump ∈ next.pumps.rows, pump.phase ≠ .submitting true →
      run.inbox.live.Unmarked pump.messageId pump.tabId)
    (hanswers : ∀ task ∈ next.answerTasks.rows, task.calledBack = false →
      run.inbox.live.UnmarkedAnswer task.answerId)
    (hcritical : ∀ tabId id target, next.critical = some (.dispatchHead tabId id target) →
      run.inbox.live.Unmarked id tabId) : run.Leads next := by
  obtain ⟨hok, hevolves, hmoves⟩ := h.inbox.perform hlegal outcome
  rw [← hinbox] at hok hevolves hmoves
  rw [← hsubmitted] at hok
  refine ⟨⟨hok, ?_, ?_, ?_⟩, hmoves⟩
  · intro pump hpump hphase
    exact (hpumps pump hpump hphase).evolve hevolves
  · intro task htask hcalled
    exact (hanswers task htask hcalled).evolve hevolves
  · intro tabId id target hcrit
    exact (hcritical tabId id target hcrit).evolve hevolves

theorem Inv.perform (h : run.Inv) (hlegal : effect.Legal run.inbox.live) :
    run.Leads (run.perform effect outcome) :=
  h.leads hlegal outcome rfl rfl h.pumps h.answers h.critical

theorem Inv.refl (h : run.Inv) : run.Leads run := ⟨h, .of_core_eq rfl⟩

theorem Inv.release (h : run.Inv) (tabId : TabId) : (run.release tabId).Inv :=
  { h with pumps := fun pump hpump => h.pumps pump (Table.mem_erase.mp hpump).1 }

variable {tabId : TabId}

theorem Inv.mem_erase (h : run.Inv) {pump : Pump} (hpump : pump ∈ (run.pumps.erase tabId).rows)
    (hphase : pump.phase ≠ .submitting true) :
    run.inbox.live.Unmarked pump.messageId pump.tabId :=
  h.pumps pump (Table.mem_erase.mp hpump).1 hphase

theorem Inv.pumpTurn (h : run.Inv) {id : MessageId} {turn : PumpTurn}
    (hturn : turn.Legal run.inbox.live) (hfree : run.inbox.live.Unmarked id tabId)
    (hcritical : run.critical = none) : run.Leads (run.pumpTurn tabId id turn outcome) := by
  have hnone (tab other target) (hcrit : run.critical = some (.dispatchHead tab other target)) :
      run.inbox.live.Unmarked other tab := by
    simp [hcritical] at hcrit
  cases turn with
  | ended =>
    exact h.leads hturn outcome rfl rfl (fun _ hpump => h.mem_erase hpump) h.answers hnone
  | pinned memory =>
    have hwrite : (InboxEffect.write memory () : InboxEffect Unit).Legal run.inbox.live := hturn
    refine h.leads hwrite outcome rfl rfl (fun _ hpump => h.mem_erase hpump) h.answers ?_
    intro tab other target' hcrit
    simp only [InboxRun.pumpTurn] at hcrit
    split at hcrit
    · obtain ⟨rfl, rfl, -⟩ := Critical.dispatchHead.inj (Option.some.inj hcrit)
      exact hfree
    · simp at hcrit
  | submits =>
    refine h.leads hturn outcome rfl rfl ?_ h.answers hnone
    intro pump hpump hphase
    simp only [InboxRun.pumpTurn] at hpump
    split at hpump
    · rcases Table.mem_insert.mp hpump with rfl | ⟨hold, -⟩
      · exact hfree
      · exact h.pumps pump hold hphase
    · exact h.mem_erase hpump hphase

variable {resolved : Except InboxError InboxTarget} {now : Time}

theorem Inv.startPump (h : run.Inv) {prepares : Bool} (hcritical : run.critical = none) :
    run.Leads (run.startPump tabId prepares resolved now outcome) := by
  unfold InboxRun.startPump
  split
  · exact h.refl
  next item hhead =>
  obtain ⟨hrow, htab, hkind, hunsent⟩ := head_spec hhead
  have hitem := item_core_of_mem hrow
  have hmark := unmarked_of_unsent h.inbox.sent hitem hunsent
  have hfree : run.inbox.live.Unmarked item.messageId tabId :=
    ⟨item.core, hitem, htab, hkind, hmark⟩
  split
  · refine ⟨⟨h.inbox, ?_, h.answers, h.critical⟩, .of_core_eq rfl⟩
    intro pump hpump hphase
    rcases Table.mem_insert.mp hpump with rfl | ⟨hold, -⟩
    · exact hfree
    · exact h.pumps pump hold hphase
  · exact h.pumpTurn (admitHead_legal h.inbox.sent hitem hmark) hfree hcritical

theorem Inv.calledBack (h : run.Inv) {id : MessageId} (hcritical : run.critical = none)
    (hcalled : run.calledBack id = some next) :
    (∃ c, run.inbox.live.core id = some c ∧ c.marked = false) ∧
      next.inbox = run.inbox ∧ next.submitted = run.submitted ∧ next.critical = none ∧
      (∀ pump ∈ next.pumps.rows, pump.phase ≠ .submitting true →
        run.inbox.live.Unmarked pump.messageId pump.tabId ∧ pump.messageId ≠ id) ∧
      ∀ task ∈ next.answerTasks.rows, task.calledBack = false →
        run.inbox.live.UnmarkedAnswer task.answerId ∧ task.answerId ≠ id := by
  unfold InboxRun.calledBack at hcalled
  split at hcalled
  next pump hfind =>
    cases hcalled
    have hpump := List.mem_of_find?_eq_some hfind
    have htest := List.find?_some hfind
    simp only [Bool.and_eq_true, decide_eq_true_eq] at htest
    obtain ⟨rfl, hphase⟩ := htest
    obtain ⟨c, hc, htab, hkind, hmark⟩ := h.pumps pump hpump (by simp [hphase])
    refine ⟨⟨c, hc, hmark⟩, rfl, rfl, hcritical, ?_, ?_⟩
    · intro other hother hphase'
      rcases Table.mem_insert.mp hother with rfl | ⟨hold, hne⟩
      · simp at hphase'
      · have hfree := h.pumps other hold hphase'
        refine ⟨hfree, fun heq => hne ?_⟩
        obtain ⟨c', hc', htab', -, -⟩ := hfree
        rw [heq, hc] at hc'
        cases hc'
        exact htab'.symm.trans htab
    · intro task htask htask'
      have hfree := h.answers task htask htask'
      refine ⟨hfree, fun heq => ?_⟩
      obtain ⟨c', hc', hkind', -⟩ := hfree
      rw [heq, hc] at hc'
      cases hc'
      simp [hkind] at hkind'
  next hnone =>
    split at hcalled
    next task hget =>
      split at hcalled
      · simp at hcalled
      next hfirst =>
      cases hcalled
      have htask := (Table.get?_eq_some.mp hget).1
      have hid := Table.key_of_get? hget
      subst hid
      obtain ⟨c, hc, hkind, hmark⟩ := h.answers task htask (by simpa using hfirst)
      refine ⟨⟨c, hc, hmark⟩, rfl, rfl, hcritical, ?_, ?_⟩
      · intro pump hpump hphase
        have hfree := h.pumps pump hpump hphase
        refine ⟨hfree, fun heq => ?_⟩
        obtain ⟨c', hc', -, hkind', -⟩ := hfree
        rw [heq, hc] at hc'
        cases hc'
        simp [hkind] at hkind'
      · intro other hother hother'
        rcases Table.mem_insert.mp hother with rfl | ⟨hold, hne⟩
        · simp at hother'
        · exact ⟨h.answers other hold hother', hne⟩
    · simp at hcalled

theorem beforeDelivery_spec {l : InboxPayload} {closing : Bool} {id : MessageId} :
    (∃ memory e, l.beforeDelivery closing id resolved = .keep memory (.error e) ∧
      memory.core = l.core) ∨
    ∃ memory c, l.beforeDelivery closing id resolved = .write memory () ∧
      l.core id = some c ∧ c.state = .dispatching ∧
      memory.core = fun other => if other = id then some { c with marked := true }
        else l.core other := by
  unfold InboxPayload.beforeDelivery
  split
  · exact .inl ⟨_, _, rfl, rfl⟩
  split
  · exact .inl ⟨_, _, rfl, rfl⟩
  next item hget =>
  split
  · exact .inl ⟨_, _, rfl, rfl⟩
  next hstate =>
  have hstate : item.state = .dispatching := by simpa using hstate
  have hid := Table.key_of_get? hget
  have hmarks (p : InboxPayload) (hp : p.core = l.core) :
      (p.putMessage { item with submissionStarted := true }).core =
        fun other => if other = id then some { item.core with marked := true }
          else l.core other := by
    funext other
    rw [core_putMessage, hp, ← hid]
    rfl
  split
  · exact .inr ⟨_, item.core, rfl, core_of_get? hget, hstate, hmarks l rfl⟩
  · split
    · exact .inl ⟨_, _, rfl, rfl⟩
    next raw =>
      simp only
      split
      · exact .inl ⟨_, _, rfl, core_target ..⟩
      · exact .inr ⟨_, item.core, rfl, core_of_get? hget, hstate, hmarks _ (core_target ..)⟩

theorem mark_spec {inbox : ChatMessageInbox} {submitted : List MessageId}
    (h : inbox.SubmissionsOk submitted) {memory : InboxPayload} {id : MessageId} {c : MessageCore}
    (hc : inbox.live.core id = some c) (hstate : c.state = .dispatching) (hmark : c.marked = false)
    (hmemory : memory.core = fun other => if other = id then some { c with marked := true }
      else inbox.live.core other) (outcome : SaveOutcome) :
    (inbox.perform (.write memory ()) outcome).1.SubmissionsOk
        (if outcome.raises then submitted else id :: submitted) ∧
      Moves inbox.live (inbox.perform (.write memory ()) outcome).1.live ∧
      ∀ other, other ≠ id →
        (inbox.perform (.write memory ()) outcome).1.live.core other = inbox.live.core other := by
  have hself : memory.core id = some { c with marked := true } := by simp [hmemory]
  have hother (other : MessageId) (hne : other ≠ id) :
      memory.core other = inbox.live.core other := by
    simp [hmemory, hne]
  have hmoves : Moves inbox.live memory := by
    intro other d hd
    by_cases hid : other = id
    · subst hid
      obtain rfl : c = d := Option.some.inj (hc.symm.trans hd)
      exact ⟨_, hself, rfl, fun hmarked => by simp [hmark] at hmarked⟩
    · exact ⟨d, by rw [hother other hid, hd], rfl, fun hmarked => ⟨hmarked, fun hd => hd⟩⟩
  have hsent : MarksAreSent memory := by
    intro other d hd hmarked
    by_cases hid : other = id
    · subst hid
      cases hself.symm.trans hd
      simp [hstate, ChatMessageState.unsent]
    · exact h.sent other d (by rw [← hother other hid, hd]) hmarked
  have hrestored : inbox.committed.core = inbox.live.core := h.agree
  have hsentOld : MarksAreSent inbox.committed := fun other d hd =>
    h.sent other d (by rw [← hrestored, hd])
  have hmarkedOld (other : MessageId) (hmem : other ∈ submitted) :
      ∃ d, inbox.committed.core other = some d ∧ d.marked = true := by
    rw [hrestored]
    exact h.marked other hmem
  cases outcome with
  | saved =>
    refine ⟨⟨rfl, hsent, hsent, .of_core_eq rfl, ?_, ?_⟩, hmoves, hother⟩
    · refine List.nodup_cons.mpr ⟨fun hmem => ?_, h.nodup⟩
      obtain ⟨d, hd, hmarked⟩ := h.marked id hmem
      cases hc.symm.trans hd
      simp [hmark] at hmarked
    · intro other hmem
      rcases List.mem_cons.mp hmem with rfl | hold
      · exact ⟨_, hself, rfl⟩
      · obtain ⟨d, hd, hmarked⟩ := h.marked other hold
        obtain ⟨d', hd', -, hmarked'⟩ := hmoves other d hd
        exact ⟨d', hd', (hmarked' hmarked).1⟩
  | notReplaced =>
    refine ⟨⟨rfl, hsentOld, h.fileSent, ?_, h.nodup, hmarkedOld⟩, .of_core_eq hrestored,
      fun other _ => by rw [← hrestored]; rfl⟩
    exact (Moves.of_core_eq hrestored.symm).trans h.ahead
  | replacedThenRaised =>
    refine ⟨⟨rfl, hsentOld, hsent, ?_, h.nodup, hmarkedOld⟩, .of_core_eq hrestored,
      fun other _ => by rw [← hrestored]; rfl⟩
    exact (Moves.of_core_eq hrestored.symm).trans hmoves

theorem Inv.beforeDelivery (h : run.Inv) {id : MessageId} (hcritical : run.critical = none)
    (hstep : run.beforeDelivery id resolved outcome = some next) : run.Leads next := by
  obtain ⟨called, hcalled, rfl⟩ := Option.map_eq_some_iff.mp hstep
  obtain ⟨⟨c, hc, hmark⟩, hinbox, hsubmitted, hnone, hpumps, hanswers⟩ :=
    h.calledBack hcritical hcalled
  rcases @beforeDelivery_spec resolved run.inbox.live run.inbox.closing id with
    ⟨memory, e, heffect, hcore⟩ | ⟨memory, d, heffect, hd, hstate, hcore⟩
  · have hlegal : (InboxEffect.keep memory (.error e) : InboxEffect Unit).Legal run.inbox.live :=
      hcore
    refine h.leads hlegal outcome ?_ ?_ ?_ ?_ ?_
    · simp only [InboxRun.perform, heffect, hinbox]
    · simp [heffect, InboxRun.succeeds, ChatMessageInbox.perform]
    · exact fun pump hpump hphase => (hpumps pump hpump hphase).1
    · exact fun task htask hcalled => (hanswers task htask hcalled).1
    · intro tabId other target hcrit
      simp [InboxRun.perform, hnone] at hcrit
  · obtain rfl : d = c := Option.some.inj (hd.symm.trans hc)
    obtain ⟨hok, hmoves, hother⟩ := mark_spec h.inbox hc hstate hmark hcore outcome
    simp only [InboxRun.perform, heffect, hinbox, hsubmitted]
    refine ⟨⟨?_, ?_, ?_, ?_⟩, hmoves⟩
    · cases outcome <;> exact hok
    · intro pump hpump hphase
      obtain ⟨⟨c', hc', hrest⟩, hne⟩ := hpumps pump hpump hphase
      exact ⟨c', by rw [hother _ hne, hc'], hrest⟩
    · intro task htask hfirst
      obtain ⟨⟨c', hc', hrest⟩, hne⟩ := hanswers task htask hfirst
      exact ⟨c', by rw [hother _ hne, hc'], hrest⟩
    · intro tabId other target hcrit
      simp [hnone] at hcrit

theorem Inv.observe (h : run.Inv) {item : ChatMessageEnvelope} {restarting : Bool}
    (hget : run.inbox.live.messages.get? item.messageId = some item) :
    run.Leads (run.observe item restarting now outcome) := by
  have hitem := core_of_get? hget
  unfold InboxRun.observe
  simp only
  split
  · split
    · have hlegal := @restartAnswer_legal run.inbox.live run.inbox.closing item now
        h.inbox.sent hitem
      split
      · refine h.leads hlegal outcome rfl rfl h.pumps h.answers ?_
        intro tabId id target hcrit
        simp at hcrit
      · exact h.perform hlegal
    · exact h.refl
  · have hcore := @core_observe run.inbox.live item now hitem
      (item.messageId ∈ run.inbox.restartRecovery)
    have hlegal : (InboxEffect.keep (run.inbox.live.observe item
        (item.messageId ∈ run.inbox.restartRecovery) now).1 (.ok ()) : InboxEffect Unit).Legal
        run.inbox.live := hcore
    exact h.leads hlegal .saved rfl rfl h.pumps h.answers h.critical

theorem Inv.resume (h : run.Inv) : run.Leads (run.resume now outcome) := by
  unfold InboxRun.resume
  split
  · exact h.refl
  next critical hcrit =>
  -- The point is left: what remains has no critical point of its own.
  have hrest : ({ run with critical := none } : InboxRun).Inv :=
    { h with critical := by simp }
  cases critical with
  | dispatchHead tabId id target =>
    obtain ⟨c, hc, htab, hkind, hmark⟩ := h.critical tabId id target hcrit
    simp only
    split
    · exact hrest.refl
    next item hget =>
    have hcore := core_of_get? hget
    obtain rfl : item.core = c := Option.some.inj (hcore.symm.trans hc)
    exact hrest.pumpTurn (dispatchHead_legal h.inbox.sent rfl (item_core hget) hmark)
      ⟨_, hcore, htab, hkind, hmark⟩ rfl
  | settleQuestion answerId =>
    have herase (task) (htask : task ∈ (run.answerTasks.erase answerId).rows)
        (hcalled : task.calledBack = false) :
        run.inbox.live.UnmarkedAnswer task.answerId :=
      h.answers task (Table.mem_erase.mp htask).1 hcalled
    simp only
    split
    · exact ⟨{ hrest with answers := herase }, .of_core_eq rfl⟩
    next item hget =>
      exact hrest.leads (settleQuestion_legal h.inbox.sent) outcome rfl rfl hrest.pumps herase
        hrest.critical
  | restartQuestion =>
    simp only
    split
    · exact hrest.refl
    · exact hrest.perform (restartQuestion_legal h.inbox.sent)

theorem Inv.answerDone (h : run.Inv) {item : ChatMessageEnvelope} {raised : Option SubmitException}
    (hget : run.inbox.live.messages.get? item.messageId = some item) :
    run.Leads (run.answerDone item raised now outcome) := by
  have hlegal := @finishAnswer_legal run.inbox.live run.inbox.closing item now h.inbox.sent
    (core_of_get? hget) raised
  unfold InboxRun.answerDone
  simp only
  split
  · refine h.leads hlegal outcome rfl rfl h.pumps h.answers ?_
    intro tabId id target hcrit
    simp at hcrit
  · refine h.leads hlegal outcome rfl rfl h.pumps ?_ h.critical
    exact fun task htask hcalled => h.answers task (Table.mem_erase.mp htask).1 hcalled

theorem Inv.crash (h : run.Inv) (hstep : run.crash = some next) : run.Leads next := by
  unfold InboxRun.crash at hstep
  split at hstep
  · simp at hstep
  next inbox hload =>
  cases hstep
  obtain ⟨-, -, rfl⟩ := Except.map_ok_iff.mp hload
  refine ⟨⟨⟨rfl, h.inbox.fileSent, h.inbox.fileSent, .of_core_eq rfl, h.inbox.nodup, ?_⟩,
    by simp, by simp, by simp⟩, h.inbox.ahead⟩
  intro id hid
  obtain ⟨c, hc, hmark⟩ := h.inbox.marked id hid
  obtain ⟨c', hc', -, hmark'⟩ := h.inbox.ahead id c hc
  exact ⟨c', hc', (hmark' hmark).1⟩

theorem Inv.atQuestion (h : run.Inv) {questionRef : QuestionRef}
    {effect : ChatQuestion → InboxEffect Unit}
    (hlegal : ∀ q, (effect q).Legal run.inbox.live) :
    run.Leads (run.atQuestion questionRef effect outcome) := by
  unfold InboxRun.atQuestion
  split
  · exact h.refl
  · exact h.perform (hlegal _)

theorem submitting_spec {id : MessageId} (h : run.submitting tabId = some id) :
    ∃ calledBack, run.pumps.get? tabId = some ⟨tabId, id, .submitting calledBack⟩ := by
  unfold InboxRun.submitting at h
  split at h
  next tab messageId calledBack hget =>
    cases h
    obtain rfl : tab = tabId := Table.key_of_get? hget
    exact ⟨calledBack, hget⟩
  · simp at h

theorem Inv.stepFree (h : run.Inv) {limits : InboxLimits} {op : InboxOp}
    (hcritical : run.critical = none) (hstep : run.stepFree limits op = some next) :
    run.Leads next := by
  have hsent := h.inbox.sent
  cases op with
    simp only [InboxRun.stepFree, Option.ite_none_left_eq_some, Option.map_eq_some_iff, not_or,
      Option.some.injEq, reduceCtorEq] at hstep
  | enqueue =>
    obtain ⟨⟨-, hnew⟩, rfl⟩ := hstep
    exact h.perform (enqueue_legal hsent (by simpa using hnew))
  | admitScheduled =>
    obtain rfl := hstep
    exact h.perform (admitScheduled_legal hsent)
  | cancelScheduled =>
    obtain rfl := hstep
    exact h.perform (cancelScheduled_legal hsent)
  | cancel =>
    obtain ⟨-, rfl⟩ := hstep
    exact h.perform (cancel_legal hsent)
  | completed =>
    obtain ⟨-, rfl⟩ := hstep
    exact h.perform (completed_legal hsent)
  | pump =>
    obtain ⟨-, rfl⟩ := hstep
    exact h.startPump hcritical
  | prepared tabId =>
    split at hstep
    next tab messageId hpump =>
      obtain rfl : tab = tabId := Table.key_of_get? hpump
      have hfree := h.pumps _ (Table.get?_eq_some.mp hpump).1 (by simp)
      split at hstep
      · cases hstep
        exact ⟨h.release tab, .of_core_eq rfl⟩
      next item hget =>
        cases hstep
        obtain ⟨c, hc, htab, hkind, hmark⟩ := hfree
        have hcore := core_of_get? hget
        obtain rfl : item.core = c := Option.some.inj (hcore.symm.trans hc)
        exact (h.release tab).pumpTurn (preparedHead_legal hsent (item_core hget) hmark)
          ⟨_, hcore, htab, hkind, hmark⟩ hcritical
    · simp at hstep
  | prepareFails =>
    split at hstep
    · split at hstep
      · simp at hstep
      next item hget =>
        cases hstep
        exact h.perform (change_legal_of_sent hsent rfl (item_core hget) rfl (by decide))
    · simp at hstep
  | beforeDelivery => exact h.beforeDelivery hcritical hstep
  | submitReturned tabId =>
    obtain ⟨-, id, -, rfl⟩ := hstep
    exact (h.release tabId).perform (submitReturned_legal hsent)
  | submitRaised tabId =>
    obtain ⟨-, id, -, rfl⟩ := hstep
    exact (h.release tabId).perform (submitRaised_redelivers.legal hsent)
  | reconcile =>
    obtain rfl := hstep
    exact ⟨⟨{ h.inbox with }, h.pumps, h.answers, h.critical⟩, .of_core_eq rfl⟩
  | observe =>
    obtain ⟨item, hget, rfl⟩ := hstep
    have hid := Table.key_of_get? hget
    exact h.observe (by rw [hid]; exact hget)
  | resolve seen proof probedDead restarting now outcome =>
    obtain ⟨-, rfl⟩ := hstep
    exact h.leads (resolve_redelivers.legal hsent) outcome rfl rfl h.pumps h.answers h.critical
  | prune =>
    obtain ⟨-, rfl⟩ := hstep
    exact h.perform (prune_legal hsent)
  | capture =>
    obtain ⟨-, rfl⟩ := hstep
    exact h.perform (capture_legal hsent)
  | claimAnswer =>
    obtain ⟨⟨-, hnew⟩, rfl⟩ := hstep
    exact h.perform (claimAnswer_legal hsent (by simpa using hnew))
  | pumpAnswer answerId now outcome =>
    split at hstep
    · simp at hstep
    next item hget =>
    simp only [Option.ite_none_left_eq_some, not_or, Option.some.injEq] at hstep
    obtain ⟨⟨hkind, -, hunsent, -⟩, rfl⟩ := hstep
    have hkind : item.kind = .questionAnswer := by simpa using hkind
    have hmark := unmarked_of_unsent hsent (item_core hget) (by simpa using hunsent)
    refine h.leads (change_legal_of_unmarked hsent rfl (item_core hget) hmark) outcome rfl rfl
      h.pumps
      ?_ h.critical
    intro task htask hcalled
    split at htask
    · rcases Table.mem_insert.mp htask with rfl | ⟨hold, -⟩
      · exact ⟨item.core, core_of_get? hget, hkind, hmark⟩
      · exact h.answers task hold hcalled
    · exact h.answers task htask hcalled
  | answerDone =>
    split at hstep
    next item htask hget =>
      cases hstep
      have hid := Table.key_of_get? hget
      exact h.answerDone (by rw [hid]; exact hget)
    · simp at hstep
  | turnStarted =>
    obtain rfl := hstep
    exact h.perform (Legal.of_core_eq hsent rfl)
  | turnCompleted =>
    obtain rfl := hstep
    exact h.perform (Legal.of_core_eq hsent rfl)
  | approvalResolved =>
    obtain rfl := hstep
    exact h.atQuestion fun q => approvalResolved_legal hsent
  | handoffPersisted =>
    obtain rfl := hstep
    exact h.atQuestion fun q => handoffPersisted_legal hsent
  | questionGone =>
    obtain rfl := hstep
    exact h.atQuestion fun q => questionGone_legal hsent
  | rememberNonce =>
    obtain ⟨-, rfl⟩ := hstep
    exact h.perform (rememberNonce_legal hsent)
  | mirrorQuestion =>
    obtain rfl := hstep
    exact h.atQuestion fun q => Legal.of_core_eq hsent rfl
  | flush =>
    obtain rfl := hstep
    exact h.perform (Legal.of_core_eq hsent rfl)
  | stop =>
    obtain rfl := hstep
    exact ⟨⟨{ h.inbox with }, h.pumps, h.answers, h.critical⟩, .of_core_eq rfl⟩

theorem Inv.step (h : run.Inv) {limits : InboxLimits} {op : InboxOp}
    (hstep : InboxRun.step limits run op = some next) : run.Leads next := by
  have hfree (hstep : (if run.critical.isSome then none else run.stepFree limits op) =
      some next) : run.Leads next := by
    simp only [Option.ite_none_left_eq_some] at hstep
    exact h.stepFree (by simpa using hstep.1) hstep.2
  cases op with
  | crash => exact h.crash hstep
  | resume =>
    cases hstep
    exact h.resume
  | _ => exact hfree hstep

end InboxRun

/-- Wherever the process crashes, a message whose mark was durably saved keeps it, is never queued
or chosen by a pump again, and reaches the provider only once. -/
theorem inbox_run_submits_at_most_once {limits : InboxLimits} {ops more : List InboxOp}
    {run next : InboxRun}
    (hrun : Run (InboxRun.step limits) (fun _ _ => True) {} ops run)
    (hmore : Run (InboxRun.step limits) (fun _ _ => True) run more next) :
    next.submitted.Nodup ∧ ∀ id ∈ run.submitted,
      ∃ m m', run.inbox.live.messages.get? id = some m ∧
        next.inbox.live.messages.get? id = some m' ∧
        m'.submissionStarted = true ∧ m'.state ≠ .queued ∧ m'.state ≠ .waiting ∧
        (m'.state = .dispatching → m.state = .dispatching) ∧
        ∀ tabId, next.inbox.live.head tabId ≠ some m' := by
  have hinv : run.Inv := hrun.invariant InboxRun.inv_init
    fun _ _ _ h _ hstep => (h.step hstep).1
  obtain ⟨hnext, hmoves⟩ := hmore.invariant hinv.refl fun mid op after hmid _ hstep =>
    ⟨(hmid.1.step hstep).1, hmid.2.trans (hmid.1.step hstep).2⟩
  refine ⟨hnext.inbox.nodup, fun id hid => ?_⟩
  obtain ⟨c, hc, hmark⟩ := hinv.inbox.marked id hid
  obtain ⟨c', hc', -, hmark'⟩ := hmoves id c hc
  obtain ⟨hmarked, hdisp⟩ := hmark' hmark
  obtain ⟨m, hm, rfl⟩ := Option.map_eq_some_iff.mp hc
  obtain ⟨m', hm', rfl⟩ := Option.map_eq_some_iff.mp hc'
  have hsent : m'.state.unsent = false := hnext.inbox.sent id _ hc' hmarked
  refine ⟨m, m', hm, hm', hmarked, ?_, ?_, hdisp, fun tabId hhead => ?_⟩
  · intro hstate
    simp [hstate, ChatMessageState.unsent] at hsent
  · intro hstate
    simp [hstate, ChatMessageState.unsent] at hsent
  · simp [(head_spec hhead).2.2.2] at hsent

private def markedOnce : List InboxOp :=
  [.enqueue "tab" "user" "User" none ⟨"hello", "call", none⟩ (.ok ⟨"run", none, none⟩) "m1" 1
      .saved,
    .pump "tab" false (.ok ⟨"run", none, none⟩) 2 .saved,
    .beforeDelivery "m1" (.ok ⟨"run", none, none⟩) .saved]

private def recoveredAfter : List InboxOp :=
  [.crash, .reconcile true, .observe "m1" true 3 .saved,
    .resolve ⟨"m1", .dispatching, 2, false⟩ .absent false true 4 .saved,
    .pump "tab" false (.ok ⟨"run", none, none⟩) 5 .saved]

/-- A message is marked and the process crashes; the next one finds no trace of the turn,
leaves the message undecided and does not pump it. -/
theorem inbox_run_submits_at_most_once_after_crash :
    ∃ next m', exec (InboxRun.step {}) {} (markedOnce ++ recoveredAfter) = some next ∧
      next.inbox.live.messages.get? "m1" = some m' ∧ m'.state = .uncertain ∧
      m'.submissionStarted = true ∧ next.submitted.Nodup := by
  have hends : ((exec (InboxRun.step {}) {} markedOnce).bind fun run =>
      (exec (InboxRun.step {}) run recoveredAfter).map fun next =>
        (run.submitted, (next.inbox.live.messages.get? "m1").map ChatMessageEnvelope.state)) =
      some (["m1"], some .uncertain) := by
    decide
  obtain ⟨run, hrun, hrest⟩ := Option.bind_eq_some_iff.mp hends
  obtain ⟨next, hnext, hpair⟩ := Option.map_eq_some_iff.mp hrest
  obtain ⟨hsubmitted, hstate⟩ := Prod.mk.inj hpair
  obtain ⟨m', hm', hstate⟩ := Option.map_eq_some_iff.mp hstate
  obtain ⟨hnodup, hmarked⟩ :=
    inbox_run_submits_at_most_once (Run.of_exec hrun) (Run.of_exec hnext)
  obtain ⟨m, other, -, hother, hmark, -⟩ := hmarked "m1" (by simp [hsubmitted])
  obtain rfl := Option.some.inj (hother.symm.trans hm')
  exact ⟨next, other, ((Run.of_exec hrun).append (Run.of_exec hnext)).exec_eq, hm', hstate, hmark,
    hnodup⟩

end ClaudeHub
