import ClaudeHub.Lib.Except
import ClaudeHub.TaskMailbox.Store

/-! # What a cold start does to the event stream

Loading sorts the saved events, numbers the backfilled ones past them and sets
the counter past both. `Loaded` is the summary that later proofs use; nothing
else about the load is unfolded outside this module.
-/

namespace ClaudeHub

@[simp] theorem maxSequence_nil : maxSequence [] = 0 := rfl

@[simp] theorem maxSequence_cons (event : TaskEvent) (events : List TaskEvent) :
    maxSequence (event :: events) = max event.sequence (maxSequence events) := rfl

@[simp] theorem maxSequence_append (events more : List TaskEvent) :
    maxSequence (events ++ more) = max (maxSequence events) (maxSequence more) := by
  induction events with
  | nil => simp
  | cons event events ih => simp [ih, Nat.max_assoc]

theorem le_maxSequence {event : TaskEvent} {events : List TaskEvent} (h : event ∈ events) :
    event.sequence ≤ maxSequence events := by
  induction events with
  | nil => simp at h
  | cons head events ih =>
    rcases List.mem_cons.mp h with rfl | htail
    · simp
    · have := ih htail
      rw [maxSequence_cons]
      omega

theorem maxSequence_le {events : List TaskEvent} {n : Nat}
    (h : ∀ event ∈ events, event.sequence ≤ n) : maxSequence events ≤ n := by
  induction events with
  | nil => simp
  | cons head events ih =>
    have hhead := h head (by simp)
    have htail := ih fun event hevent => h event (by simp [hevent])
    rw [maxSequence_cons]
    omega

theorem maxSequence_mono {events more : List TaskEvent} (h : ∀ event ∈ events, event ∈ more) :
    maxSequence events ≤ maxSequence more :=
  maxSequence_le fun event hevent => le_maxSequence (h event hevent)

theorem maxSequence_perm {events more : List TaskEvent} (h : events.Perm more) :
    maxSequence events = maxSequence more :=
  Nat.le_antisymm (maxSequence_mono fun _ hevent => h.mem_iff.mp hevent)
    (maxSequence_mono fun _ hevent => h.mem_iff.mpr hevent)

theorem sortBySequence_perm (events : List TaskEvent) : (sortBySequence events).Perm events :=
  List.perm_insertionSort _ events

namespace TaskMailbox

@[simp] theorem nextSequence_fst (mailbox : TaskMailbox) :
    mailbox.nextSequence.1 = mailbox.workspaceMaxSequence + 1 := rfl

theorem maxSequence_le_workspaceMaxSequence (mailbox : TaskMailbox) :
    maxSequence mailbox.events ≤ mailbox.workspaceMaxSequence := Nat.le_max_left _ _

end TaskMailbox

/-- The backfill has left the loaded events alone and has numbered its own past them. -/
structure Backfill.Numbered (events : List TaskEvent) (acc : Backfill) : Prop where
  events_eq : acc.mailbox.events = events
  above : ∀ event ∈ acc.added, maxSequence events < event.sequence
  below : ∀ event ∈ acc.added, event.sequence ≤ acc.mailbox.workspaceMaxSequence
  nodup : (acc.added.map TaskEvent.sequence).Nodup
  counter : acc.mailbox.nextSeq.getD 1 - 1 ≤ max (maxSequence events) (maxSequence acc.added)

variable {wm : WorkspaceManager}

theorem Backfill.Numbered.report {events : List TaskEvent} {acc acc' : Backfill}
    {item : AgentReport × WorkspaceTask} (hnum : acc.Numbered events)
    (h : Backfill.report wm acc item = .ok acc') : acc'.Numbered events := by
  obtain ⟨report, task⟩ := item
  simp only [Backfill.report] at h
  split at h
  · obtain rfl : acc = acc' := by simpa using h
    exact hnum
  · split at h
    · split at h
      · simp at h
      · obtain rfl : acc = acc' := by simpa using h
        exact hnum
    · have hmax := hnum.events_eq ▸ acc.mailbox.maxSequence_le_workspaceMaxSequence
      simp only [TaskMailbox.nextSequence, Except.ok.injEq] at h
      subst h
      refine ⟨hnum.events_eq, ?_, ?_, ?_, ?_⟩
      · intro event hevent
        rcases List.mem_append.mp hevent with hold | hnew
        · exact hnum.above event hold
        · obtain rfl := List.mem_singleton.mp hnew
          simp only [AppendRequest.event]
          omega
      · intro event hevent
        simp only [TaskMailbox.workspaceMaxSequence, Option.getD_some]
        rcases List.mem_append.mp hevent with hold | hnew
        · have := hnum.below event hold
          simp only [TaskMailbox.workspaceMaxSequence] at this
          omega
        · obtain rfl := List.mem_singleton.mp hnew
          simp only [AppendRequest.event, TaskMailbox.workspaceMaxSequence]
          omega
      · rw [List.map_append]
        refine List.nodup_append.mpr ⟨hnum.nodup, by simp, ?_⟩
        intro n hn m hm heq
        obtain ⟨event, hevent, rfl⟩ := List.mem_map.mp hn
        have hle := hnum.below event hevent
        simp only [List.map_cons, List.map_nil, List.mem_singleton, AppendRequest.event] at hm
        omega
      · simp only [AppendRequest.event, Option.getD_some, maxSequence_append, maxSequence_cons]
        omega

/-- The backfill adds events past the loaded ones, keeps those and leaves no
number unused between the last event and the counter. -/
theorem backfill_spec {mailbox filled : TaskMailbox} (hfresh : mailbox.nextSeq = none)
    (h : backfillReportTaskEvents wm mailbox = .ok filled) :
    ∃ added : List TaskEvent, filled.events.Perm (mailbox.events ++ added) ∧
      (∀ event ∈ added, maxSequence mailbox.events < event.sequence) ∧
      (added.map TaskEvent.sequence).Nodup ∧
      filled.workspaceMaxSequence = maxSequence filled.events := by
  obtain ⟨acc, hacc, hfilled⟩ := Except.bind_ok_iff.mp h
  have hnum : acc.Numbered mailbox.events :=
    Except.foldlM_invariant (fun _ _ _ hnum hitem => Backfill.Numbered.report hnum hitem)
      ⟨rfl, by simp, by simp, by simp, by simp [hfresh]⟩ hacc
  have hperm : filled.events.Perm (mailbox.events ++ acc.added) ∧
      filled.nextSeq = acc.mailbox.nextSeq := by
    rw [← Except.pure_ok_iff.mp hfilled]
    by_cases hnone : acc.added = []
    · simp [hnone, hnum.events_eq]
    · simp only [hnone, if_false, and_true, ← hnum.events_eq]
      exact sortBySequence_perm _
  refine ⟨acc.added, hperm.1, hnum.above, hnum.nodup, ?_⟩
  have hcounter := hnum.counter
  rw [TaskMailbox.workspaceMaxSequence, hperm.2, maxSequence_perm hperm.1, maxSequence_append]
  omega

theorem backfill_added {mailbox filled : TaskMailbox}
    (h : backfillReportTaskEvents wm mailbox = .ok filled) {event : TaskEvent}
    (hevent : event ∈ filled.events) :
    event ∈ mailbox.events ∨ ∃ id, event.callId = .report id := by
  obtain ⟨acc, hacc, hfilled⟩ := Except.bind_ok_iff.mp h
  have hinv : acc.mailbox.events = mailbox.events ∧
      ∀ event ∈ acc.added, ∃ id, event.callId = .report id := by
    refine Except.foldlM_invariant (P := fun acc : Backfill =>
      acc.mailbox.events = mailbox.events ∧
        ∀ event ∈ acc.added, ∃ id, event.callId = .report id) ?_ ⟨rfl, by simp⟩ hacc
    rintro acc ⟨report, task⟩ acc' ⟨hevents, hadded⟩ hitem
    simp only [Backfill.report] at hitem
    split at hitem
    · obtain rfl : acc = acc' := by simpa using hitem
      exact ⟨hevents, hadded⟩
    · split at hitem
      · split at hitem
        · simp at hitem
        · obtain rfl : acc = acc' := by simpa using hitem
          exact ⟨hevents, hadded⟩
      · simp only [TaskMailbox.nextSequence, Except.ok.injEq] at hitem
        subst hitem
        refine ⟨hevents, fun event hevent => ?_⟩
        rcases List.mem_append.mp hevent with hold | hnew
        · exact hadded event hold
        · obtain rfl := List.mem_singleton.mp hnew
          exact ⟨report.id, rfl⟩
  rw [← Except.pure_ok_iff.mp hfilled] at hevent
  split at hevent
  · exact .inl (hinv.1 ▸ hevent)
  · rcases List.mem_append.mp ((sortBySequence_perm _).mem_iff.mp hevent) with hold | hnew
    · exact .inl (hinv.1 ▸ hold)
    · exact .inr (hinv.2 event hnew)

def CallIndex.add (calls : CallIndex) (event : TaskEvent) : Except HubError CallIndex :=
  match calls.get? event.callId with
  | some existing =>
    if existing.action ≠ event.action ∨ existing.target ≠ event.target ∨
        existing.fingerprint ≠ event.fingerprint then
      .error (.callIdConflict event.callId event.action event.target existing)
    else .ok calls
  | none =>
    .ok (calls.insert ⟨event.callId, event.action, event.target, event.fingerprint, event⟩)

theorem rebuildCallIndex_eq (events : List TaskEvent) :
    rebuildCallIndex events = events.foldlM CallIndex.add Table.empty := rfl

private theorem foldlM_calls {events : List TaskEvent} {start calls : CallIndex}
    (h : events.foldlM CallIndex.add start = .ok calls) :
    (∀ callId, (start.get? callId).isSome → (calls.get? callId).isSome) ∧
      (∀ event ∈ events, (calls.get? event.callId).isSome) ∧
      ∀ record ∈ calls.rows, record ∈ start.rows ∨
        record.event ∈ events ∧ record.event.callId = record.callId := by
  induction events generalizing start with
  | nil =>
    obtain rfl : start = calls := Except.pure_ok_iff.mp h
    exact ⟨fun _ hsome => hsome, by simp, fun record hrecord => .inl hrecord⟩
  | cons event events ih =>
    rw [List.foldlM_cons] at h
    obtain ⟨mid, hmid, hrest⟩ := Except.bind_ok_iff.mp h
    obtain ⟨hkeeps, hcovers, hrecords⟩ := ih hrest
    have hhead : (∀ callId, (start.get? callId).isSome → (mid.get? callId).isSome) ∧
        (mid.get? event.callId).isSome ∧ ∀ record ∈ mid.rows, record ∈ start.rows ∨
          record.event = event ∧ record.event.callId = record.callId := by
      unfold CallIndex.add at hmid
      cases hget : start.get? event.callId with
      | some =>
        simp only [hget] at hmid
        split at hmid
        · contradiction
        · cases hmid
          exact ⟨fun _ hsome => hsome, by simp [hget], fun record hrecord => .inl hrecord⟩
      | none =>
        simp only [hget, Except.ok.injEq] at hmid
        subst hmid
        refine ⟨fun callId hsome => ?_, ?_, fun record hrecord => ?_⟩
        · rw [Table.get?_insert]
          split
          · rfl
          · exact hsome
        · rw [Table.get?_insert, if_pos rfl]
          rfl
        · rcases Table.mem_insert.mp hrecord with rfl | ⟨hold, -⟩
          · exact .inr ⟨rfl, rfl⟩
          · exact .inl hold
    refine ⟨fun callId hsome => hkeeps callId (hhead.1 callId hsome), ?_, ?_⟩
    · intro other hother
      rcases List.mem_cons.mp hother with rfl | hlater
      · exact hkeeps _ hhead.2.1
      · exact hcovers other hlater
    · intro record hrecord
      rcases hrecords record hrecord with hmid | ⟨hevent, hcall⟩
      · rcases hhead.2.2 record hmid with hstart | ⟨hevent, hcall⟩
        · exact .inl hstart
        · exact .inr ⟨hevent ▸ List.mem_cons_self .., hcall⟩
      · exact .inr ⟨List.mem_cons_of_mem _ hevent, hcall⟩

theorem rebuildCallIndex_spec {events : List TaskEvent} {calls : CallIndex}
    (h : rebuildCallIndex events = .ok calls) :
    (∀ event ∈ events, (calls.get? event.callId).isSome) ∧
      ∀ record ∈ calls.rows, record.event ∈ events ∧ record.event.callId = record.callId := by
  obtain ⟨-, hcovers, hrecords⟩ := foldlM_calls h
  refine ⟨hcovers, fun record hrecord => ?_⟩
  rcases hrecords record hrecord with hstart | hevent
  · exact absurd hstart (by simp)
  · exact hevent

/-- A process after loading a payload: the saved records, the saved events and
the backfilled ones numbered past them, and a counter just past the last event. -/
structure Loaded (state : WorkspaceState) (wm : WorkspaceManager) (added : List TaskEvent) :
    Prop where
  tasks : wm.tasks = state.tasks
  events : wm.mailbox.events.Perm (state.taskEvents ++ added)
  above : ∀ event ∈ added, maxSequence state.taskEvents < event.sequence
  nodup : (added.map TaskEvent.sequence).Nodup
  counter : wm.mailbox.nextSeq = some (maxSequence wm.mailbox.events + 1)

variable {state : WorkspaceState}

theorem load_spec (h : state.load = .ok wm) : ∃ added, Loaded state wm added := by
  obtain ⟨mailbox, hload, hwm⟩ := Except.bind_ok_iff.mp h
  obtain rfl := Except.pure_ok_iff.mp hwm
  obtain ⟨calls, -, hload⟩ := Except.bind_ok_iff.mp hload
  obtain ⟨filled, hfilled, hload⟩ := Except.bind_ok_iff.mp hload
  obtain ⟨calls', -, hload⟩ := Except.bind_ok_iff.mp hload
  obtain rfl := Except.pure_ok_iff.mp hload
  obtain ⟨added, hperm, habove, hnodup, hmax⟩ := backfill_spec rfl hfilled
  have hsaved := sortBySequence_perm state.taskEvents
  refine ⟨added, rfl, hperm.trans (hsaved.append_right added), ?_, hnodup, ?_⟩
  · intro event hevent
    rw [← maxSequence_perm hsaved]
    exact habove event hevent
  · exact congrArg (fun n => some (n + 1)) hmax

theorem load_calls (h : state.load = .ok wm) :
    rebuildCallIndex wm.mailbox.events = .ok wm.mailbox.callIndex ∧
      ∀ event ∈ wm.mailbox.events, event ∈ state.taskEvents ∨ ∃ id, event.callId = .report id := by
  obtain ⟨mailbox, hload, hwm⟩ := Except.bind_ok_iff.mp h
  obtain rfl := Except.pure_ok_iff.mp hwm
  obtain ⟨calls, -, hload⟩ := Except.bind_ok_iff.mp hload
  obtain ⟨filled, hfilled, hload⟩ := Except.bind_ok_iff.mp hload
  obtain ⟨calls', hcalls, hload⟩ := Except.bind_ok_iff.mp hload
  obtain rfl := Except.pure_ok_iff.mp hload
  refine ⟨hcalls, fun event hevent => ?_⟩
  rcases backfill_added hfilled hevent with hold | hreport
  · exact .inl ((sortBySequence_perm state.taskEvents).mem_iff.mp hold)
  · exact .inr hreport

theorem Loaded.workspaceMaxSequence {added : List TaskEvent} (h : Loaded state wm added) :
    wm.mailbox.workspaceMaxSequence = max (maxSequence state.taskEvents) (maxSequence added) := by
  rw [TaskMailbox.workspaceMaxSequence, h.counter, maxSequence_perm h.events, maxSequence_append]
  simp

end ClaudeHub
