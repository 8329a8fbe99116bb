import ClaudeHub.TaskMailbox.Run

/-! # Sequence numbers and cursors over whole runs

The counter lives in memory and is rebuilt from the surviving events, while
cursors are saved with other tasks. The two stay in step across every restart
that still finds the largest number issued on a saved event, and then no event
is hidden and no number is used twice. A restart that does not find it hands
the same number out again.
-/

namespace ClaudeHub

open StepSystem

def CursorsBehind (tasks : TaskTable) (ledger : List Issued) : Prop :=
  ∀ task ∈ tasks.rows, ∀ issued ∈ ledger, issued.event.consumerKey = .task task.id →
    issued.acked = false → issued.purged = false →
      task.consumerAckSequence < issued.event.sequence

/-- The process agrees with the ledger. -/
structure LiveOk (tasks : TaskTable) (mailbox : TaskMailbox) (ledger : List Issued) : Prop where
  counted : maxSequence mailbox.events ≤ mailbox.nextSeq.getD 1 - 1
  issued : ∀ event ∈ mailbox.events, ∃ issued ∈ ledger, issued.event = event
  present : ∀ issued ∈ ledger, issued.purged = false → issued.event ∈ mailbox.events
  distinct : (mailbox.events.map TaskEvent.sequence).Nodup
  behind : CursorsBehind tasks ledger
  bounded : ∀ task ∈ tasks.rows, task.consumerAckSequence ≤ mailbox.workspaceMaxSequence
  numbered : ∀ issued ∈ ledger, issued.event.sequence ≤ mailbox.workspaceMaxSequence
  positive : ∀ issued ∈ ledger, 0 < issued.event.sequence

/-- The state file agrees with the ledger, up to an event whose append raised
after the file had been replaced. -/
structure SavedOk (state : WorkspaceState) (issuedMax : Nat) (ledger : List Issued) : Prop where
  distinct : (state.taskEvents.map TaskEvent.sequence).Nodup
  positive : ∀ event ∈ state.taskEvents, 0 < event.sequence
  behind : CursorsBehind state.tasks ledger
  bounded : ∀ task ∈ state.tasks.rows, task.consumerAckSequence ≤ issuedMax
  stray : ∀ event ∈ state.taskEvents, (∃ issued ∈ ledger, issued.event = event) ∨
    ((∀ task ∈ state.tasks.rows, task.consumerAckSequence < event.sequence) ∧
      ∀ issued ∈ ledger, issued.event.sequence = event.sequence → issued.purged = false)

structure MailboxRun.Inv (run : MailboxRun) : Prop where
  live : LiveOk run.hub.live.tasks run.hub.live.mailbox run.ledger
  saved : SavedOk run.hub.saved run.hub.live.mailbox.workspaceMaxSequence run.ledger
  unique : run.SequencesUnique

theorem LiveOk.workspaceMax {tasks : TaskTable} {mailbox : TaskMailbox} {ledger : List Issued}
    (h : LiveOk tasks mailbox ledger) :
    mailbox.workspaceMaxSequence = mailbox.nextSeq.getD 1 - 1 := by
  have := h.counted
  unfold TaskMailbox.workspaceMaxSequence
  omega

variable {wm : WorkspaceManager}

theorem LiveOk.payload {ledger : List Issued} (h : LiveOk wm.tasks wm.mailbox ledger) :
    SavedOk wm.workspaceStatePayload wm.mailbox.workspaceMaxSequence ledger where
  distinct := h.distinct
  positive := by
    intro event hevent
    obtain ⟨issued, hissued, rfl⟩ := h.issued event hevent
    exact h.positive issued hissued
  behind := h.behind
  bounded := h.bounded
  stray := fun event hevent => .inl (h.issued event hevent)

theorem MailboxRun.Inv.noEventHidden {run : MailboxRun} (h : run.Inv) : run.NoEventHidden := by
  intro issued hissued hacked hpurged cursor hcursor
  obtain ⟨task, htask, rfl⟩ := Except.map_ok_iff.mp hcursor
  obtain ⟨hkey, hget⟩ := consumerTask_ok htask
  have hlt := h.live.behind task (Table.get?_eq_some.mp hget).1 issued hissued hkey hacked hpurged
  refine ⟨hlt, _, by simp [WorkspaceManager.wait, hcursor, bind, Except.bind, pure, Except.pure]; rfl, ?_⟩
  simp [hlt, h.live.present issued hissued hpurged]

/-! ## One step preserves the invariant -/

section Step

variable {tasks : TaskTable} {mailbox : TaskMailbox} {state : WorkspaceState}
  {ledger : List Issued} {run : MailboxRun}

variable {mailbox' : TaskMailbox} {event : TaskEvent}

theorem LiveOk.append (h : LiveOk tasks mailbox ledger)
    (hseq : event.sequence = mailbox.workspaceMaxSequence + 1)
    (hevents : mailbox'.events = mailbox.events ++ [event])
    (hnext : mailbox'.nextSeq = some (event.sequence + 1)) :
    LiveOk tasks mailbox' (ledger ++ [⟨event, false, false⟩]) ∧
      mailbox'.workspaceMaxSequence = event.sequence := by
  have hmax : maxSequence mailbox.events ≤ mailbox.workspaceMaxSequence :=
    mailbox.maxSequence_le_workspaceMaxSequence
  have hmax' : mailbox'.workspaceMaxSequence = event.sequence := by
    rw [TaskMailbox.workspaceMaxSequence, hevents, hnext, maxSequence_append]
    simp only [maxSequence_cons, maxSequence_nil, Option.getD_some]
    omega
  refine ⟨⟨?_, ?_, ?_, ?_, ?_, ?_, ?_, ?_⟩, hmax'⟩
  · rw [hevents, hnext, maxSequence_append]
    simp only [maxSequence_cons, maxSequence_nil, Option.getD_some]
    omega
  · intro e he
    rw [hevents] at he
    rcases List.mem_append.mp he with hold | hnew
    · obtain ⟨issued, hissued, rfl⟩ := h.issued e hold
      exact ⟨issued, List.mem_append_left _ hissued, rfl⟩
    · obtain rfl := List.mem_singleton.mp hnew
      exact ⟨⟨e, false, false⟩, by simp, rfl⟩
  · intro issued hissued hpurged
    rw [hevents]
    rcases List.mem_append.mp hissued with hold | hnew
    · exact List.mem_append_left _ (h.present issued hold hpurged)
    · obtain rfl := List.mem_singleton.mp hnew
      simp
  · rw [hevents, List.map_append]
    refine List.nodup_append.mpr ⟨h.distinct, by simp, ?_⟩
    intro n hn m hm
    obtain ⟨e, he, rfl⟩ := List.mem_map.mp hn
    have hle := le_maxSequence he
    simp only [List.map_cons, List.map_nil, List.mem_singleton] at hm
    omega
  · intro task htask issued hissued hkey hacked hpurged
    rcases List.mem_append.mp hissued with hold | hnew
    · exact h.behind task htask issued hold hkey hacked hpurged
    · obtain rfl := List.mem_singleton.mp hnew
      have := h.bounded task htask
      simp only
      omega
  · intro task htask
    have := h.bounded task htask
    omega
  · intro issued hissued
    rw [hmax']
    rcases List.mem_append.mp hissued with hold | hnew
    · have := h.numbered issued hold
      omega
    · obtain rfl := List.mem_singleton.mp hnew
      exact Nat.le_refl _
  · intro issued hissued
    rcases List.mem_append.mp hissued with hold | hnew
    · exact h.positive issued hold
    · obtain rfl := List.mem_singleton.mp hnew
      simp only
      omega

theorem SavedOk.append {issuedMax : Nat} (h : SavedOk state issuedMax ledger)
    (hseq : event.sequence = issuedMax + 1) :
    SavedOk state event.sequence (ledger ++ [⟨event, false, false⟩]) where
  distinct := h.distinct
  positive := h.positive
  behind := by
    intro task htask issued hissued hkey hacked hpurged
    rcases List.mem_append.mp hissued with hold | hnew
    · exact h.behind task htask issued hold hkey hacked hpurged
    · obtain rfl := List.mem_singleton.mp hnew
      have := h.bounded task htask
      simp only
      omega
  bounded := by
    intro task htask
    have := h.bounded task htask
    omega
  stray := by
    intro e he
    rcases h.stray e he with ⟨issued, hissued, rfl⟩ | ⟨hcursors, hnone⟩
    · exact .inl ⟨issued, List.mem_append_left _ hissued, rfl⟩
    · refine .inr ⟨hcursors, ?_⟩
      intro issued hissued heq
      rcases List.mem_append.mp hissued with hold | hnew
      · exact hnone issued hold heq
      · obtain rfl := List.mem_singleton.mp hnew
        rfl

theorem LiveOk.stagedPayload (h : LiveOk wm.tasks wm.mailbox ledger)
    (hseq : event.sequence = wm.mailbox.workspaceMaxSequence + 1)
    (hevents : mailbox'.events = wm.mailbox.events ++ [event]) :
    SavedOk { wm with mailbox := mailbox' }.workspaceStatePayload
      wm.mailbox.workspaceMaxSequence ledger where
  distinct := by
    simp only [WorkspaceManager.workspaceStatePayload, hevents, List.map_append]
    refine List.nodup_append.mpr ⟨h.distinct, by simp, ?_⟩
    intro n hn m hm
    obtain ⟨e, he, rfl⟩ := List.mem_map.mp hn
    have hle := le_maxSequence he
    have hmax := wm.mailbox.maxSequence_le_workspaceMaxSequence
    simp only [List.map_cons, List.map_nil, List.mem_singleton] at hm
    omega
  positive := by
    intro e he
    simp only [WorkspaceManager.workspaceStatePayload, hevents] at he
    rcases List.mem_append.mp he with hold | hnew
    · exact h.payload.positive e hold
    · obtain rfl := List.mem_singleton.mp hnew
      omega
  behind := h.behind
  bounded := h.bounded
  stray := by
    intro e he
    simp only [WorkspaceManager.workspaceStatePayload, hevents] at he
    rcases List.mem_append.mp he with hold | hnew
    · exact .inl (h.issued e hold)
    · obtain rfl := List.mem_singleton.mp hnew
      refine .inr ⟨?_, ?_⟩
      · intro task htask
        have := h.bounded task htask
        omega
      · intro issued hissued heq
        have := h.numbered issued hissued
        omega

theorem LiveOk.unstage (h : LiveOk tasks mailbox ledger)
    (hseq : event.sequence = mailbox.workspaceMaxSequence + 1)
    (hevents : mailbox'.events = mailbox.events ++ [event]) :
    LiveOk tasks (WorkspaceManager.unstage mailbox' event) ledger ∧
      (WorkspaceManager.unstage mailbox' event).workspaceMaxSequence =
        mailbox.workspaceMaxSequence := by
  have hold : (WorkspaceManager.unstage mailbox' event).events = mailbox.events := by
    simp [WorkspaceManager.unstage, hevents]
  have hmax := mailbox.maxSequence_le_workspaceMaxSequence
  have hmax' : (WorkspaceManager.unstage mailbox' event).workspaceMaxSequence =
      mailbox.workspaceMaxSequence := by
    rw [TaskMailbox.workspaceMaxSequence, hold]
    simp only [WorkspaceManager.unstage, Option.getD_some]
    omega
  refine ⟨⟨?_, ?_, ?_, ?_, h.behind, ?_, ?_, h.positive⟩, hmax'⟩
  · rw [hold]
    simp only [WorkspaceManager.unstage, Option.getD_some]
    omega
  · rw [hold]
    exact h.issued
  · rw [hold]
    exact h.present
  · rw [hold]
    exact h.distinct
  · rw [hmax']
    exact h.bounded
  · rw [hmax']
    exact h.numbered

/-! ### Acknowledgements -/

@[simp] theorem Issued.markAcked_event (key : ConsumerKey) (sequence : Nat) (issued : Issued) :
    (issued.markAcked key sequence).event = issued.event := by
  unfold Issued.markAcked
  split <;> rfl

@[simp] theorem Issued.markAcked_purged (key : ConsumerKey) (sequence : Nat) (issued : Issued) :
    (issued.markAcked key sequence).purged = issued.purged := by
  unfold Issued.markAcked
  split <;> rfl

theorem Issued.acked_of_markAcked {key : ConsumerKey} {sequence : Nat} {issued : Issued}
    (h : (issued.markAcked key sequence).acked = false) :
    issued.acked = false ∧ (issued.event.consumerKey = key → sequence < issued.event.sequence) := by
  unfold Issued.markAcked at h
  split at h
  · simp at h
  · next hnot =>
      refine ⟨h, fun hkey => ?_⟩
      by_contra hle
      exact hnot ⟨hkey, by omega⟩

theorem CursorsBehind.markAcked (h : CursorsBehind tasks ledger) (key : ConsumerKey)
    (sequence : Nat) : CursorsBehind tasks (ledger.map (Issued.markAcked key sequence)) := by
  intro task htask issued hissued hkey hacked hpurged
  obtain ⟨before, hbefore, rfl⟩ := List.mem_map.mp hissued
  rw [Issued.markAcked_event] at hkey ⊢
  rw [Issued.markAcked_purged] at hpurged
  exact h task htask before hbefore hkey (Issued.acked_of_markAcked hacked).1 hpurged

theorem CursorsBehind.ack (h : CursorsBehind tasks ledger) (task : WorkspaceTask)
    (sequence : Nat) :
    CursorsBehind (tasks.insert { task with consumerAckSequence := sequence })
      (ledger.map (Issued.markAcked (.task task.id) sequence)) := by
  intro other hother issued hissued hkey hacked hpurged
  rcases Table.mem_insert.mp hother with rfl | ⟨hold, -⟩
  · obtain ⟨before, hbefore, rfl⟩ := List.mem_map.mp hissued
    rw [Issued.markAcked_event] at hkey ⊢
    exact (Issued.acked_of_markAcked hacked).2 hkey
  · exact h.markAcked _ _ other hold issued hissued hkey hacked hpurged

theorem LiveOk.markAcked (h : LiveOk tasks mailbox ledger) (key : ConsumerKey) (sequence : Nat) :
    LiveOk tasks mailbox (ledger.map (Issued.markAcked key sequence)) where
  counted := h.counted
  issued := by
    intro event hevent
    obtain ⟨issued, hissued, rfl⟩ := h.issued event hevent
    exact ⟨_, List.mem_map_of_mem hissued, by simp⟩
  present := by
    intro issued hissued hpurged
    obtain ⟨before, hbefore, rfl⟩ := List.mem_map.mp hissued
    simpa using h.present before hbefore (by simpa using hpurged)
  distinct := h.distinct
  behind := h.behind.markAcked key sequence
  bounded := h.bounded
  numbered := by
    intro issued hissued
    obtain ⟨before, hbefore, rfl⟩ := List.mem_map.mp hissued
    simpa using h.numbered before hbefore
  positive := by
    intro issued hissued
    obtain ⟨before, hbefore, rfl⟩ := List.mem_map.mp hissued
    simpa using h.positive before hbefore

theorem LiveOk.ack (h : LiveOk tasks mailbox ledger) (task : WorkspaceTask) {sequence : Nat}
    (hmax : sequence ≤ mailbox.workspaceMaxSequence) :
    LiveOk (tasks.insert { task with consumerAckSequence := sequence }) mailbox
      (ledger.map (Issued.markAcked (.task task.id) sequence)) :=
  { h.markAcked (.task task.id) sequence with
    behind := h.behind.ack task sequence
    bounded := by
      intro other hother
      rcases Table.mem_insert.mp hother with rfl | ⟨hold, -⟩
      · exact hmax
      · exact h.bounded other hold }

theorem SavedOk.markAcked {issuedMax : Nat} (h : SavedOk state issuedMax ledger)
    (key : ConsumerKey) (sequence : Nat) :
    SavedOk state issuedMax (ledger.map (Issued.markAcked key sequence)) where
  distinct := h.distinct
  positive := h.positive
  behind := h.behind.markAcked key sequence
  bounded := h.bounded
  stray := by
    intro event hevent
    rcases h.stray event hevent with ⟨issued, hissued, rfl⟩ | ⟨hcursors, hnone⟩
    · exact .inl ⟨_, List.mem_map_of_mem hissued, by simp⟩
    · refine .inr ⟨hcursors, ?_⟩
      intro issued hissued heq
      obtain ⟨before, hbefore, rfl⟩ := List.mem_map.mp hissued
      simpa using hnone before hbefore (by simpa using heq)

/-! ### Deletions -/

@[simp] theorem Issued.markPurged_event (taskId : TaskId) (issued : Issued) :
    (issued.markPurged taskId).event = issued.event := by
  unfold Issued.markPurged
  split <;> rfl

@[simp] theorem Issued.markPurged_acked (taskId : TaskId) (issued : Issued) :
    (issued.markPurged taskId).acked = issued.acked := by
  unfold Issued.markPurged
  split <;> rfl

theorem Issued.purged_of_markPurged {taskId : TaskId} {issued : Issued}
    (h : (issued.markPurged taskId).purged = false) :
    issued.purged = false ∧ issued.event.taskId ≠ taskId := by
  unfold Issued.markPurged at h
  split at h
  · simp at h
  · next hne => exact ⟨h, hne⟩

theorem LiveOk.purge (h : LiveOk tasks mailbox ledger) (taskId : TaskId)
    (hevents : mailbox'.events = mailbox.events.filter fun event => event.taskId ≠ taskId)
    (hnext : mailbox'.nextSeq = mailbox.nextSeq) :
    LiveOk (tasks.erase taskId) mailbox' (ledger.map (Issued.markPurged taskId)) ∧
      mailbox'.workspaceMaxSequence = mailbox.workspaceMaxSequence := by
  have hle : maxSequence mailbox'.events ≤ maxSequence mailbox.events := by
    rw [hevents]
    exact maxSequence_mono fun event hevent => (List.mem_filter.mp hevent).1
  have hcounted := h.counted
  have hmax : mailbox'.workspaceMaxSequence = mailbox.workspaceMaxSequence := by
    rw [h.workspaceMax, TaskMailbox.workspaceMaxSequence, hnext]
    omega
  refine ⟨⟨?_, ?_, ?_, ?_, ?_, ?_, ?_, ?_⟩, hmax⟩
  · rw [hnext]
    omega
  · intro event hevent
    rw [hevents] at hevent
    obtain ⟨issued, hissued, rfl⟩ := h.issued event (List.mem_filter.mp hevent).1
    exact ⟨_, List.mem_map_of_mem hissued, by simp⟩
  · intro issued hissued hpurged
    obtain ⟨before, hbefore, rfl⟩ := List.mem_map.mp hissued
    obtain ⟨hkept, hne⟩ := Issued.purged_of_markPurged hpurged
    rw [hevents, Issued.markPurged_event]
    exact List.mem_filter.mpr ⟨h.present before hbefore hkept, by simpa using hne⟩
  · rw [hevents]
    exact h.distinct.sublist (List.filter_sublist.map _)
  · intro task htask issued hissued hkey hacked hpurged
    obtain ⟨before, hbefore, rfl⟩ := List.mem_map.mp hissued
    rw [Issued.markPurged_event] at hkey ⊢
    rw [Issued.markPurged_acked] at hacked
    exact h.behind task (Table.mem_erase.mp htask).1 before hbefore hkey hacked
      (Issued.purged_of_markPurged hpurged).1
  · intro task htask
    rw [hmax]
    exact h.bounded task (Table.mem_erase.mp htask).1
  · intro issued hissued
    obtain ⟨before, hbefore, rfl⟩ := List.mem_map.mp hissued
    rw [hmax, Issued.markPurged_event]
    exact h.numbered before hbefore
  · intro issued hissued
    obtain ⟨before, hbefore, rfl⟩ := List.mem_map.mp hissued
    rw [Issued.markPurged_event]
    exact h.positive before hbefore

theorem SavedOk.ofPurge {wm wm' : WorkspaceManager} (h : LiveOk wm.tasks wm.mailbox ledger)
    {taskId : TaskId} (htasks : wm'.tasks = wm.tasks.erase taskId)
    (hevents : wm'.mailbox.events = wm.mailbox.events.filter fun event => event.taskId ≠ taskId) :
    SavedOk wm'.workspaceStatePayload wm.mailbox.workspaceMaxSequence ledger where
  distinct := by
    simp only [WorkspaceManager.workspaceStatePayload, hevents]
    exact h.distinct.sublist (List.filter_sublist.map _)
  positive := by
    intro event hevent
    simp only [WorkspaceManager.workspaceStatePayload, hevents] at hevent
    exact h.payload.positive event (List.mem_filter.mp hevent).1
  behind := by
    intro task htask
    simp only [WorkspaceManager.workspaceStatePayload, htasks] at htask
    exact h.behind task (Table.mem_erase.mp htask).1
  bounded := by
    intro task htask
    simp only [WorkspaceManager.workspaceStatePayload, htasks] at htask
    exact h.bounded task (Table.mem_erase.mp htask).1
  stray := by
    intro event hevent
    simp only [WorkspaceManager.workspaceStatePayload, hevents] at hevent
    exact .inl (h.issued event (List.mem_filter.mp hevent).1)

/-! ### Restarts -/

theorem MailboxRun.mem_recordLoaded {events : List TaskEvent} {issued : Issued} :
    issued ∈ recordLoaded ledger events ↔ issued ∈ ledger ∨
      (issued.event ∈ events ∧ (∀ before ∈ ledger, before.event ≠ issued.event) ∧
        issued.acked = false ∧ issued.purged = false) := by
  obtain ⟨event, acked, purged⟩ := issued
  simp only [recordLoaded, List.mem_append, List.mem_map, List.mem_filter, Issued.mk.injEq,
    decide_eq_true_eq]
  constructor
  · rintro (hold | ⟨e, ⟨he, hnew⟩, rfl, rfl, rfl⟩)
    · exact .inl hold
    · exact .inr ⟨he, fun before hbefore heq => hnew ⟨before, hbefore, heq⟩, rfl, rfl⟩
  · rintro (hold | ⟨he, hnew, rfl, rfl⟩)
    · exact .inl hold
    · refine .inr ⟨event, ⟨he, ?_⟩, rfl, rfl, rfl⟩
      rintro ⟨before, hbefore, heq⟩
      exact hnew before hbefore heq

theorem loaded_stray {hub : Hub} {added : List TaskEvent}
    (hlive : LiveOk hub.live.tasks hub.live.mailbox ledger)
    (hsaved : SavedOk hub.saved hub.live.mailbox.workspaceMaxSequence ledger)
    (hsafe : hub.RestartSafe) (hload : Loaded hub.saved wm added) (event : TaskEvent)
    (hevent : event ∈ wm.mailbox.events) (hnew : ∀ before ∈ ledger, before.event ≠ event) :
    (∀ task ∈ hub.saved.tasks.rows, task.consumerAckSequence < event.sequence) ∧
      (∀ before ∈ ledger, before.event.sequence ≠ event.sequence) ∧ 0 < event.sequence := by
  rcases List.mem_append.mp (hload.events.mem_iff.mp hevent) with hold | hadded
  · rcases hsaved.stray event hold with ⟨before, hbefore, heq⟩ | ⟨hcursors, hkept⟩
    · exact (hnew before hbefore heq).elim
    · refine ⟨hcursors, ?_, hsaved.positive event hold⟩
      intro before hbefore heq
      have hpresent := hlive.present before hbefore (hkept before hbefore heq)
      have hsame := List.inj_on_of_nodup_map hsaved.distinct (hsafe.1 _ hpresent) hold heq
      exact hnew before hbefore hsame
  · have habove := hload.above event hadded
    have hmax := hsafe.2
    refine ⟨?_, ?_, by omega⟩
    · intro task htask
      have := hsaved.bounded task htask
      omega
    · intro before hbefore
      have := hlive.numbered before hbefore
      omega

theorem MailboxRun.Inv.restart (h : run.Inv) (hsafe : run.hub.RestartSafe)
    (hload : run.hub.saved.load = .ok wm) : MailboxRun.Inv ⟨{ run.hub with live := wm },
      recordLoaded run.ledger wm.mailbox.events⟩ := by
  obtain ⟨added, hload⟩ := load_spec hload
  have hstray := loaded_stray h.live h.saved hsafe hload
  have hmax : run.hub.live.mailbox.workspaceMaxSequence ≤ wm.mailbox.workspaceMaxSequence := by
    have := hsafe.2
    rw [hload.workspaceMaxSequence]
    omega
  have hloaded : ∀ event ∈ run.hub.saved.taskEvents, event ∈ wm.mailbox.events :=
    fun event hevent => hload.events.mem_iff.mpr (List.mem_append_left _ hevent)
  have hdistinct : (wm.mailbox.events.map TaskEvent.sequence).Nodup := by
    refine (hload.events.map _).nodup_iff.mpr ?_
    rw [List.map_append]
    refine List.nodup_append.mpr ⟨h.saved.distinct, hload.nodup, ?_⟩
    intro n hn m hm
    obtain ⟨event, hevent, rfl⟩ := List.mem_map.mp hn
    obtain ⟨event', hevent', rfl⟩ := List.mem_map.mp hm
    have hle := le_maxSequence hevent
    have hlt := hload.above event' hevent'
    omega
  have hissued : ∀ event ∈ wm.mailbox.events,
      ∃ issued ∈ recordLoaded run.ledger wm.mailbox.events, issued.event = event := by
    intro event hevent
    by_cases hold : ∃ issued ∈ run.ledger, issued.event = event
    · obtain ⟨issued, hissued, heq⟩ := hold
      exact ⟨issued, mem_recordLoaded.2 (.inl hissued), heq⟩
    · exact ⟨⟨event, false, false⟩, mem_recordLoaded.2
        (.inr ⟨hevent, fun before hbefore heq => hold ⟨before, hbefore, heq⟩, rfl, rfl⟩), rfl⟩
  have hbehind : CursorsBehind run.hub.saved.tasks
      (recordLoaded run.ledger wm.mailbox.events) := by
    intro task htask issued hissued hkey hacked hpurged
    rcases mem_recordLoaded.1 hissued with hold | ⟨hevent, hnew, -⟩
    · exact h.saved.behind task htask issued hold hkey hacked hpurged
    · exact (hstray issued.event hevent hnew).1 task htask
  refine ⟨⟨?_, hissued, ?_, hdistinct, ?_, ?_, ?_, ?_⟩, ⟨h.saved.distinct, h.saved.positive,
    hbehind, ?_, ?_⟩, ?_⟩
  · simp [hload.counter]
  · intro issued hissued hpurged
    rcases mem_recordLoaded.1 hissued with hold | ⟨hevent, -⟩
    · exact hloaded _ (hsafe.1 _ (h.live.present issued hold hpurged))
    · exact hevent
  · exact hload.tasks ▸ hbehind
  · intro task htask
    have := h.saved.bounded task (hload.tasks ▸ htask)
    exact Nat.le_trans this hmax
  · intro issued hissued
    rcases mem_recordLoaded.1 hissued with hold | ⟨hevent, -⟩
    · exact Nat.le_trans (h.live.numbered issued hold) hmax
    · exact Nat.le_trans (le_maxSequence hevent) wm.mailbox.maxSequence_le_workspaceMaxSequence
  · intro issued hissued
    rcases mem_recordLoaded.1 hissued with hold | ⟨hevent, hnew, -⟩
    · exact h.live.positive issued hold
    · exact (hstray issued.event hevent hnew).2.2
  · intro task htask
    exact Nat.le_trans (h.saved.bounded task htask) hmax
  · intro event hevent
    exact .inl (hissued event (hloaded event hevent))
  · unfold SequencesUnique recordLoaded
    rw [List.map_append, List.map_map]
    refine List.nodup_append.mpr ⟨h.unique, hdistinct.sublist (List.filter_sublist.map _), ?_⟩
    intro n hn m hm
    obtain ⟨before, hbefore, rfl⟩ := List.mem_map.mp hn
    obtain ⟨event, hevent, rfl⟩ := List.mem_map.mp hm
    obtain ⟨hin, hnew⟩ := List.mem_filter.mp hevent
    refine (hstray event hin ?_).2.1 before hbefore
    intro other hother heq
    exact (of_decide_eq_true hnew) (List.mem_map.mpr ⟨other, hother, heq⟩)

end Step

/-! ## Runs -/

namespace MailboxRun

theorem inv_init : Inv {} where
  live := by constructor <;> simp [CursorsBehind]
  saved := by constructor <;> simp [CursorsBehind]
  unique := List.nodup_nil

theorem Inv.rewrite {run : MailboxRun} (h : run.Inv) {hub : Hub}
    (htasks : hub.live.tasks = run.hub.live.tasks)
    (hmailbox : hub.live.mailbox = run.hub.live.mailbox)
    (hsaved : hub.saved = run.hub.saved ∨ hub.saved = hub.live.workspaceStatePayload) :
    Inv { run with hub := hub } := by
  have hlive : LiveOk hub.live.tasks hub.live.mailbox run.ledger := by
    rw [htasks, hmailbox]
    exact h.live
  refine ⟨hlive, ?_, h.unique⟩
  rcases hsaved with heq | heq
  · simp only [heq, hmailbox]
    exact h.saved
  · simp only [heq]
    exact hlive.payload

theorem Inv.createTask {run : MailboxRun} (h : run.Inv) (task : WorkspaceTask)
    (outcome : SaveOutcome) : Inv { run with hub := run.hub.createTask task outcome } := by
  have hmem : ∀ other ∈ (run.hub.live.tasks.insert { task with consumerAckSequence := 0 }).rows,
      other.consumerAckSequence = 0 ∨ other ∈ run.hub.live.tasks.rows := by
    intro other hother
    rcases Table.mem_insert.mp hother with rfl | ⟨hold, -⟩
    · exact .inl rfl
    · exact .inr hold
  have hlive : LiveOk (run.hub.live.tasks.insert { task with consumerAckSequence := 0 })
      run.hub.live.mailbox run.ledger :=
    { h.live with
      behind := by
        intro other hother issued hissued hkey hacked hpurged
        rcases hmem other hother with hzero | hold
        · rw [hzero]
          exact h.live.positive issued hissued
        · exact h.live.behind other hold issued hissued hkey hacked hpurged
      bounded := by
        intro other hother
        rcases hmem other hother with hzero | hold
        · omega
        · exact h.live.bounded other hold }
  have hsame := Hub.saveWorkspaceState_live
    ⟨{ run.hub.live with tasks := run.hub.live.tasks.insert { task with consumerAckSequence := 0 } },
      run.hub.saved⟩ outcome
  refine ⟨by simpa only [Hub.createTask, hsame] using hlive, ?_, h.unique⟩
  simp only [Hub.createTask, hsame]
  rcases Hub.saveWorkspaceState_saved
    ⟨{ run.hub.live with tasks := run.hub.live.tasks.insert { task with consumerAckSequence := 0 } },
      run.hub.saved⟩ outcome with heq | heq
  · rw [heq]
    exact h.saved
  · rw [heq]
    exact @LiveOk.payload { run.hub.live with tasks := _ } _ hlive

theorem Inv.appendEvent {run next : MailboxRun} (h : run.Inv) {req : AppendRequest} {now : Time}
    {persist : Bool} {outcome : SaveOutcome}
    (hstep : run.step (.appendEvent req now persist outcome) = some next) : next.Inv := by
  simp only [step] at hstep
  rcases run.hub.appendEvent_cases req now persist outcome with
    ⟨hub, result, heq, hresult, hlive, hsaved⟩ | ⟨event, mailbox, hstage, hub, hsaved, hends⟩
  · obtain rfl : { run with hub := hub } = next := by
      rw [heq] at hstep
      cases result with
      | error => simpa using hstep
      | ok pair =>
        obtain ⟨event, created⟩ := pair
        cases created with
        | false => simpa using hstep
        | true => exact (hresult event rfl).elim
    exact h.rewrite (by rw [hlive]) (by rw [hlive]) (by rwa [hlive])
  · obtain ⟨hseq, hevents, hnext⟩ := stageEvent_created hstage
    rcases hends with ⟨heq, hlive⟩ | ⟨heq, hlive⟩
    · obtain rfl : ⟨hub, run.ledger ++ [⟨event, false, false⟩]⟩ = next := by
        simpa [heq] using hstep
      obtain ⟨hok, hmax⟩ := h.live.append hseq hevents hnext
      refine ⟨by rw [hlive]; exact hok, ?_, ?_⟩
      · simp only [hlive, Hub.setMailbox, hmax]
        rcases hsaved with hold | hwritten
        · rw [hold]
          exact h.saved.append hseq
        · rw [hwritten, ← hmax]
          exact @LiveOk.payload { run.hub.live with mailbox := mailbox } _ hok
      · unfold SequencesUnique
        rw [List.map_append]
        refine List.nodup_append.mpr ⟨h.unique, by simp, ?_⟩
        intro n hn m hm
        obtain ⟨issued, hissued, rfl⟩ := List.mem_map.mp hn
        have hle := h.live.numbered issued hissued
        simp only [List.map_cons, List.map_nil, List.mem_singleton] at hm
        omega
    · obtain rfl : { run with hub := hub } = next := by simpa [heq] using hstep
      obtain ⟨hok, hmax⟩ := h.live.unstage hseq hevents
      refine ⟨by simpa only [hlive] using hok, ?_, h.unique⟩
      simp only [hlive, hmax]
      rcases hsaved with hold | hwritten
      · rw [hold]
        exact h.saved
      · rw [hwritten]
        exact h.live.stagedPayload hseq hevents

theorem Inv.ack {run next : MailboxRun} (h : run.Inv) {key : ConsumerKey} {sequence : Nat}
    {persist : Bool} {outcome : SaveOutcome}
    (hstep : run.step (.ack key sequence persist outcome) = some next) : next.Inv := by
  cases hstep
  have hmarked : ∀ hub, SequencesUnique ⟨hub, run.ledger.map (Issued.markAcked key sequence)⟩ := by
    intro hub
    have hunique := h.unique
    simpa [SequencesUnique, Function.comp_def] using hunique
  cases hstage : run.hub.live.stageAck key sequence with
  | error => simpa [Hub.ack, ackTakesEffect, hstage] using h
  | ok =>
    obtain ⟨task, htask, rfl, hfrom, hto, rfl⟩ := stageAck_ok hstage
    have hok := h.live.ack task hto
    have hsaved := h.saved.markAcked (.task task.id) sequence
    have hwritten := @LiveOk.payload { run.hub.live with
      tasks := run.hub.live.tasks.insert { task with consumerAckSequence := sequence } } _ hok
    cases persist with
    | false =>
      simp only [Hub.ack, ackTakesEffect, hstage]
      exact ⟨hok, hsaved, hmarked _⟩
    | true =>
      cases outcome with
      | saved =>
        simp only [Hub.ack, ackTakesEffect, hstage]
        exact ⟨hok, hwritten, hmarked _⟩
      | notReplaced =>
        simp only [Hub.ack, ackTakesEffect, hstage]
        exact h
      | replacedThenRaised =>
        simp only [Hub.ack, ackTakesEffect, hstage]
        exact ⟨h.live.markAcked _ _, hwritten, hmarked _⟩

theorem Inv.deleteTask {run next : MailboxRun} (h : run.Inv) {taskId : TaskId}
    {outcome : SaveOutcome} (hstep : run.step (.deleteTask taskId outcome) = some next) :
    next.Inv := by
  simp only [MailboxRun.step, Hub.deleteTask] at hstep
  cases hcheck : (Hub.checkDeleteTask run.hub.live taskId).bind (Hub.withoutTask run.hub.live) with
  | error =>
    obtain rfl : run = next := by simpa [hcheck] using hstep
    exact h
  | ok live =>
    obtain ⟨task, hchecked, hwithout⟩ := Except.bind_ok_iff.mp hcheck
    obtain rfl := checkDeleteTask_ok hchecked
    obtain ⟨htasks, hevents, hnext⟩ := withoutTask_ok hwithout
    obtain ⟨hok, hmax⟩ := h.live.purge task.id hevents hnext
    rw [← htasks] at hok
    cases outcome with
    | saved =>
      obtain rfl : MailboxRun.mk ⟨live, live.workspaceStatePayload⟩ (run.ledger.map (Issued.markPurged task.id)) =
          next := by
        simpa [hcheck, SaveOutcome.raises, Hub.saveWorkspaceState] using hstep
      refine ⟨hok, hok.payload, ?_⟩
      have hunique := h.unique
      simpa [SequencesUnique, Function.comp_def] using hunique
    | notReplaced =>
      obtain rfl : run = next := by
        simpa [hcheck, SaveOutcome.raises, Hub.saveWorkspaceState] using hstep
      exact h
    | replacedThenRaised =>
      obtain rfl : MailboxRun.mk ⟨run.hub.live, live.workspaceStatePayload⟩ run.ledger = next := by
        simpa [hcheck, SaveOutcome.raises, Hub.saveWorkspaceState] using hstep
      exact ⟨h.live, .ofPurge h.live htasks hevents, h.unique⟩

theorem Inv.step {run next : MailboxRun} {op : MailboxOp} (h : run.Inv) (hsafe : run.StepSafe op)
    (hstep : run.step op = some next) : next.Inv := by
  cases op with
  | createTask task outcome =>
    simp only [MailboxRun.step] at hstep
    split at hstep
    · simp at hstep
    · cases hstep
      exact h.createTask task outcome
  | recordReport report outcome =>
    cases hstep
    have hlive := Hub.saveWorkspaceState_live
      ⟨{ run.hub.live with reports := run.hub.live.reports.insert report }, run.hub.saved⟩ outcome
    refine h.rewrite ?_ ?_ ?_
    · simp only [Hub.recordReport, hlive]
    · simp only [Hub.recordReport, hlive]
    · simp only [Hub.recordReport, hlive]
      exact Hub.saveWorkspaceState_saved
        ⟨{ run.hub.live with reports := run.hub.live.reports.insert report }, run.hub.saved⟩ outcome
  | appendEvent => exact h.appendEvent hstep
  | ack => exact h.ack hstep
  | deleteTask => exact h.deleteTask hstep
  | save outcome =>
    cases hstep
    have hlive := run.hub.saveWorkspaceState_live outcome
    refine h.rewrite (by rw [hlive]) (by rw [hlive]) ?_
    rw [hlive]
    exact run.hub.saveWorkspaceState_saved outcome
  | restart =>
    simp only [MailboxRun.step, Hub.restart] at hstep
    cases hload : run.hub.saved.load with
    | error => simp [hload, Except.map] at hstep
    | ok =>
      obtain rfl : _ = next := by simpa [hload, Except.map] using hstep
      exact h.restart hsafe hload

theorem Inv.run {start finish : MailboxRun} {ops : List MailboxOp} (h : start.Inv)
    (hrun : Run MailboxRun.step StepSafe start ops finish) : finish.Inv :=
  hrun.invariant h fun _ _ _ hinv hsafe hstep => hinv.step hsafe hstep

end MailboxRun

/-- While every restart finds the largest number issued on a saved event, no event is
hidden from its consumer and no number is used twice. -/
theorem mailbox_run_keeps_events_visible {ops : List MailboxOp} {finish : MailboxRun}
    (hrun : Run MailboxRun.step MailboxRun.StepSafe {} ops finish) :
    finish.NoEventHidden ∧ finish.SequencesUnique :=
  have hinv := MailboxRun.inv_init.run hrun
  ⟨hinv.noEventHidden, hinv.unique⟩

private def parentTask : WorkspaceTask := { id := "parent", path := ["parent"] }

private def childTask (id : TaskId) : WorkspaceTask :=
  { id := id, parentTaskId := some "parent", path := ["parent", id] }

private def childReport (taskId : TaskId) : AppendRequest where
  taskId := taskId
  actorRole := .worker
  eventType := .report
  callId := .report taskId
  action := "report"

private def acknowledged : List MailboxOp :=
  [.createTask parentTask .saved, .createTask (childTask "first") .saved,
    .createTask (childTask "second") .saved, .appendEvent (childReport "first") 1 true .saved,
    .ack (.task "parent") 1 true .saved]

theorem mailbox_run_keeps_events_visible_acknowledged :
    ∃ finish, Run MailboxRun.step MailboxRun.StepSafe {}
        (acknowledged ++ [.restart, .appendEvent (childReport "second") 2 true .saved]) finish ∧
      finish.NoEventHidden ∧ finish.SequencesUnique := by
  obtain ⟨finish, hexec⟩ := Option.isSome_iff_exists.mp
    (by decide : (execOk MailboxRun.step MailboxRun.StepSafe {}
      (acknowledged ++ [.restart, .appendEvent (childReport "second") 2 true .saved])).isSome)
  exact ⟨finish, .of_execOk hexec, mailbox_run_keeps_events_visible (.of_execOk hexec)⟩

/-- The parent acknowledges its child's report, the child is deleted and the hub
restarts: the next report takes the acknowledged number and stays hidden. -/
theorem sequence_reused_after_delete_and_restart :
    ∃ finish, exec MailboxRun.step {}
        (acknowledged ++ [.deleteTask "first" .saved, .restart,
          .appendEvent (childReport "second") 2 true .saved]) = some finish ∧
      ¬ finish.NoEventHidden ∧ ¬ finish.SequencesUnique := by
  refine ⟨_, Option.eq_some_of_isSome (by decide), ?_, ?_⟩
  · decide
  · decide

end ClaudeHub
