import ClaudeHub.Messaging.Tidy

/-! # What an acknowledgement may touch

`_ack_call_ids` in any state that the delivery service reaches, for any arguments and any
records of the mailbox. The delivery service runs here beside what the other services do to
the outboxes: they stage a follow-up on a task, they rewrite the other fields of a task, and
they close sessions and delete tasks. A restart loads the last saved state.
-/

namespace ClaudeHub

open StepSystem

structure OutboxRun where
  delivery : DeliveryRun := {}
  saved : Manager := {}
  deriving DecidableEq

inductive OutboxOp
  | deliver (op : DeliveryOp)
  /-- `_stage_task_followup_pending` -/
  | stageFollowup (taskId : TaskId) (callId : CallId)
  | closeSession (sessionId : SessionId)
  | deleteTask (taskId : TaskId)
  | save
  | restart

namespace OutboxRun

def storedLists (run : OutboxRun) (taskId : TaskId) : CallLists :=
  match run.delivery.manager.tasks.get? taskId with
  | none => {}
  | some task => task.toCallLists

def leavesLists (run : OutboxRun) : DeliveryOp → Bool
  | .editTask task => task.toCallLists = run.storedLists task.id
  | _ => true

def withManager (run : OutboxRun) (manager : Manager) : OutboxRun :=
  { run with delivery := { run.delivery with manager := manager } }

def stageTaskFollowupPending (manager : Manager) (taskId : TaskId) (callId : CallId) : Manager :=
  match manager.tasks.get? taskId with
  | none => manager
  | some current =>
    if current.inAnyState callId then manager
    else manager.putTask { current with
      pendingCallIds := current.pendingCallIds ++ [callId] }

def step (run : OutboxRun) : OutboxOp → Option OutboxRun
  | .deliver op =>
    if run.leavesLists op then
      (run.delivery.step op).map fun delivery => { run with delivery := delivery }
    else none
  | .stageFollowup taskId callId =>
    some (run.withManager (stageTaskFollowupPending run.delivery.manager taskId callId))
  | .closeSession sessionId =>
    let manager := run.delivery.manager
    some (run.withManager { manager with sessions := manager.sessions.erase sessionId })
  | .deleteTask taskId =>
    let manager := run.delivery.manager
    some (run.withManager { manager with tasks := manager.tasks.erase taskId })
  | .save => some { run with saved := run.delivery.manager }
  | .restart => some { run with delivery := .loaded run.saved }

/-- Memory and disk list no call twice. -/
structure Tidy (run : OutboxRun) : Prop where
  delivery : run.delivery.Tidy
  saved : run.saved.Tidy

variable {run next : OutboxRun}

theorem tidy_empty : ({} : Manager).Tidy where
  sessions _ hsession := nomatch hsession
  tasks _ htask := nomatch htask

theorem tidy_start : ({} : OutboxRun).Tidy where
  delivery := ⟨tidy_empty, fun _ hholder => nomatch hholder⟩
  saved := tidy_empty

theorem Tidy.withManager (h : run.Tidy) {manager : Manager} (hmanager : manager.Tidy) :
    (run.withManager manager).Tidy :=
  ⟨h.delivery.write hmanager, h.saved⟩

theorem tidy_storedLists (h : run.Tidy) (taskId : TaskId) : (run.storedLists taskId).Tidy := by
  unfold storedLists
  split
  · exact .empty
  · next task hget => exact h.delivery.manager.tasks task (Table.get?_eq_some.mp hget).1

theorem tidy_stageTaskFollowupPending {manager : Manager} (h : manager.Tidy) (taskId : TaskId)
    (callId : CallId) : (stageTaskFollowupPending manager taskId callId).Tidy := by
  unfold stageTaskFollowupPending
  split
  · exact h
  · next current hget =>
      have hcurrent := h.tasks current (Table.get?_eq_some.mp hget).1
      split
      · exact h
      · next hnew =>
          apply h.putTask
          refine { hcurrent with pending := hcurrent.pending.append_new fun hmem => hnew ?_ }
          simp [CallLists.inAnyState, hmem]

theorem Tidy.step (h : run.Tidy) {op : OutboxOp} (hstep : run.step op = some next) :
    next.Tidy := by
  have hmanager := h.delivery.manager
  cases op with
  | deliver =>
    simp only [OutboxRun.step] at hstep
    split at hstep
    · next hleaves =>
        obtain ⟨delivery, hdelivery, rfl⟩ := Option.map_eq_some_iff.mp hstep
        refine ⟨h.delivery.step ?_ hdelivery, h.saved⟩
        rintro task rfl
        have hsame : task.toCallLists = run.storedLists task.id := of_decide_eq_true hleaves
        rw [hsame]
        exact tidy_storedLists h task.id
    · cases hstep
  | stageFollowup taskId callId =>
    cases hstep
    exact h.withManager (tidy_stageTaskFollowupPending hmanager taskId callId)
  | closeSession =>
    cases hstep
    apply h.withManager
    exact ⟨fun s hs => hmanager.sessions s (Table.mem_filter.mp hs).1, hmanager.tasks⟩
  | deleteTask =>
    cases hstep
    apply h.withManager
    exact ⟨hmanager.sessions, fun t ht => hmanager.tasks t (Table.mem_filter.mp ht).1⟩
  | save =>
    cases hstep
    exact ⟨h.delivery, hmanager⟩
  | restart =>
    cases hstep
    exact ⟨⟨h.saved, fun _ hholder => nomatch hholder⟩, h.saved⟩

theorem tidy_of_run {ops : List OutboxOp} (hrun : Run OutboxRun.step (fun _ _ => True) {} ops run) :
    run.Tidy :=
  hrun.invariant tidy_start fun _ _ _ h _ hstep => h.step hstep

end OutboxRun

/-! ## The acknowledgement -/

namespace CallLists

def openCallIds (lists : CallLists) : List CallId :=
  lists.pendingCallIds ++ lists.processingCallIds ++ lists.uncertainCallIds

theorem mem_acknowledged {lists : CallLists} {callIds : List CallId} {callId : CallId} :
    callId ∈ lists.acknowledged callIds ↔ callId ∈ lists.openCallIds ∧ callId ∈ callIds := by
  simp only [acknowledged, openCallIds, List.mem_append, List.mem_within]
  tauto

/-- Nothing but the call ids in `moved` leaves an open state, nothing but open ones among
them enters `delivered`, and the others stay in their order. -/
structure Moved (moved : List CallId) (before after : CallLists) : Prop where
  pending : after.pendingCallIds = before.pendingCallIds.filter (· ∉ moved)
  processing : after.processingCallIds = before.processingCallIds.filter (· ∉ moved)
  uncertain : after.uncertainCallIds = before.uncertainCallIds.filter (· ∉ moved)
  deliveredFirst : before.deliveredCallIds <+: after.deliveredCallIds
  delivered : ∀ callId, callId ∈ after.deliveredCallIds ↔
    callId ∈ before.deliveredCallIds ∨ callId ∈ moved ∧ callId ∈ before.openCallIds

end CallLists

theorem CallLists.moved_acknowledge (lists : CallLists) (callIds : List CallId) :
    Moved callIds lists (lists.acknowledge callIds) where
  pending := rfl
  processing := rfl
  uncertain := rfl
  deliveredFirst := List.prefix_addNew ..
  delivered callId := by
    simp only [acknowledge, List.mem_addNew, mem_acknowledged]
    tauto

/-- Entries of other keys stay, in their order. -/
structure KeptBeside {β : Type} (moved : List CallId) (before after : Dict CallId β) : Prop where
  order : after.rows.Sublist before.rows
  kept : ∀ entry ∈ before.rows, entry.1 ∉ moved → entry ∈ after.rows

namespace KeptBeside

variable {β : Type} (moved : List CallId) (entries : Dict CallId β)

theorem refl : KeptBeside moved entries entries := ⟨List.Sublist.refl _, fun _ h _ => h⟩

theorem dropKeys : KeptBeside moved entries (entries.dropKeys moved) where
  order := List.filter_sublist
  kept entry hmem hnot := by
    simp [Dict.dropKeys, Table.filter, hmem, hnot]

end KeptBeside

namespace Manager

/-- `_ack_call_ids`: `lookupCall` is what the mailbox records as the target of a call. -/
def ack (manager : Manager) (lookupCall : CallId → Option TaskId) (taskId : Option TaskId)
    (sessionId : SessionId) (callIds : List CallId) : Manager :=
  manager.ackCallIds taskId sessionId (manager.verifiedAcks lookupCall taskId sessionId callIds)

def InSessionOutbox (manager : Manager) (sessionId : SessionId) (callId : CallId) : Prop :=
  ∃ session, manager.sessions.get? sessionId = some session ∧ callId ∈ session.openCallIds

def InTaskOutbox (manager : Manager) (taskId : Option TaskId) (sessionId : SessionId)
    (callId : CallId) : Prop :=
  ∃ task session, manager.task? taskId = some task ∧ callId ∈ task.openCallIds
    ∧ manager.sessions.get? sessionId = some session ∧ task.sessionId = some sessionId
    ∧ (session.taskId = some task.id ∨ session.currentTaskId = some task.id)

def knows (manager : Manager) (taskId : Option TaskId) (sessionId : SessionId)
    (callId : CallId) : Bool :=
  (match manager.sessions.get? sessionId with
    | none => false
    | some session => callId ∈ session.openCallIds)
  || (match manager.task? taskId with
    | none => false
    | some task => callId ∈ task.openCallIds)

/-- What may be acknowledged of a call that the mailbox records for a task: with a reported
task it is that task, and without one it is a task that no other session works on. -/
def MayTarget (manager : Manager) (taskId : Option TaskId) (sessionId : SessionId)
    (target : TaskId) : Prop :=
  match truthy taskId with
  | some k => target = k
  | none => ∃ task, manager.tasks.get? target = some task
      ∧ ∀ assigned, truthy task.sessionId = some assigned → assigned = sessionId

/-- An acknowledgement that moves `moved` on the reported task and the reporting session, and
leaves everything else. -/
structure Acknowledges (taskId : Option TaskId) (sessionId : SessionId) (moved : List CallId)
    (before after : Manager) : Prop where
  otherTasks : ∀ k, truthy taskId ≠ some k → after.tasks.get? k = before.tasks.get? k
  otherSessions : ∀ k, k ≠ sessionId → after.sessions.get? k = before.sessions.get? k
  noTask : before.task? taskId = none → after.tasks = before.tasks
  noSession : before.sessions.get? sessionId = none → after.sessions = before.sessions
  task : ∀ task, before.task? taskId = some task → ∃ lists : CallLists,
    after.tasks.get? task.id = some { task with toCallLists := lists }
      ∧ CallLists.Moved moved task.toCallLists lists
  session : ∀ session, before.sessions.get? sessionId = some session →
    ∃ (lists : CallLists) (messages : Dict CallId String)
      (attachments : Dict CallId (List Attachment)) (claims : Dict CallId Time),
      after.sessions.get? sessionId = some { session with
        toCallLists := lists
        pendingMessages := messages
        pendingAttachments := attachments
        processingCallIdsAt := claims }
      ∧ CallLists.Moved moved session.toCallLists lists
      ∧ KeptBeside moved session.pendingMessages messages
      ∧ KeptBeside moved session.pendingAttachments attachments
      ∧ KeptBeside moved session.processingCallIdsAt claims

section

variable {manager : Manager} {lookupCall : CallId → Option TaskId} {taskId : Option TaskId}
  {sessionId : SessionId} {callIds : List CallId} {callId : CallId}

theorem task?_eq_some {k : TaskId} {task : WorkspaceTask} (htask : manager.task? taskId = some task)
    (hk : truthy taskId = some k) : manager.tasks.get? k = some task := by
  unfold task? at htask
  rwa [hk] at htask

theorem truthy_of_task? {task : WorkspaceTask} (htask : manager.task? taskId = some task) :
    truthy taskId = some task.id := by
  obtain ⟨k, hk, hget⟩ := Option.bind_eq_some_iff.mp htask
  rw [hk, Table.key_of_get? hget]

theorem acknowledges_ackCallIds (manager : Manager) (taskId : Option TaskId)
    (sessionId : SessionId) (moved : List CallId) :
    Acknowledges taskId sessionId moved manager (manager.ackCallIds taskId sessionId moved) := by
  have htasks : (manager.ackCallIds taskId sessionId moved).tasks
      = (manager.mirror (manager.task? taskId) (·.acknowledge moved)).tasks := by
    simp only [ackCallIds, sessions_mirror]
    split
    · rfl
    · split <;> rfl
  have hsessions : (manager.ackCallIds taskId sessionId moved).sessions
      = match manager.sessions.get? sessionId with
        | none => manager.sessions
        | some session =>
          if session.acknowledged moved = [] then manager.sessions
          else manager.sessions.insert { session with
            toCallLists := session.acknowledge moved
            pendingMessages := session.pendingMessages.dropKeys moved
            pendingAttachments := session.pendingAttachments.dropKeys moved
            processingCallIdsAt := session.processingCallIdsAt.dropKeys moved } := by
    simp only [ackCallIds, sessions_mirror]
    cases hget : manager.sessions.get? sessionId with
    | none => exact sessions_mirror ..
    | some session =>
      by_cases hnil : session.acknowledged moved = []
      · simp only [hnil, if_true]
        exact sessions_mirror ..
      · simp [hnil, putSession, sessions_mirror]
  constructor
  case otherTasks =>
    intro k hk
    rw [htasks]
    cases htask : manager.task? taskId with
    | none => rfl
    | some task =>
      have hne : k ≠ task.id := fun h => hk (h ▸ truthy_of_task? htask)
      exact Table.get?_insert_ne manager.tasks hne
  case noTask =>
    intro hnone
    rw [htasks, hnone]
    rfl
  case task =>
    intro task htask
    refine ⟨task.acknowledge moved, ?_, task.toCallLists.moved_acknowledge moved⟩
    rw [htasks, htask]
    simp [mirror, putTask]
  case otherSessions =>
    intro k hk
    rw [hsessions]
    split
    · rfl
    · next session hget =>
        split
        · rfl
        · apply Table.get?_insert_ne
          simpa [Table.key_of_get? hget] using hk
  case noSession =>
    intro hnone
    rw [hsessions, hnone]
  case session =>
    intro session hget
    by_cases hnil : session.acknowledged moved = []
    · refine ⟨session.toCallLists, session.pendingMessages, session.pendingAttachments,
        session.processingCallIdsAt, ?_, ?_, .refl .., .refl .., .refl ..⟩
      · rw [hsessions, hget]
        simpa [hnil] using hget
      · have hmoved := session.toCallLists.moved_acknowledge moved
        rwa [session.toCallLists.acknowledge_of_nil hnil] at hmoved
    · refine ⟨session.acknowledge moved, session.pendingMessages.dropKeys moved,
        session.pendingAttachments.dropKeys moved, session.processingCallIdsAt.dropKeys moved,
        ?_, session.toCallLists.moved_acknowledge moved, .dropKeys .., .dropKeys .., .dropKeys ..⟩
      rw [hsessions, hget]
      simp [hnil, Table.key_of_get? hget]

theorem ofOutbox_spec (h : ((match manager.sessions.get? sessionId with
      | none => false
      | some session => decide (callId ∈ session.pendingCallIds)
          || decide (callId ∈ session.processingCallIds)
          || decide (callId ∈ session.uncertainCallIds))
      && manager.verifyCallTarget (lookupCall callId) taskId sessionId) = true) :
    manager.InSessionOutbox sessionId callId
      ∧ ∀ target, lookupCall callId = some target → manager.MayTarget taskId sessionId target := by
  obtain ⟨hmem, htarget⟩ := Bool.and_eq_true_iff.mp h
  constructor
  · split at hmem
    · cases hmem
    · next session hget =>
        refine ⟨session, hget, ?_⟩
        simpa [CallLists.openCallIds, or_assoc] using hmem
  · intro target hlookup
    rw [hlookup] at htarget
    unfold verifyCallTarget at htarget
    simp only at htarget
    split at htarget
    · cases htarget
    · next targetTask hget =>
        obtain ⟨hreported, hassigned⟩ := Bool.and_eq_true_iff.mp htarget
        unfold MayTarget
        cases hk : truthy taskId with
        | some =>
          rw [hk] at hreported
          exact of_decide_eq_true hreported
        | none =>
          have hid : targetTask.id = target := by
            have htruthy := truthy_of_task? hget
            exact (Option.some.inj (Option.filter_eq_some_iff.mp htruthy).1).symm
          refine ⟨targetTask, ?_, fun assigned hworks => ?_⟩
          · have hstored := task?_eq_some hget (truthy_of_task? hget)
            rwa [hid] at hstored
          · rw [hworks] at hassigned
            exact of_decide_eq_true hassigned

theorem verifiesAck_spec (h : manager.verifiesAck lookupCall taskId sessionId callId = true) :
    (manager.InSessionOutbox sessionId callId
        ∨ manager.InTaskOutbox taskId sessionId callId)
      ∧ ∀ target, lookupCall callId = some target → manager.MayTarget taskId sessionId target := by
  unfold verifiesAck at h
  simp only at h
  split at h
  · obtain ⟨houtbox, htarget⟩ := ofOutbox_spec h
    exact ⟨.inl houtbox, htarget⟩
  · next task htask =>
      split at h
      · obtain ⟨houtbox, htarget⟩ := ofOutbox_spec h
        exact ⟨.inl houtbox, htarget⟩
      · next target hlookup =>
          split at h
          · next hown =>
              subst hown
              constructor
              · right
                unfold canAckTaskMailboxCall at h
                split at h
                · cases h
                · next session hget =>
                    simp only [Bool.and_eq_true, Bool.or_eq_true, decide_eq_true_eq] at h
                    obtain ⟨⟨hmem, hworker⟩, hbound⟩ := h
                    have hid : session.id = sessionId := Table.key_of_get? hget
                    refine ⟨task, session, htask, ?_, hget, hid ▸ hworker, hbound⟩
                    simpa [CallLists.openCallIds, or_assoc] using hmem
              · intro other hother
                cases hlookup.symm.trans hother
                simp [MayTarget, truthy_of_task? htask]
          · split at h
            · cases h
            · obtain ⟨houtbox, htarget⟩ := ofOutbox_spec h
              exact ⟨.inl houtbox, htarget⟩

theorem knows_of_verifiesAck
    (h : manager.verifiesAck lookupCall taskId sessionId callId = true) :
    manager.knows taskId sessionId callId = true := by
  unfold knows
  rcases (verifiesAck_spec h).1 with ⟨session, hget, hmem⟩ | ⟨task, session, htask, hmem, -⟩
  · simp [hget, hmem]
  · simp [htask, hmem]

theorem ack_filter_knows (manager : Manager) (lookupCall : CallId → Option TaskId)
    (taskId : Option TaskId) (sessionId : SessionId) (callIds : List CallId) :
    manager.ack lookupCall taskId sessionId (callIds.filter (manager.knows taskId sessionId))
      = manager.ack lookupCall taskId sessionId callIds := by
  unfold ack verifiedAcks
  rw [List.filter_filter]
  congr 1
  apply List.filter_congr
  intro c _
  cases hverified : manager.verifiesAck lookupCall taskId sessionId c with
  | false => rfl
  | true => rw [knows_of_verifiesAck hverified, Bool.and_self]

end

end Manager

/-- A follow-up on a task that nobody works on, and a message under its call id to a session
that works on no task. -/
private def followupOps : List OutboxOp :=
  [.deliver (.editTask { id := "task" }), .deliver (.openSession { id := "session" }),
    .stageFollowup "task" (.raw "followup"),
    .deliver (.send "session" { message := "go on", callId := some (.raw "followup") } {})]

/-- Through every send, pump, acknowledgement, save and restart no delivery state of a session or
of a task lists a call twice, in memory or in the state file. -/
theorem calls_listed_once {ops : List OutboxOp} {run : OutboxRun}
    (hrun : Run OutboxRun.step (fun _ _ => True) {} ops run) :
    ∀ manager, manager = run.delivery.manager ∨ manager = run.saved →
      (∀ session ∈ manager.sessions.rows, session.toCallLists.Tidy) ∧
        ∀ task ∈ manager.tasks.rows, task.toCallLists.Tidy := by
  have htidy := OutboxRun.tidy_of_run hrun
  rintro manager (rfl | rfl)
  · exact ⟨htidy.delivery.manager.sessions, htidy.delivery.manager.tasks⟩
  · exact ⟨htidy.saved.sessions, htidy.saved.tasks⟩

theorem calls_listed_once_followup : ∃ run, exec OutboxRun.step {} followupOps = some run ∧
    ∀ session ∈ run.delivery.manager.sessions.rows, session.toCallLists.Tidy := by
  obtain ⟨run, hexec⟩ := Option.isSome_iff_exists.mp
    (by decide +kernel : (exec OutboxRun.step {} followupOps).isSome)
  exact ⟨run, hexec, (calls_listed_once (.of_exec hexec) _ (.inl rfl)).1⟩

end ClaudeHub
