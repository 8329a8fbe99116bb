import ClaudeHub.Lib.Runs
import ClaudeHub.TaskMailbox.ColdStart

/-! # Runs of the mailbox

A run of the mailbox is a sequence of appends, acknowledgements, task
deletions, saves and restarts. Beside the process and its state file the run
keeps a ledger of every event appended so far, so that a number issued twice
and an event hidden from its consumer can both be stated.
-/

namespace ClaudeHub

open StepSystem

structure Issued where
  event : TaskEvent
  acked : Bool := false
  purged : Bool := false
  deriving DecidableEq

structure MailboxRun where
  hub : Hub := {}
  ledger : List Issued := []
  deriving DecidableEq

inductive MailboxOp
  | createTask (task : WorkspaceTask) (outcome : SaveOutcome)
  | recordReport (report : AgentReport) (outcome : SaveOutcome)
  | appendEvent (req : AppendRequest) (now : Time) (persist : Bool) (outcome : SaveOutcome)
  | ack (key : ConsumerKey) (sequence : Nat) (persist : Bool) (outcome : SaveOutcome)
  | deleteTask (taskId : TaskId) (outcome : SaveOutcome)
  | save (outcome : SaveOutcome)
  | restart

def Issued.markAcked (key : ConsumerKey) (sequence : Nat) (issued : Issued) : Issued :=
  if issued.event.consumerKey = key ∧ issued.event.sequence ≤ sequence then
    { issued with acked := true }
  else issued

def Issued.markPurged (taskId : TaskId) (issued : Issued) : Issued :=
  if issued.event.taskId = taskId then { issued with purged := true } else issued

namespace MailboxRun

def recordLoaded (ledger : List Issued) (events : List TaskEvent) : List Issued :=
  ledger ++ (events.filter fun event => event ∉ ledger.map Issued.event).map fun event =>
    ⟨event, false, false⟩

def ackTakesEffect (run : MailboxRun) (key : ConsumerKey) (sequence : Nat) (persist : Bool)
    (outcome : SaveOutcome) : Bool :=
  match run.hub.live.stageAck key sequence with
  | .error _ => false
  | .ok _ => !persist || outcome ≠ .notReplaced

def step (run : MailboxRun) : MailboxOp → Option MailboxRun
  | .createTask task outcome =>
    if (run.hub.live.tasks.get? task.id).isSome then none
    else some { run with hub := run.hub.createTask task outcome }
  | .recordReport report outcome => some { run with hub := run.hub.recordReport report outcome }
  | .appendEvent req now persist outcome =>
    match run.hub.appendEvent req now persist outcome with
    | (hub, .ok (event, true)) => some ⟨hub, run.ledger ++ [⟨event, false, false⟩]⟩
    | (hub, _) => some { run with hub := hub }
  | .ack key sequence persist outcome =>
    some ⟨(run.hub.ack key sequence persist outcome).1,
      if run.ackTakesEffect key sequence persist outcome then
        run.ledger.map (Issued.markAcked key sequence)
      else run.ledger⟩
  | .deleteTask taskId outcome =>
    match run.hub.deleteTask taskId outcome with
    | (hub, .ok ()) => some ⟨hub, run.ledger.map (Issued.markPurged taskId)⟩
    | (hub, .error _) => some { run with hub := hub }
  | .save outcome => some { run with hub := run.hub.saveWorkspaceState outcome }
  | .restart =>
    match run.hub.restart with
    | .ok hub => some ⟨hub, recordLoaded run.ledger hub.live.mailbox.events⟩
    | .error _ => none

/-- Every event whose consumer has neither acknowledged it nor lost its task is past
the consumer's cursor, and a plain wait returns it. -/
def NoEventHidden (run : MailboxRun) : Prop :=
  ∀ issued ∈ run.ledger, issued.acked = false → issued.purged = false →
    ∀ cursor, run.hub.live.consumerCursor issued.event.consumerKey = .ok cursor →
      cursor < issued.event.sequence ∧
        ∃ events, run.hub.live.wait issued.event.consumerKey = .ok events ∧
          issued.event ∈ events

/-- No two events appended during the run carry the same number. -/
def SequencesUnique (run : MailboxRun) : Prop :=
  (run.ledger.map fun issued => issued.event.sequence).Nodup

instance (run : MailboxRun) : Decidable run.NoEventHidden := by
  unfold NoEventHidden
  infer_instance

instance (run : MailboxRun) : Decidable run.SequencesUnique := by
  unfold SequencesUnique
  infer_instance

end MailboxRun

/-- The saved payload holds every event in memory and the largest number issued. -/
def Hub.RestartSafe (hub : Hub) : Prop :=
  (∀ event ∈ hub.live.mailbox.events, event ∈ hub.saved.taskEvents) ∧
    hub.live.mailbox.workspaceMaxSequence ≤ maxSequence hub.saved.taskEvents

instance (hub : Hub) : Decidable hub.RestartSafe := inferInstanceAs (Decidable (_ ∧ _))

/-- The side condition of a run: each restart finds the saved payload safe. -/
def MailboxRun.StepSafe (run : MailboxRun) : MailboxOp → Prop
  | .restart => run.hub.RestartSafe
  | _ => True

instance (run : MailboxRun) (op : MailboxOp) : Decidable (run.StepSafe op) := by
  cases op <;> unfold MailboxRun.StepSafe <;> infer_instance

theorem Hub.saveWorkspaceState_live (hub : Hub) (outcome : SaveOutcome) :
    (hub.saveWorkspaceState outcome).live = hub.live := by
  cases outcome <;> rfl

theorem Hub.saveWorkspaceState_saved (hub : Hub) (outcome : SaveOutcome) :
    (hub.saveWorkspaceState outcome).saved = hub.saved ∨
      (hub.saveWorkspaceState outcome).saved = hub.live.workspaceStatePayload := by
  cases outcome <;> simp [Hub.saveWorkspaceState]

variable {wm : WorkspaceManager}

theorem stageEvent_created {req : AppendRequest} {now : Time} {event : TaskEvent}
    {mailbox : TaskMailbox} (h : wm.stageEvent req now = .ok (.created event mailbox)) :
    event.sequence = wm.mailbox.workspaceMaxSequence + 1 ∧
      mailbox.events = wm.mailbox.events ++ [event] ∧
      mailbox.nextSeq = some (event.sequence + 1) := by
  unfold WorkspaceManager.stageEvent at h
  split at h
  · simp at h
  · split at h
    · simp at h
    · split at h
      · split at h <;> simp at h
      · simp only [TaskMailbox.nextSequence, Except.ok.injEq,
          WorkspaceManager.Staged.created.injEq] at h
        obtain ⟨rfl, rfl⟩ := h
        exact ⟨rfl, rfl, rfl⟩

theorem Hub.appendEvent_cases (hub : Hub) (req : AppendRequest) (now : Time) (persist : Bool)
    (outcome : SaveOutcome) :
    (∃ hub' result, hub.appendEvent req now persist outcome = (hub', result) ∧
      (∀ event, result ≠ .ok (event, true)) ∧ hub'.live = hub.live ∧
      (hub'.saved = hub.saved ∨ hub'.saved = hub.live.workspaceStatePayload)) ∨
    ∃ event mailbox, hub.live.stageEvent req now = .ok (.created event mailbox) ∧
      ∃ hub', (hub'.saved = hub.saved ∨
          hub'.saved = (hub.setMailbox mailbox).live.workspaceStatePayload) ∧
        ((hub.appendEvent req now persist outcome = (hub', .ok (event, true)) ∧
            hub'.live = (hub.setMailbox mailbox).live) ∨
          (hub.appendEvent req now persist outcome = (hub', .error .persistFailed) ∧
            hub'.live = { hub.live with mailbox := WorkspaceManager.unstage mailbox event })) := by
  unfold Hub.appendEvent
  cases hstage : hub.live.stageEvent req now with
  | error e => exact .inl ⟨hub, .error e, rfl, by simp, rfl, .inl rfl⟩
  | ok staged =>
    cases staged with
    | existing event =>
      left
      cases persist with
      | false => exact ⟨hub, .ok (event, false), rfl, by simp, rfl, .inl rfl⟩
      | true =>
        refine ⟨_, _, rfl, ?_, hub.saveWorkspaceState_live outcome,
          hub.saveWorkspaceState_saved outcome⟩
        cases outcome <;> simp [SaveOutcome.raises]
    | created event mailbox =>
      right
      refine ⟨event, mailbox, rfl, ?_⟩
      have hsaved := (hub.setMailbox mailbox).saveWorkspaceState_saved outcome
      have hlive := (hub.setMailbox mailbox).saveWorkspaceState_live outcome
      cases persist with
      | false => exact ⟨hub.setMailbox mailbox, .inl rfl, .inl ⟨rfl, rfl⟩⟩
      | true =>
        cases hraises : outcome.raises with
        | false => exact ⟨_, hsaved, .inl ⟨by simp, hlive⟩⟩
        | true =>
          refine ⟨((hub.setMailbox mailbox).saveWorkspaceState outcome).setMailbox
            (WorkspaceManager.unstage mailbox event), hsaved, .inr ⟨by simp, ?_⟩⟩
          rw [Hub.setMailbox, hlive]
          rfl

variable {task : WorkspaceTask}

theorem consumerTask_ok {key : ConsumerKey} (h : wm.consumerTask key = .ok task) :
    key = .task task.id ∧ wm.tasks.get? task.id = some task := by
  cases key with
  | legacyResident => simp [WorkspaceManager.consumerTask] at h
  | other => simp [WorkspaceManager.consumerTask] at h
  | task id =>
    cases hid : wm.tasks.get? id with
    | none => simp [WorkspaceManager.consumerTask, hid] at h
    | some found =>
      obtain rfl : found = task := by simpa [WorkspaceManager.consumerTask, hid] using h
      obtain rfl : found.id = id := Table.key_of_get? hid
      exact ⟨rfl, hid⟩

theorem stageAck_ok {wm' : WorkspaceManager} {key : ConsumerKey} {sequence : Nat}
    (h : wm.stageAck key sequence = .ok wm') :
    ∃ task, wm.tasks.get? task.id = some task ∧ key = .task task.id ∧
      task.consumerAckSequence ≤ sequence ∧ sequence ≤ wm.mailbox.workspaceMaxSequence ∧
      wm' = { wm with tasks := wm.tasks.insert { task with consumerAckSequence := sequence } } := by
  obtain ⟨current, hcurrent, h⟩ := Except.bind_ok_iff.mp h
  obtain ⟨task, htask, rfl⟩ := Except.map_ok_iff.mp hcurrent
  have hget := consumerTask_ok htask
  simp only at h
  split at h
  · simp at h
  · split at h
    · simp at h
    · obtain ⟨task', htask', rfl⟩ := Except.map_ok_iff.mp h
      obtain rfl : task' = task := by simpa [htask] using htask'.symm
      exact ⟨task', hget.2, hget.1, by omega, by omega, rfl⟩

theorem checkDeleteTask_ok {taskId : TaskId} (h : Hub.checkDeleteTask wm taskId = .ok task) :
    task.id = taskId := by
  unfold Hub.checkDeleteTask at h
  split at h
  · simp at h
  next found hfound =>
  have hid := Table.key_of_get? hfound
  simp only at h
  split at h
  · simp at h
  · split at h
    · simp at h
    · split at h
      · simp at h
      · obtain rfl : found = task := by simpa using h
        exact hid

theorem withoutTask_ok {wm' : WorkspaceManager} (h : Hub.withoutTask wm task = .ok wm') :
    wm'.tasks = wm.tasks.erase task.id ∧
      wm'.mailbox.events = wm.mailbox.events.filter (fun event => event.taskId ≠ task.id) ∧
      wm'.mailbox.nextSeq = wm.mailbox.nextSeq := by
  obtain ⟨mailbox, hpurge, h⟩ := Except.bind_ok_iff.mp h
  obtain rfl := Except.pure_ok_iff.mp h
  obtain ⟨calls, -, hpurge⟩ := Except.bind_ok_iff.mp hpurge
  obtain rfl := Except.pure_ok_iff.mp hpurge
  exact ⟨rfl, rfl, rfl⟩

end ClaudeHub
