import ClaudeHub.Lib.Except
import ClaudeHub.TaskMailbox.ColdStart
import ClaudeHub.TaskExecution.Run

/-! # What one request does

A request is refused, answered as before, or committed. What the intake demands of a change
and what the commit writes is stated once here.
-/

namespace ClaudeHub

namespace ExecutionRequest

def presents : ExecutionRequest → Option String
  | progress _ reporterKey false => reporterKey
  | _ => none

def installs (sha256 : String → String) : ExecutionRequest → Option (Option String)
  | progress _ _ _ => none
  | handoff payload => (payload.newHash sha256).toOption

end ExecutionRequest

section

variable {sha256 : String → String} {manager : ExecutionManager} {taskId : TaskId}
  {request : ExecutionRequest} {now : Time} {task : TaskRecord} {change : ExecutionChange}

/-- A request that is to change the task was issued against its version and is new. -/
structure IntakeChange (sha256 : String → String) (manager : ExecutionManager) (taskId : TaskId)
    (request : ExecutionRequest) (change : ExecutionChange) (task : TaskRecord) : Prop where
  found : manager.tasks.get? taskId = some task
  fresh : manager.mailbox.callIndex.get? (executionCallId taskId request.callId) = none
  callId : change.callId = executionCallId taskId request.callId
  id : change.task.id = taskId
  epoch : request.expectedExecutionEpoch = task.executionEpoch
  revision : request.expectedProgressRevision = task.progressRevision
  version : task.version < change.task.version
  keyHash : change.task.reporterKeyHash = (request.installs sha256).getD task.reporterKeyHash
  presented : ∀ key, request.presents = some key → task.reporterKeyHash = some (sha256 key)

theorem checkExecutionVersion_ok {epoch revision : Nat} {u : Unit}
    (h : task.checkExecutionVersion epoch (some revision) = .ok u) :
    epoch = task.executionEpoch ∧ revision = task.progressRevision := by
  unfold TaskRecord.checkExecutionVersion at h
  split at h
  · contradiction
  · rename_i hepoch
    split at h
    · contradiction
    · rename_i hrevision
      simp only [Option.any_some, decide_not, Bool.not_eq_eq_eq_not, Bool.not_true,
        decide_eq_false_iff_not, not_not] at hrevision
      exact ⟨(not_not.mp hepoch).symm, hrevision.symm⟩

theorem checkReporter_ok {key : Option String} {u : Unit}
    (h : task.checkReporter sha256 key = .ok u) :
    ∃ text, key = some text ∧ task.reporterKeyHash = some (sha256 text) := by
  unfold TaskRecord.checkReporter at h
  split at h
  · contradiction
  · rename_i supplied hdigest
    split at h
    · rename_i hhash
      cases key with
      | none => contradiction
      | some text =>
        simp only [reporterKeyDigest] at hdigest
        split at hdigest
        · cases hdigest
          exact ⟨text, rfl, (Option.filter_eq_some_iff.mp hhash).1⟩
        · contradiction
    · contradiction

theorem id_of_get? {tasks : TaskRecordTable} (h : tasks.get? taskId = some task) :
    task.id = taskId := by
  have hrow := Table.get?_eq_some.mp h
  exact hrow.2

theorem requireWorkspaceTask_ok (h : manager.requireWorkspaceTask taskId = .ok task) :
    manager.tasks.get? taskId = some task := by
  unfold ExecutionManager.requireWorkspaceTask at h
  split at h
  · contradiction
  · rename_i hget
    rw [hget, Except.ok.inj h]

theorem executionTask_ok (h : manager.executionTask taskId = .ok task) :
    manager.tasks.get? taskId = some task := by
  obtain ⟨found, hfound, hrest⟩ := Except.bind_ok_iff.mp h
  obtain ⟨_, -, hpure⟩ := Except.bind_ok_iff.mp hrest
  obtain rfl := Except.pure_ok_iff.mp hpure
  exact requireWorkspaceTask_ok hfound

theorem executionReplay_none {callId : CallId} {fingerprint : ExecutionFingerprint}
    (h : manager.executionReplay task callId fingerprint = .ok none) :
    manager.mailbox.callIndex.get? callId = none := by
  unfold ExecutionManager.executionReplay at h
  split at h
  · assumption
  · split at h
    · contradiction
    · exact absurd (Except.ok.inj h) (by simp)

theorem executionReplay_some {callId : CallId} {fingerprint : ExecutionFingerprint}
    {result : TaskExecutionMutationResult}
    (h : manager.executionReplay task callId fingerprint = .ok (some result)) :
    ∃ record, manager.mailbox.callIndex.get? callId = some record ∧
      result = ⟨task, record.event, true⟩ := by
  unfold ExecutionManager.executionReplay at h
  split at h
  · exact absurd (Except.ok.inj h) (by simp)
  · rename_i record hget
    split at h
    · contradiction
    · exact ⟨record, hget, (Option.some.inj (Except.ok.inj h)).symm⟩

theorem applyProgress_fence (task : TaskRecord) (payload : TaskProgressRequest) (manual : Bool)
    (now : Time) :
    (task.applyProgress payload manual now).id = task.id ∧
      (task.applyProgress payload manual now).executionEpoch = task.executionEpoch ∧
      (task.applyProgress payload manual now).progressRevision = task.progressRevision + 1 ∧
      (task.applyProgress payload manual now).reporterKeyHash = task.reporterKeyHash := by
  unfold TaskRecord.applyProgress
  cases manual <;> cases payload.executionRef.join <;> cases payload.state <;>
    exact ⟨rfl, rfl, rfl, rfl⟩

theorem version_lt_of_revision {next : TaskRecord}
    (hepoch : next.executionEpoch = task.executionEpoch)
    (hrevision : next.progressRevision = task.progressRevision + 1) :
    task.version < next.version :=
  Prod.Lex.toLex_lt_toLex.mpr (.inr ⟨hepoch.symm, hrevision ▸ Nat.lt_succ_self _⟩)

theorem version_lt_of_epoch {next : TaskRecord}
    (hepoch : next.executionEpoch = task.executionEpoch + 1) : task.version < next.version :=
  Prod.Lex.toLex_lt_toLex.mpr (.inl (hepoch ▸ Nat.lt_succ_self _))

theorem progressIntake_applies {payload : TaskProgressRequest} {reporterKey : Option String}
    {manual : Bool}
    (h : manager.progressIntake sha256 taskId payload reporterKey manual now =
      .ok (.change change)) :
    ∃ task, manager.tasks.get? taskId = some task ∧
      change.task = task.applyProgress payload manual now ∧
      change.callId = executionCallId task.id payload.callId ∧
      task.checkAuthor sha256 payload reporterKey manual = .ok () ∧
      manager.mailbox.callIndex.get? (executionCallId task.id payload.callId) = none ∧
      task.checkExecutionVersion payload.expectedExecutionEpoch
        (some payload.expectedProgressRevision) = .ok () := by
  obtain ⟨task, htask, h⟩ := Except.bind_ok_iff.mp h
  obtain ⟨_, hauthor, h⟩ := Except.bind_ok_iff.mp h
  obtain ⟨_, -, h⟩ := Except.bind_ok_iff.mp h
  obtain ⟨replayed, hreplayed, h⟩ := Except.bind_ok_iff.mp h
  cases replayed with
  | some => exact absurd (Except.pure_ok_iff.mp h) (by simp)
  | none =>
    obtain ⟨_, hversion, h⟩ := Except.bind_ok_iff.mp h
    obtain ⟨_, -, h⟩ := Except.bind_ok_iff.mp h
    obtain ⟨_, -, h⟩ := Except.bind_ok_iff.mp h
    obtain rfl := Intake.change.inj (Except.pure_ok_iff.mp h)
    exact ⟨task, executionTask_ok htask, rfl, rfl, hauthor, executionReplay_none hreplayed,
      hversion⟩

theorem progressIntake_change {payload : TaskProgressRequest} {reporterKey : Option String}
    {manual : Bool}
    (h : manager.progressIntake sha256 taskId payload reporterKey manual now =
      .ok (.change change)) :
    ∃ task, IntakeChange sha256 manager taskId (.progress payload reporterKey manual) change
      task := by
  obtain ⟨task, hfound, htask, hcall, hauthor, hfresh, hversion⟩ := progressIntake_applies h
  obtain rfl := id_of_get? hfound
  obtain ⟨hid, hepoch, hrevision, hhash⟩ := applyProgress_fence task payload manual now
  rw [← htask] at hid hepoch hrevision hhash
  obtain ⟨hexpectedEpoch, hexpectedRevision⟩ := checkExecutionVersion_ok hversion
  refine ⟨task, hfound, hfresh, hcall, hid, hexpectedEpoch, hexpectedRevision,
    version_lt_of_revision hepoch hrevision, hhash, fun key hkey => ?_⟩
  cases manual with
  | true => contradiction
  | false =>
    obtain ⟨text, htext, hpresented⟩ := checkReporter_ok hauthor
    obtain rfl : text = key := Option.some.inj (htext.symm.trans hkey)
    exact hpresented

theorem handoffIntake_applies {payload : TaskExecutionHandoffRequest}
    (h : manager.handoffIntake sha256 taskId payload now = .ok (.change change)) :
    ∃ newHash task, payload.newHash sha256 = .ok newHash ∧
      manager.tasks.get? taskId = some task ∧
      change.task = task.applyHandoff payload newHash now ∧
      change.callId = executionCallId task.id payload.callId ∧
      manager.mailbox.callIndex.get? (executionCallId task.id payload.callId) = none ∧
      task.checkExecutionVersion payload.expectedExecutionEpoch
        (some payload.expectedProgressRevision) = .ok () := by
  obtain ⟨newHash, hhash, h⟩ := Except.bind_ok_iff.mp h
  obtain ⟨task, htask, h⟩ := Except.bind_ok_iff.mp h
  obtain ⟨replayed, hreplayed, h⟩ := Except.bind_ok_iff.mp h
  cases replayed with
  | some => exact absurd (Except.pure_ok_iff.mp h) (by simp)
  | none =>
    obtain ⟨_, hversion, h⟩ := Except.bind_ok_iff.mp h
    obtain ⟨_, -, h⟩ := Except.bind_ok_iff.mp h
    obtain ⟨_, -, h⟩ := Except.bind_ok_iff.mp h
    obtain ⟨_, -, h⟩ := Except.bind_ok_iff.mp h
    obtain rfl := Intake.change.inj (Except.pure_ok_iff.mp h)
    exact ⟨newHash, task, hhash, requireWorkspaceTask_ok htask, rfl, rfl,
      executionReplay_none hreplayed, hversion⟩

theorem handoffIntake_change {payload : TaskExecutionHandoffRequest}
    (h : manager.handoffIntake sha256 taskId payload now = .ok (.change change)) :
    ∃ task, IntakeChange sha256 manager taskId (.handoff payload) change task := by
  obtain ⟨newHash, task, hhash, hfound, htask, hcall, hfresh, hversion⟩ := handoffIntake_applies h
  obtain rfl := id_of_get? hfound
  obtain ⟨hexpectedEpoch, hexpectedRevision⟩ := checkExecutionVersion_ok hversion
  refine ⟨task, hfound, hfresh, hcall, by rw [htask]; rfl, hexpectedEpoch, hexpectedRevision,
    version_lt_of_epoch (by rw [htask]; rfl), ?_, fun key hkey => ?_⟩
  · rw [htask]
    simp [ExecutionRequest.installs, hhash, Except.toOption, TaskRecord.applyHandoff]
  · contradiction

theorem intake_change (h : request.intake manager sha256 taskId now = .ok (.change change)) :
    ∃ task, IntakeChange sha256 manager taskId request change task := by
  cases request with
  | progress => exact progressIntake_change h
  | handoff => exact handoffIntake_change h

theorem intake_replay {result : TaskExecutionMutationResult}
    (h : request.intake manager sha256 taskId now = .ok (.replay result)) :
    ∃ task record,
      manager.mailbox.callIndex.get? (executionCallId taskId request.callId) = some record ∧
        result = ⟨task, record.event, true⟩ := by
  cases request with
  | progress =>
    obtain ⟨task, htask, h⟩ := Except.bind_ok_iff.mp h
    obtain ⟨_, -, h⟩ := Except.bind_ok_iff.mp h
    obtain ⟨_, -, h⟩ := Except.bind_ok_iff.mp h
    obtain ⟨replayed, hreplayed, h⟩ := Except.bind_ok_iff.mp h
    obtain rfl := id_of_get? (executionTask_ok htask)
    cases replayed with
    | some =>
      obtain rfl := Intake.replay.inj (Except.pure_ok_iff.mp h)
      obtain ⟨record, hrecord, hresult⟩ := executionReplay_some hreplayed
      exact ⟨task, record, hrecord, hresult⟩
    | none =>
      obtain ⟨_, -, h⟩ := Except.bind_ok_iff.mp h
      obtain ⟨_, -, h⟩ := Except.bind_ok_iff.mp h
      obtain ⟨_, -, h⟩ := Except.bind_ok_iff.mp h
      exact absurd (Except.pure_ok_iff.mp h) (by simp)
  | handoff =>
    obtain ⟨newHash, -, h⟩ := Except.bind_ok_iff.mp h
    obtain ⟨task, htask, h⟩ := Except.bind_ok_iff.mp h
    obtain ⟨replayed, hreplayed, h⟩ := Except.bind_ok_iff.mp h
    obtain rfl := id_of_get? (requireWorkspaceTask_ok htask)
    cases replayed with
    | some =>
      obtain rfl := Intake.replay.inj (Except.pure_ok_iff.mp h)
      obtain ⟨record, hrecord, hresult⟩ := executionReplay_some hreplayed
      exact ⟨task, record, hrecord, hresult⟩
    | none =>
      obtain ⟨_, -, h⟩ := Except.bind_ok_iff.mp h
      obtain ⟨_, -, h⟩ := Except.bind_ok_iff.mp h
      obtain ⟨_, -, h⟩ := Except.bind_ok_iff.mp h
      obtain ⟨_, -, h⟩ := Except.bind_ok_iff.mp h
      exact absurd (Except.pure_ok_iff.mp h) (by simp)

end

namespace ExecutionChange

variable (change : ExecutionChange)

@[simp] theorem next_version : change.next.version = change.task.version := by
  simp only [next, TaskRecord.version]

@[simp] theorem next_reporterKeyHash :
    change.next.reporterKeyHash = change.task.reporterKeyHash := by
  simp only [next]

end ExecutionChange

def ExecutionManager.committed (manager : ExecutionManager) (change : ExecutionChange)
    (mailbox : TaskMailbox) : ExecutionManager :=
  { manager with tasks := manager.tasks.insert change.next, mailbox }

theorem committed_get? (manager : ExecutionManager) (mailbox : TaskMailbox)
    {change : ExecutionChange} {taskId : TaskId} (hid : change.task.id = taskId) :
    (manager.committed change mailbox).tasks.get? taskId = some change.next := by
  have hnext : change.next.id = taskId := hid
  unfold ExecutionManager.committed
  rw [Table.get?_insert, if_pos hnext.symm]

/-- The mailbox with the event of a change at its end, on record under its call. -/
structure EventStaged (manager : ExecutionManager) (change : ExecutionChange)
    (event : TaskEvent) (mailbox : TaskMailbox) : Prop where
  callId : event.callId = change.callId
  taskId : event.taskId = change.task.id
  events : mailbox.events = manager.mailbox.events ++ [event]
  calls : ∃ record : CallRecord, record.callId = change.callId ∧ record.event = event ∧
    mailbox.callIndex = manager.mailbox.callIndex.insert record

theorem stageEvent_fresh {wm : WorkspaceManager} {req : AppendRequest} {task : WorkspaceTask}
    (now : Time) (htask : wm.tasks.get? req.taskId = some task)
    (halias : wm.reuseLegacyReportAlias req = none)
    (hfresh : wm.mailbox.callIndex.get? req.callId = none) :
    wm.stageEvent req now = .ok (.created (req.event task (wm.mailbox.workspaceMaxSequence + 1) now)
      { wm.mailbox.nextSequence.2 with
        events := wm.mailbox.events ++ [req.event task (wm.mailbox.workspaceMaxSequence + 1) now]
        callIndex := wm.mailbox.callIndex.insert
          (req.record task (req.event task (wm.mailbox.workspaceMaxSequence + 1) now)) }) := by
  unfold WorkspaceManager.stageEvent
  rw [htask]
  simp only [halias, hfresh]
  rfl

theorem stageEvent_committed (manager : ExecutionManager) (change : ExecutionChange) (now : Time)
    (hfresh : manager.mailbox.callIndex.get? change.callId = none) :
    ∃ event mailbox, EventStaged manager change event mailbox ∧
      { manager with tasks := manager.tasks.insert change.next }.workspaceManager.stageEvent
        change.appendRequest now = .ok (.created event mailbox) := by
  have htask : (TaskRecordTable.taskTable (manager.tasks.insert change.next)).get?
      change.next.id = some change.next.toWorkspaceTask := by
    unfold TaskRecordTable.taskTable
    rw [Table.get?_project, Table.get?_insert, if_pos rfl]
    rfl
  let live := { manager with tasks := manager.tasks.insert change.next }.workspaceManager
  have halias : live.reuseLegacyReportAlias change.appendRequest = none := rfl
  refine ⟨_, _, ?_, stageEvent_fresh now htask halias hfresh⟩
  exact ⟨rfl, rfl, rfl, _, rfl, rfl, rfl⟩

/-- A new call is either saved with its change and event, or it raises and the process is as
before, whatever has become of the file. -/
theorem commitExecutionChange_spec (hub : ExecutionHub) (change : ExecutionChange) (now : Time)
    (outcome : SaveOutcome) (hfresh : hub.live.mailbox.callIndex.get? change.callId = none) :
    ∃ event mailbox, EventStaged hub.live change event mailbox ∧
      hub.commitExecutionChange change now outcome =
        match outcome with
        | .saved =>
          (⟨hub.live.committed change mailbox,
            (hub.live.committed change mailbox).workspaceStatePayload⟩,
            .ok ⟨change.next, event, false⟩)
        | .notReplaced => (hub, .error .saveFailed)
        | .replacedThenRaised =>
          (⟨hub.live, (hub.live.committed change mailbox).workspaceStatePayload⟩,
            .error .saveFailed) := by
  obtain ⟨event, mailbox, hstaged, hcreated⟩ := stageEvent_committed hub.live change now hfresh
  refine ⟨event, mailbox, hstaged, ?_⟩
  unfold ExecutionHub.commitExecutionChange
  simp only [hcreated]
  cases outcome <;> rfl

def ExecutionHub.commitEnds (hub : ExecutionHub) (next : ExecutionManager) :
    SaveOutcome → ExecutionHub
  | .saved => ⟨next, next.workspaceStatePayload⟩
  | .notReplaced => hub
  | .replacedThenRaised => ⟨hub.live, next.workspaceStatePayload⟩

theorem answer_cases (hub : ExecutionHub) (sha256 : String → String) (taskId : TaskId)
    (request : ExecutionRequest) (now : Time) (outcome : SaveOutcome) :
    (∃ error, hub.answer sha256 taskId request now outcome = (hub, .error error)) ∨
    (∃ task record,
      hub.live.mailbox.callIndex.get? (executionCallId taskId request.callId) = some record ∧
        hub.answer sha256 taskId request now outcome = (hub, .ok ⟨task, record.event, true⟩)) ∨
    ∃ task change event mailbox, IntakeChange sha256 hub.live taskId request change task ∧
      EventStaged hub.live change event mailbox ∧
        hub.answer sha256 taskId request now outcome =
          (hub.commitEnds (hub.live.committed change mailbox) outcome,
            if outcome.raises then .error .saveFailed else .ok ⟨change.next, event, false⟩) := by
  unfold ExecutionHub.answer
  cases hintake : request.intake hub.live sha256 taskId now with
  | error error => exact .inl ⟨error, rfl⟩
  | ok intake =>
    cases intake with
    | replay =>
      obtain ⟨task, record, hrecord, rfl⟩ := intake_replay hintake
      exact .inr (.inl ⟨task, record, hrecord, rfl⟩)
    | change change =>
      obtain ⟨task, hchange⟩ := intake_change hintake
      obtain ⟨event, mailbox, hstaged, hcommit⟩ :=
        commitExecutionChange_spec hub change now outcome (hchange.callId ▸ hchange.fresh)
      refine .inr (.inr ⟨task, change, event, mailbox, hchange, hstaged, ?_⟩)
      simp only [hcommit]
      cases outcome <;> rfl

/-- A loaded process has the saved tasks with their fences, and has every call of a single
event on record. -/
structure ExecutionLoaded (state : ExecutionState) (manager : ExecutionManager) : Prop where
  tasks : ∀ taskId, manager.tasks.get? taskId =
    (state.tasks.get? taskId).map TaskRecord.normalizeTaskItem
  indexed : manager.mailbox.Indexed
  single : ∀ text event, eventsOf state.taskEvents (.raw text) = [event] →
    eventsOf manager.mailbox.events (.raw text) = [event] ∧
      ∃ record, manager.mailbox.callIndex.get? (.raw text) = some record ∧ record.event = event

theorem mem_eventsOf {events : List TaskEvent} {callId : CallId} {event : TaskEvent} :
    event ∈ eventsOf events callId ↔ event ∈ events ∧ event.callId = callId := by
  simp [eventsOf]

theorem eventsOf_append (events more : List TaskEvent) (callId : CallId) :
    eventsOf (events ++ more) callId = eventsOf events callId ++ eventsOf more callId :=
  List.filter_append ..

theorem executionLoad_spec {state : ExecutionState} {manager : ExecutionManager}
    (h : state.load = .ok manager) : ExecutionLoaded state manager := by
  obtain ⟨wm, hload, rfl⟩ := Except.map_ok_iff.mp h
  obtain ⟨added, hloaded⟩ := load_spec hload
  obtain ⟨hindex, hcalls⟩ := load_calls hload
  obtain ⟨hcovered, hrecords⟩ := rebuildCallIndex_spec hindex
  refine ⟨fun taskId => Table.get?_map _ _ TaskRecord.normalizeTaskItem_id taskId, fun event hevent => hcovered event hevent, ?_⟩
  intro text event hsingle
  -- What the load adds stands for reports, so it has no event of this call.
  have hadded : eventsOf added (.raw text) = [] := by
    refine List.eq_nil_iff_forall_not_mem.mpr fun other hother => ?_
    obtain ⟨hmem, hcall⟩ := mem_eventsOf.1 hother
    have habove := hloaded.above other hmem
    rcases hcalls other (hloaded.events.mem_iff.mpr (List.mem_append_right _ hmem)) with
      hsaved | ⟨id, hreport⟩
    · exact absurd (le_maxSequence hsaved) (Nat.not_le.mpr habove)
    · exact absurd (hcall.symm.trans hreport) (by simp)
  have hevents : eventsOf wm.mailbox.events (.raw text) = [event] := by
    have hperm := hloaded.events.filter fun event => decide (event.callId = .raw text)
    rw [List.filter_append] at hperm
    have happended : eventsOf state.taskEvents (.raw text) ++ eventsOf added (.raw text) =
        [event] := by rw [hsingle, hadded, List.append_nil]
    exact List.perm_singleton.mp (hperm.trans (happended ▸ List.Perm.refl _))
  refine ⟨hevents, ?_⟩
  obtain ⟨hmem, hcall⟩ := mem_eventsOf.1 (hevents ▸ List.mem_singleton_self event)
  obtain ⟨record, hrecord⟩ := Option.isSome_iff_exists.mp (hcall ▸ hcovered event hmem)
  refine ⟨record, hrecord, ?_⟩
  obtain ⟨hrow, hkey⟩ := Table.get?_eq_some.mp hrecord
  obtain ⟨hrecordMem, hrecordCall⟩ := hrecords record hrow
  have hrecordOf : record.event ∈ eventsOf wm.mailbox.events (.raw text) :=
    mem_eventsOf.2 ⟨hrecordMem, hrecordCall.trans hkey⟩
  rw [hevents] at hrecordOf
  exact List.mem_singleton.mp hrecordOf

end ClaudeHub
