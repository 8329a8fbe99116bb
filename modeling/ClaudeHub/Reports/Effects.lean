import ClaudeHub.Reports.Intake

/-! # What one call of intake does

One lemma for each part of the transaction, and from them the two shapes of a whole call: it
files a new report about a task, or it leaves every task as it was but for the call lists.
-/

namespace ClaudeHub

def TaskRecord.body (task : TaskRecord) : TaskRecord := { task with toCallLists := {} }

def ReportingSession.binding (session : ReportingSession) :
    WorkspaceSessionRole × Option TaskId × Option TaskId :=
  (session.role, session.taskId, session.currentTaskId)

namespace ReportDesk

def newReport (desk : ReportDesk) (call : ReportCall) : Option (ReportingSession × TaskRecord) :=
  match desk.sessions.get? call.sessionId with
  | none => none
  | some session =>
    match session.existingReportForCallId desk.reports call.payload,
        reportedTask desk.tasks session.toManagedSession call.payload with
    | .ok none, .ok (some task) => some ({ session with title := task.title }, task)
    | _, _ => none

section

variable {desk staged : ReportDesk} {call : ReportCall} {session : ReportingSession}
  {task : TaskRecord} {taskId : Option TaskId} {sessionId : SessionId} {callIds : List CallId}
  {existing report : FiledReport} {actor : Option ManagedSession} {k : String}

theorem get?_ackCallIds (desk : ReportDesk) (taskId : Option TaskId) (sessionId : SessionId)
    (callIds : List CallId) (k : TaskId) :
    (desk.ackCallIds taskId sessionId callIds).tasks.get? k =
      if truthy taskId = some k then
        let verified := desk.manager.verifiedAcks desk.callTarget taskId sessionId callIds
        (desk.tasks.get? k).map fun task => { task with toCallLists := task.acknowledge verified }
      else desk.tasks.get? k := by
  simp only [ackCallIds]
  cases hid : truthy taskId with
  | none => simp
  | some id =>
    cases hget : desk.tasks.get? id with
    | none =>
      by_cases hk : id = k
      · subst hk
        simp [hget]
      · simp [hget, hk]
    | some task =>
      have hkey : task.id = id := (Table.get?_eq_some.mp hget).2
      by_cases hk : id = k
      · subst hk
        simp [hget, hkey]
      · have hne : ¬ k = id := fun h => hk h.symm
        simp [hget, hkey, hk, hne, Table.get?_insert]

theorem body_ackCallIds (desk : ReportDesk) (taskId : Option TaskId) (sessionId : SessionId)
    (callIds : List CallId) (k : TaskId) :
    ((desk.ackCallIds taskId sessionId callIds).tasks.get? k).map TaskRecord.body =
      (desk.tasks.get? k).map TaskRecord.body := by
  rw [get?_ackCallIds]
  split
  · simp only [Option.map_map]
    rfl
  · rfl

theorem other_ackCallIds (h : truthy taskId ≠ some k) :
    (desk.ackCallIds taskId sessionId callIds).tasks.get? k = desk.tasks.get? k := by
  rw [get?_ackCallIds, if_neg h]

theorem binding_ackCallIds (desk : ReportDesk) (taskId : Option TaskId) (sessionId : SessionId)
    (callIds : List CallId) (k : SessionId) :
    ((desk.ackCallIds taskId sessionId callIds).sessions.get? k).map ReportingSession.binding =
      (desk.sessions.get? k).map ReportingSession.binding := by
  simp only [ackCallIds]
  cases hget : desk.sessions.get? sessionId with
  | none => rfl
  | some session =>
    simp only
    split
    · rfl
    · have hkey : session.id = sessionId := (Table.get?_eq_some.mp hget).2
      rw [Table.get?_insert]
      split
      · next hk =>
          have hk : k = sessionId := hk.trans hkey
          rw [hk, hget]
          rfl
      · rfl

theorem tasks_updateTask (desk : ReportDesk) (session : ManagedSession) (report : FiledReport)
    (task : TaskRecord) (call : ReportCall) :
    (desk.updateTask session report task call).tasks =
      desk.tasks.insert (taskAfterReport task session report
        (goalPacketForTask task session call.payload.toReportContent call.now) call.now) := by
  unfold updateTask applyTaskUpdate
  simp only
  split <;> rfl

theorem warnings_updateTask (desk : ReportDesk) (session : ManagedSession) (report : FiledReport)
    (task : TaskRecord) (call : ReportCall) :
    (desk.updateTask session report task call).warnings =
      desk.warnings ++ (applyTaskUpdate task (taskAfterReport task session report
        (goalPacketForTask task session call.payload.toReportContent call.now) call.now)
        (if session.role = .reviewer then .reviewVerdict else .report)).2 := by
  unfold updateTask
  simp only
  split <;> rfl

def taskAfter (call : ReportCall) (session : ReportingSession) (task : TaskRecord) : TaskRecord :=
  taskAfterReport task session.toManagedSession (filedReport call (some task))
    (goalPacketForTask task session.toManagedSession call.payload.toReportContent call.now)
    call.now

def logged (call : ReportCall) (session : ReportingSession) (task : TaskRecord) :
    List TransitionWarning :=
  (applyTaskUpdate task (taskAfter call session task)
    (if session.role = .reviewer then .reviewVerdict else .report)).2

theorem warnings_stageReport (desk : ReportDesk) (session : ReportingSession)
    (task : TaskRecord) (call : ReportCall) :
    (desk.stageReport session (some task) call).warnings =
      desk.warnings ++ logged call session task := by
  unfold stageReport
  exact warnings_updateTask ..

theorem id_statusUpdate (task : TaskRecord) (session : ManagedSession) (report : FiledReport)
    (now : Time) (update : TaskUpdate) :
    (statusUpdate task session report now update).task.id = update.task.id := by
  unfold statusUpdate
  repeat' split
  all_goals rfl

theorem id_taskAfterReport (task : TaskRecord) (session : ManagedSession) (report : FiledReport)
    (goalPacket : Option GoalPacket) (now : Time) :
    (taskAfterReport task session report goalPacket now).id = task.id := by
  have hstatus : (statusUpdate task session report now
      (progressUpdate task session report goalPacket now)).task.id = task.id :=
    id_statusUpdate ..
  unfold taskAfterReport
  simp only
  split
  · rw [← hstatus]
    unfold verdictUpdate computeReviewerVerdictTaskUpdate
    simp only
    split <;> split <;> rfl
  · split <;> exact hstatus

theorem body_stageReport (desk : ReportDesk) (session : ReportingSession) (task : TaskRecord)
    (call : ReportCall) (k : TaskId) :
    ((desk.stageReport session (some task) call).tasks.get? k).map TaskRecord.body =
      if k = task.id then some (taskAfter call session task).body
      else (desk.tasks.get? k).map TaskRecord.body := by
  have hid : (taskAfter call session task).id = task.id := id_taskAfterReport ..
  unfold stageReport
  rw [body_ackCallIds, tasks_updateTask, Table.get?_insert]
  simp only [taskAfter] at hid ⊢
  rw [hid]
  split <;> rfl

theorem other_stageReport (desk : ReportDesk) (session : ReportingSession) (task : TaskRecord)
    (call : ReportCall) (h : k ≠ task.id) :
    (desk.stageReport session (some task) call).tasks.get? k = desk.tasks.get? k := by
  have hid : (taskAfter call session task).id = task.id := id_taskAfterReport ..
  unfold stageReport
  rw [other_ackCallIds, tasks_updateTask, Table.get?_insert]
  · rw [if_neg]
    simp only [taskAfter] at hid
    rwa [hid]
  · intro heq
    have hfiltered := Option.filter_eq_some_iff.mp heq
    exact h (Option.some.inj hfiltered.1).symm

theorem body_stageReplay (desk : ReportDesk) (existing : FiledReport) (k : TaskId) :
    ((desk.stageReplay existing).1.tasks.get? k).map TaskRecord.body =
      (desk.tasks.get? k).map TaskRecord.body := by
  unfold stageReplay
  cases desk.sessions.get? existing.sessionId with
  | none => rfl
  | some => exact body_ackCallIds ..

theorem warnings_stageReplay (desk : ReportDesk) (existing : FiledReport) :
    (desk.stageReplay existing).1.warnings = desk.warnings := by
  unfold stageReplay
  cases desk.sessions.get? existing.sessionId <;> rfl

theorem other_stageReplay (h : existing.taskId ≠ some k) :
    (desk.stageReplay existing).1.tasks.get? k = desk.tasks.get? k := by
  unfold stageReplay
  cases desk.sessions.get? existing.sessionId with
  | none => rfl
  | some =>
    apply other_ackCallIds
    intro heq
    obtain ⟨task, htask, hid⟩ := Option.map_eq_some_iff.mp (Option.filter_eq_some_iff.mp heq).1
    obtain ⟨taskId, htaskId, hget⟩ := Option.bind_eq_some_iff.mp htask
    have hkey : task.id = taskId := (Table.get?_eq_some.mp hget).2
    apply h
    rw [(Option.filter_eq_some_iff.mp htaskId).1, ← hkey, hid]

theorem binding_stageReplay (desk : ReportDesk) (existing : FiledReport) (k : SessionId) :
    ((desk.stageReplay existing).1.sessions.get? k).map ReportingSession.binding =
      (desk.sessions.get? k).map ReportingSession.binding := by
  unfold stageReplay
  cases desk.sessions.get? existing.sessionId with
  | none => rfl
  | some => exact binding_ackCallIds ..

theorem commitReport_cases (desk staged : ReportDesk) (report : FiledReport)
    (actor : Option ManagedSession) (call : ReportCall) :
    (∃ error, desk.commitReport staged report actor call =
        ({ desk with warnings := staged.warnings }, .error error)) ∨
      ∃ mailbox, desk.commitReport staged report actor call =
        ({ staged with mailbox := mailbox }, .ok report) := by
  unfold commitReport
  simp only
  split
  · next error _ => exact .inl ⟨error, rfl⟩
  · next mailbox _ =>
      split
      · exact .inr ⟨mailbox, rfl⟩
      · exact .inl ⟨_, rfl⟩

section

variable (h : desk.newReport call = some (session, task))
include h

theorem newReport_spec : ∃ live, desk.sessions.get? call.sessionId = some live ∧
      session = { live with title := task.title } ∧
      live.existingReportForCallId desk.reports call.payload = .ok none ∧
      reportedTask desk.tasks live.toManagedSession call.payload = .ok (some task) := by
  unfold newReport at h
  split at h
  · cases h
  · next live hlive =>
      split at h
      · next found hexisting htask =>
          have hpair := Prod.mk.inj (Option.some.inj h)
          obtain rfl := hpair.2
          exact ⟨live, hlive, hpair.1.symm, hexisting, htask⟩
      · cases h

theorem id_of_newReport : session.id = call.sessionId ∧ desk.tasks.get? task.id = some task := by
  obtain ⟨live, hlive, rfl, -, htask⟩ := newReport_spec h
  exact ⟨(Table.get?_eq_some.mp hlive).2, (reportedTask_some htask).2⟩

theorem createReport_eq : ∃ actor, desk.createReport call = (desk.putSession session).commitReport
        ((desk.putSession session).stageReport session (some task) call)
        (filedReport call (some task)) actor call := by
  obtain ⟨live, hlive, rfl, hexisting, htask⟩ := newReport_spec h
  unfold createReport fileReport renameSession
  rw [hlive]
  simp only [hexisting, htask]
  exact ⟨_, rfl⟩

theorem createReport_of_newReport : (∃ error, desk.createReport call =
        ({ desk.putSession session with warnings := desk.warnings ++ logged call session task },
          .error error)) ∨
      ∃ mailbox, desk.createReport call =
        ({ (desk.putSession session).stageReport session (some task) call with
            mailbox := mailbox },
          .ok (filedReport call (some task))) := by
  obtain ⟨actor, heq⟩ := createReport_eq h
  rw [heq]
  rcases commitReport_cases (desk.putSession session)
    ((desk.putSession session).stageReport session (some task) call)
    (filedReport call (some task)) actor call with ⟨error, hcommit⟩ | ⟨mailbox, hcommit⟩
  · left
    refine ⟨error, hcommit.trans ?_⟩
    rw [warnings_stageReport]
    rfl
  · exact .inr ⟨mailbox, hcommit⟩

end

/-- What a call that files no new report about a task does to the tasks. -/
structure Untouched (before after : ReportDesk) : Prop where
  body : ∀ k, (after.tasks.get? k).map TaskRecord.body = (before.tasks.get? k).map TaskRecord.body
  warnings : after.warnings = before.warnings

theorem Untouched.refl (desk : ReportDesk) : Untouched desk desk := ⟨fun _ => rfl, rfl⟩

theorem Untouched.commit (h : Untouched desk staged) (report : FiledReport)
    (actor : Option ManagedSession) (call : ReportCall) :
    Untouched desk (desk.commitReport staged report actor call).1 := by
  rcases desk.commitReport_cases staged report actor call with ⟨error, hcommit⟩ | ⟨mailbox, hcommit⟩
  · rw [hcommit]
    exact ⟨fun _ => rfl, h.warnings⟩
  · rw [hcommit]
    exact ⟨h.body, h.warnings⟩

theorem untouched_of_newReport (h : desk.newReport call = none) :
    Untouched desk (desk.createReport call).1 := by
  unfold createReport
  split
  · exact .refl desk
  next live hlive =>
  split
  · exact .refl desk
  · next hexisting =>
      unfold fileReport
      split
      · exact .refl desk
      next task htask =>
      cases task with
      | none =>
        have hstaged : Untouched desk (desk.stageReport live none call) := ⟨fun _ => rfl, rfl⟩
        exact hstaged.commit ..
      | some => simp [newReport, hlive, hexisting, htask] at h
  · next existing hexisting =>
      split
      · exact .commit ⟨desk.body_stageReplay existing, desk.warnings_stageReplay existing⟩ ..
      · exact .refl desk

end

end ReportDesk

end ClaudeHub
