import ClaudeHub.Reports.Effects

/-! # Which task a reporting session is bound to

Intake binds the session to the task of a new report, whatever the session works on; a report
that the session has filed before binds nothing.
-/

namespace ClaudeHub

def ReportingSession.BoundTo (session : ReportingSession) (taskId : TaskId) : Prop :=
  session.taskId = some taskId ∨ session.currentTaskId = some taskId

def ReportDesk.Repeats (desk : ReportDesk) (call : ReportCall) : Prop :=
  ∃ session existing, desk.sessions.get? call.sessionId = some session ∧
    session.existingReportForCallId desk.reports call.payload = .ok (some existing)

namespace ReportDesk

section

variable {desk : ReportDesk} {call : ReportCall} {session after : ReportingSession}
  {task : TaskRecord} {existing report : FiledReport} {taskId : TaskId}

theorem BoundTo.congr {session other : ReportingSession} (h : session.binding = other.binding)
    (hbound : session.BoundTo taskId) : other.BoundTo taskId := by
  have htasks : (session.taskId, session.currentTaskId) = (other.taskId, other.currentTaskId) :=
    congrArg Prod.snd h
  obtain ⟨htask, hcurrent⟩ := Prod.mk.inj htasks
  unfold ReportingSession.BoundTo at *
  rwa [← htask, ← hcurrent]

theorem boundTo_releaseReviewer {tasks : TaskRecordTable}
    (h : (releaseReviewer tasks session).BoundTo taskId) : session.BoundTo taskId := by
  unfold releaseReviewer at h
  split at h
  · exact h
  · simp [ReportingSession.BoundTo] at h

theorem boundTo_sessionAfterReport
    (h : (sessionAfterReport session call (some task)).BoundTo taskId) : taskId = task.id := by
  rcases h with h | h
  · exact (Option.some.inj h).symm
  · exact (Option.some.inj h).symm

theorem boundTo_stageReport
    (hget : (desk.stageReport session (some task) call).sessions.get? session.id = some after)
    (hbound : after.BoundTo taskId) : taskId = task.id := by
  unfold stageReport at hget
  simp only at hget
  have hbinding := binding_ackCallIds
    (({ desk with
        reports := desk.reports.insert (filedReport call (some task))
        sessions := desk.sessions.insert (sessionAfterReport session call (some task)) }
      : ReportDesk).updateTask session.toManagedSession (filedReport call (some task)) task call)
    (filedReport call (some task)).taskId session.id
    ((filedReport call (some task)).ackedCallIds ++ implicitAcks task) session.id
  rw [hget] at hbinding
  obtain ⟨updated, hupdated, hsame⟩ := Option.map_eq_some_iff.mp hbinding.symm
  have hbound := BoundTo.congr hsame.symm hbound
  have hfiled : (desk.sessions.insert (sessionAfterReport session call (some task))).get?
      session.id = some (sessionAfterReport session call (some task)) :=
    Table.get?_insert_self desk.sessions (sessionAfterReport session call (some task))
  unfold updateTask at hupdated
  simp only at hupdated
  split at hupdated
  · simp only [cleanupStaleReviewerAssignments, Table.get?_map, hfiled, Option.map_some] at hupdated
    cases hupdated
    exact boundTo_sessionAfterReport (boundTo_releaseReviewer hbound)
  · cases hfiled.symm.trans hupdated
    exact boundTo_sessionAfterReport hbound

theorem createReport_of_repeats (hlive : desk.sessions.get? call.sessionId = some session)
    (hexisting : session.existingReportForCallId desk.reports call.payload = .ok (some existing))
    (haccepted : (desk.createReport call).2 = .ok report) :
    report = existing ∧
      ((desk.createReport call).1.sessions.get? call.sessionId).map ReportingSession.binding =
        some session.binding ∧
      ∀ k, existing.taskId ≠ some k →
        (desk.createReport call).1.tasks.get? k = desk.tasks.get? k := by
  have hbefore : (desk.sessions.get? call.sessionId).map ReportingSession.binding =
      some session.binding := by simp [hlive]
  unfold createReport at haccepted ⊢
  simp only [hlive, hexisting] at haccepted ⊢
  split at haccepted
  · next hbound =>
      rw [if_pos hbound]
      rcases desk.commitReport_cases (desk.stageReplay existing).1 existing
        (desk.stageReplay existing).2 call with ⟨error, hcommit⟩ | ⟨mailbox, hcommit⟩
      · rw [hcommit] at haccepted
        cases haccepted
      · rw [hcommit] at haccepted ⊢
        refine ⟨(Except.ok.inj haccepted).symm, ?_, fun k hk => other_stageReplay hk⟩
        exact (desk.binding_stageReplay existing call.sessionId).trans hbefore
  · next hfree =>
      rw [if_neg hfree]
      exact ⟨(Except.ok.inj haccepted).symm, hbefore, fun _ _ => rfl⟩

theorem newReport_of_accepted (haccepted : (desk.createReport call).2 = .ok report)
    (habout : report.taskId = some taskId) (hrepeats : ¬ desk.Repeats call) :
    ∃ session task, desk.newReport call = some (session, task) ∧ task.id = taskId := by
  cases hnew : desk.newReport call with
  | some found =>
    obtain ⟨session, task⟩ := found
    rcases createReport_of_newReport hnew with ⟨error, h⟩ | ⟨mailbox, h⟩
    · rw [h] at haccepted
      cases haccepted
    · rw [h] at haccepted
      cases haccepted
      exact ⟨session, task, rfl, Option.some.inj habout⟩
  | none =>
    exfalso
    unfold createReport at haccepted
    split at haccepted
    · cases haccepted
    next live hlive =>
    split at haccepted
    · cases haccepted
    · next hexisting =>
        unfold fileReport at haccepted
        split at haccepted
        · cases haccepted
        next task htask =>
        cases task with
        | some => simp [newReport, hlive, hexisting, htask] at hnew
        | none =>
          -- A report about no task is no report about this one.
          simp only [renameSession] at haccepted
          rcases commitReport_cases desk (desk.stageReport live none call)
            (filedReport call none) (some (((desk.stageReport live none call).sessions.get?
              live.id).getD live).toManagedSession) call with ⟨error, h⟩ | ⟨mailbox, h⟩
          · rw [h] at haccepted
            cases haccepted
          · rw [h] at haccepted
            cases haccepted
            cases habout
    · next existing hexisting => exact hrepeats ⟨live, existing, hlive, hexisting⟩

end

end ReportDesk

/-- After an accepted report about one task its session is still bound to another task, and
that task is as it was, exactly when the report repeats one that was filed before. -/
theorem report_keeps_binding {desk : ReportDesk} {call : ReportCall} {report : FiledReport}
    {session : ReportingSession} {other : TaskRecord} {taskId : TaskId}
    (haccepted : (desk.createReport call).2 = .ok report) (habout : report.taskId = some taskId)
    (hlive : desk.sessions.get? call.sessionId = some session) (hbound : session.BoundTo other.id)
    (hother : desk.tasks.get? other.id = some other) (hne : taskId ≠ other.id) :
    (∃ after, (desk.createReport call).1.sessions.get? call.sessionId = some after ∧
        after.BoundTo other.id) ∧
      (desk.createReport call).1.tasks.get? other.id = some other ↔ desk.Repeats call := by
  constructor
  · rintro ⟨⟨after, hafter, hstill⟩, -⟩
    by_contra hrepeats
    obtain ⟨renamed, task, hnew, hid⟩ :=
      ReportDesk.newReport_of_accepted haccepted habout hrepeats
    obtain ⟨hsession, -⟩ := ReportDesk.id_of_newReport hnew
    rcases ReportDesk.createReport_of_newReport hnew with ⟨error, h⟩ | ⟨mailbox, h⟩
    · rw [h] at haccepted
      cases haccepted
    · rw [h, ← hsession] at hafter
      have htask : other.id = task.id := ReportDesk.boundTo_stageReport hafter hstill
      exact hne (hid.symm.trans htask.symm)
  · rintro ⟨live, existing, hlive', hexisting⟩
    cases hlive.symm.trans hlive'
    obtain ⟨rfl, hbinding, htasks⟩ := ReportDesk.createReport_of_repeats hlive hexisting haccepted
    obtain ⟨after, hafter, hsame⟩ := Option.map_eq_some_iff.mp hbinding
    refine ⟨⟨after, hafter, ReportDesk.BoundTo.congr hsame.symm hbound⟩, ?_⟩
    rw [htasks other.id (by rw [habout]; exact fun h => hne (Option.some.inj h)), hother]

private def secondTask : TaskRecord :=
  { id := "second", status := .working, sessionId := some "agent" }

private def busyDesk : ReportDesk :=
  { tasks := (Table.empty.insert
      { id := "first", status := .review, sessionId := some "agent" }).insert secondTask
    sessions := Table.empty.insert
      { id := "agent", taskId := some "second", currentTaskId := some "second" } }

private def addendum : ReportCall :=
  { sessionId := "agent"
    payload :=
      { state := .completed, message := "Also fixed a typo.", taskId := some "first"
        callId := some "addendum" }
    reportId := "report" }

private def reboundDesk : ReportDesk :=
  let filed := (busyDesk.createReport addendum).1
  match filed.sessions.get? "agent" with
  | none => filed
  | some session => filed.putSession
      { session with taskId := some "second", currentTaskId := some "second" }

theorem report_keeps_binding_repeated :
    (∃ after, (reboundDesk.createReport addendum).1.sessions.get? "agent" = some after ∧
        after.BoundTo "second") ∧
      (reboundDesk.createReport addendum).1.tasks.get? "second" = some secondTask := by
  obtain ⟨live, hlive⟩ : ∃ live, reboundDesk.sessions.get? addendum.sessionId = some live :=
    Option.isSome_iff_exists.mp (by decide +kernel)
  have hbound : live.BoundTo secondTask.id := by
    have hbinding : (reboundDesk.sessions.get? addendum.sessionId).map ReportingSession.binding =
        some (.orchestrator, some "second", some "second") := by decide +kernel
    rw [hlive] at hbinding
    exact .inl (congrArg (fun binding => binding.2.1) (Option.some.inj hbinding))
  have hexisting : (reboundDesk.sessions.get? addendum.sessionId).map (fun session =>
      session.existingReportForCallId reboundDesk.reports addendum.payload) =
        some (.ok (some (ReportDesk.filedReport addendum (busyDesk.tasks.get? "first")))) := by
    decide +kernel
  rw [hlive] at hexisting
  have haccepted : (reboundDesk.createReport addendum).2 =
      .ok (ReportDesk.filedReport addendum (busyDesk.tasks.get? "first")) := by decide +kernel
  have habout : (ReportDesk.filedReport addendum (busyDesk.tasks.get? "first")).taskId =
      some "first" := by decide +kernel
  have hother : reboundDesk.tasks.get? secondTask.id = some secondTask := by decide +kernel
  exact (report_keeps_binding haccepted habout hlive hbound hother (by decide)).mpr
    ⟨live, _, hlive, Option.some.inj hexisting⟩

/-- The agent's report about its first task takes it off the second. -/
theorem addendum_unbinds :
    ¬ ∀ (desk : ReportDesk) (call : ReportCall) (report : FiledReport)
        (session : ReportingSession) (other : TaskRecord) (taskId : TaskId),
      (desk.createReport call).2 = .ok report → report.taskId = some taskId →
      desk.sessions.get? call.sessionId = some session → session.BoundTo other.id →
      desk.tasks.get? other.id = some other → other.status = .working →
      other.sessionId = some call.sessionId → taskId ≠ other.id →
      ∃ after, (desk.createReport call).1.sessions.get? call.sessionId = some after ∧
        after.BoundTo other.id := by
  intro h
  have hrebound : ((busyDesk.createReport addendum).1.sessions.get? "agent").map
      (fun session => (session.taskId, session.currentTaskId)) =
        some (some "first", some "first") := by decide +kernel
  have haccepted : (busyDesk.createReport addendum).2 =
      .ok (ReportDesk.filedReport addendum (busyDesk.tasks.get? "first")) := by decide +kernel
  obtain ⟨after, hafter, hbound⟩ := h busyDesk addendum _
    { id := "agent", taskId := some "second", currentTaskId := some "second" } secondTask "first"
    haccepted (by decide +kernel) (by decide +kernel) (.inl rfl) (by decide +kernel) rfl rfl
    (by decide)
  have hagent : (busyDesk.createReport addendum).1.sessions.get? "agent" = some after := hafter
  rw [hagent] at hrebound
  obtain ⟨htask, hcurrent⟩ := Prod.mk.inj (Option.some.inj hrebound)
  rcases hbound with hbound | hbound
  · simp [htask, secondTask] at hbound
  · simp [hcurrent, secondTask] at hbound

end ClaudeHub
