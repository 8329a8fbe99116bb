import ClaudeHub.Lib.Runs
import ClaudeHub.Reports.Effects

/-! # Reports on a task that is done

Which status a report writes, and exactly when the transition table has an edge for it. Intake
asks for the roles and the cycles of the review, not for the status that the task has: a task
that is done is reopened by every report that does not come too late for its round.
-/

namespace ClaudeHub

open StepSystem

/-- A reviewer's verdict that is not awaited, or what an agent reports after the verdict of
the round, unless it asks for the review. -/
def ComesLate (role : WorkspaceSessionRole) (state : AgentReportState) (task : TaskRecord) :
    Prop :=
  role = .reviewer ∧ state.isTerminalReviewState
      ∧ ¬ (reportOpensReviewRound task.reviewCycle task.reviewedCycle
        ∧ reviewInFlight task.reviewRequestedAt task.reviewCompletedAt)
    ∨ role = .orchestrator ∧ currentRoundHasVerdict task.reviewCycle task.reviewedCycle
      ∧ taskStatusFromReport state ≠ .review

def UnderReview (role : WorkspaceSessionRole) (state : AgentReportState) (task : TaskRecord) :
    Prop :=
  role = .orchestrator ∧ taskStatusFromReport state = .working ∧ task.status = .review
    ∧ reviewInFlight task.reviewRequestedAt task.reviewCompletedAt

/-- The transition table has an edge for what the report does to the task's status. -/
def LegalReport (role : WorkspaceSessionRole) (state : AgentReportState) (task : TaskRecord) :
    Prop :=
  match task.status with
  | .done => ComesLate role state task
  | .queued => ComesLate role state task
      ∨ role ≠ .reviewer ∧ taskStatusFromReport state = .review
  | .todo => role = .reviewer → taskStatusFromReport state = .review
  | .working | .review => role = .reviewer → taskStatusFromReport state ≠ .failed
  | .failed => role = .reviewer → taskStatusFromReport state ≠ .working

instance (role : WorkspaceSessionRole) (state : AgentReportState) (task : TaskRecord) :
    Decidable (ComesLate role state task) := by
  unfold ComesLate
  infer_instance

instance (role : WorkspaceSessionRole) (state : AgentReportState) (task : TaskRecord) :
    Decidable (UnderReview role state task) := by
  unfold UnderReview
  infer_instance

namespace ReportDesk

section

variable {call : ReportCall} {session : ReportingSession} {task : TaskRecord}

theorem status_statusUpdate (call : ReportCall) (session : ReportingSession) (task : TaskRecord)
    (update : TaskUpdate) (hupdate : update.task.status = task.status) :
    (statusUpdate task session.toManagedSession (filedReport call (some task)) call.now
        update).task.status =
      if ComesLate session.role call.payload.state task
          ∨ UnderReview session.role call.payload.state task then task.status
      else taskStatusFromReport call.payload.state := by
  have hstate : (filedReport call (some task)).state = call.payload.state := rfl
  have hactionable : reviewerVerdictActionable task (filedReport call (some task)) =
      (reportOpensReviewRound task.reviewCycle task.reviewedCycle
        && reviewInFlight task.reviewRequestedAt task.reviewCompletedAt) := rfl
  unfold statusUpdate
  rw [hstate, hactionable]
  by_cases hstale : session.role = .reviewer ∧ call.payload.state.isTerminalReviewState
      ∧ ¬ (reportOpensReviewRound task.reviewCycle task.reviewedCycle
        && reviewInFlight task.reviewRequestedAt task.reviewCompletedAt) = true
  · have hlate : ComesLate session.role call.payload.state task := .inl (by simpa using hstale)
    rw [if_pos hstale, if_pos (.inl hlate)]
    exact hupdate
  rw [if_neg hstale]
  by_cases hsealed : session.role = .orchestrator
      ∧ currentRoundHasVerdict task.reviewCycle task.reviewedCycle = true
  · rw [if_pos hsealed]
    have hrole : session.role ≠ .reviewer := by simp [hsealed.1]
    rcases taskStatusFromReport_cases call.payload.state with htarget | htarget | htarget
    · have hlate : ComesLate session.role call.payload.state task :=
        .inr ⟨hsealed.1, hsealed.2, by simp [htarget]⟩
      simp only [htarget, hlate, true_or, if_true]
      exact hupdate
    · have hnot : ¬ (ComesLate session.role call.payload.state task
          ∨ UnderReview session.role call.payload.state task) := by
        simp [ComesLate, UnderReview, hrole, htarget]
      simp [hnot, htarget]
    · have hlate : ComesLate session.role call.payload.state task :=
        .inr ⟨hsealed.1, hsealed.2, by simp [htarget]⟩
      simp only [htarget, hlate, true_or, if_true]
      exact hupdate
  rw [if_neg hsealed]
  have hnotLate : ¬ ComesLate session.role call.payload.state task := by
    rintro (hreviewer | horchestrator)
    · exact hstale (by simpa using hreviewer)
    · exact hsealed ⟨horchestrator.1, horchestrator.2.1⟩
  by_cases hreview : session.role = .orchestrator
      ∧ taskStatusFromReport call.payload.state = .working ∧ task.status = .review
      ∧ reviewInFlight task.reviewRequestedAt task.reviewCompletedAt = true
  · have hunder : UnderReview session.role call.payload.state task := hreview
    rw [if_pos hreview, if_pos (.inr hunder)]
    exact hupdate
  · have hnot : ¬ (ComesLate session.role call.payload.state task
        ∨ UnderReview session.role call.payload.state task) :=
      not_or.mpr ⟨hnotLate, hreview⟩
    rw [if_neg hreview, if_neg hnot]
    rcases taskStatusFromReport_cases call.payload.state with htarget | htarget | htarget <;>
      simp [htarget]

theorem status_taskAfter (call : ReportCall) (session : ReportingSession) (task : TaskRecord) :
    (taskAfter call session task).status =
      if ComesLate session.role call.payload.state task
          ∨ UnderReview session.role call.payload.state task then task.status
      else taskStatusFromReport call.payload.state := by
  unfold taskAfter taskAfterReport
  simp only
  split
  · next hverdict =>
      -- A verdict that counts puts the task under review, as the status block has done.
      have hparts : (session.role = .reviewer ∧ call.payload.state.isTerminalReviewState = true) ∧
          (reportOpensReviewRound task.reviewCycle task.reviewedCycle
            && reviewInFlight task.reviewRequestedAt task.reviewCompletedAt) = true := by
        simpa [isVerdict, filedReport, reviewerVerdictActionable] using hverdict
      have hnot : ¬ (ComesLate session.role call.payload.state task
          ∨ UnderReview session.role call.payload.state task) := by
        have hcounts := Bool.and_eq_true_iff.mp hparts.2
        simp [ComesLate, UnderReview, hparts.1.1, hcounts.1, hcounts.2]
      rw [if_neg hnot, taskStatus_of_terminal hparts.1.2]
      unfold verdictUpdate computeReviewerVerdictTaskUpdate
      simp only
      split <;> split <;> rfl
  · split <;> exact status_statusUpdate call session task _ rfl

theorem transitionAllowed_report {current target : WorkspaceTaskStatus}
    (h : target = .working ∨ target = .review ∨ target = .failed) :
    transitionAllowed current target .report = true ↔
      current ≠ .done ∧ (current = .queued → target = .review) := by
  rcases h with rfl | rfl | rfl <;> cases current <;> decide

theorem transitionAllowed_reviewVerdict {current target : WorkspaceTaskStatus}
    (h : target = .working ∨ target = .review ∨ target = .failed) :
    transitionAllowed current target .reviewVerdict = true ↔
      current ≠ .done ∧ current ≠ .queued ∧ (current = .todo → target = .review)
        ∧ (current = .working ∨ current = .review → target ≠ .failed)
        ∧ (current = .failed → target ≠ .working) := by
  rcases h with rfl | rfl | rfl <;> cases current <;> decide

theorem transitionAllowed_self (status : WorkspaceTaskStatus) (cause : TransitionCause) :
    transitionAllowed status status cause = true := by
  simp [transitionAllowed]

theorem logged_eq_nil_iff (call : ReportCall) (session : ReportingSession) (task : TaskRecord) :
    logged call session task = [] ↔ LegalReport session.role call.payload.state task := by
  have hallowed : logged call session task = [] ↔
      transitionAllowed task.status (taskAfter call session task).status
        (if session.role = .reviewer then .reviewVerdict else .report) = true := by
    simp [logged, applyTaskUpdate]
  rw [hallowed, status_taskAfter]
  by_cases hlate : ComesLate session.role call.payload.state task
  · have hterminal : session.role = .reviewer → taskStatusFromReport call.payload.state = .review := by
      intro hrole
      rcases hlate with hreviewer | horchestrator
      · exact taskStatus_of_terminal hreviewer.2.1
      · simp [horchestrator.1] at hrole
    rw [if_pos (.inl hlate), transitionAllowed_self]
    unfold LegalReport
    cases task.status <;> simp +contextual [hlate, hterminal]
  by_cases hreview : UnderReview session.role call.payload.state task
  · rw [if_pos (.inr hreview), transitionAllowed_self]
    simp [LegalReport, hreview.2.2.1, hreview.1]
  rw [if_neg (by simp [hlate, hreview])]
  by_cases hrole : session.role = .reviewer
  · rw [if_pos hrole, transitionAllowed_reviewVerdict (taskStatusFromReport_cases _)]
    unfold LegalReport
    rw [hrole] at hlate ⊢
    cases task.status <;> simp [hlate]
  · rw [if_neg hrole, transitionAllowed_report (taskStatusFromReport_cases _)]
    unfold LegalReport
    cases task.status <;> simp [hlate, hrole]

/-! ## Whole calls -/

theorem completion_taskAfter {call : ReportCall} {session : ReportingSession} {task : TaskRecord}
    (hlate : ComesLate session.role call.payload.state task) :
    (taskAfter call session task).completedAt = task.completedAt ∧
      (taskAfter call session task).humanAcceptedAt = task.humanAcceptedAt := by
  have hstatus : ∀ update : TaskUpdate,
      (statusUpdate task session.toManagedSession (filedReport call (some task)) call.now
        update).task.completedAt = update.task.completedAt ∧
      (statusUpdate task session.toManagedSession (filedReport call (some task)) call.now
        update).task.humanAcceptedAt = update.task.humanAcceptedAt := by
    intro update
    unfold statusUpdate
    repeat' split
    all_goals exact ⟨rfl, rfl⟩
  have hverdict : isVerdict task session.toManagedSession (filedReport call (some task)) = false := by
    unfold isVerdict reviewerVerdictActionable
    rcases hlate with ⟨-, -, hidle⟩ | ⟨hrole, -⟩
    · rw [← Bool.and_eq_true_iff, Bool.not_eq_true] at hidle
      rw [Bool.and_eq_false_iff]
      exact .inr hidle
    · simp [hrole]
  unfold taskAfter taskAfterReport
  simp only [hverdict, Bool.false_eq_true, if_false]
  split <;> exact hstatus _

def LegalCall (desk : ReportDesk) (call : ReportCall) : Prop :=
  ∀ session task, desk.newReport call = some (session, task) →
    LegalReport session.role call.payload.state task

/-- Nothing was logged since the start, and what was done then is done as it was. -/
structure DoneStays (start desk : ReportDesk) : Prop where
  warnings : desk.warnings = start.warnings
  done : ∀ id task, start.tasks.get? id = some task → task.status = .done →
    ∃ after, desk.tasks.get? id = some after ∧ after.status = .done ∧
      after.completedAt = task.completedAt ∧ after.humanAcceptedAt = task.humanAcceptedAt

theorem DoneStays.refl (desk : ReportDesk) : DoneStays desk desk :=
  ⟨rfl, fun _ task hget hdone => ⟨task, hget, hdone, rfl, rfl⟩⟩

variable {desk : ReportDesk}

theorem DoneStays.trans {start after : ReportDesk} (h : DoneStays start desk)
    (h' : DoneStays desk after) : DoneStays start after where
  warnings := h'.warnings.trans h.warnings
  done id task hget hdone := by
    obtain ⟨middle, hmiddle, hstatus, hcompleted, haccepted⟩ := h.done id task hget hdone
    obtain ⟨last, hlast, hlastStatus, hlastCompleted, hlastAccepted⟩ :=
      h'.done id middle hmiddle hstatus
    exact ⟨last, hlast, hlastStatus, hlastCompleted.trans hcompleted,
      hlastAccepted.trans haccepted⟩

theorem DoneStays.of_body {after : ReportDesk} (hwarnings : after.warnings = desk.warnings)
    (hbody : ∀ id task, desk.tasks.get? id = some task → task.status = .done →
        ∃ kept : TaskRecord, (after.tasks.get? id).map TaskRecord.body = some kept ∧
        kept.status = .done ∧ kept.completedAt = task.completedAt ∧
        kept.humanAcceptedAt = task.humanAcceptedAt) :
    DoneStays desk after where
  warnings := hwarnings
  done id task hget hdone := by
    obtain ⟨kept, hkept, hstatus, hcompleted, haccepted⟩ := hbody id task hget hdone
    obtain ⟨record, hrecord, rfl⟩ := Option.map_eq_some_iff.mp hkept
    exact ⟨record, hrecord, hstatus, hcompleted, haccepted⟩

theorem legalCall_iff {call : ReportCall} {session : ReportingSession} {task : TaskRecord}
    (h : desk.newReport call = some (session, task)) :
    desk.LegalCall call ↔ logged call session task = [] := by
  rw [logged_eq_nil_iff]
  constructor
  · exact fun hlegal => hlegal session task h
  · intro hlegal session' task' h'
    obtain ⟨rfl, rfl⟩ := Prod.mk.inj (Option.some.inj (h.symm.trans h'))
    exact hlegal

theorem warnings_createReport_iff (desk : ReportDesk) (call : ReportCall) :
    (desk.createReport call).1.warnings = desk.warnings ↔ desk.LegalCall call := by
  cases hnew : desk.newReport call with
  | none =>
    have hlegal : desk.LegalCall call := by
      intro session task h
      rw [hnew] at h
      cases h
    simp [(untouched_of_newReport hnew).warnings, hlegal]
  | some found =>
    obtain ⟨session, task⟩ := found
    have hwarnings : (desk.createReport call).1.warnings =
        desk.warnings ++ logged call session task := by
      rcases createReport_of_newReport hnew with ⟨error, h⟩ | ⟨mailbox, h⟩
      · rw [h]
      · rw [h]
        exact warnings_stageReport ..
    rw [hwarnings, legalCall_iff hnew]
    simp

theorem doneStays_createReport {call : ReportCall} (hlegal : desk.LegalCall call) :
    DoneStays desk (desk.createReport call).1 := by
  apply DoneStays.of_body ((warnings_createReport_iff desk call).mpr hlegal)
  intro id done hid hdone
  cases hnew : desk.newReport call with
  | none =>
    refine ⟨done.body, ?_, hdone, rfl, rfl⟩
    rw [(untouched_of_newReport hnew).body, hid]
    rfl
  | some found =>
    obtain ⟨session, task⟩ := found
    obtain ⟨-, hget⟩ := id_of_newReport hnew
    rcases createReport_of_newReport hnew with ⟨error, h⟩ | ⟨mailbox, h⟩
    · rw [h]
      exact ⟨done.body, by simp [putSession, hid], hdone, rfl, rfl⟩
    rw [h]
    simp only [body_stageReport]
    by_cases hsame : id = task.id
    · subst hsame
      obtain rfl : task = done := Option.some.inj (hget.symm.trans hid)
      have hlate : ComesLate session.role call.payload.state task := by
        simpa [LegalReport, hdone] using hlegal session task hnew
      refine ⟨(taskAfter call session task).body, if_pos rfl, ?_, completion_taskAfter hlate⟩
      show (taskAfter call session task).status = .done
      rw [status_taskAfter, if_pos (.inl hlate), hdone]
    · refine ⟨done.body, ?_, hdone, rfl, rfl⟩
      rw [if_neg hsame]
      simp [putSession, hid]

end

end ReportDesk

/-- A direct task that a human has accepted. Its review was skipped, so the round has no
verdict. -/
private def acceptedTask (reviewedCycle : Nat) : TaskRecord :=
  { id := "task"
    taskMode := .direct
    status := .done
    sessionId := some "agent"
    reviewedCycle := reviewedCycle
    reviewSkippedAt := some 4
    humanAcceptedAt := some 5
    completedAt := some 5 }

private def acceptedDesk (reviewedCycle : Nat) : ReportDesk :=
  { tasks := Table.empty.insert (acceptedTask reviewedCycle)
    sessions := Table.empty.insert { id := "agent" } }

private def afterthought : ReportCall :=
  { sessionId := "agent"
    payload :=
      { state := .working, message := "Cleaning up.", taskId := some "task"
        callId := some "afterthought" }
    reportId := "report"
    now := 6 }

end ClaudeHub
