import ClaudeHub.Lib.Runs
import ClaudeHub.Reports.Effects

/-! # Reports after the verdict of a round

Once the round has a verdict the agent's own reports leave the review of the task alone. The
autonomous run is updated beside that guard and knows a verdict by its phase only: a late
report moves it unless the run has passed.
-/

namespace ClaudeHub

open StepSystem

def TaskRecord.runProgress (task : TaskRecord) :
    Option (AutonomousRunPhase × List AutonomousIteration) :=
  task.autonomousRun.map fun run => (run.phase, run.iterations)

/-- What the verdict of a round has fixed. -/
structure RoundKept (task after : TaskRecord) : Prop where
  round : (after.taskMode, after.reviewCycle, after.reviewedCycle) =
    (task.taskMode, task.reviewCycle, task.reviewedCycle)
  status : task.status = .review → after.status = .review
  reviewRequestedAt : after.reviewRequestedAt = task.reviewRequestedAt
  reviewCompletedAt : after.reviewCompletedAt = task.reviewCompletedAt
  reviewedAt : after.reviewedAt = task.reviewedAt
  failedAt : after.failedAt = task.failedAt
  humanAcceptanceRequestedAt :
    after.humanAcceptanceRequestedAt = task.humanAcceptanceRequestedAt
  run : task.taskMode = .autonomous → after.runProgress = task.runProgress

theorem RoundKept.refl (task : TaskRecord) : RoundKept task task :=
  ⟨rfl, id, rfl, rfl, rfl, rfl, rfl, fun _ => rfl⟩

theorem RoundKept.trans {task middle after : TaskRecord} (h : RoundKept task middle)
    (h' : RoundKept middle after) : RoundKept task after where
  round := h'.round.trans h.round
  status hreview := h'.status (h.status hreview)
  reviewRequestedAt := h'.reviewRequestedAt.trans h.reviewRequestedAt
  reviewCompletedAt := h'.reviewCompletedAt.trans h.reviewCompletedAt
  reviewedAt := h'.reviewedAt.trans h.reviewedAt
  failedAt := h'.failedAt.trans h.failedAt
  humanAcceptanceRequestedAt := h'.humanAcceptanceRequestedAt.trans h.humanAcceptanceRequestedAt
  run hmode := by
    have hmiddle : middle.taskMode = .autonomous := by
      rw [← hmode]
      exact congrArg Prod.fst h.round
    exact (h'.run hmiddle).trans (h.run hmode)

/-- A report leaves the autonomous run of the task as it is after a verdict: it stands for no
phase, the run has passed, or it is no completion and the run is in that phase already. -/
def LeavesRun (state : AgentReportState) (task : TaskRecord) : Prop :=
  task.taskMode = .autonomous → ∀ phase, autonomousPhaseAfterWorkerReport state = some phase →
    task.autonomousRun.map AutonomousRun.phase = some .passed
      ∨ task.autonomousRun.map AutonomousRun.phase = some phase
        ∧ state ≠ .readyForReview ∧ state ≠ .completed

namespace ReportDesk

section

variable {desk : ReportDesk} {call : ReportCall} {session : ReportingSession}
  {task : TaskRecord}

theorem statusUpdate_judged (hrole : session.role = .orchestrator)
    (hjudged : currentRoundHasVerdict task.reviewCycle task.reviewedCycle = true)
    (report : FiledReport) (now : Time) (update : TaskUpdate) :
    let after := (statusUpdate task session.toManagedSession report now update).task
    after = update.task ∨ after = { update.task with updatedAt := now }
      ∨ after = { update.task with status := .review, updatedAt := now } := by
  have hreviewer : ¬ (session.role = .reviewer ∧ report.state.isTerminalReviewState
      ∧ ¬ reviewerVerdictActionable task report) := by
    simp [hrole]
  simp only [statusUpdate]
  rw [if_neg hreviewer, if_pos ⟨hrole, hjudged⟩]
  rcases taskStatusFromReport_cases report.state with h | h | h <;> rw [h]
  · exact .inr (.inl rfl)
  · exact .inr (.inr rfl)
  · exact .inl rfl

theorem judged_taskAfter (hrole : session.role = .orchestrator)
    (hjudged : currentRoundHasVerdict task.reviewCycle task.reviewedCycle = true) :
    RoundKept task { taskAfter call session task with autonomousRun := task.autonomousRun } ∧
      (taskAfter call session task).autonomousRun =
        ((if task.taskMode = .autonomous then
            autonomousRunAfterWorkerReport task session.toManagedSession
              (filedReport call (some task)) call.now
          else none).orElse fun _ => task.autonomousRun) := by
  have hverdict : isVerdict task session.toManagedSession (filedReport call (some task)) = false := by
    simp [isVerdict, hrole]
  have hstatus := statusUpdate_judged hrole hjudged (filedReport call (some task)) call.now
    (progressUpdate task session.toManagedSession (filedReport call (some task))
      (goalPacketForTask task session.toManagedSession call.payload.toReportContent call.now)
      call.now)
  unfold taskAfter taskAfterReport
  simp only [hverdict, Bool.false_eq_true, if_false]
  generalize statusUpdate task session.toManagedSession (filedReport call (some task)) call.now
    (progressUpdate task session.toManagedSession (filedReport call (some task))
      (goalPacketForTask task session.toManagedSession call.payload.toReportContent call.now)
      call.now) = after at hstatus
  simp only at hstatus
  split <;> rcases hstatus with h | h | h <;> rw [h] <;>
    exact ⟨⟨rfl, by simp [progressUpdate], rfl, rfl, rfl, rfl, rfl, fun _ => rfl⟩, rfl⟩

theorem runProgress_taskAfter_iff (hrole : session.role = .orchestrator)
    (hjudged : currentRoundHasVerdict task.reviewCycle task.reviewedCycle = true) :
    (task.taskMode = .autonomous → (taskAfter call session task).runProgress = task.runProgress) ↔
      LeavesRun call.payload.state task := by
  have hafter : (taskAfter call session task).autonomousRun = _ := (judged_taskAfter hrole hjudged).2
  have hopens : reportOpensReviewRound task.reviewCycle task.reviewedCycle = false := by
    simp only [currentRoundHasVerdict, decide_eq_true_eq] at hjudged
    simp only [reportOpensReviewRound, decide_eq_false_iff_not]
    omega
  unfold LeavesRun TaskRecord.runProgress
  rw [hafter]
  refine imp_congr_right fun hmode => ?_
  rw [if_pos hmode]
  unfold autonomousRunAfterWorkerReport
  have hstate : (filedReport call (some task)).state = call.payload.state := rfl
  have hcycle : (filedReport call (some task)).reviewCycle = task.reviewCycle := rfl
  rw [hstate, hcycle, hopens]
  cases hphase : autonomousPhaseAfterWorkerReport call.payload.state with
  | none => simp
  | some =>
    cases hrun : task.autonomousRun with
    | none => simp [TaskRecord.runOrDefault, hrun, defaultAutonomousRun]
    | some run =>
      by_cases hpassed : run.phase = .passed
      · simp [TaskRecord.runOrDefault, hrun, hpassed]
      · by_cases hdone : call.payload.state = .readyForReview ∨ call.payload.state = .completed
        · rcases hdone with h | h <;>
            simp [TaskRecord.runOrDefault, hrun, hpassed, h]
        · obtain ⟨hready, hcompleted⟩ := not_or.mp hdone
          simp only [TaskRecord.runOrDefault, hrun, hpassed, hready, hcompleted,
            Option.getD_some, false_and, or_self, if_false, Option.orElse_some,
            Option.map_some, Option.some.injEq, Prod.mk.injEq, and_true, forall_eq',
            false_or, ne_eq, not_false_eq_true]
          exact eq_comm

/-- The accepted new reports about the task leave its autonomous run. -/
def RunUnmoved (taskId : TaskId) (desk : ReportDesk) (call : ReportCall) : Prop :=
  ∀ session task, desk.newReport call = some (session, task) → task.id = taskId →
    (desk.createReport call).2.toOption.isSome → LeavesRun call.payload.state task

def byOrchestrator (desk : ReportDesk) (call : ReportCall) : Bool :=
  (desk.sessions.get? call.sessionId).any fun session => session.role = .orchestrator

def orchestratorStep (desk : ReportDesk) (call : ReportCall) : Option ReportDesk :=
  if desk.byOrchestrator call then desk.step call else none

/-- The task is still in its round, as the verdict left it. -/
def RoundStays (task : TaskRecord) (desk : ReportDesk) : Prop :=
  ∃ after, desk.tasks.get? task.id = some after ∧ RoundKept task after

theorem RoundStays.of_body {desk : ReportDesk} {kept : TaskRecord}
    (hbody : (desk.tasks.get? task.id).map TaskRecord.body = some kept.body)
    (hkept : RoundKept task kept) : RoundStays task desk := by
  obtain ⟨after, hafter, hsame⟩ := Option.map_eq_some_iff.mp hbody
  refine ⟨after, hafter, ?_⟩
  have hfrom : ∀ record : TaskRecord, RoundKept task record ↔ RoundKept task record.body := by
    intro record
    constructor
    · exact fun h => { h with }
    · exact fun h => { h with }
  rw [hfrom, hsame, ← hfrom]
  exact hkept

def RunStays (task : TaskRecord) (desk : ReportDesk) : Prop :=
  ∃ after, desk.tasks.get? task.id = some after ∧
    (task.taskMode = .autonomous → after.runProgress = task.runProgress)

theorem createReport_judged (hget : desk.tasks.get? task.id = some task)
    (hjudged : currentRoundHasVerdict task.reviewCycle task.reviewedCycle = true)
    (hby : desk.byOrchestrator call = true) :
    (RunUnmoved task.id desk call → RoundStays task (desk.createReport call).1) ∧
      (RunStays task (desk.createReport call).1 → RunUnmoved task.id desk call) := by
  have hunchanged : (desk.createReport call).1.tasks.get? task.id = some task →
      RoundStays task (desk.createReport call).1 := fun h => ⟨task, h, .refl task⟩
  cases hnew : desk.newReport call with
  | none =>
    refine ⟨fun _ => ?_, fun _ session found h => ?_⟩
    · apply RoundStays.of_body _ (.refl task)
      rw [(untouched_of_newReport hnew).body, hget]
      rfl
    · rw [hnew] at h
      cases h
  | some found =>
    obtain ⟨session, about⟩ := found
    have hrole : session.role = .orchestrator := by
      obtain ⟨live, hlive, rfl, -⟩ := newReport_spec hnew
      simpa [byOrchestrator, hlive] using hby
    obtain ⟨-, habout⟩ := id_of_newReport hnew
    rcases createReport_of_newReport hnew with ⟨error, h⟩ | ⟨mailbox, h⟩
    · refine ⟨fun _ => hunchanged (by rw [h]; exact hget), fun _ _ _ _ _ haccepted => ?_⟩
      rw [h] at haccepted
      simp [Except.toOption] at haccepted
    by_cases hsame : task.id = about.id
    · obtain rfl : about = task := by
        rw [hsame] at hget
        exact Option.some.inj (habout.symm.trans hget)
      have hafter : ((desk.createReport call).1.tasks.get? about.id).map TaskRecord.body =
          some (taskAfter call session about).body := by
        rw [h]
        simp only [body_stageReport, if_true]
      have hprogress := @runProgress_taskAfter_iff call session about hrole hjudged
      constructor
      · intro hunmoved
        have hleaves := hunmoved session about hnew rfl (by rw [h]; rfl)
        have hkept := (@judged_taskAfter call session about hrole hjudged).1
        exact RoundStays.of_body hafter { hkept with run := hprogress.mpr hleaves }
      · rintro ⟨after, hstored, hrun⟩ session' task' h' _ _
        obtain ⟨rfl, rfl⟩ := Prod.mk.inj (Option.some.inj (hnew.symm.trans h'))
        rw [hstored] at hafter
        have hbody : after.body = (taskAfter call session about).body := Option.some.inj hafter
        have hsameRun := congrArg TaskRecord.runProgress hbody
        exact hprogress.mp fun hmode => hsameRun.symm.trans (hrun hmode)
    · refine ⟨fun _ => hunchanged ?_, fun _ session' task' h' hid _ => ?_⟩
      · rw [h]
        exact (other_stageReport _ session about call hsame).trans hget
      · obtain ⟨rfl, rfl⟩ := Prod.mk.inj (Option.some.inj (hnew.symm.trans h'))
        exact absurd hid.symm hsame

end

end ReportDesk

/-- In every sequence of agents' reports after the verdict of a round, the task keeps what the round
has left exactly when every report leaves the run. -/
theorem judged_round_stays {start desk : ReportDesk} {calls : List ReportCall} {task : TaskRecord}
    (hrun : Run ReportDesk.orchestratorStep (fun _ _ => True) start calls desk)
    (hget : start.tasks.get? task.id = some task)
    (hjudged : currentRoundHasVerdict task.reviewCycle task.reviewedCycle = true) :
    (∀ later, Visits ReportDesk.orchestratorStep start calls later →
        ReportDesk.RoundStays task later) ↔
      Run ReportDesk.orchestratorStep (ReportDesk.RunUnmoved task.id) start calls desk := by
  have hstep : ∀ (before after : ReportDesk) (call : ReportCall),
      ReportDesk.orchestratorStep before call = some after →
      before.byOrchestrator call = true ∧ (before.createReport call).1 = after := by
    intro before after call h
    obtain ⟨hby, hafter⟩ := Option.ite_none_right_eq_some.mp h
    exact ⟨hby, Option.some.inj hafter⟩
  have hround : ∀ (before : ReportDesk) (record : TaskRecord),
      before.tasks.get? task.id = some record → RoundKept task record →
      record.id = task.id ∧
        currentRoundHasVerdict record.reviewCycle record.reviewedCycle = true := by
    intro before record hrecord hkept
    obtain ⟨-, hcycles⟩ := Prod.mk.inj hkept.round
    obtain ⟨hcycle, hreviewed⟩ := Prod.mk.inj hcycles
    exact ⟨(Table.get?_eq_some.mp hrecord).2, by rw [hcycle, hreviewed]; exact hjudged⟩
  refine Run.forall_visits_iff (fun _ (h : ReportDesk.RoundStays task _) => h) ?_ ?_
    ⟨task, hget, .refl task⟩ hrun
  · rintro before call after ⟨record, hrecord, hkept⟩ hunmoved h
    obtain ⟨hby, rfl⟩ := hstep before after call h
    obtain ⟨hid, hrecordJudged⟩ := hround before record hrecord hkept
    rw [← hid] at hrecord hunmoved
    obtain ⟨last, hlast, hlastKept⟩ :=
      (ReportDesk.createReport_judged hrecord hrecordJudged hby).1 hunmoved
    exact ⟨last, hid ▸ hlast, hkept.trans hlastKept⟩
  · rintro before call after ⟨record, hrecord, hkept⟩ hmoves h ⟨last, hlast, hlastKept⟩
    obtain ⟨hby, rfl⟩ := hstep before after call h
    obtain ⟨hid, hrecordJudged⟩ := hround before record hrecord hkept
    apply hmoves
    rw [← hid] at hrecord hlast ⊢
    apply (ReportDesk.createReport_judged hrecord hrecordJudged hby).2
    refine ⟨last, hlast, fun hmode => ?_⟩
    have htaskMode : task.taskMode = .autonomous := by
      rw [← hmode]
      exact (congrArg Prod.fst hkept.round).symm
    exact (hlastKept.run htaskMode).trans (hkept.run htaskMode).symm

/-- An autonomous task whose iterations are used up: the last verdict asked for changes. -/
private def exhaustedTask : TaskRecord :=
  { id := "task"
    taskMode := .autonomous
    status := .review
    sessionId := some "agent"
    reviewedCycle := 1
    reviewRequestedAt := some 3
    reviewCompletedAt := some 4
    reviewedAt := some 4
    autonomousRun := some
      { phase := .exhausted, iteration := 3, exhaustedAt := some 4 } }

private def exhaustedDesk : ReportDesk :=
  { tasks := Table.empty.insert exhaustedTask
    sessions := Table.empty.insert { id := "agent" } }

private def agentReport (state : AgentReportState) : ReportCall :=
  { sessionId := "agent"
    payload :=
      { state := state, message := "Done.", taskId := some "task", callId := some "late" }
    reportId := "report"
    now := 5 }

theorem judged_round_stays_failed :
    ReportDesk.RoundStays exhaustedTask (exhaustedDesk.createReport (agentReport .failed)).1 := by
  have hby : exhaustedDesk.byOrchestrator (agentReport .failed) = true := by decide +kernel
  have hstep : ReportDesk.orchestratorStep exhaustedDesk (agentReport .failed) =
      some (exhaustedDesk.createReport (agentReport .failed)).1 := if_pos hby
  have hunmoved : exhaustedDesk.RunUnmoved "task" (agentReport .failed) := by
    intro session task _ _ _ _ phase hphase
    cases hphase
  have hrun : Run ReportDesk.orchestratorStep (fun _ _ => True) exhaustedDesk [agentReport .failed]
      (exhaustedDesk.createReport (agentReport .failed)).1 := .cons trivial hstep (.nil _)
  exact (judged_round_stays hrun (by decide +kernel) (by decide)).mpr (.cons hunmoved hstep (.nil _))
    _ ⟨[agentReport .failed], List.prefix_rfl, hrun.exec_eq⟩

/-- A late completion takes an exhausted run back to its evaluation. -/
theorem late_completion_moves_run :
    ¬ ∀ (start : ReportDesk) (calls : List ReportCall) (desk : ReportDesk) (task : TaskRecord),
      Run ReportDesk.orchestratorStep (fun _ _ => True) start calls desk →
      start.tasks.get? task.id = some task →
      currentRoundHasVerdict task.reviewCycle task.reviewedCycle = true →
      ReportDesk.RoundStays task desk := by
  intro h
  have hby : exhaustedDesk.byOrchestrator (agentReport .completed) = true := by decide +kernel
  have hstep : ReportDesk.orchestratorStep exhaustedDesk (agentReport .completed) =
      some (exhaustedDesk.createReport (agentReport .completed)).1 := if_pos hby
  obtain ⟨after, hafter, hkept⟩ := h _ _ _ exhaustedTask (.cons trivial hstep (.nil _))
    (by decide +kernel) (by decide)
  have hphase : ((exhaustedDesk.createReport (agentReport .completed)).1.tasks.get?
      exhaustedTask.id).bind (fun task => task.autonomousRun.map AutonomousRun.phase) =
        some .evaluating := by decide +kernel
  rw [hafter, Option.bind_some] at hphase
  have hprogress := congrArg (Option.map Prod.fst) (hkept.run rfl)
  have hkeptPhase : after.autonomousRun.map AutonomousRun.phase = some .exhausted := by
    simpa [TaskRecord.runProgress, exhaustedTask, Function.comp_def] using hprogress
  rw [hkeptPhase] at hphase
  cases hphase

end ClaudeHub
