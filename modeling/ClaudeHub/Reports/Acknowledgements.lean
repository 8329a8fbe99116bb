import Mathlib.Data.List.Infix
import ClaudeHub.Messaging.Partition
import ClaudeHub.Reports.Intake

/-! # What a report acknowledges

Reports between the deliveries of the messaging service. A report acknowledges the calls that it
lists and, for its task, the assignment of the task's current dispatch attempt, whichever
attempt it is about and whether or not that assignment has been sent.
-/

namespace ClaudeHub

open StepSystem

def LockedCall.handsOver : LockedCall → Option CallId
  | .submitting callId _ _ | .turning callId _ | .nudging _ _ callId => some callId
  | _ => none

def Recovery.handsOver (recovery : Recovery) : Option CallId :=
  if recovery.submitting then recovery.remaining.head? else none

def DeliveryRun.handing (run : DeliveryRun) : List (SessionId × CallId) :=
  run.holders.rows.filterMap (fun holder =>
      holder.call.handsOver.map fun callId => (holder.sessionId, callId))
    ++ run.recoveries.filterMap fun recovery =>
      recovery.handsOver.map fun callId => (recovery.session.id, callId)

def DeliveryOp.isReport : DeliveryOp → Bool
  | .proceed _ (.report _) _ => true
  | _ => false

/-! ## Reports between deliveries -/

structure TaskDispatch where
  dispatchAttempt : Nat := 0
  reviewSessionId : Option SessionId := none
  manualAbortedAt : Option Time := none
  deriving DecidableEq

structure ReportBook where
  reportCallIds : Dict ReportCallId ReportId := .empty
  reportCallFingerprints : Dict ReportCallId ReportContent := .empty
  deriving DecidableEq

structure AckRun where
  delivery : DeliveryRun := {}
  dispatches : Dict TaskId TaskDispatch := .empty
  books : Dict SessionId ReportBook := .empty
  reports : FiledReportTable := .empty
  handed : List (SessionId × CallId) := []
  /-- Every call that a report has moved to delivered without listing it, although it was
  never handed over. -/
  swallowed : List (SessionId × CallId) := []
  deriving DecidableEq

structure IntakeEnd where
  renamed : Option String := none
  targets : Dict CallId TaskId := .empty
  deriving DecidableEq

inductive AckOp
  | deliver (op : DeliveryOp)
  /-- A task is dispatched once more, gets a reviewer, or is aborted. -/
  | editDispatch (taskId : TaskId) (dispatch : TaskDispatch)
  /-- A report is taken in by the session's lock holder that waits for it. -/
  | report (call : ReportCall) (ends : IntakeEnd)

/-- A report that acknowledges: the one that the call files, or the one that it repeats. -/
structure AckingReport where
  report : FiledReport
  task : Option TaskRecord
  isNew : Bool
  deriving DecidableEq

namespace AckingReport

def implicit (acking : AckingReport) : List CallId :=
  match acking.task with
  | none => []
  | some task => ReportDesk.implicitAcks task

def acks (acking : AckingReport) (call : ReportCall) (ends : IntakeEnd) : Manager.ReportAcks where
  taskId := acking.task.map fun task => task.id
  callIds := acking.report.ackedCallIds ++ acking.implicit
  targets := ends.targets
  committed := call.saved
  renamed := if acking.isNew then ends.renamed else none
  binds := acking.isNew

end AckingReport

namespace AckRun

def taskRecord (run : AckRun) (task : WorkspaceTask) : TaskRecord :=
  let dispatch := (run.dispatches.lookup task.id).getD {}
  { toWorkspaceTask := task
    dispatchAttempt := dispatch.dispatchAttempt
    reviewSessionId := dispatch.reviewSessionId
    manualAbortedAt := dispatch.manualAbortedAt }

def tasks (run : AckRun) : TaskRecordTable :=
  run.delivery.manager.tasks.project run.taskRecord fun _ => rfl

def reportingSession (run : AckRun) (session : ManagedSession) : ReportingSession :=
  let book := (run.books.lookup session.id).getD {}
  { toManagedSession := session
    reportCallIds := book.reportCallIds
    reportCallFingerprints := book.reportCallFingerprints }

/-- What the checks of `create_report` make of a call: it raises, it returns a report as it was
filed, or it goes on with a report that acknowledges. -/
def ackingReport (run : AckRun) (session : ManagedSession) (call : ReportCall) :
    Except ReportError (Option AckingReport) :=
  match (run.reportingSession session).existingReportForCallId run.reports call.payload with
  | .error error => .error error
  | .ok (some existing) =>
    if sessionStillBoundToReport session existing then
      .ok (some ⟨existing, (truthy existing.taskId).bind run.tasks.get?, false⟩)
    else .ok none
  | .ok none =>
    (reportedTask run.tasks session call.payload).map fun task =>
      some ⟨ReportDesk.filedReport call task, task, true⟩

/-- What a call of `create_report` asks of the messaging service. -/
def acksOf (run : AckRun) (session : ManagedSession) (call : ReportCall) (ends : IntakeEnd) :
    Manager.ReportAcks :=
  match run.ackingReport session call with
  | .error _ => { callIds := [], committed := false, renamed := ends.renamed }
  | .ok none => { callIds := [] }
  | .ok (some acking) => acking.acks call ends

/-- The session record that the transaction starts from: renaming wrote back the one that was
read before its wait. -/
def intakeSession (run : AckRun) (session : ManagedSession) (ends : IntakeEnd) : ManagedSession :=
  match ends.renamed with
  | some _ => session
  | none => (run.delivery.manager.sessions.get? session.id).getD session

def file (run : AckRun) (session : ManagedSession) (call : ReportCall) : AckRun :=
  match run.ackingReport session call with
  | .ok (some ⟨report, _, true⟩) =>
    let book := (run.books.lookup session.id).getD {}
    if call.saved then
      { run with
        reports := run.reports.insert report
        books := run.books.set session.id
          { reportCallIds := book.reportCallIds.set report.filedUnder report.id
            reportCallFingerprints :=
              book.reportCallFingerprints.set report.filedUnder call.payload.toReportContent } }
    else run
  | _ => run

def listed (run : AckRun) (session : ManagedSession) (call : ReportCall) : List CallId :=
  match run.ackingReport session call with
  | .ok (some acking) => acking.report.ackedCallIds
  | _ => []

/-- What the deliveries have acknowledged that was neither listed nor ever handed over. -/
def swallowedBy (run : AckRun) (delivery : DeliveryRun) (listed : List CallId) :
    List (SessionId × CallId) :=
  (delivery.history.acked.drop run.delivery.history.acked.length).filter fun entry =>
    entry.2 ∉ listed ∧ entry ∉ run.handed

def step (run : AckRun) : AckOp → Option AckRun
  | .deliver op =>
    if op.isReport then none
    else (run.delivery.step op).map fun delivery =>
      { run with delivery := delivery, handed := run.handed ++ delivery.handing }
  | .editDispatch taskId dispatch =>
    some { run with dispatches := run.dispatches.set taskId dispatch }
  | .report call ends =>
    match (run.delivery.holders.get? call.sessionId).map LockHolder.call with
    | some (.reporting session) =>
      let live := run.intakeSession session ends
      let acks := run.acksOf live call ends
      (run.delivery.step (.proceed call.sessionId (.report acks) {})).map fun delivery =>
        { run.file live call with
          delivery := delivery
          swallowed := run.swallowed ++ run.swallowedBy delivery (run.listed live call) }
    | _ => none

/-- The outbox and the records against which a report's acknowledgements are checked. -/
def ackManager (run : AckRun) (session : ManagedSession) (acks : Manager.ReportAcks) : Manager :=
  (run.delivery.manager.renameSession session acks.renamed).bindSession session.id
    (if acks.binds then acks.taskId else none)

/-- No assignment that the report acknowledges for its task is still to be sent: each is listed,
was handed over, is not open in the outbox, or is no call that this report may acknowledge. -/
def NothingUnsent (run : AckRun) : AckOp → Prop
  | .report call ends =>
    ∀ session, (run.delivery.holders.get? call.sessionId).map LockHolder.call =
        some (.reporting session) →
      ∀ acking, run.ackingReport (run.intakeSession session ends) call = .ok (some acking) →
        call.saved = true →
        let manager := run.ackManager session (acking.acks call ends)
        ∀ callId ∈ acking.implicit, callId ∉ acking.report.ackedCallIds →
          (call.sessionId, callId) ∉ run.handed →
          manager.verifiesAck ends.targets.lookup (acking.task.map fun task => task.id)
            session.id callId = true →
          ∀ lists, manager.lists session.id = some lists →
            callId ∉ lists.pendingCallIds ∧ callId ∉ lists.processingCallIds
              ∧ callId ∉ lists.uncertainCallIds
  | _ => True

section

variable {run next : AckRun} {op : AckOp} {call : ReportCall} {ends : IntakeEnd}
  {session : ManagedSession} {manager : Manager} {callId : CallId}

theorem mem_acknowledged {lists : CallLists} {callIds : List CallId} :
    callId ∈ lists.acknowledged callIds ↔
      callId ∈ callIds ∧ (callId ∈ lists.pendingCallIds ∨ callId ∈ lists.processingCallIds
        ∨ callId ∈ lists.uncertainCallIds) := by
  simp only [CallLists.acknowledged, List.mem_append, List.mem_within]
  tauto

theorem mem_acked_takeReport {acks : Manager.ReportAcks} :
    callId ∈ (manager.takeReport session acks).acked ↔
      acks.committed = true ∧ ∃ lists,
        ((manager.renameSession session acks.renamed).bindSession session.id
          (if acks.binds then acks.taskId else none)).lists session.id = some lists ∧
        callId ∈ lists.acknowledged
          (((manager.renameSession session acks.renamed).bindSession session.id
            (if acks.binds then acks.taskId else none)).verifiedAcks acks.targets.lookup
              acks.taskId session.id acks.callIds) := by
  unfold Manager.takeReport
  simp only
  split
  · next hfailed => simp_all
  · next hcommitted =>
      have hcommitted : acks.committed = true := by simpa using hcommitted
      simp only [hcommitted, true_and]
      split
      · next hnone => simp [hnone]
      · next lists hlists => simp [hlists]

theorem step_report (hstep : run.step (.report call ends) = some next) :
    ∃ session, (run.delivery.holders.get? call.sessionId).map LockHolder.call =
        some (.reporting session) ∧
      next.swallowed = run.swallowed ++
        (((run.delivery.manager.takeReport session
            (run.acksOf (run.intakeSession session ends) call ends)).acked.map
          (call.sessionId, ·)).filter fun entry =>
            entry.2 ∉ run.listed (run.intakeSession session ends) call ∧ entry ∉ run.handed) := by
  unfold step at hstep
  simp only at hstep
  split at hstep
  · next session hholder =>
      obtain ⟨delivery, hdelivery, rfl⟩ := Option.map_eq_some_iff.mp hstep
      refine ⟨session, hholder, ?_⟩
      obtain ⟨holder, hget, hcall⟩ := Option.map_eq_some_iff.mp hholder
      simp only [DeliveryRun.step, hget, Option.bind_some, hcall, DeliveryRun.resumed,
        Option.map_some, Option.some.injEq] at hdelivery
      obtain rfl := hdelivery
      simp only [swallowedBy, DeliveryRun.history_settle, DeliveryHistory.extend,
        List.drop_left]
  · cases hstep

/-- What the report of a call moves to delivered: what it lists or acknowledges for its task,
if that may be acknowledged and is open in the outbox of its session. -/
theorem mem_acked_acksOf {live : ManagedSession} :
    callId ∈ (run.delivery.manager.takeReport session (run.acksOf live call ends)).acked ↔
      ∃ acking, run.ackingReport live call = .ok (some acking) ∧ call.saved = true ∧
        (callId ∈ acking.report.ackedCallIds ∨ callId ∈ acking.implicit) ∧
        (run.ackManager session (acking.acks call ends)).verifiesAck ends.targets.lookup
          (acking.task.map fun task => task.id) session.id callId = true ∧
        ∃ lists, (run.ackManager session (acking.acks call ends)).lists session.id = some lists ∧
          (callId ∈ lists.pendingCallIds ∨ callId ∈ lists.processingCallIds
            ∨ callId ∈ lists.uncertainCallIds) := by
  rw [mem_acked_takeReport]
  cases hacking : run.ackingReport live call with
  | error => simp [acksOf, hacking]
  | ok acking =>
    cases acking with
    | none => simp [acksOf, hacking, mem_acknowledged, Manager.verifiedAcks]
    | some =>
      simp only [acksOf, hacking, mem_acknowledged, Manager.verifiedAcks, List.mem_filter,
        AckingReport.acks, List.mem_append, ackManager, Except.ok.injEq, Option.some.injEq,
        exists_eq_left']
      constructor
      · rintro ⟨hsaved, lists, hlists, ⟨hmem, hverified⟩, hopen⟩
        exact ⟨hsaved, hmem, hverified, lists, hlists, hopen⟩
      · rintro ⟨hsaved, hmem, hverified, lists, hlists, hopen⟩
        exact ⟨hsaved, lists, hlists, ⟨hmem, hverified⟩, hopen⟩

theorem listed_of_ackingReport {live : ManagedSession} {acking : AckingReport}
    (hacking : run.ackingReport live call = .ok (some acking)) :
    run.listed live call = acking.report.ackedCallIds := by
  simp only [listed, hacking]

theorem swallowed_step_iff (hstep : run.step op = some next) :
    next.swallowed = run.swallowed ↔ run.NothingUnsent op := by
  cases op with
  | deliver =>
    refine iff_of_true ?_ trivial
    obtain ⟨-, hmap⟩ := Option.ite_none_left_eq_some.mp hstep
    obtain ⟨delivery, -, rfl⟩ := Option.map_eq_some_iff.mp hmap
    rfl
  | editDispatch =>
    refine iff_of_true ?_ trivial
    cases hstep
    rfl
  | report call ends =>
    obtain ⟨session, hholder, hswallowed⟩ := step_report hstep
    have hnil : next.swallowed = run.swallowed ↔
        ∀ callId ∈ (run.delivery.manager.takeReport session
          (run.acksOf (run.intakeSession session ends) call ends)).acked,
          callId ∉ run.listed (run.intakeSession session ends) call →
            (call.sessionId, callId) ∈ run.handed := by
      rw [hswallowed, List.append_right_eq_self, List.filter_eq_nil_iff]
      simp
    rw [hnil]
    constructor
    · intro hacked session' hholder' acking hacking hsaved manager callId himplicit hlisted
        hhanded hverified lists hlists
      have hsame : session = session' := by
        simpa [hholder] using hholder'
      subst hsame
      by_contra hopen
      apply hhanded
      apply hacked
      · apply mem_acked_acksOf.2
        exact ⟨acking, hacking, hsaved, .inr himplicit, hverified, lists, hlists, by tauto⟩
      · rwa [listed_of_ackingReport hacking]
    · intro hnothing callId hacked hlisted
      obtain ⟨acking, hacking, hsaved, hmem, hverified, lists, hlists, hopen⟩ :=
        mem_acked_acksOf.1 hacked
      rw [listed_of_ackingReport hacking] at hlisted
      have himplicit : callId ∈ acking.implicit := hmem.resolve_left hlisted
      by_contra hhanded
      have hclosed := hnothing session hholder acking hacking hsaved callId himplicit hlisted
        hhanded hverified lists hlists
      tauto

end

end AckRun

/-- The reports of a run move nothing to delivered that they do not list and that was never
handed over exactly when none of them acknowledges for its task an assignment that is still to
be sent. -/
theorem acks_swallow_nothing {start run : AckRun} {ops : List AckOp}
    (hrun : Run AckRun.step (fun _ _ => True) start ops run) (hstart : start.swallowed = []) :
    (∀ later, Visits AckRun.step start ops later → later.swallowed = []) ↔
      Run AckRun.step AckRun.NothingUnsent start ops run := by
  refine hrun.forall_visits_iff (fun _ (h : AckRun.swallowed _ = []) => h) ?_ ?_ hstart
  · intro before op after hnil hnothing hstep
    rw [(AckRun.swallowed_step_iff hstep).mpr hnothing, hnil]
  · intro before op after hnil hunsent hstep hafter
    apply hunsent
    apply (AckRun.swallowed_step_iff hstep).mp
    rw [hafter, hnil]

private def firstDispatch : List AckOp :=
  [.deliver (.openSession { id := "agent", taskId := some "task" }),
    .deliver (.editTask { id := "task", sessionId := some "agent" }),
    .editDispatch "task" { dispatchAttempt := 1 },
    .deliver (.send "agent" { message := "prompt", callId := some (.dispatch "task" 1) } {}),
    .deliver (.proceed "agent" .goOn {}), .deliver (.proceed "agent" .ready {}),
    .deliver (.proceed "agent" .sent {}), .deliver (.proceed "agent" .goOn {})]

/-- The task is dispatched once more; its worker is busy, and the new assignment waits. -/
private def redispatch : List AckOp :=
  [.editDispatch "task" { dispatchAttempt := 2 },
    .deliver (.send "agent" { message := "feedback", callId := some (.dispatch "task" 2) } {}),
    .deliver (.proceed "agent" .goOn {}), .deliver (.proceed "agent" .notReady {}),
    .deliver (.proceed "agent" .goOn {})]

private def answered : List AckOp :=
  [.deliver (.createReport "agent"),
    .report
      { sessionId := "agent"
        payload :=
          { state := .completed, message := "Done.", taskId := some "task", callId := some "done" }
        reportId := "report" } {}]

/-- The report of the attempt that was sent acknowledges its assignment. -/
theorem acks_swallow_nothing_answered : ∃ run,
    Run AckRun.step AckRun.NothingUnsent {} (firstDispatch ++ answered) run ∧
      run.delivery.history.acked = [("agent", .dispatch "task" 1)] := by
  have hexec : ((exec AckRun.step {} (firstDispatch ++ answered)).map fun run =>
      run.delivery.history.acked) = some [("agent", .dispatch "task" 1)] := by decide +kernel
  obtain ⟨run, hrun, hacked⟩ := Option.map_eq_some_iff.mp hexec
  have hvisits : ∀ ops ∈ (firstDispatch ++ answered).inits,
      ((exec AckRun.step {} ops).map AckRun.swallowed).getD [] = [] := by decide +kernel
  refine ⟨run, (acks_swallow_nothing (Run.of_exec hrun) rfl).mp ?_, hacked⟩
  rintro later ⟨ops, hprefix, hlater⟩
  have hnil := hvisits ops ((List.mem_inits _ _).mpr hprefix)
  rwa [hlater] at hnil

/-- The report that answers the first attempt comes after the task was dispatched once more: it
moves the second assignment to delivered, and its dispatch then finds nothing to send. -/
theorem late_report_swallows_assignment :
    ¬ ∀ (ops : List AckOp) (run : AckRun), Run AckRun.step (fun _ _ => True) {} ops run →
      run.swallowed = [] := by
  intro h
  have hexec : ((exec AckRun.step {}
      (firstDispatch ++ redispatch ++ answered ++
        [.deliver (.resumeCall "agent" (.dispatch "task" 2))])).map fun run =>
          (run.swallowed, run.delivery.outcomes.getLast?, run.delivery.manager.lists "agent")) =
      some ([("agent", .dispatch "task" 2)], some ("agent", .found true),
        some { processingCallIds := [.dispatch "task" 1]
               deliveredCallIds := [.dispatch "task" 2] }) := by
    decide +kernel
  obtain ⟨run, hrun, hends⟩ := Option.map_eq_some_iff.mp hexec
  have hnil := h _ run (Run.of_exec hrun)
  rw [(Prod.mk.inj hends).1] at hnil
  cases hnil

end ClaudeHub
