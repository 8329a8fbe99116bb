import ClaudeHub.Messaging.RetryWait

/-! # Every retry leaves a trace

In a run whose retries find their call in one list and their number free, a retry that takes
a call out of its uncertainty has appended an audit event of its own before anything is sent,
and one that fails leaves the call uncertain. The number is counted from what survives, so the
deletion of a task can bring an old one back.
-/

namespace ClaudeHub

open StepSystem

/-! ## The mailbox -/

/-- The mailbox in memory and the events on disk are indexed. -/
structure Hub.Indexed (hub : Hub) : Prop where
  live : hub.live.mailbox.Mirrored
  saved : SavedEvents.Ordered hub.saved.taskEvents

namespace Hub.Indexed

variable {hub : Hub}

section

variable (h : hub.Indexed)
include h

theorem mirrored : ({ hub := hub } : CallIndexRun).Mirrored where
  live := h.live
  saved := h.saved
  payloads := by simp
  snapshots := by simp

theorem appendEvent (req : AppendRequest) (now : Time) (persist : Bool) (outcome : SaveOutcome) :
    (hub.appendEvent req now persist outcome).1.Indexed := by
  have happended := h.mirrored.appendEvent req now persist outcome
  exact ⟨happended.live, happended.saved⟩

theorem save (outcome : SaveOutcome) :
    (hub.saveWorkspaceState outcome).Indexed where
  live := by
    rw [Hub.saveWorkspaceState_live]
    exact h.live
  saved := by
    rcases hub.saveWorkspaceState_saved outcome with hsame | hnew
    · rw [hsame]
      exact h.saved
    · rw [hnew]
      exact h.live.payload

theorem recordReport (report : AgentReport) (outcome : SaveOutcome) :
    (hub.recordReport report outcome).Indexed := by
  apply save
  exact ⟨h.live, h.saved⟩

theorem withoutTask {task : WorkspaceTask} {live : WorkspaceManager}
    (hlive : Hub.withoutTask hub.live task = .ok live) :
    ({ hub with live := live } : Hub).Indexed := by
  obtain ⟨purged, hpurge, hmirrored, -⟩ := h.live.purge task.id
  obtain ⟨mailbox, hmailbox, hwithout⟩ := Except.bind_ok_iff.mp hlive
  obtain rfl := Except.pure_ok_iff.mp hwithout
  rw [hpurge] at hmailbox
  cases hmailbox
  exact ⟨hmirrored, h.saved⟩

theorem deleteTask (taskId : TaskId) (outcome : SaveOutcome) :
    (hub.deleteTask taskId outcome).1.Indexed := by
  unfold Hub.deleteTask
  split
  · exact h
  · next live hlive =>
      obtain ⟨task, -, hwithout⟩ := Except.bind_ok_iff.mp hlive
      have hwritten := (h.withoutTask hwithout).save outcome
      simp only
      split
      · exact ⟨h.live, hwritten.saved⟩
      · exact hwritten

theorem restart {started : Hub} (hstart : hub.restart = .ok started) : started.Indexed := by
  obtain ⟨live, hlive, rfl⟩ := Except.map_ok_iff.mp hstart
  obtain ⟨mailbox, hload, hwm⟩ := Except.bind_ok_iff.mp hlive
  obtain rfl := Except.pure_ok_iff.mp hwm
  obtain ⟨loaded, hloaded, hmirrored⟩ := ({} : TaskMailbox).reload_ok
    { tasks := hub.saved.tasks, sessions := hub.saved.sessions, reports := hub.saved.reports }
    h.saved
  rw [TaskMailbox.reload_empty] at hloaded
  rw [hloaded] at hload
  cases hload
  exact ⟨hmirrored, h.saved⟩

/-- What an append of a call that is no report finds under its call id: an event that it
repeats, or none, and then its own event goes to the end. -/
theorem appended {req : AppendRequest} {task : WorkspaceTask}
    (htask : hub.live.tasks.get? req.taskId = some task) (hreport : req.reportId = none)
    {now : Time} {outcome : SaveOutcome} {answer : TaskEvent × Bool}
    (hok : (hub.appendEvent req now true outcome).2 = .ok answer) :
    (∃ event ∈ hub.live.mailbox.events, event.callId = req.callId ∧ event.action = req.action
      ∧ event.target = req.resolvedTarget ∧ event.fingerprint = req.fingerprint task)
    ∨ ∃ sequence, (hub.appendEvent req now true outcome).1.live.mailbox.events
        = hub.live.mailbox.events ++ [req.event task sequence now]
      ∧ req.callId ∉ hub.live.mailbox.events.map TaskEvent.callId := by
  have halias : hub.live.reuseLegacyReportAlias req = none := by
    simp [WorkspaceManager.reuseLegacyReportAlias, WorkspaceManager.matchesStoredReportProjection,
      hreport, truthy]
  have hindex := h.live.index req.callId
  unfold Hub.appendEvent at hok ⊢
  cases hrecord : hub.live.mailbox.callIndex.get? req.callId with
  | some record =>
    left
    rw [hrecord] at hindex
    obtain ⟨hmem, heq, hcall⟩ := mem_of_recordOf hindex.symm
    refine ⟨record.event, hmem, ?_⟩
    by_cases hdiffers : record.action ≠ req.action ∨ record.target ≠ req.resolvedTarget
        ∨ record.fingerprint ≠ req.fingerprint task
    · simp [WorkspaceManager.stageEvent, htask, halias, hrecord, hdiffers] at hok
    · simp only [not_or, ne_eq, not_not] at hdiffers
      rw [heq] at hcall hdiffers
      exact ⟨hcall, hdiffers⟩
  | none =>
    right
    rw [hrecord] at hindex
    have hnew := recordOf_eq_none.mp hindex.symm
    simp only [WorkspaceManager.stageEvent, htask, halias, hrecord,
      TaskMailbox.nextSequence, if_true] at hok ⊢
    split at hok
    · simp at hok
    · next hsaved =>
        refine ⟨hub.live.mailbox.workspaceMaxSequence + 1, ?_, hnew⟩
        simp only [hsaved, Bool.false_eq_true, if_false, Hub.saveWorkspaceState_live]
        rfl

end

end Hub.Indexed

theorem Hub.manager_appendEvent (hub : Hub) (req : AppendRequest) (now : Time) (persist : Bool)
    (outcome : SaveOutcome) : (hub.appendEvent req now persist outcome).1.manager = hub.manager := by
  rcases hub.appendEvent_cases req now persist outcome with
    ⟨hub', result, heq, -, hlive, -⟩ | ⟨event, mailbox, -, hub', -, hends⟩
  · simp only [Hub.manager, heq, hlive]
  · rcases hends with ⟨heq, hlive⟩ | ⟨heq, hlive⟩
    · simp only [Hub.manager, heq, hlive, Hub.setMailbox]
    · simp only [Hub.manager, heq, hlive]

theorem Manager.stored_of_auditTask {manager : Manager} {sessionId : SessionId}
    {task : WorkspaceTask} (h : manager.auditTask sessionId = some task) :
    manager.tasks.get? task.id = some task := by
  have hstored : ∀ taskId, manager.task? taskId = some task →
      manager.tasks.get? task.id = some task := by
    intro taskId hget
    obtain ⟨id, -, hid⟩ := Option.bind_eq_some_iff.mp hget
    rw [Table.key_of_get? hid]
    exact hid
  unfold Manager.auditTask at h
  split at h
  · cases h
  · next session _ =>
      cases hcurrent : manager.task? session.currentTaskId with
      | some =>
        rw [hcurrent] at h
        cases h
        exact hstored _ hcurrent
      | none =>
        rw [hcurrent] at h
        exact hstored _ h

namespace Hub.Indexed

variable {hub : Hub}

theorem emit (h : hub.Indexed) (sessionId : SessionId) (callId : CallId) (operator : Operator)
    (now : Time) (outcome : SaveOutcome) :
    (hub.emitDeliveryRetryRequested sessionId callId operator now outcome).1.Indexed := by
  unfold Hub.emitDeliveryRetryRequested
  split
  · exact h
  · next task _ =>
      have happended := h.appendEvent (hub.auditRequest task sessionId callId operator) now true
        outcome
      split <;> next heq =>
        rw [heq] at happended
        exact happended

theorem emitted (h : hub.Indexed) {sessionId : SessionId} {callId : CallId} {operator : Operator}
    {now : Time} {outcome : SaveOutcome}
    (hreturns : (hub.emitDeliveryRetryRequested sessionId callId operator now outcome).2 = true) :
    ∃ task, hub.manager.auditTask sessionId = some task ∧
      ((∃ event ∈ hub.live.mailbox.events,
        event.callId = (hub.auditRequest task sessionId callId operator).callId
          ∧ event.action = (hub.auditRequest task sessionId callId operator).action
          ∧ event.target = (hub.auditRequest task sessionId callId operator).resolvedTarget
          ∧ event.fingerprint = (hub.auditRequest task sessionId callId operator).fingerprint task)
      ∨ ∃ sequence,
        (hub.emitDeliveryRetryRequested sessionId callId operator now outcome).1.live.mailbox.events
          = hub.live.mailbox.events
            ++ [(hub.auditRequest task sessionId callId operator).event task sequence now]
        ∧ (hub.auditRequest task sessionId callId operator).callId
          ∉ hub.live.mailbox.events.map TaskEvent.callId) := by
  unfold Hub.emitDeliveryRetryRequested at hreturns ⊢
  cases htask : hub.manager.auditTask sessionId with
  | none =>
    rw [htask] at hreturns
    cases hreturns
  | some task =>
    refine ⟨task, rfl, ?_⟩
    simp only [htask] at hreturns ⊢
    have hstored : hub.live.tasks.get? task.id = some task := Manager.stored_of_auditTask htask
    cases happend : hub.appendEvent (hub.auditRequest task sessionId callId operator) now true
        outcome with
    | mk appended result =>
      cases result with
      | error =>
        rw [happend] at hreturns
        cases hreturns
      | ok answer =>
        have hok : (hub.appendEvent (hub.auditRequest task sessionId callId operator) now true
            outcome).2 = .ok answer := by rw [happend]
        have hcases := h.appended hstored rfl hok
        rw [happend] at hcases
        exact hcases

end Hub.Indexed

/-! ## The step that settles a retry -/

theorem Retry.mem_undo_move (retry : Retry) (present : Bool) (lists : CallLists) :
    retry.callId ∈ (retry.undo present (retry.move present lists)).uncertainCallIds := by
  cases present <;>
    simp [Retry.undo, Retry.move, CallLists.undoUnsent, CallLists.undoAccepted]

theorem Retry.uncertainOnly_undo_move (retry : Retry) (present : Bool) {lists : CallLists}
    (h : lists.UncertainOnly retry.callId) :
    (retry.undo present (retry.move present lists)).UncertainOnly retry.callId := by
  obtain ⟨-, hpending, hprocessing, hdelivered⟩ := h
  refine ⟨retry.mem_undo_move present lists, ?_, ?_, ?_⟩ <;> cases present <;>
    simp [Retry.undo, Retry.move, CallLists.undoUnsent, CallLists.undoAccepted,
      CallLists.retryUnsent, CallLists.retryAccepted, hpending, hprocessing, hdelivered]

namespace Manager

variable {manager : Manager} {retry : Retry} {present : Bool} {around : Surroundings}

def retryUndone (manager : Manager) (retry : Retry) (present : Bool) : Manager :=
  (manager.moveRetried retry present).undoRetry (retry.moved present) (retry.movedTask present)
    (retry.undo present)

theorem retryWithReceipt_refused
    (h : (manager.moveRetried retry present).emitsRetryRequested retry.session.id around = false) :
    manager.retryWithReceipt retry.session retry.task retry.callId present around
      = ⟨manager.retryUndone retry present, .ends (.raised .auditFailed), [], [], []⟩ := by
  cases present with
  | true =>
    have hnot : (!(manager.moveRetried retry true).emitsRetryRequested retry.session.id around)
        = true := by simp [h]
    exact if_pos hnot
  | false =>
    have hnot : (!(manager.moveRetried retry false).emitsRetryRequested retry.session.id around)
        = true := by simp [h]
    exact if_pos hnot

/-- Past its audit event a retry ends or waits, and does not hand the message over yet. -/
def afterAudit : Next → Bool
  | .waits (.nudging _ _ _) | .waits (.pumping _ _) => true
  | .ends outcome => outcome ≠ .raised .auditFailed
  | _ => false

theorem afterAudit_startPump (manager : Manager) (sessionId : SessionId) (caller : PumpCaller) :
    afterAudit (manager.startPump sessionId caller).next = true := by
  unfold startPump
  split <;> rfl

theorem retryWithReceipt_audited
    (h : (manager.moveRetried retry present).emitsRetryRequested retry.session.id around = true) :
    afterAudit
      (manager.retryWithReceipt retry.session retry.task retry.callId present around).next = true := by
  cases present with
  | true =>
    have hnot : ¬ (!(manager.moveRetried retry true).emitsRetryRequested retry.session.id around)
        = true := by simp [h]
    rw [show manager.retryWithReceipt retry.session retry.task retry.callId true around = _ from
      if_neg hnot]
    split
    · rfl
    · split <;> rfl
  | false =>
    have hnot : ¬ (!(manager.moveRetried retry false).emitsRetryRequested retry.session.id around)
        = true := by simp [h]
    have hstretch : manager.retryWithReceipt retry.session retry.task retry.callId false around
        = (manager.moveRetried retry false).startPump retry.session.id (.retry retry.callId) :=
      if_neg hnot
    rw [hstretch]
    exact afterAudit_startPump ..

/-! What is left of a retry whose audit event raised. -/

theorem lists_retryUndone (manager : Manager) (retry : Retry) (present : Bool) :
    (manager.retryUndone retry present).lists retry.session.id
      = some (retry.undo present (retry.move present retry.session.toCallLists)) := by
  unfold retryUndone undoRetry
  rw [lists_mirror, lists_putSession]
  exact if_pos rfl

theorem payload_retryUndone (manager : Manager) (retry : Retry) (present : Bool) :
    (manager.retryUndone retry present).payload retry.session.id retry.callId
      = retry.session.pendingMessages.lookup retry.callId := by
  unfold retryUndone undoRetry
  rw [payload_mirror]
  let session := { retry.moved present with
    toCallLists := retry.undo present (retry.moved present).toCallLists }
  have hget : ((manager.moveRetried retry present).putSession session).sessions.get? session.id
      = some session := Table.get?_insert_self _ session
  have hpayload : ((manager.moveRetried retry present).putSession session).payload session.id
      retry.callId = session.pendingMessages.lookup retry.callId := payload_of_get? hget
  exact hpayload

theorem tasks_retryUndone (manager : Manager) {task : WorkspaceTask} (htask : retry.task = some task)
    (present : Bool) {stored : WorkspaceTask}
    (hget : (manager.retryUndone retry present).tasks.get? task.id = some stored) :
    stored.toCallLists = retry.undo present (retry.move present task.toCallLists) := by
  have hmoved : retry.movedTask present
      = some { task with toCallLists := retry.move present task.toCallLists } := by
    simp [Retry.movedTask, htask]
  unfold retryUndone undoRetry at hget
  rw [hmoved] at hget
  simp only [mirror, putTask, Table.get?_insert, if_true] at hget
  cases hget
  rfl

end Manager

namespace DeliveryRun

variable {run next : DeliveryRun} {op : DeliveryOp} {retry : Retry} {receipt : Option Bool}

@[simp] theorem outcomes_settle_ends (run : DeliveryRun) (sessionId : SessionId) (manager : Manager)
    (outcome : PumpOutcome) (enqueued retired acked : List CallId) :
    (run.settle sessionId ⟨manager, .ends outcome, enqueued, retired, acked⟩).outcomes
      = run.outcomes ++ [(sessionId, outcome)] := rfl

theorem holders_settle_ends (run : DeliveryRun) (sessionId : SessionId) (manager : Manager)
    (outcome : PumpOutcome) (enqueued retired acked : List CallId) :
    (run.settle sessionId ⟨manager, .ends outcome, enqueued, retired, acked⟩).holders.get? sessionId
      = none := by
  simp only [settle, Table.get?_erase, if_true]

theorem settle_afterAudit {sessionId : SessionId} {stretch : Stretch}
    (h : Manager.afterAudit stretch.next = true) (answer : LockAnswer) (around : Surroundings) :
    (run.settle sessionId stretch).outcomes
        ≠ run.outcomes ++ [(sessionId, .raised .auditFailed)]
      ∧ (run.settle sessionId stretch).handedOver (.proceed sessionId answer around) = [] := by
  obtain ⟨manager, next, enqueued, retired, acked⟩ := stretch
  cases next with
  | ends =>
    rw [outcomes_settle_ends]
    simp only [handedOver, holders_settle_ends, Option.map_none]
    simp only [Manager.afterAudit, ne_eq, decide_not, Bool.not_eq_eq_eq_not, Bool.not_true,
      decide_eq_false_iff_not] at h
    simp [h]
  | waits call =>
    have hsame : (run.settle sessionId ⟨manager, .waits call, enqueued, retired, acked⟩).outcomes
        = run.outcomes := rfl
    have hholder : (run.settle sessionId
        ⟨manager, .waits call, enqueued, retired, acked⟩).holders.get? sessionId
        = some ⟨sessionId, call⟩ := by
      simp only [settle]
      exact Table.get?_insert_self _ (⟨sessionId, call⟩ : LockHolder)
    rw [hsame]
    simp only [handedOver, hholder, Option.map_some]
    cases call <;> simp_all [Manager.afterAudit]

/-- The step that settles a retry: it raises at once without a receipt, and else goes on with
what it has read and with the answer of the mailbox. -/
theorem step_of_retryOf (hwait : run.RetriesWait) (h : run.retryOf op = some (retry, receipt)) :
    retry.Waits run.manager ∧ ∃ around : Surroundings,
      (receipt = none → run.step op = some (run.settle retry.session.id
        ⟨run.manager, .ends (.raised .deliveryUncertain), [], [], []⟩)) ∧
      ∀ present, receipt = some present → ∀ audited,
        run.step (op.withAudited audited) = some (run.settle retry.session.id
          (run.manager.retryWithReceipt retry.session retry.task retry.callId present
            { around with audited := audited })) := by
  unfold retryOf at h
  split at h
  case h_1 sessionId callId evidence around =>
      split at h
      · next session hfree hget =>
          split at h
          · cases h
          · next hopen =>
              simp only [not_or, not_not] at hopen
              obtain ⟨huncertain, hmessage, hchat⟩ := hopen
              split at h
              · cases h
              · next task htask =>
                  cases h
                  have hid : session.id = sessionId := Table.key_of_get? hget
                  refine ⟨.of_read hget hmessage htask, around, fun hnone => ?_,
                    fun present hsome audited => ?_⟩
                  · cases evidence <;> cases hnone
                    simp [step, start, hfree, hget, Manager.retryUncertainDelivery, huncertain,
                      hmessage, htask, hchat, hid]
                  · cases evidence <;> cases hsome <;>
                      simp [DeliveryOp.withAudited, step, start, hfree, hget,
                        Manager.retryUncertainDelivery, huncertain, hmessage, htask, hchat, hid]
      · cases h
  case h_2 sessionId present around =>
      split at h
      · next session task callId hcall =>
          cases h
          obtain ⟨holder, hget, hholder⟩ := Option.map_eq_some_iff.mp hcall
          have hmem := Table.get?_eq_some.mp hget
          obtain ⟨hid, hwaits⟩ := hwait holder hmem.1 session task callId hholder
          have hsession : session.id = sessionId := hid.trans hmem.2
          refine ⟨hwaits, around, fun hnone => ?_, fun known hsome audited => ?_⟩
          · subst hnone
            simp [step, hget, hholder, resumed, hsession]
          · subst hsome
            simp [DeliveryOp.withAudited, step, hget, hholder, resumed, hsession]
      · cases h
  case h_3 => cases h

end DeliveryRun

/-! ## What a step preserves -/

theorem Manager.retryUncertainDelivery_waits {manager : Manager} {sessionId : SessionId}
    {session read : ManagedSession} {callId readId : CallId} {task : Option WorkspaceTask}
    {evidence : ChatEvidence} {around : Surroundings}
    (hget : manager.sessions.get? sessionId = some session)
    (hnext : (manager.retryUncertainDelivery session callId evidence around).next
      = .waits (.querying read task readId)) :
    read.id = sessionId ∧ (⟨read, task, readId⟩ : Retry).Waits
      (manager.retryUncertainDelivery session callId evidence around).manager := by
  unfold Manager.retryUncertainDelivery at hnext ⊢
  split at hnext
  · cases hnext
  next hin =>
    simp only [hin, if_false]
    split at hnext
    · cases hnext
    next hmessage =>
      simp only [hmessage, if_false]
      split at hnext
      · cases hnext
      · next found htask =>
          split at hnext
          · split at hnext
            · cases hnext
            · have hquiet := asksReceipt_retryWithReceipt manager session callId around found true
              rw [hnext] at hquiet
              cases hquiet
            · have hquiet := asksReceipt_retryWithReceipt manager session callId around found false
              rw [hnext] at hquiet
              cases hquiet
          · next hterminal =>
              cases hnext
              simp only [hterminal, if_false]
              exact ⟨Table.key_of_get? hget, .of_read hget hmessage htask⟩

namespace DeliveryRun

variable {run next : DeliveryRun} {sessionId : SessionId}

theorem RetriesWait.start (hwait : run.RetriesWait) (hfree : run.workspaceFree sessionId = true)
    {stretch : ManagedSession → Stretch}
    (hstretch : ∀ session, run.manager.sessions.get? sessionId = some session →
      ∀ read task callId, (stretch session).next = .waits (.querying read task callId) →
        read.id = sessionId ∧ (⟨read, task, callId⟩ : Retry).Waits (stretch session).manager)
    (hstep : run.start sessionId stretch = some next) : next.RetriesWait := by
  unfold DeliveryRun.start at hstep
  split at hstep
  · cases hstep
  · split at hstep
    · cases hstep
      exact hwait
    · next session hget =>
        cases hstep
        exact retriesWait_settle hfree (hstretch session hget)

theorem RetriesWait.start_quiet (hwait : run.RetriesWait)
    (hfree : run.workspaceFree sessionId = true) {stretch : ManagedSession → Stretch}
    (hquiet : ∀ session, (stretch session).next.asksReceipt = false)
    (hstep : run.start sessionId stretch = some next) : next.RetriesWait := by
  refine hwait.start hfree (fun session _ read task callId hnext => ?_) hstep
  have hnot := hquiet session
  rw [hnext] at hnot
  cases hnot

theorem RetriesWait.storeRecovery (hwait : run.RetriesWait) (index : Nat) (recovery : Recovery) :
    (run.storeRecovery index recovery).RetriesWait := by
  unfold DeliveryRun.storeRecovery
  split
  · exact hwait.write fun callId => .write recovery run.manager
  · exact hwait

variable {op : DeliveryOp}

theorem RetriesWait.step (hwait : run.RetriesWait) (hadmits : run.admits op = true)
    (hstep : run.step op = some next) : next.RetriesWait := by
  cases op with
    simp only [DeliveryRun.step] at hstep
  | openSession =>
    have hidle : run.holders.rows = [] := of_decide_eq_true hadmits
    split at hstep
    · cases hstep
      exact .of_idle hidle
    · cases hstep
  | editSession =>
    split at hstep
    · next hlists =>
        cases hstep
        refine hwait.write fun callId => .putSession hlists ?_
        obtain ⟨stored, hstored, hsame⟩ := Option.map_eq_some_iff.mp (of_decide_eq_true hadmits)
        rw [Manager.payload_of_get? hstored, hsame]
    · cases hstep
  | editTask =>
    cases hstep
    exact hwait.write fun callId => .putTask (of_decide_eq_true hadmits)
  | send sessionId =>
    split at hstep
    · cases hstep
      exact hwait
    · next hslow =>
        have hfree : run.workspaceFree sessionId = true := by
          simpa [admits, hslow] using hadmits
        exact hwait.start_quiet hfree (fun session => asksReceipt_sendSessionMessage ..) hstep
  | resumeCall =>
    exact hwait.start_quiet hadmits (fun session => asksReceipt_resumeExistingCall ..) hstep
  | pump =>
    exact hwait.start_quiet hadmits (fun session => asksReceipt_startPump ..) hstep
  | retry =>
    exact hwait.start hadmits
      (fun session hget _ _ _ hnext => Manager.retryUncertainDelivery_waits hget hnext) hstep
  | createReport =>
    exact hwait.start_quiet hadmits (fun session => rfl) hstep
  | proceed =>
    obtain ⟨holder, -, hmap⟩ := Option.bind_eq_some_iff.mp hstep
    obtain ⟨stretch, hresumed, rfl⟩ := Option.map_eq_some_iff.mp hmap
    exact retriesWait_settle_quiet hadmits (asksReceipt_resumed _ _ _ hresumed)
  | abandon =>
    split at hstep
    · cases hstep
    · cases hstep
    · cases hstep
      exact retriesWait_settle_quiet hadmits rfl
  | recover =>
    split at hstep
    · cases hstep
      exact hwait
    · split at hstep
      · cases hstep
        exact hwait
      · split at hstep
        · cases hstep
        · cases hstep
          exact hwait
  | recoverChat =>
    split at hstep
    · cases hstep
      exact hwait.write fun callId => .recoverChatProcessingViaReceipt ..
    · cases hstep
  | answerRecovery index =>
    obtain ⟨recovery, -, rfl⟩ := Option.map_eq_some_iff.mp hstep
    exact hwait.storeRecovery index recovery
  | abandonRecovery =>
    cases hstep
    exact hwait
  | expireLeases =>
    cases hstep
    exact hwait.write fun callId => .expireProcessingLeases ..
  | coldStart =>
    split at hstep
    · next hidle =>
        cases hstep
        exact .of_idle hidle.1
    · cases hstep

theorem RetriesWait.createTask (hwait : run.RetriesWait) {task : WorkspaceTask}
    (hfresh : run.isFreshTask task.id = true) :
    { run with manager := run.manager.putTask task }.RetriesWait := by
  intro holder hholder session read callId hcall
  obtain ⟨hid, hwaits⟩ := hwait holder hholder session read callId hcall
  refine ⟨hid, hwaits.message, hwaits.payload, hwaits.session, ?_⟩
  intro bound hbound hold stored hget
  have hne : bound.id ≠ task.id := by
    have hothers := List.all_eq_true.mp (Bool.and_eq_true_iff.mp hfresh).2 holder hholder
    obtain rfl : read = some bound := hbound
    rw [hcall] at hothers
    exact of_decide_eq_true hothers
  simp only [Manager.putTask, Table.get?_insert, hne, if_false] at hget
  exact hwaits.task bound hbound hold stored hget

/-! The session of a step that settles a retry. -/

variable {retry : Retry} {receipt : Option Bool}

theorem retryOf_session (hwait : run.RetriesWait) (h : run.retryOf op = some (retry, receipt)) :
    (∃ callId evidence around, op = .retry retry.session.id callId evidence around)
      ∨ ∃ answer around, op = .proceed retry.session.id answer around := by
  unfold retryOf at h
  split at h
  case h_1 sessionId callId evidence around =>
      split at h
      · next session hfree hget =>
          split at h
          · cases h
          · split at h
            · cases h
            · cases h
              have hid : session.id = sessionId := Table.key_of_get? hget
              exact .inl ⟨callId, evidence, around, by rw [hid]⟩
      · cases h
  case h_2 sessionId present around =>
      split at h
      · next session task callId hcall =>
          cases h
          obtain ⟨holder, hget, hholder⟩ := Option.map_eq_some_iff.mp hcall
          have hmem := Table.get?_eq_some.mp hget
          obtain ⟨hid, -⟩ := hwait holder hmem.1 session task callId hholder
          exact .inr ⟨.receipt receipt, around, by rw [hid, hmem.2]⟩
      · cases h
  case h_3 => cases h

theorem handedOver_of_retryOf (hwait : run.RetriesWait) (h : run.retryOf op = some (retry, receipt))
    (hnone : ∀ answer around, next.handedOver (.proceed retry.session.id answer around) = []) :
    next.handedOver op = [] := by
  rcases retryOf_session hwait h with ⟨callId, evidence, around, rfl⟩ | ⟨answer, around, rfl⟩
  · rfl
  · exact hnone answer around

theorem handedOver_settle_ends (run : DeliveryRun) (sessionId : SessionId) (manager : Manager)
    (outcome : PumpOutcome) (answer : LockAnswer) (around : Surroundings) :
    (run.settle sessionId ⟨manager, .ends outcome, [], [], []⟩).handedOver
      (.proceed sessionId answer around) = [] := by
  simp only [handedOver, holders_settle_ends, Option.map_none]

theorem workspaceFree_of_retryOf (hwait : run.RetriesWait) (hadmits : run.admits op = true)
    (h : run.retryOf op = some (retry, receipt)) : run.workspaceFree retry.session.id = true := by
  rcases retryOf_session hwait h with ⟨callId, evidence, around, rfl⟩ | ⟨answer, around, rfl⟩
  · exact hadmits
  · exact hadmits

end DeliveryRun

theorem Hub.keepsUncertain_deleteTask (hub : Hub) (taskId : TaskId) (outcome : SaveOutcome)
    (callId : CallId) :
    hub.manager.KeepsUncertain callId (hub.deleteTask taskId outcome).1.manager := by
  unfold Hub.deleteTask
  split
  · exact .refl ..
  · next live hlive =>
      obtain ⟨task, -, hwithout⟩ := Except.bind_ok_iff.mp hlive
      obtain ⟨mailbox, -, hwm⟩ := Except.bind_ok_iff.mp hwithout
      obtain rfl := Except.pure_ok_iff.mp hwm
      simp only
      split
      · exact .refl ..
      · have hlists : ∀ session : ManagedSession,
            (Hub.unbindSession task.id session).toCallLists = session.toCallLists := by
          intro session
          unfold Hub.unbindSession
          split <;> rfl
        have hmessages : ∀ session : ManagedSession,
            (Hub.unbindSession task.id session).pendingMessages = session.pendingMessages := by
          intro session
          unfold Hub.unbindSession
          split <;> rfl
        simp only [Hub.manager, Hub.saveWorkspaceState_live]
        constructor
        · intro k lists hget hold
          refine ⟨lists, ?_, hold⟩
          rw [← hget]
          unfold Manager.lists
          split
          · simp only [Table.get?_map, Option.map_map, Function.comp_def, hlists]
          · rfl
        · intro k
          unfold Manager.payload
          split
          · simp only [Table.get?_map, Option.bind_map, Function.comp_def, hmessages]
          · rfl
        · intro k stored hget
          simp only [Table.get?_erase] at hget
          split at hget
          · cases hget
          · exact ⟨stored, hget, fun huncertain => huncertain⟩

namespace AuditedRun

/-- The mailbox is indexed and every waiting retry may rely on what it has read. -/
structure Sound (run : AuditedRun) : Prop where
  indexed : run.hub.Indexed
  waits : run.delivery.RetriesWait

variable {run next : AuditedRun}

theorem sound_start : ({} : AuditedRun).Sound where
  indexed := ⟨TaskMailbox.mirrored_empty, TaskMailbox.mirrored_empty.payload⟩
  waits := .of_idle rfl

theorem Sound.hubWith (h : run.Sound) (manager : Manager) : (run.hubWith manager).Indexed :=
  ⟨h.indexed.live, h.indexed.saved⟩

theorem Sound.withManager (h : run.Sound) {manager : Manager}
    (hwaits : { run.delivery with manager := manager }.RetriesWait) :
    (run.withManager manager).Sound :=
  ⟨h.hubWith manager, hwaits⟩

theorem Sound.store (h : run.Sound) {hub : Hub} (hindexed : hub.Indexed)
    (hkeeps : ∀ callId, run.delivery.manager.KeepsUncertain callId hub.manager) :
    (run.store hub).Sound :=
  ⟨⟨hindexed.live, hindexed.saved⟩, h.waits.write hkeeps⟩

@[simp] theorem manager_hubWith (run : AuditedRun) (manager : Manager) :
    (run.hubWith manager).manager = manager := rfl

theorem admits_withAudited (run : DeliveryRun) (op : DeliveryOp) (audited : Bool) :
    run.admits (op.withAudited audited) = run.admits op := by
  cases op <;> rfl

variable {op : DeliveryOp} {operator : Operator}

theorem Sound.deliver (h : run.Sound) {now : Time} {outcome : SaveOutcome}
    (hadmits : run.delivery.admits op = true)
    (hstep : run.deliver op operator now outcome = some next) : next.Sound := by
  unfold AuditedRun.deliver at hstep
  split at hstep
  · next retry present _ =>
      obtain ⟨delivery, hdelivery, rfl⟩ := Option.map_eq_some_iff.mp hstep
      have hemitted := (h.hubWith (run.delivery.manager.moveRetried retry present)).emit
        retry.session.id retry.callId (run.operatorOf op operator) now outcome
      refine ⟨?_, h.waits.step ?_ hdelivery⟩
      · exact ⟨hemitted.live, hemitted.saved⟩
      · rw [admits_withAudited]
        exact hadmits
  · obtain ⟨delivery, hdelivery, rfl⟩ := Option.map_eq_some_iff.mp hstep
    exact ⟨⟨h.indexed.live, h.indexed.saved⟩, h.waits.step hadmits hdelivery⟩

theorem Sound.step (h : run.Sound) {op : AuditedOp} (hstep : run.step op = some next) :
    next.Sound := by
  cases op with
    simp only [AuditedRun.step] at hstep
  | deliver =>
    split at hstep
    · next hadmits => exact h.deliver hadmits hstep
    · cases hstep
  | cutShort op outcome =>
    split at hstep
    next hadmits =>
      split at hstep
      · next retry present hretry =>
          cases hstep
          have hsaved := (h.hubWith (run.delivery.manager.moveRetried retry present)).save outcome
          refine ⟨⟨h.indexed.live, hsaved.saved⟩, DeliveryRun.retriesWait_settle_quiet ?_ rfl⟩
          exact DeliveryRun.workspaceFree_of_retryOf h.waits hadmits hretry
      · cases hstep
    · cases hstep
  | createTask =>
    split at hstep
    · next hfresh =>
        cases hstep
        exact h.withManager (h.waits.createTask hfresh)
    · cases hstep
  | stageFollowup =>
    split at hstep
    · next hidle =>
        cases hstep
        exact h.withManager (.of_idle hidle)
    · cases hstep
  | closeSession =>
    split at hstep
    · next hidle =>
        cases hstep
        exact h.withManager (.of_idle hidle)
    · cases hstep
  | appendEvent req now persist outcome =>
    cases hstep
    refine h.store (h.indexed.appendEvent req now persist outcome) fun callId => ?_
    rw [Hub.manager_appendEvent]
    exact .refl ..
  | unstageEvents staged =>
    cases hstep
    exact ⟨⟨h.indexed.live.unstageEvents staged, h.indexed.saved⟩, h.waits⟩
  | recordReport report outcome =>
    cases hstep
    refine h.store (h.indexed.recordReport report outcome) fun callId => ?_
    unfold Hub.recordReport Hub.manager
    rw [Hub.saveWorkspaceState_live]
    exact .refl ..
  | deleteTask taskId outcome =>
    cases hstep
    exact h.store (h.indexed.deleteTask taskId outcome) fun callId =>
      run.hub.keepsUncertain_deleteTask taskId outcome callId
  | save outcome =>
    cases hstep
    refine h.store (h.indexed.save outcome) fun callId => ?_
    unfold Hub.manager
    rw [Hub.saveWorkspaceState_live]
    exact .refl ..
  | restart =>
    split at hstep
    · cases hstep
    · next hub hrestart =>
        cases hstep
        have hindexed := h.indexed.restart hrestart
        exact ⟨⟨hindexed.live, hindexed.saved⟩, .of_idle rfl⟩

/-! ## Every retry is traceable -/

theorem Sound.traceable_unknown (h : run.Sound) {retry : Retry}
    (hretry : run.delivery.retryOf op = some (retry, none)) (hundisputed : retry.Undisputed)
    (hstep : (run.delivery.step op).map (run.delivered op operator run.hub) = some next) :
    retry.StaysUncertain run next
      ∧ next.delivery.manager.isIn retry.session.id .uncertain retry.callId = true := by
  obtain ⟨hwaits, around, hnone, -⟩ := DeliveryRun.step_of_retryOf h.waits hretry
  rw [hnone rfl] at hstep
  cases hstep
  obtain ⟨lists, hlists, hkept⟩ := hwaits.session hundisputed.1
  constructor
  · exact
      { session := ⟨lists, by simpa [delivered] using hlists, hkept⟩
        task := fun task htask stored hget =>
          hwaits.task task htask (hundisputed.2 task htask) stored (by simpa [delivered] using hget)
        payload := by
          simp only [delivered, DeliveryRun.manager_settle, hwaits.payload]
          exact hwaits.message
        kept := by simpa [delivered] using hwaits.payload
        released := DeliveryRun.holders_settle_ends ..
        quiet := by
          simp only [delivered, List.append_right_eq_self]
          exact DeliveryRun.handedOver_of_retryOf h.waits hretry
            (DeliveryRun.handedOver_settle_ends _ _ _ _) }
  · simp only [delivered, DeliveryRun.manager_settle, Manager.isIn, hlists, CallLists.callIds]
    exact decide_eq_true hkept.1

theorem Sound.staysUncertain (h : run.Sound) {hub : Hub} {retry : Retry} {present : Bool}
    (hretry : run.delivery.retryOf op = some (retry, some present)) (hundisputed : retry.Undisputed) :
    retry.StaysUncertain run (run.delivered op operator hub (run.delivery.settle retry.session.id
      ⟨run.delivery.manager.retryUndone retry present, .ends (.raised .auditFailed), [], [], []⟩)) := by
  obtain ⟨hwaits, -⟩ := DeliveryRun.step_of_retryOf h.waits hretry
  have hpayload := run.delivery.manager.payload_retryUndone retry present
  exact
    { session := by
        refine ⟨_, ?_, retry.uncertainOnly_undo_move present hundisputed.1⟩
        simp only [delivered, DeliveryRun.manager_settle]
        exact run.delivery.manager.lists_retryUndone retry present
      task := by
        intro task htask stored hget
        simp only [delivered, DeliveryRun.manager_settle] at hget
        have hlists := run.delivery.manager.tasks_retryUndone htask present hget
        rw [hlists]
        exact retry.uncertainOnly_undo_move present (hundisputed.2 task htask)
      payload := by
        simp only [delivered, DeliveryRun.manager_settle, hpayload]
        exact hwaits.message
      kept := by simpa [delivered] using hpayload
      released := DeliveryRun.holders_settle_ends ..
      quiet := by
        simp only [delivered, List.append_right_eq_self]
        exact DeliveryRun.handedOver_of_retryOf h.waits hretry
          (DeliveryRun.handedOver_settle_ends _ _ _ _) }

theorem Sound.traceable (h : run.Sound) {op : AuditedOp} (hok : run.RetriesFreely op)
    (hstep : run.step op = some next) : run.Traceable op next := by
  rintro op operator now outcome retry receipt rfl hretry
  simp only [AuditedRun.step] at hstep
  split at hstep
  next hadmits =>
    simp only [AuditedRun.RetriesFreely, hretry] at hok
    simp only [AuditedRun.deliver, hretry] at hstep
    cases receipt with
    | none =>
      obtain ⟨hstays, hin⟩ := h.traceable_unknown hretry hok hstep
      refine ⟨fun hnot => ?_, fun _ => hstays⟩
      rw [hin] at hnot
      cases hnot
    | some present =>
      obtain ⟨hundisputed, hfree⟩ := hok
      obtain ⟨-, around, -, hknown⟩ := DeliveryRun.step_of_retryOf h.waits hretry
      have hindexed := h.hubWith (run.delivery.manager.moveRetried retry present)
      simp only [hknown present rfl, Option.map_some, Option.some.injEq] at hstep
      cases hemits : ((run.hubWith (run.delivery.manager.moveRetried retry present)).emitDeliveryRetryRequested
        retry.session.id retry.callId (run.operatorOf op operator) now outcome).2 with
      | false =>
        have hrefused : (run.delivery.manager.moveRetried retry present).emitsRetryRequested
            retry.session.id { around with audited := false } = false := by
          simp [Manager.emitsRetryRequested]
        rw [hemits, Manager.retryWithReceipt_refused hrefused] at hstep
        subst hstep
        refine ⟨fun hnot => ?_, fun _ => h.staysUncertain hretry hundisputed⟩
        simp only [delivered, DeliveryRun.manager_settle, Manager.isIn,
          Manager.lists_retryUndone, CallLists.callIds] at hnot
        exact absurd (retry.mem_undo_move present _) (of_decide_eq_false hnot)
      | true =>
        obtain ⟨task, htask, hcases⟩ := hindexed.emitted hemits
        have haudited : (run.delivery.manager.moveRetried retry present).emitsRetryRequested
            retry.session.id { around with audited := true } = true := by
          simp only [manager_hubWith] at htask
          simp [Manager.emitsRetryRequested, htask]
        rw [hemits] at hstep
        subst hstep
        have hafter := Manager.retryWithReceipt_audited haudited
        constructor
        · intro _
          rcases hcases with ⟨event, hmem, hcall, hrepeats⟩ | ⟨sequence, hevents, hnew⟩
          · simp only [AuditedRun.NumberFree, htask] at hfree
            exact absurd hrepeats (hfree event hmem hcall)
          · refine ⟨⟨_, _, hevents, rfl, hnew, rfl, rfl⟩, ?_⟩
            simp only [delivered, List.append_right_eq_self]
            exact DeliveryRun.handedOver_of_retryOf h.waits hretry fun answer around =>
              (DeliveryRun.settle_afterAudit hafter answer around).2
        · rintro (hnone | houtcome)
          · cases hnone
          · exact absurd houtcome (DeliveryRun.settle_afterAudit hafter .goOn {}).1
  · cases hstep

end AuditedRun

open AuditedRun in
/-- Where retries find their call in no second list, and no event of the same retry under the next
call id, one that takes the call out of its uncertainty has an audit event before anything is sent,
and any other leaves it uncertain. -/
theorem retries_traceable {ops : List AuditedOp} {finish : AuditedRun}
    (hrun : Run AuditedRun.step RetriesFreely {} ops finish) :
    Run AuditedRun.step (fun run op => ∀ next, run.step op = some next → run.Traceable op next)
      {} ops finish :=
  hrun.mono_of_invariant sound_start (fun _ _ _ h _ hstep => h.step hstep)
    fun _ _ h hok _ hstep => h.traceable hok hstep

private def lostNote : CallId := .raw "note"

private def auditedWorker : ManagedSession :=
  { id := "worker", role := .worker, status := .working, taskId := some "first",
    currentTaskId := some "first" }

private def reboundWorker : ManagedSession :=
  { auditedWorker with
    taskId := some "second"
    currentTaskId := some "second"
    processingCallIds := [lostNote]
    pendingMessages := Dict.set Table.empty lostNote "hello" }

private def audited (op : DeliveryOp) (outcome : SaveOutcome) : AuditedOp :=
  .deliver op ⟨"operator", "lost"⟩ 0 outcome

private def retryNote (present : Option Bool) (outcome : SaveOutcome) : List AuditedOp :=
  [audited (.retry "worker" lostNote .uncertain {}) .saved,
    audited (.proceed "worker" (.receipt present) {}) outcome]

private def lostOps : List AuditedOp :=
  [.createTask { id := "first", sessionId := some "worker", path := ["first"] },
    .createTask { id := "second", sessionId := some "worker", path := ["second"] },
    audited (.openSession auditedWorker) .saved,
    audited (.send "worker" { message := "hello", callId := some lostNote } {}) .saved,
    audited (.proceed "worker" .goOn {}) .saved, audited (.proceed "worker" .ready {}) .saved,
    audited (.proceed "worker" .sendFailed {}) .saved, audited (.proceed "worker" .goOn {}) .saved]

/-- A retry whose audit event cannot be saved, one whose receipt cannot be asked for, and one
that sends the note again; its task is deleted and the process starts anew. -/
theorem retries_traceable_restarted : ∃ finish,
    Run AuditedRun.step (fun run op => ∀ next, run.step op = some next → run.Traceable op next) {}
      (lostOps ++ retryNote (some false) .notReplaced ++ retryNote none .saved
        ++ retryNote (some false) .saved
        ++ [audited (.proceed "worker" .goOn {}) .saved,
          audited (.proceed "worker" .ready {}) .saved, audited (.proceed "worker" .sent {}) .saved,
          .deleteTask "second" .saved, .restart]) finish
      ∧ finish.mailbox.events.map (fun event => event.callId) = [retryCallId lostNote 1]
      ∧ finish.sent.length = 2 := by
  have hrun : (execOk AuditedRun.step AuditedRun.RetriesFreely {}
      (lostOps ++ retryNote (some false) .notReplaced ++ retryNote none .saved
        ++ retryNote (some false) .saved
        ++ [audited (.proceed "worker" .goOn {}) .saved,
          audited (.proceed "worker" .ready {}) .saved, audited (.proceed "worker" .sent {}) .saved,
          .deleteTask "second" .saved, .restart])).any (fun finish =>
        decide (finish.mailbox.events.map (fun event => event.callId) = [retryCallId lostNote 1]
          ∧ finish.sent.length = 2)) = true := by decide +kernel
  obtain ⟨finish, hexec, hends⟩ := (Option.any_eq_true _ _).mp hrun
  exact ⟨finish, retries_traceable (Run.of_execOk hexec), of_decide_eq_true hends⟩

/-- The note is retried under the first task and under the second, and lost each time again;
then the first task is deleted with the first audit event. -/
private def purgedOps : List AuditedOp :=
  lostOps ++ retryNote (some true) .saved
    ++ [audited (.proceed "worker" (.submitted true) {}) .saved,
      audited (.editSession reboundWorker) .saved, audited (.recover "worker") .saved,
      audited (.answerRecovery 0 (.receipt none)) .saved]
    ++ retryNote (some true) .saved
    ++ [audited (.proceed "worker" (.submitted true) {}) .saved, audited (.recover "worker") .saved,
      audited (.answerRecovery 0 (.receipt none)) .saved, .deleteTask "first" .saved,
      audited (.retry "worker" lostNote .uncertain {}) .saved]

/-- The third retry counts one surviving event, so its number is that of the second. It is
answered with the second's event and queues the note, and no event is appended. -/
theorem retry_repeats_purged_number : ∃ run next,
    exec AuditedRun.step {} purgedOps = some run
      ∧ run.step (audited (.proceed "worker" (.receipt (some false)) {}) .saved) = some next
      ∧ next.delivery.manager.isIn "worker" .pending lostNote = true
      ∧ ¬ run.Traceable (audited (.proceed "worker" (.receipt (some false)) {}) .saved) next := by
  have hrun : (exec AuditedRun.step {} purgedOps).any (fun run =>
      (run.step (audited (.proceed "worker" (.receipt (some false)) {}) .saved)).any fun next =>
        decide ((run.delivery.retryOf (.proceed "worker" (.receipt (some false)) {})).any fun entry =>
            entry.1.session.id = "worker" ∧ entry.1.callId = lostNote)
        && decide (next.delivery.manager.isIn "worker" .uncertain lostNote = false
            ∧ next.delivery.manager.isIn "worker" .pending lostNote = true)
        && decide (next.mailbox.events.length = run.mailbox.events.length)) = true := by
    decide +kernel
  obtain ⟨run, hexec, hnext⟩ := (Option.any_eq_true _ _).mp hrun
  obtain ⟨next, hstep, hfacts⟩ := (Option.any_eq_true _ _).mp hnext
  simp only [Bool.and_eq_true, decide_eq_true_eq] at hfacts
  obtain ⟨⟨hretry, hcertain, hqueued⟩, hlength⟩ := hfacts
  obtain ⟨⟨retry, receipt⟩, hretryOf, hentry⟩ := (Option.any_eq_true _ _).mp hretry
  simp only [decide_eq_true_eq] at hentry
  refine ⟨run, next, hexec, hstep, hqueued, fun htraceable => ?_⟩
  have hrecorded := (htraceable _ _ _ _ retry receipt rfl hretryOf).1
  rw [hentry.1, hentry.2] at hrecorded
  obtain ⟨⟨event, attempt, hevents, -⟩, -⟩ := hrecorded hcertain
  rw [hevents] at hlength
  simp at hlength

end ClaudeHub
