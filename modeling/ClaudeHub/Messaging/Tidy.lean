import ClaudeHub.Messaging.Run

/-! # No delivery state lists a call twice

Unlike the partition of the calls among the states, this needs nothing of the order in
which verdicts are written: every write filters a list, appends what the list does not
hold, or puts filtered call ids before the rest. It also holds of the records that the
holders of the pump locks have read and will write back.
-/

namespace ClaudeHub

open StepSystem

namespace CallLists

/-- No list holds a call id twice. -/
structure Tidy (lists : CallLists) : Prop where
  pending : lists.pendingCallIds.Nodup
  processing : lists.processingCallIds.Nodup
  uncertain : lists.uncertainCallIds.Nodup
  delivered : lists.deliveredCallIds.Nodup

namespace Tidy

variable {lists : CallLists} {callId : CallId}

theorem empty : ({} : CallLists).Tidy :=
  ⟨List.nodup_nil, List.nodup_nil, List.nodup_nil, List.nodup_nil⟩

section

variable (h : lists.Tidy)
include h

theorem enqueue (callId : CallId) (first : Bool) : (lists.enqueue callId first).Tidy := by
  unfold CallLists.enqueue
  split
  · exact h
  · next hnew =>
      split
      · exact { h with pending := List.nodup_cons.mpr ⟨hnew, h.pending⟩ }
      · exact { h with pending := h.pending.append_new hnew }

theorem claim (callId : CallId) : (lists.claim callId).Tidy :=
  { h with pending := h.pending.without _, processing := h.processing.addNew _ }

theorem failPending (callId : CallId) : (lists.failPending callId).Tidy :=
  { h with pending := h.pending.without _, uncertain := h.uncertain.addNew _ }

theorem rollback (callIds : List CallId) : (lists.rollback callIds).Tidy :=
  { h with pending := h.pending.addNew _, processing := h.processing.without _ }

theorem queueFirst {callIds : List CallId} (hnodup : callIds.Nodup) :
    (lists.queueFirst callIds).Tidy :=
  { h with pending := h.pending.append_without hnodup }

theorem markUncertain (callIds : List CallId) : (lists.markUncertain callIds).Tidy :=
  { h with processing := h.processing.without _, uncertain := h.uncertain.addNew _ }

theorem acknowledge (callIds : List CallId) : (lists.acknowledge callIds).Tidy :=
  ⟨h.pending.without _, h.processing.without _, h.uncertain.without _, h.delivered.addNew _⟩

theorem retire (callId : CallId) : (lists.retire callId).Tidy :=
  { h with pending := h.pending.without _ }

theorem retryAccepted (callId : CallId) : (lists.retryAccepted callId).Tidy :=
  { h with processing := h.processing.addNew _, uncertain := h.uncertain.without _ }

theorem retryUnsent (callId : CallId) : (lists.retryUnsent callId).Tidy :=
  { h with pending := h.pending.addNew _, uncertain := h.uncertain.without _ }

theorem undoAccepted (hnew : callId ∉ lists.uncertainCallIds) : (lists.undoAccepted callId).Tidy :=
  { h with processing := h.processing.without _, uncertain := h.uncertain.append_new hnew }

theorem undoUnsent (hnew : callId ∉ lists.uncertainCallIds) : (lists.undoUnsent callId).Tidy :=
  { h with pending := h.pending.without _, uncertain := h.uncertain.append_new hnew }

end

end Tidy

theorem not_uncertain_retryAccepted (lists : CallLists) (callId : CallId) :
    callId ∉ (lists.retryAccepted callId).uncertainCallIds := by
  simp [retryAccepted]

theorem not_uncertain_retryUnsent (lists : CallLists) (callId : CallId) :
    callId ∉ (lists.retryUnsent callId).uncertainCallIds := by
  simp [retryUnsent]

end CallLists

/-! ## The stored records -/

/-- The outboxes of the sessions and their mirrors are tidy. -/
structure Manager.Tidy (manager : Manager) : Prop where
  sessions : ∀ session ∈ manager.sessions.rows, session.toCallLists.Tidy
  tasks : ∀ task ∈ manager.tasks.rows, task.toCallLists.Tidy

namespace Manager.Tidy

variable {manager : Manager} {sessionId : SessionId} {session : ManagedSession}

section

variable (h : manager.Tidy)
include h

theorem of_session (hget : manager.sessions.get? sessionId = some session) :
    session.toCallLists.Tidy :=
  h.sessions session (Table.get?_eq_some.mp hget).1

theorem of_task {taskId : Option TaskId} {task : WorkspaceTask}
    (htask : manager.task? taskId = some task) : task.toCallLists.Tidy := by
  obtain ⟨k, -, hget⟩ := Option.bind_eq_some_iff.mp htask
  exact h.tasks task (Table.get?_eq_some.mp hget).1

theorem putSession (hsession : session.toCallLists.Tidy) : (manager.putSession session).Tidy where
  sessions other hother := by
    rcases Table.mem_insert.mp hother with rfl | ⟨hold, -⟩
    · exact hsession
    · exact h.sessions other hold
  tasks := h.tasks

theorem putTask {task : WorkspaceTask} (htask : task.toCallLists.Tidy) :
    (manager.putTask task).Tidy where
  sessions := h.sessions
  tasks other hother := by
    rcases Table.mem_insert.mp hother with rfl | ⟨hold, -⟩
    · exact htask
    · exact h.tasks other hold

theorem mirror {task : Option WorkspaceTask} {move : CallLists → CallLists}
    (hmove : ∀ t, task = some t → (move t.toCallLists).Tidy) : (manager.mirror task move).Tidy := by
  cases task with
  | none => exact h
  | some task => exact h.putTask (hmove task rfl)

theorem mirrorOn {middle : Manager} (hmiddle : middle.Tidy) {taskId : Option TaskId}
    {move : CallLists → CallLists} (hmove : ∀ lists : CallLists, lists.Tidy → (move lists).Tidy) :
    (middle.mirror (manager.task? taskId) move).Tidy :=
  hmiddle.mirror fun t ht => hmove t.toCallLists (h.of_task ht)

theorem markProcessingAsUncertain (sessionId : SessionId) (callIds : List CallId) :
    (manager.markProcessingAsUncertain sessionId callIds).Tidy := by
  unfold Manager.markProcessingAsUncertain
  by_cases hnil : callIds = []
  · simpa [hnil] using h
  simp only [hnil, if_false]
  cases hget : manager.sessions.get? sessionId with
  | none => exact h
  | some session =>
    have hput : (manager.putSession { session with
        toCallLists := session.markUncertain callIds
        processingCallIdsAt := session.processingCallIdsAt.dropKeys callIds }).Tidy :=
      h.putSession ((h.of_session hget).markUncertain callIds)
    exact hput.mirrorOn hput fun lists hlists => hlists.markUncertain callIds

theorem rollbackProcessingToPending (taskId : Option TaskId) (sessionId : SessionId)
    (callIds : List CallId) :
    (manager.rollbackProcessingToPending taskId sessionId callIds).Tidy := by
  unfold Manager.rollbackProcessingToPending
  by_cases hnil : callIds = []
  · simpa [hnil] using h
  simp only [hnil, if_false, Manager.sessions_mirror]
  have hmirrored : (manager.mirror (manager.task? taskId) (·.rollback callIds)).Tidy :=
    h.mirrorOn h fun lists hlists => hlists.rollback callIds
  cases hget : manager.sessions.get? sessionId with
  | none => exact hmirrored
  | some =>
    simp only
    split
    · exact hmirrored
    · exact hmirrored.putSession ((h.of_session hget).rollback callIds)

theorem rollbackChatProcessingToPending (sessionId : SessionId) (callIds : List CallId) :
    (manager.rollbackChatProcessingToPending sessionId callIds).Tidy := by
  unfold Manager.rollbackChatProcessingToPending
  cases hget : manager.sessions.get? sessionId with
  | none => exact h
  | some session =>
    have hnodup : (session.processingCallIds.within callIds).Nodup :=
      (h.of_session hget).processing.within callIds
    have hrolled := h.rollbackProcessingToPending session.taskId sessionId
      (session.processingCallIds.within callIds)
    simp only
    cases hafter : (manager.rollbackProcessingToPending session.taskId sessionId
        (session.processingCallIds.within callIds)).sessions.get? sessionId with
    | none => exact hrolled
    | some rolled =>
      have hqueued : (rolled.queueFirst (session.processingCallIds.within callIds)).Tidy :=
        (hrolled.of_session hafter).queueFirst hnodup
      have hput := hrolled.putSession
        (show ({ rolled with toCallLists := _ } : ManagedSession).toCallLists.Tidy from hqueued)
      exact hput.mirrorOn hput fun lists hlists => hlists.queueFirst (hnodup.within _)

theorem expireProcessingLeases (sessionId : SessionId) (now : Time) :
    (manager.expireProcessingLeases sessionId now).Tidy := by
  unfold Manager.expireProcessingLeases
  split
  · exact h
  · split
    · exact h.markProcessingAsUncertain ..
    · exact h

theorem recoverChatProcessingViaReceipt (sessionId : SessionId) (evidence : CallId → ChatEvidence) :
    (manager.recoverChatProcessingViaReceipt sessionId evidence).Tidy := by
  unfold Manager.recoverChatProcessingViaReceipt
  split
  · exact h
  · apply markProcessingAsUncertain
    split
    · exact h
    · exact h.rollbackChatProcessingToPending ..

theorem recoverUncertainDeliveries (sessionId : SessionId) :
    (manager.recoverUncertainDeliveries sessionId).Tidy := by
  unfold Manager.recoverUncertainDeliveries
  split
  · exact h
  · split
    · exact h.markProcessingAsUncertain ..
    · exact h

theorem retireLivenessDelivery (sessionId : SessionId) (callId : CallId) (unsent : Bool) :
    (manager.retireLivenessDelivery sessionId callId unsent).Tidy := by
  unfold Manager.retireLivenessDelivery
  cases hget : manager.sessions.get? sessionId with
  | none => exact h
  | some =>
    simp only
    split
    · exact h
    split
    · exact h
    · refine (h.putSession ((h.of_session hget).retire callId)).mirror fun t ht => ?_
      exact (h.tasks t (Table.get?_eq_some.mp ht).1).retire callId

theorem ackCallIds (taskId : Option TaskId) (sessionId : SessionId) (verified : List CallId) :
    (manager.ackCallIds taskId sessionId verified).Tidy := by
  have hmirrored : (manager.mirror (manager.task? taskId) (·.acknowledge verified)).Tidy :=
    h.mirrorOn h fun lists hlists => hlists.acknowledge verified
  simp only [Manager.ackCallIds, Manager.sessions_mirror]
  cases hget : manager.sessions.get? sessionId with
  | none => exact hmirrored
  | some =>
    simp only
    split
    · exact hmirrored
    · exact hmirrored.putSession ((h.of_session hget).acknowledge verified)

end

end Manager.Tidy

/-- A mirrored task that a retry has read. -/
def TidyTask (task : Option WorkspaceTask) : Prop := ∀ t, task = some t → t.toCallLists.Tidy

/-- The records that a waiting operation goes on with are tidy. A retry that has taken its
call out of the uncertain ones may put it back. -/
def LockedCall.Tidy : LockedCall → Prop
  | .allowing session _ _ _ | .readying session _ _ _ | .rechecking session _ _ _
  | .reporting session => session.toCallLists.Tidy
  | .querying session task _ => session.toCallLists.Tidy ∧ TidyTask task
  | .nudging session task callId =>
    (session.toCallLists.Tidy ∧ callId ∉ session.uncertainCallIds)
      ∧ ∀ t, task = some t → t.toCallLists.Tidy ∧ callId ∉ t.uncertainCallIds
  | _ => True

def Next.Tidy : Next → Prop
  | .waits call => call.Tidy
  | .ends _ => True

structure Stretch.Tidy (stretch : Stretch) : Prop where
  manager : stretch.manager.Tidy
  next : stretch.next.Tidy

theorem Stretch.Tidy.of {manager : Manager} {next : Next} {enqueued retired acked : List CallId}
    (hmanager : manager.Tidy) (hnext : next.Tidy) :
    Stretch.Tidy ⟨manager, next, enqueued, retired, acked⟩ :=
  ⟨hmanager, hnext⟩

theorem Manager.Tidy.moved {manager : Manager} (h : manager.Tidy) {task : Option WorkspaceTask}
    (htask : TidyTask task) {updated : ManagedSession} (hupdated : updated.toCallLists.Tidy)
    {move : CallLists → CallLists} (hmove : ∀ lists : CallLists, lists.Tidy → (move lists).Tidy) :
    ((manager.putSession updated).mirror task move).Tidy :=
  (h.putSession hupdated).mirror fun t ht => hmove t.toCallLists (htask t ht)

section

variable {manager : Manager} {sessionId : SessionId} {session : ManagedSession} {callId : CallId}
  {rest : List CallId} {caller : PumpCaller} {around : Surroundings}

section

variable (h : manager.Tidy)
include h

theorem startPump_tidy (sessionId : SessionId) (caller : PumpCaller) :
    (manager.startPump sessionId caller).Tidy := by
  unfold Manager.startPump
  split <;> exact ⟨h, trivial⟩

theorem pumpCall_tidy (hsession : session.toCallLists.Tidy) :
    (manager.pumpCall session callId rest caller around).Tidy := by
  unfold Manager.pumpCall
  split
  · exact ⟨h, trivial⟩
  have htask : TidyTask
      ((manager.task? session.taskId).filter fun task => callId ∈ task.pendingCallIds) := by
    intro t ht
    exact h.of_task (Option.filter_eq_some_iff.mp ht).1
  simp only
  split
  · refine .of ?_ trivial
    apply h.moved htask
    · exact hsession.failPending callId
    · exact fun _ hlists => hlists.failPending callId
  · have hclaimed := fun (updated : ManagedSession) (hupdated : updated.toCallLists.Tidy) =>
      h.moved htask hupdated (fun _ hlists => hlists.claim callId)
    split
    · refine .of ?_ trivial
      split
      · apply Manager.Tidy.mirror
        · apply Manager.Tidy.putSession
          · exact hclaimed _ (hsession.claim callId)
          · exact hsession
        · exact htask
      · exact hclaimed _ (hsession.claim callId)
    split
    · refine .of ?_ trivial
      apply Manager.Tidy.markProcessingAsUncertain
      exact hclaimed _ (hsession.claim callId)
    · exact ⟨hclaimed _ (hsession.claim callId), hsession⟩

theorem pumpNext_tidy : (manager.pumpNext sessionId rest caller around).Tidy := by
  unfold Manager.pumpNext
  split
  · exact ⟨h, trivial⟩
  · exact ⟨h, trivial⟩
  · next session hget =>
      have hsession := h.of_session hget
      split
      · exact ⟨h, trivial⟩
      split
      · exact ⟨h, hsession⟩
      · exact pumpCall_tidy h hsession

theorem withdraw_tidy (unsent : Bool) {next : Next} (hnext : next.Tidy) :
    (manager.withdraw sessionId callId unsent next).Tidy :=
  ⟨h.retireLivenessDelivery .., hnext⟩

theorem handOver_tidy : (manager.handOver session callId rest caller).Tidy := by
  unfold Manager.handOver
  split <;> exact ⟨h, trivial⟩

theorem notReady_tidy : (manager.notReady session callId rest caller).Tidy := by
  unfold Manager.notReady
  split
  · exact ⟨h.rollbackChatProcessingToPending session.id [callId], trivial⟩
  · exact ⟨h.rollbackProcessingToPending session.taskId session.id [callId], trivial⟩

theorem turnFailed_tidy (evidence : ChatEvidence) (cancelled : Bool) :
    (manager.turnFailed sessionId callId caller evidence cancelled).Tidy := by
  unfold Manager.turnFailed
  split
  · split <;> exact .of (h.rollbackChatProcessingToPending ..) trivial
  · refine .of ?_ trivial
    split
    · exact h.markProcessingAsUncertain ..
    · exact h

/-! ## Sending and retrying -/

theorem enqueueCall_tidy (hsession : session.toCallLists.Tidy) (request : SendRequest) :
    (manager.enqueueCall session request callId around).Tidy := by
  let queued : ManagedSession := { session with
    toCallLists := session.enqueue callId
      (request.answersQuestion && decide (session.sessionKind = .chat))
    pendingMessages := session.pendingMessages.set callId request.message
    pendingAttachments := session.pendingAttachments.set callId request.attachments
    callPayloadFingerprints := session.callPayloadFingerprints.set callId request.fingerprint }
  have hqueued : queued.toCallLists.Tidy := hsession.enqueue callId _
  have hpump := startPump_tidy (h.putSession hqueued) session.id (.send callId)
  unfold Manager.enqueueCall
  split
  · exact ⟨h, trivial⟩
  · exact .of hpump.manager hpump.next

theorem resendCall_tidy (session : ManagedSession) : (manager.resendCall session callId).Tidy := by
  unfold Manager.resendCall
  split
  · exact ⟨h, trivial⟩
  split
  · exact startPump_tidy h ..
  split <;> exact ⟨h, trivial⟩

theorem sendSessionMessageLocked_tidy (hsession : session.toCallLists.Tidy)
    (request : SendRequest) :
    (manager.sendSessionMessageLocked session request around).Tidy := by
  unfold Manager.sendSessionMessageLocked
  split
  · exact ⟨h, trivial⟩
  split
  · exact ⟨h, trivial⟩
  split
  · split
    · exact ⟨h, trivial⟩
    · exact resendCall_tidy h session
  split
  · exact enqueueCall_tidy h hsession request
  split
  · split
    · exact ⟨h, trivial⟩
    -- Only the fingerprints of the session are written.
    simp only
    split
    · refine .of ?_ trivial
      exact h.putSession hsession
    · apply resendCall_tidy
      exact h.putSession hsession
  · split <;> exact ⟨h, trivial⟩

theorem sendSessionMessage_tidy (hsession : session.toCallLists.Tidy) (request : SendRequest) :
    (manager.sendSessionMessage session request around).Tidy := by
  unfold Manager.sendSessionMessage
  split
  · split
    · exact ⟨h, trivial⟩
    · exact sendSessionMessageLocked_tidy h hsession request
  · exact sendSessionMessageLocked_tidy h hsession request

theorem resumeExistingCall_tidy (session : ManagedSession) :
    (manager.resumeExistingCall session callId).Tidy := by
  unfold Manager.resumeExistingCall
  split
  · exact ⟨h, trivial⟩
  split
  · exact startPump_tidy h ..
  split <;> exact ⟨h, trivial⟩

end

variable {task : Option WorkspaceTask}

theorem undoRetry_tidy (h : manager.Tidy) (session : ManagedSession) {undo : CallLists → CallLists}
    (hsession : (undo session.toCallLists).Tidy)
    (htask : ∀ t, task = some t → (undo t.toCallLists).Tidy) :
    (manager.undoRetry session task undo).Tidy :=
  (h.putSession hsession).mirror htask

theorem retryWithReceipt_tidy (h : manager.Tidy) (hsession : session.toCallLists.Tidy)
    (htask : TidyTask task) (present : Bool) :
    (manager.retryWithReceipt session task callId present around).Tidy := by
  unfold Manager.retryWithReceipt
  split
  · have hnew := session.toCallLists.not_uncertain_retryAccepted callId
    have hupdated : ∀ t, task.map (fun task =>
        ({ task with toCallLists := task.retryAccepted callId } : WorkspaceTask)) = some t →
        t.toCallLists.Tidy ∧ callId ∉ t.uncertainCallIds := by
      intro t ht
      obtain ⟨task, rfl, rfl⟩ := Option.map_eq_some_iff.mp ht
      exact ⟨(htask task rfl).retryAccepted callId,
        task.toCallLists.not_uncertain_retryAccepted callId⟩
    let updated : ManagedSession := { session with toCallLists := session.retryAccepted callId }
    have hmoved : ((manager.putSession updated).mirror task (·.retryAccepted callId)).Tidy :=
      h.moved htask (hsession.retryAccepted callId) fun _ hlists => hlists.retryAccepted callId
    have hundone : ((manager.putSession updated).mirror task (·.retryAccepted callId)).undoRetry
        updated _ (·.undoAccepted callId) |>.Tidy :=
      undoRetry_tidy hmoved updated ((hsession.retryAccepted callId).undoAccepted hnew)
        fun t ht => (hupdated t ht).1.undoAccepted (hupdated t ht).2
    simp only
    split
    · exact ⟨hundone, trivial⟩
    split
    · exact ⟨hmoved, trivial⟩
    split
    · exact ⟨hundone, trivial⟩
    · exact ⟨hmoved, ⟨hsession.retryAccepted callId, hnew⟩, hupdated⟩
  · have hupdated : ∀ t, task.map (fun task =>
        ({ task with toCallLists := task.retryUnsent callId } : WorkspaceTask)) = some t →
        (t.undoUnsent callId).Tidy := by
      intro t ht
      obtain ⟨task, rfl, rfl⟩ := Option.map_eq_some_iff.mp ht
      exact ((htask task rfl).retryUnsent callId).undoUnsent
        (task.toCallLists.not_uncertain_retryUnsent callId)
    let updated : ManagedSession := { session with toCallLists := session.retryUnsent callId }
    have hmoved : ((manager.putSession updated).mirror task (·.retryUnsent callId)).Tidy :=
      h.moved htask (hsession.retryUnsent callId) fun _ hlists => hlists.retryUnsent callId
    simp only
    split
    · refine .of ?_ trivial
      apply undoRetry_tidy hmoved updated
      · exact (hsession.retryUnsent callId).undoUnsent
          (session.toCallLists.not_uncertain_retryUnsent callId)
      · exact hupdated
    · exact startPump_tidy hmoved ..

theorem retryTask_tidy (h : manager.Tidy) (htask : manager.retryTask session callId = .ok task) :
    TidyTask task := by
  unfold Manager.retryTask at htask
  split at htask
  · cases htask
    exact fun t ht => nomatch ht
  split at htask
  · cases htask
  · next stored hget =>
      split at htask
      · cases htask
      split at htask
      · cases htask
      · cases htask
        rintro t ⟨⟩
        exact h.tasks _ (Table.get?_eq_some.mp hget).1

theorem retryUncertainDelivery_tidy (h : manager.Tidy) (hsession : session.toCallLists.Tidy)
    (evidence : ChatEvidence) :
    (manager.retryUncertainDelivery session callId evidence around).Tidy := by
  unfold Manager.retryUncertainDelivery
  split
  · exact ⟨h, trivial⟩
  split
  · exact ⟨h, trivial⟩
  split
  · exact ⟨h, trivial⟩
  · next task htask =>
      have htidy := retryTask_tidy h htask
      split
      · split
        · exact ⟨h, trivial⟩
        · exact retryWithReceipt_tidy h hsession htidy true
        · exact retryWithReceipt_tidy h hsession htidy false
      · exact ⟨h, hsession, htidy⟩

theorem takeReport_tidy (h : manager.Tidy) (hsession : session.toCallLists.Tidy)
    (report : Manager.ReportAcks) : (manager.takeReport session report).Tidy := by
  have hrenamed : (manager.renameSession session report.renamed).Tidy := by
    unfold Manager.renameSession
    split
    · exact h
    · exact h.putSession hsession
  have hbound : ∀ taskId, ((manager.renameSession session report.renamed).bindSession
      session.id taskId).Tidy := by
    intro taskId
    unfold Manager.bindSession
    split
    · next hget =>
        have hstored := hrenamed.of_session hget
        exact hrenamed.putSession hstored
    · exact hrenamed
  unfold Manager.takeReport
  simp only
  split
  · exact ⟨hrenamed, trivial⟩
  · refine .of ?_ trivial
    exact (hbound _).ackCallIds report.taskId session.id _

end

/-! ## Runs -/

/-- Whatever is stored or will be written back is tidy. -/
structure DeliveryRun.Tidy (run : DeliveryRun) : Prop where
  manager : run.manager.Tidy
  holders : ∀ holder ∈ run.holders.rows, holder.call.Tidy

namespace DeliveryRun

variable {run next : DeliveryRun} {sessionId : SessionId} {stretch : Stretch}

theorem Tidy.settle (h : run.Tidy) (sessionId : SessionId) (hstretch : stretch.Tidy) :
    (run.settle sessionId stretch).Tidy := by
  have hnext := hstretch.next
  unfold DeliveryRun.settle
  cases hwaits : stretch.next with
  | waits =>
    rw [hwaits] at hnext
    refine ⟨hstretch.manager, fun holder hmem => ?_⟩
    rcases Table.mem_insert.mp hmem with rfl | ⟨hold, -⟩
    · exact hnext
    · exact h.holders holder hold
  | ends =>
    refine ⟨hstretch.manager, fun holder hmem => ?_⟩
    exact h.holders holder (Table.mem_filter.mp hmem).1

theorem Tidy.write (h : run.Tidy) {manager : Manager} (hmanager : manager.Tidy) :
    ({ run with manager := manager } : DeliveryRun).Tidy :=
  ⟨hmanager, h.holders⟩

theorem Tidy.start (h : run.Tidy) {stretch : ManagedSession → Stretch}
    (hstretch : ∀ session, run.manager.sessions.get? sessionId = some session →
      (stretch session).Tidy)
    (hstep : run.start sessionId stretch = some next) : next.Tidy := by
  unfold DeliveryRun.start at hstep
  split at hstep
  · cases hstep
  · split at hstep
    · cases hstep
      exact ⟨h.manager, h.holders⟩
    · next session hget =>
        cases hstep
        exact h.settle sessionId (hstretch session hget)

theorem Tidy.resumed (h : run.Tidy) {call : LockedCall} (hcall : call.Tidy) {answer : LockAnswer}
    {around : Surroundings}
    (hresumed : DeliveryRun.resumed run.manager sessionId call answer around = some stretch) :
    stretch.Tidy := by
  have hm := h.manager
  unfold DeliveryRun.resumed at hresumed
  split at hresumed
  case h_1 request current =>
      split at hresumed
      · obtain ⟨session, hget, rfl⟩ := Option.map_eq_some_iff.mp hresumed
        exact sendSessionMessageLocked_tidy hm (hm.of_session hget) request
      · obtain ⟨callId, -, rfl⟩ := Option.map_eq_some_iff.mp hresumed
        exact withdraw_tidy hm _ trivial
  case h_2 rest caller =>
      cases hresumed
      exact pumpNext_tidy hm
  case h_3 session callId rest caller current =>
      cases hresumed
      split
      · exact pumpCall_tidy hm hcall
      · exact withdraw_tidy hm _ trivial
  case h_4 session callId rest caller =>
      cases hresumed
      split
      · exact ⟨hm, hcall⟩
      · exact handOver_tidy hm
  case h_5 session callId rest caller =>
      cases hresumed
      exact .of (hm.markProcessingAsUncertain ..) trivial
  case h_6 session callId rest caller =>
      cases hresumed
      exact notReady_tidy hm
  case h_7 session callId rest caller current =>
      cases hresumed
      split
      · exact handOver_tidy hm
      · exact withdraw_tidy (hm.rollbackProcessingToPending ..) _ trivial
  case h_8 callId rest caller =>
      cases hresumed
      exact ⟨hm, trivial⟩
  case h_9 callId rest caller =>
      cases hresumed
      exact .of (hm.markProcessingAsUncertain ..) trivial
  case h_10 callId caller =>
      cases hresumed
      exact ⟨hm, trivial⟩
  case h_11 callId caller evidence cancelled =>
      cases hresumed
      exact turnFailed_tidy hm evidence cancelled
  case h_12 callId current =>
      cases hresumed
      split
      · exact ⟨hm, trivial⟩
      · exact withdraw_tidy hm _ trivial
  case h_13 session task callId present =>
      cases hresumed
      split
      · exact ⟨hm, trivial⟩
      · exact retryWithReceipt_tidy hm hcall.1 hcall.2 _
  case h_14 session task callId confirmed =>
      cases hresumed
      obtain ⟨⟨hsession, hnew⟩, htask⟩ := hcall
      split
      · exact ⟨hm, trivial⟩
      · refine .of ?_ trivial
        exact undoRetry_tidy hm session (hsession.undoAccepted hnew)
          fun t ht => (htask t ht).1.undoAccepted (htask t ht).2
  case h_15 session acks =>
      cases hresumed
      exact takeReport_tidy hm hcall acks
  case h_16 => cases hresumed

theorem Tidy.storeRecovery (h : run.Tidy) (index : Nat) (recovery : Recovery) :
    (run.storeRecovery index recovery).Tidy := by
  unfold DeliveryRun.storeRecovery
  split
  · have hwritten : (recovery.write run.manager).Tidy :=
      (h.manager.rollbackProcessingToPending ..).markProcessingAsUncertain ..
    exact ⟨hwritten, h.holders⟩
  · exact ⟨h.manager, h.holders⟩

/-- One step of the delivery service keeps the lists tidy, whatever it marks, when another
service that rewrites a task leaves its lists so. -/
theorem Tidy.step (h : run.Tidy) {op : DeliveryOp}
    (hedit : ∀ task, op = .editTask task → task.toCallLists.Tidy)
    (hstep : run.step op = some next) : next.Tidy := by
  have hm := h.manager
  cases op with
    simp only [DeliveryRun.step] at hstep
  | openSession =>
    split at hstep
    · next hguard =>
        cases hstep
        apply h.write
        apply hm.putSession
        rw [hguard.1]
        exact .empty
    · cases hstep
  | editSession =>
    split at hstep
    · next hsame =>
        cases hstep
        obtain ⟨stored, hget, hlists⟩ := Option.map_eq_some_iff.mp hsame
        apply h.write
        apply hm.putSession
        rw [← hlists]
        exact hm.of_session hget
    · cases hstep
  | editTask task =>
    cases hstep
    exact h.write (hm.putTask (hedit task rfl))
  | send sessionId request =>
    split at hstep
    · cases hstep
      exact ⟨hm, h.holders⟩
    · exact h.start
        (fun session hget => sendSessionMessage_tidy hm (hm.of_session hget) request) hstep
  | resumeCall =>
    exact h.start (fun session _ => resumeExistingCall_tidy hm session) hstep
  | pump =>
    exact h.start (fun _ _ => startPump_tidy hm ..) hstep
  | retry sessionId callId evidence =>
    exact h.start
      (fun session hget => retryUncertainDelivery_tidy hm (hm.of_session hget) evidence) hstep
  | createReport =>
    apply h.start _ hstep
    intro session hget
    exact .of hm (hm.of_session hget)
  | proceed sessionId =>
    obtain ⟨holder, hholder, hmapped⟩ := Option.bind_eq_some_iff.mp hstep
    obtain ⟨stretch, hresumed, rfl⟩ := Option.map_eq_some_iff.mp hmapped
    have hcall := h.holders holder (Table.get?_eq_some.mp hholder).1
    exact h.settle sessionId (h.resumed hcall hresumed)
  | abandon sessionId =>
    split at hstep
    · cases hstep
    · cases hstep
    · cases hstep
      exact h.settle sessionId ⟨hm, trivial⟩
  | recover =>
    split at hstep
    · cases hstep
      exact h
    · split at hstep
      · cases hstep
        exact h
      · split at hstep
        · cases hstep
        · cases hstep
          exact ⟨hm, h.holders⟩
  | recoverChat =>
    split at hstep
    · cases hstep
      exact h.write (hm.recoverChatProcessingViaReceipt ..)
    · cases hstep
  | answerRecovery index =>
    obtain ⟨recovery, -, rfl⟩ := Option.map_eq_some_iff.mp hstep
    exact h.storeRecovery index recovery
  | abandonRecovery =>
    cases hstep
    exact ⟨hm, h.holders⟩
  | expireLeases =>
    cases hstep
    exact h.write (hm.expireProcessingLeases ..)
  | coldStart =>
    split at hstep
    · cases hstep
      exact h.write (hm.recoverUncertainDeliveries ..)
    · cases hstep

end DeliveryRun

end ClaudeHub
