import ClaudeHub.Messaging.Partition
import ClaudeHub.Messaging.RetryAudit

/-! # What a waiting retry can rely on

A terminal's retry waits for the receipt with the records that it has read. It holds the
workspace lock meanwhile, so only the writers without that lock come in between: they keep a
call that is uncertain and nothing else as it is, and they keep its message.
-/

namespace ClaudeHub

open StepSystem

namespace CallLists

variable {lists : CallLists} {callId : CallId}

section

variable (h : lists.UncertainOnly callId)
include h

theorem UncertainOnly.markUncertain (callIds : List CallId) :
    (lists.markUncertain callIds).UncertainOnly callId := by
  obtain ⟨huncertain, hpending, hprocessing, hdelivered⟩ := h
  refine ⟨List.mem_addNew.mpr (.inl huncertain), hpending, ?_, hdelivered⟩
  exact fun hmem => hprocessing (List.mem_without.mp hmem).1

theorem UncertainOnly.rollback (callIds : List CallId) :
    (lists.rollback callIds).UncertainOnly callId := by
  obtain ⟨huncertain, hpending, hprocessing, hdelivered⟩ := h
  refine ⟨huncertain, fun hmem => ?_, fun hmem => ?_, hdelivered⟩
  · rcases List.mem_addNew.mp hmem with hqueued | hback
    · exact hpending hqueued
    · exact hprocessing (List.mem_within.mp hback).1
  · exact hprocessing (List.mem_without.mp hmem).1

theorem UncertainOnly.queueFirst {callIds : List CallId} (hnot : callId ∉ callIds) :
    (lists.queueFirst callIds).UncertainOnly callId := by
  obtain ⟨huncertain, hpending, hprocessing, hdelivered⟩ := h
  refine ⟨huncertain, fun hmem => ?_, hprocessing, hdelivered⟩
  rcases List.mem_append.mp hmem with hfirst | hqueued
  · exact hnot hfirst
  · exact hpending (List.mem_without.mp hqueued).1

theorem UncertainOnly.rollbackFirst (callIds : List CallId) :
    (lists.rollbackFirst callIds).UncertainOnly callId :=
  (h.rollback _).queueFirst fun hmem => h.2.2.1 (List.mem_within.mp hmem).1

end

end CallLists

namespace Manager

variable {manager middle after : Manager} {callId : CallId} {sessionId : SessionId}
  {session : ManagedSession}

theorem payload_of_get? (hget : manager.sessions.get? sessionId = some session) :
    manager.payload sessionId callId = session.pendingMessages.lookup callId := by
  simp [payload, hget]

@[simp] theorem payload_mirror (manager : Manager) (task : Option WorkspaceTask)
    (move : CallLists → CallLists) (k : SessionId) (callId : CallId) :
    (manager.mirror task move).payload k callId = manager.payload k callId := by
  simp only [payload, sessions_mirror]

theorem payload_putSession
    (hkept : manager.payload session.id callId = session.pendingMessages.lookup callId)
    (k : SessionId) : (manager.putSession session).payload k callId = manager.payload k callId := by
  unfold payload putSession at *
  rw [Table.get?_insert]
  by_cases hk : k = session.id
  · subst hk
    simp [hkept]
  · simp [hk]

theorem payload_relisted {lists : CallLists} {claimedAt : Dict CallId Time}
    (hget : manager.sessions.get? sessionId = some session) (k : SessionId) :
    (manager.putSession { session with
      toCallLists := lists, processingCallIdsAt := claimedAt }).payload k callId
      = manager.payload k callId := by
  apply payload_putSession
  have hid : session.id = sessionId := Table.key_of_get? hget
  simp only [hid, payload_of_get? hget]

theorem payload_markProcessingAsUncertain (manager : Manager) (sessionId : SessionId)
    (callIds : List CallId) (k : SessionId) :
    (manager.markProcessingAsUncertain sessionId callIds).payload k callId
      = manager.payload k callId := by
  unfold markProcessingAsUncertain
  split
  · rfl
  · split
    · rfl
    · next session hget =>
        rw [payload_mirror]
        exact payload_relisted hget k

theorem payload_rollbackProcessingToPending (manager : Manager) (taskId : Option TaskId)
    (sessionId : SessionId) (callIds : List CallId) (k : SessionId) :
    (manager.rollbackProcessingToPending taskId sessionId callIds).payload k callId
      = manager.payload k callId := by
  unfold rollbackProcessingToPending
  split
  · rfl
  · simp only [sessions_mirror]
    split
    · exact payload_mirror ..
    · next session hget =>
        split
        · exact payload_mirror ..
        · rw [← payload_mirror manager (manager.task? taskId) (·.rollback callIds) k callId]
          apply payload_relisted
          rw [sessions_mirror]
          exact hget

theorem payload_rollbackChatProcessingToPending (manager : Manager) (sessionId : SessionId)
    (callIds : List CallId) (k : SessionId) :
    (manager.rollbackChatProcessingToPending sessionId callIds).payload k callId
      = manager.payload k callId := by
  unfold rollbackChatProcessingToPending
  split
  · rfl
  · next session hget =>
      simp only
      split
      · exact payload_rollbackProcessingToPending ..
      · next rolled hrolled =>
          rw [payload_mirror, ← payload_rollbackProcessingToPending manager session.taskId sessionId
            (session.processingCallIds.within callIds) k]
          exact payload_relisted hrolled k

def TasksKeep (callId : CallId) (before after : Manager) : Prop :=
  ∀ taskId stored', after.tasks.get? taskId = some stored' →
    ∃ stored, before.tasks.get? taskId = some stored
      ∧ (stored.UncertainOnly callId → stored'.UncertainOnly callId)

theorem TasksKeep.of_eq (h : after.tasks = manager.tasks) : TasksKeep callId manager after := by
  intro taskId stored' hget
  rw [h] at hget
  exact ⟨stored', hget, fun huncertain => huncertain⟩

theorem TasksKeep.trans (h : TasksKeep callId manager middle)
    (h' : TasksKeep callId middle after) : TasksKeep callId manager after := by
  intro taskId stored' hget
  obtain ⟨between, hbetween, hlast⟩ := h' taskId stored' hget
  obtain ⟨stored, hstored, hfirst⟩ := h taskId between hbetween
  exact ⟨stored, hstored, fun huncertain => hlast (hfirst huncertain)⟩

theorem TasksKeep.putSession (h : TasksKeep callId manager middle) (session : ManagedSession) :
    TasksKeep callId manager (middle.putSession session) :=
  h.trans (.of_eq rfl)

theorem TasksKeep.mirror (h : TasksKeep callId manager middle) (taskId : Option TaskId)
    {move : CallLists → CallLists}
    (hmove : ∀ lists : CallLists, lists.UncertainOnly callId → (move lists).UncertainOnly callId) :
    TasksKeep callId manager (middle.mirror (middle.task? taskId) move) := by
  refine h.trans fun k stored' hget => ?_
  cases htask : middle.task? taskId with
  | none =>
    rw [htask] at hget
    exact ⟨stored', hget, fun huncertain => huncertain⟩
  | some task =>
    rw [htask] at hget
    simp only [Manager.mirror, putTask, Table.get?_insert] at hget
    have hstored : middle.tasks.get? task.id = some task := by
      obtain ⟨id, -, hid⟩ := Option.bind_eq_some_iff.mp htask
      rw [Table.key_of_get? hid]
      exact hid
    split at hget
    · next hk =>
        cases hget
        exact ⟨task, hk ▸ hstored, hmove task.toCallLists⟩
    · exact ⟨stored', hget, fun huncertain => huncertain⟩

/-! ## Writers without the workspace lock -/

/-- A write that keeps every call of this id that is uncertain and nothing else. -/
structure KeepsUncertain (callId : CallId) (before after : Manager) : Prop where
  lists : ∀ k lists, before.lists k = some lists → lists.UncertainOnly callId →
    ∃ lists', after.lists k = some lists' ∧ lists'.UncertainOnly callId
  payload : ∀ k, after.payload k callId = before.payload k callId
  tasks : TasksKeep callId before after

namespace KeepsUncertain

theorem refl (callId : CallId) (manager : Manager) : KeepsUncertain callId manager manager where
  lists _ lists hlists h := ⟨lists, hlists, h⟩
  payload _ := rfl
  tasks := .of_eq rfl

theorem trans (h : KeepsUncertain callId manager middle)
    (h' : KeepsUncertain callId middle after) : KeepsUncertain callId manager after where
  lists k lists hlists hold := by
    obtain ⟨between, hbetween, hkept⟩ := h.lists k lists hlists hold
    exact h'.lists k between hbetween hkept
  payload k := (h'.payload k).trans (h.payload k)
  tasks := h.tasks.trans h'.tasks

theorem of_lists {f : CallLists → CallLists}
    (hf : ∀ lists : CallLists, lists.UncertainOnly callId → (f lists).UncertainOnly callId)
    (hlists : ∀ k, after.lists k
      = if k = sessionId then (manager.lists sessionId).map f else manager.lists k)
    (hpayload : ∀ k, after.payload k callId = manager.payload k callId)
    (htasks : TasksKeep callId manager after) : KeepsUncertain callId manager after where
  lists k lists hget hold := by
    rw [hlists]
    by_cases hk : k = sessionId
    · subst hk
      exact ⟨f lists, by simp [hget], hf lists hold⟩
    · exact ⟨lists, by simp [hk, hget], hold⟩
  payload := hpayload
  tasks := htasks

theorem markProcessingAsUncertain (manager : Manager) (sessionId : SessionId)
    (callIds : List CallId) :
    KeepsUncertain callId manager (manager.markProcessingAsUncertain sessionId callIds) := by
  refine .of_lists (fun lists h => h.markUncertain callIds)
    (lists_markProcessingAsUncertain manager sessionId callIds)
    (payload_markProcessingAsUncertain manager sessionId callIds) ?_
  unfold Manager.markProcessingAsUncertain
  split
  · exact .of_eq rfl
  · split
    · exact .of_eq rfl
    · next session hget =>
        have hsame : TasksKeep callId manager manager := .of_eq rfl
        exact (hsame.putSession _).mirror session.taskId fun lists h => h.markUncertain callIds

theorem rollbackProcessingToPending (manager : Manager) (taskId : Option TaskId)
    (sessionId : SessionId) (callIds : List CallId) :
    KeepsUncertain callId manager
      (manager.rollbackProcessingToPending taskId sessionId callIds) := by
  refine .of_lists (fun lists h => h.rollback callIds)
    (lists_rollbackProcessingToPending manager taskId sessionId callIds)
    (payload_rollbackProcessingToPending manager taskId sessionId callIds) ?_
  unfold Manager.rollbackProcessingToPending
  have hmirror : TasksKeep callId manager
      (manager.mirror (manager.task? taskId) (·.rollback callIds)) :=
    (TasksKeep.of_eq rfl).mirror taskId fun lists h => h.rollback callIds
  split
  · exact .of_eq rfl
  · simp only
    split
    · exact hmirror
    · split
      · exact hmirror
      · exact hmirror.putSession _

theorem rollbackChatProcessingToPending (manager : Manager) (sessionId : SessionId)
    (callIds : List CallId) :
    KeepsUncertain callId manager (manager.rollbackChatProcessingToPending sessionId callIds) := by
  refine .of_lists (fun lists h => h.rollbackFirst callIds)
    (lists_rollbackChatProcessingToPending manager sessionId callIds)
    (payload_rollbackChatProcessingToPending manager sessionId callIds) ?_
  unfold Manager.rollbackChatProcessingToPending
  split
  · exact .of_eq rfl
  · next session hget =>
      have hrolled : TasksKeep callId manager (manager.rollbackProcessingToPending session.taskId
          sessionId (session.processingCallIds.within callIds)) :=
        (rollbackProcessingToPending ..).tasks
      simp only
      split
      · exact hrolled
      · next rolled hget' =>
          refine (hrolled.putSession _).mirror rolled.taskId fun lists h => ?_
          exact h.queueFirst fun hmem => h.2.1 (List.mem_within.mp hmem).2

theorem expireProcessingLeases (manager : Manager) (sessionId : SessionId) (now : Time) :
    KeepsUncertain callId manager (manager.expireProcessingLeases sessionId now) := by
  unfold Manager.expireProcessingLeases
  split
  · exact .refl ..
  · split
    · exact markProcessingAsUncertain ..
    · exact .refl ..

theorem recoverChatProcessingViaReceipt (manager : Manager) (sessionId : SessionId)
    (evidence : CallId → ChatEvidence) :
    KeepsUncertain callId manager
      (manager.recoverChatProcessingViaReceipt sessionId evidence) := by
  unfold Manager.recoverChatProcessingViaReceipt
  split
  · exact .refl ..
  · simp only
    split
    · exact markProcessingAsUncertain ..
    · exact (rollbackChatProcessingToPending ..).trans (markProcessingAsUncertain ..)

theorem write (recovery : Recovery) (manager : Manager) :
    KeepsUncertain callId manager (recovery.write manager) :=
  (rollbackProcessingToPending ..).trans (markProcessingAsUncertain ..)

theorem putSession {session : ManagedSession}
    (hlists : manager.lists session.id = some session.toCallLists)
    (hpayload : manager.payload session.id callId = session.pendingMessages.lookup callId) :
    KeepsUncertain callId manager (manager.putSession session) where
  lists k lists hget hold := by
    rw [lists_putSession]
    by_cases hk : k = session.id
    · subst hk
      rw [hlists] at hget
      cases hget
      exact ⟨session.toCallLists, by simp, hold⟩
    · exact ⟨lists, by simp [hk, hget], hold⟩
  payload := payload_putSession hpayload
  tasks := .of_eq rfl

theorem putTask {task : WorkspaceTask}
    (hlists : (manager.tasks.get? task.id).map WorkspaceTask.toCallLists = some task.toCallLists) :
    KeepsUncertain callId manager (manager.putTask task) where
  lists k lists hget hold := ⟨lists, hget, hold⟩
  payload _ := rfl
  tasks := by
    intro k stored' hget
    simp only [Manager.putTask, Table.get?_insert] at hget
    split at hget
    · next hk =>
        cases hget
        obtain ⟨stored, hstored, hsame⟩ := Option.map_eq_some_iff.mp hlists
        refine ⟨stored, hk ▸ hstored, fun huncertain => ?_⟩
        rw [← hsame]
        exact huncertain
    · exact ⟨stored', hget, fun huncertain => huncertain⟩

end KeepsUncertain

end Manager

/-! ## Who waits for a receipt -/

def Next.asksReceipt : Next → Bool
  | .waits (.querying _ _ _) => true
  | _ => false

section

variable (manager : Manager) (session : ManagedSession) (sessionId : SessionId) (callId : CallId)
  (rest : List CallId) (caller : PumpCaller) (around : Surroundings) (request : SendRequest)

@[simp] theorem asksReceipt_startPump :
    (manager.startPump sessionId caller).next.asksReceipt = false := by
  unfold Manager.startPump
  split <;> rfl

@[simp] theorem asksReceipt_pumpCall :
    (manager.pumpCall session callId rest caller around).next.asksReceipt = false := by
  unfold Manager.pumpCall
  split
  · rfl
  · simp only
    split
    · rfl
    · split
      · rfl
      · split <;> rfl

@[simp] theorem asksReceipt_pumpNext :
    (manager.pumpNext sessionId rest caller around).next.asksReceipt = false := by
  unfold Manager.pumpNext
  split
  · rfl
  · rfl
  · split
    · rfl
    · split
      · rfl
      · exact asksReceipt_pumpCall ..

@[simp] theorem asksReceipt_handOver :
    (manager.handOver session callId rest caller).next.asksReceipt = false := by
  unfold Manager.handOver
  split <;> rfl

@[simp] theorem asksReceipt_notReady :
    (manager.notReady session callId rest caller).next.asksReceipt = false := by
  unfold Manager.notReady
  split <;> rfl

@[simp] theorem asksReceipt_turnFailed (evidence : ChatEvidence) (cancelled : Bool) :
    (manager.turnFailed sessionId callId caller evidence cancelled).next.asksReceipt = false := by
  unfold Manager.turnFailed
  split
  · simp only
    split <;> rfl
  · rfl

@[simp] theorem asksReceipt_resendCall :
    (manager.resendCall session callId).next.asksReceipt = false := by
  unfold Manager.resendCall
  split
  · rfl
  · split
    · exact asksReceipt_startPump ..
    · split <;> rfl

@[simp] theorem asksReceipt_enqueueCall :
    (manager.enqueueCall session request callId around).next.asksReceipt = false := by
  unfold Manager.enqueueCall
  split
  · rfl
  · exact asksReceipt_startPump ..

@[simp] theorem asksReceipt_sendSessionMessageLocked :
    (manager.sendSessionMessageLocked session request around).next.asksReceipt = false := by
  unfold Manager.sendSessionMessageLocked
  split
  · rfl
  split
  · rfl
  split
  · split
    · rfl
    · exact asksReceipt_resendCall ..
  · split
    · exact asksReceipt_enqueueCall ..
    · split
      · split
        · rfl
        · simp only
          split
          · rfl
          · exact asksReceipt_resendCall ..
      · split <;> rfl

@[simp] theorem asksReceipt_sendSessionMessage :
    (manager.sendSessionMessage session request around).next.asksReceipt = false := by
  unfold Manager.sendSessionMessage
  split
  · split
    · rfl
    · exact asksReceipt_sendSessionMessageLocked ..
  · exact asksReceipt_sendSessionMessageLocked ..

@[simp] theorem asksReceipt_resumeExistingCall :
    (manager.resumeExistingCall session callId).next.asksReceipt = false := by
  unfold Manager.resumeExistingCall
  split
  · rfl
  · split
    · exact asksReceipt_startPump ..
    · split <;> rfl

@[simp] theorem asksReceipt_retryWithReceipt (task : Option WorkspaceTask) (present : Bool) :
    (manager.retryWithReceipt session task callId present around).next.asksReceipt = false := by
  unfold Manager.retryWithReceipt
  cases present with
  | true =>
      simp only [if_true]
      split
      · rfl
      · split
        · rfl
        · split <;> rfl
  | false =>
      simp only [Bool.false_eq_true, if_false]
      split
      · rfl
      · exact asksReceipt_startPump ..

@[simp] theorem asksReceipt_takeReport (report : Manager.ReportAcks) :
    (manager.takeReport session report).next.asksReceipt = false := by
  unfold Manager.takeReport
  simp only
  split <;> rfl

theorem asksReceipt_resumed {call : LockedCall} {answer : LockAnswer} {stretch : Stretch}
    (h : DeliveryRun.resumed manager sessionId call answer around = some stretch) :
    stretch.next.asksReceipt = false := by
  unfold DeliveryRun.resumed at h
  split at h
  case h_1 request current =>
      split at h
      · obtain ⟨session, -, rfl⟩ := Option.map_eq_some_iff.mp h
        exact asksReceipt_sendSessionMessageLocked ..
      · obtain ⟨callId, -, rfl⟩ := Option.map_eq_some_iff.mp h
        rfl
  case h_3 session callId rest caller current =>
      cases h
      split
      · exact asksReceipt_pumpCall ..
      · rfl
  case h_4 session callId rest caller =>
      cases h
      split
      · rfl
      · exact asksReceipt_handOver ..
  case h_7 session callId rest caller current =>
      cases h
      split
      · exact asksReceipt_handOver ..
      · rfl
  case h_12 callId current =>
      cases h
      split <;> rfl
  case h_13 session task callId present =>
      cases h
      split
      · rfl
      · exact asksReceipt_retryWithReceipt ..
  case h_14 session task callId confirmed =>
      cases h
      split <;> rfl
  case h_16 => cases h
  all_goals
    cases h
    first
      | rfl
      | exact asksReceipt_pumpNext ..
      | exact asksReceipt_notReady ..
      | exact asksReceipt_turnFailed ..
      | exact asksReceipt_takeReport ..

end

/-- The records that a retry has read, against the manager as it is now. -/
structure Retry.Waits (retry : Retry) (manager : Manager) : Prop where
  message : (retry.session.pendingMessages.lookup retry.callId).isSome
  payload : manager.payload retry.session.id retry.callId
    = retry.session.pendingMessages.lookup retry.callId
  session : retry.session.UncertainOnly retry.callId → ∃ lists,
    manager.lists retry.session.id = some lists ∧ lists.UncertainOnly retry.callId
  task : ∀ task ∈ retry.task, task.UncertainOnly retry.callId → ∀ stored,
    manager.tasks.get? task.id = some stored → stored.UncertainOnly retry.callId

namespace Retry.Waits

variable {retry : Retry} {manager after : Manager}

theorem keep (h : retry.Waits manager) (hkeeps : manager.KeepsUncertain retry.callId after) :
    retry.Waits after where
  message := h.message
  payload := (hkeeps.payload _).trans h.payload
  session hold := by
    obtain ⟨lists, hlists, hkept⟩ := h.session hold
    exact hkeeps.lists _ lists hlists hkept
  task task htask hold stored' hget := by
    obtain ⟨stored, hstored, hkept⟩ := hkeeps.tasks task.id stored' hget
    exact hkept (h.task task htask hold stored hstored)

theorem of_read {sessionId : SessionId} {session : ManagedSession} {task : Option WorkspaceTask}
    {callId : CallId} (hget : manager.sessions.get? sessionId = some session)
    (hmessage : session.pendingMessages.lookup callId ≠ none)
    (htask : manager.retryTask session callId = .ok task) :
    (⟨session, task, callId⟩ : Retry).Waits manager := by
  have hid : session.id = sessionId := Table.key_of_get? hget
  constructor
  · exact Option.isSome_iff_ne_none.mpr hmessage
  · show manager.payload session.id callId = _
    rw [hid]
    exact Manager.payload_of_get? hget
  · intro hold
    refine ⟨session.toCallLists, ?_, hold⟩
    show manager.lists session.id = _
    rw [hid]
    exact Manager.lists_of_get? hget
  · rintro read hread hold stored hstored
    unfold Manager.retryTask at htask
    split at htask
    · cases htask
      cases hread
    · next taskId hbound =>
        split at htask
        · cases htask
        · next found hfound =>
            split at htask
            · cases htask
            · split at htask
              · cases htask
              · cases htask
                cases hread
                rw [Table.key_of_get? hfound, hfound] at hstored
                cases hstored
                exact hold

end Retry.Waits

namespace DeliveryRun

def RetriesWait (run : DeliveryRun) : Prop :=
  ∀ holder ∈ run.holders.rows, ∀ session task callId, holder.call = .querying session task callId →
    session.id = holder.sessionId ∧ (⟨session, task, callId⟩ : Retry).Waits run.manager

variable {run next : DeliveryRun} {sessionId : SessionId} {stretch : Stretch} {manager : Manager}

theorem RetriesWait.write (h : run.RetriesWait)
    (hkeeps : ∀ callId, run.manager.KeepsUncertain callId manager) :
    { run with manager := manager }.RetriesWait := by
  intro holder hholder session task callId hcall
  obtain ⟨hid, hwaits⟩ := h holder hholder session task callId hcall
  exact ⟨hid, hwaits.keep (hkeeps callId)⟩

theorem RetriesWait.of_idle (h : run.holders.rows = []) : run.RetriesWait := by
  intro holder hholder
  rw [h] at hholder
  cases hholder

theorem retriesWait_settle (hfree : run.workspaceFree sessionId = true)
    (hnext : ∀ session task callId, stretch.next = .waits (.querying session task callId) →
      session.id = sessionId ∧ (⟨session, task, callId⟩ : Retry).Waits stretch.manager) :
    (run.settle sessionId stretch).RetriesWait := by
  intro holder hholder session task callId hcall
  rw [manager_settle]
  rcases mem_holders_settle hholder with ⟨rfl, hwaits⟩ | ⟨hold, hne⟩
  · rw [hcall] at hwaits
    exact hnext session task callId hwaits
  · have hsame := List.all_eq_true.mp hfree holder hold
    exact absurd (of_decide_eq_true hsame) hne

theorem retriesWait_settle_quiet (hfree : run.workspaceFree sessionId = true)
    (hquiet : stretch.next.asksReceipt = false) : (run.settle sessionId stretch).RetriesWait := by
  refine retriesWait_settle hfree fun session task callId hwaits => ?_
  rw [hwaits] at hquiet
  cases hquiet

end DeliveryRun

end ClaudeHub
