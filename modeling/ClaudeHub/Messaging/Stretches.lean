import ClaudeHub.Messaging.Settled

/-! # What one stretch preserves

A stretch of a lock holder is `Sound` when it leaves the other outboxes alone, settles
its own against the history it extends, and waits only with records that are settled
themselves. The record kept across a wait stays settled because nobody else may queue or
acknowledge while the lock is held.
-/

namespace ClaudeHub

/-- The local variables of a lock holder agree with the history. -/
def LockedCall.Consistent (history : DeliveryHistory) (sessionId : SessionId) :
    LockedCall → Prop
  | .admitting request => ∀ callId, request.callId = some callId → callId.isRecoveryWake = true
  | .pumping _ _ | .turning _ _ => True
  | .allowing session callId _ _ => session.id = sessionId
      ∧ Settled history sessionId session.toCallLists ∧ callId ∈ session.pendingCallIds
      ∧ callId.isRecoveryWake = true
  | .readying session callId _ _ =>
    session.id = sessionId ∧ (sessionId, callId) ∈ history.enqueued
  | .rechecking session callId _ _ => session.id = sessionId
      ∧ (sessionId, callId) ∈ history.enqueued ∧ callId.isRecoveryWake = true
  | .submitting callId _ _ => (sessionId, callId) ∈ history.enqueued
  | .withdrawing callId => callId.isRecoveryWake = true
  | .querying session _ callId => session.id = sessionId
      ∧ Settled history sessionId session.toCallLists ∧ callId ∈ session.uncertainCallIds
  | .nudging session _ callId => session.id = sessionId
      ∧ Settled history sessionId session.toCallLists ∧ callId ∈ session.processingCallIds
  | .reporting session => session.id = sessionId
      ∧ Settled history sessionId session.toCallLists

def Next.Consistent (history : DeliveryHistory) (sessionId : SessionId) : Next → Prop
  | .waits call => call.Consistent history sessionId
  | .ends _ => True

structure Stretch.Sound (history : DeliveryHistory) (sessionId : SessionId) (manager : Manager)
    (stretch : Stretch) : Prop where
  others : ∀ k, k ≠ sessionId → stretch.manager.lists k = manager.lists k
  settled : SettledAt (history.extend sessionId stretch) stretch.manager sessionId
  next : stretch.next.Consistent (history.extend sessionId stretch) sessionId
  wakes : ∀ callId ∈ stretch.retired, callId.isRecoveryWake = true

section

variable {history : DeliveryHistory} {sessionId : SessionId} {manager after : Manager}
  {session : ManagedSession} {callId : CallId} {rest : List CallId} {caller : PumpCaller}
  {next : Next} {around : Surroundings}

@[simp] theorem extend_quiet (history : DeliveryHistory) (sessionId : SessionId)
    (manager : Manager) (next : Next) :
    history.extend sessionId ⟨manager, next, [], [], []⟩ = history := by
  simp [DeliveryHistory.extend]

theorem Stretch.Sound.quiet (hs : SettledAt history manager sessionId)
    (hkeeps : KeepsOthers history sessionId manager after) (hnext : next.Consistent history sessionId) :
    Stretch.Sound history sessionId manager ⟨after, next, [], [], []⟩ where
  others := hkeeps.others
  settled := by
    rw [extend_quiet]
    exact hkeeps.settled hs
  next := by
    rw [extend_quiet]
    exact hnext
  wakes := by simp

theorem Stretch.Sound.idle (hs : SettledAt history manager sessionId)
    (hnext : next.Consistent history sessionId) :
    Stretch.Sound history sessionId manager ⟨manager, next, [], [], []⟩ :=
  .quiet hs (.refl ..) hnext

theorem Stretch.Sound.afterKeeps {stretch : Stretch} (hkeeps : KeepsOthers history sessionId manager after)
    (h : Stretch.Sound history sessionId after stretch) :
    Stretch.Sound history sessionId manager stretch where
  others k hk := (h.others k hk).trans (hkeeps.others k hk)
  settled := h.settled
  next := h.next
  wakes := h.wakes

theorem startPump_next (manager : Manager) (sessionId : SessionId) (caller : PumpCaller)
    (history : DeliveryHistory) (k : SessionId) :
    (manager.startPump sessionId caller).next.Consistent history k := by
  unfold Manager.startPump
  split <;> exact trivial

theorem startPump_eq (manager : Manager) (sessionId : SessionId) (caller : PumpCaller) :
    manager.startPump sessionId caller
      = ⟨manager, (manager.startPump sessionId caller).next, [], [], []⟩ := by
  unfold Manager.startPump
  split <;> rfl

section

variable (hs : SettledAt history manager sessionId)
include hs

theorem startPump_sound (caller : PumpCaller) (k : SessionId) :
    Stretch.Sound history sessionId manager (manager.startPump k caller) := by
  rw [startPump_eq]
  exact .idle hs (startPump_next manager k caller history sessionId)

theorem SettledAt.of_get? (hget : manager.sessions.get? sessionId = some session) :
    session.id = sessionId ∧ Settled history sessionId session.toCallLists :=
  ⟨Table.key_of_get? hget, hs _ (Manager.lists_of_get? hget)⟩

theorem pumpCall_sound (hid : session.id = sessionId)
    (hsession : Settled history sessionId session.toCallLists)
    (hmem : callId ∈ session.pendingCallIds) : Stretch.Sound history sessionId manager
      (manager.pumpCall session callId rest caller around) := by
  subst hid
  unfold Manager.pumpCall
  split
  · exact .idle hs trivial
  · simp only
    split
    · refine .quiet hs (.mirror (.putSession ?_ (hsession.failPending hmem)) _ _) trivial
      rfl
    · have hclaimed := (@KeepsOthers.putSession history session.id manager
        { session with
          toCallLists := session.claim callId
          processingCallIdsAt := session.processingCallIdsAt.set callId around.now }
        rfl (hsession.claim hmem)).mirror
          ((manager.task? session.taskId).filter fun task => callId ∈ task.pendingCallIds)
          (·.claim callId)
      split
      · split
        · exact .quiet hs (hclaimed.trans (.mirror (.putSession rfl hsession) _ _)) trivial
        · exact .quiet hs hclaimed trivial
      · split
        · refine .quiet hs (hclaimed.trans (.markInFlight fun lists hlists c hc => ?_)) trivial
          rw [Manager.lists_mirror, Manager.lists_putSession, if_pos rfl] at hlists
          cases hlists
          obtain rfl := List.mem_singleton.mp hc
          exact List.mem_addNew.mpr (.inr (List.mem_singleton_self _))
        · exact .quiet hs hclaimed ⟨rfl, hsession.enqueued_of_mem .pending hmem⟩

theorem pumpNext_sound : Stretch.Sound history sessionId manager
      (manager.pumpNext sessionId rest caller around) := by
  unfold Manager.pumpNext
  split
  · exact .idle hs trivial
  · exact .idle hs trivial
  · next callId rest session hget =>
      obtain ⟨hid, hsession⟩ := hs.of_get? hget
      split
      · exact .idle hs trivial
      · next hpending =>
          have hmem : callId ∈ session.pendingCallIds := by simpa using hpending
          split
          · next hwake => exact .idle hs ⟨hid, hsession, hmem, hwake⟩
          · exact pumpCall_sound hs hid hsession hmem

theorem handOver_sound (henqueued : (sessionId, callId) ∈ history.enqueued) :
    Stretch.Sound history sessionId manager (manager.handOver session callId rest caller) := by
  unfold Manager.handOver
  split
  · exact .idle hs trivial
  · exact .idle hs henqueued

theorem notReady_sound (hid : session.id = sessionId) : Stretch.Sound history sessionId manager
      (manager.notReady session callId rest caller) := by
  subst hid
  unfold Manager.notReady
  split
  · exact .quiet hs (.rollbackChat _) trivial
  · exact .quiet hs (.rollback _ _) trivial

theorem turnFailed_sound (evidence : ChatEvidence) (cancelled : Bool) :
    Stretch.Sound history sessionId manager
      (manager.turnFailed sessionId callId caller evidence cancelled) := by
  unfold Manager.turnFailed
  split
  · simp only
    split
    · next hwake => exact .quiet hs (.rollbackChat _) hwake
    · exact .quiet hs (.rollbackChat _) trivial
  · simp only
    split
    · next hmark =>
        refine .quiet hs (.markInFlight fun lists hlists c hc => ?_) trivial
        obtain rfl := List.mem_singleton.mp hc
        exact Manager.mem_of_isIn (Bool.and_eq_true_iff.mp hmark).2 hlists
    · exact .idle hs trivial

theorem withdraw_sound (hwake : callId.isRecoveryWake = true) (unsent : Bool)
    (hnext : ∀ history, next.Consistent history sessionId) : Stretch.Sound history sessionId manager
      (manager.withdraw sessionId callId unsent next) := by
  cases hget : manager.sessions.get? sessionId with
  | none =>
    have hidle : manager.withdraw sessionId callId unsent next = ⟨manager, next, [], [], []⟩ := by
      simp [Manager.withdraw, Manager.retireLivenessDelivery, Manager.withdraws, hget]
    rw [hidle]
    exact .idle hs (hnext history)
  | some session =>
    obtain ⟨hid, hsession⟩ := hs.of_get? hget
    subst hid
    by_cases hblocked : callId ∈ session.processingCallIds ++ session.uncertainCallIds
        ++ session.deliveredCallIds ∨ (session.sessionKind = .chat && !unsent) = true
    · have hidle : manager.withdraw session.id callId unsent next
          = ⟨manager, next, [], [], []⟩ := by
        simp only [Manager.withdraw, Manager.retireLivenessDelivery, Manager.withdraws, hget]
        rcases hblocked with h | h
        · simp only [h, if_true]
        · simp only [h, if_true, ite_self]
      rw [hidle]
      exact .idle hs (hnext history)
    · obtain ⟨hfree, hkind⟩ := not_or.mp hblocked
      constructor
      · intro k hk
        simp only [Manager.withdraw, Manager.retireLivenessDelivery, hget, if_neg hfree,
          if_neg hkind, Manager.lists_mirror, Manager.lists_putSession, hk, if_false]
      · intro lists hlists
        simp only [Manager.withdraw, Manager.retireLivenessDelivery, hget, if_neg hfree,
          if_neg hkind, Manager.lists_mirror, Manager.lists_putSession, if_true] at hlists
        cases hlists
        have hretired : (manager.withdraw session.id callId unsent next).retired
            = session.pendingCallIds.within [callId] := by
          simp only [Manager.withdraw, Manager.withdraws, hget, if_neg hfree, if_neg hkind]
        exact hsession.retire hretired rfl rfl
      · exact hnext _
      · intro c hc
        simp only [Manager.withdraw, Manager.withdraws, hget, if_neg hfree, if_neg hkind] at hc
        obtain rfl := List.mem_singleton.mp (List.mem_within.mp hc).2
        exact hwake

theorem enqueueCall_sound (hid : session.id = sessionId)
    (hsession : Settled history sessionId session.toCallLists) (hnew : session.held callId = 0)
    (request : SendRequest) : Stretch.Sound history sessionId manager
      (manager.enqueueCall session request callId around) := by
  subst hid
  unfold Manager.enqueueCall
  split
  · exact .idle hs trivial
  · simp only
    rw [startPump_eq]
    constructor
    · intro k hk
      simp [Manager.lists_putSession, hk]
    · intro lists hlists
      rw [Manager.lists_putSession, if_pos rfl] at hlists
      cases hlists
      exact hsession.enqueue hnew rfl rfl
    · exact startPump_next ..
    · simp

theorem resendCall_sound (session : ManagedSession) (callId : CallId) :
    Stretch.Sound history sessionId manager (manager.resendCall session callId) := by
  unfold Manager.resendCall
  split
  · exact .idle hs trivial
  · split
    · exact startPump_sound hs _ _
    · split <;> exact .idle hs trivial

theorem sendSessionMessageLocked_sound (hget : manager.sessions.get? sessionId = some session)
    (request : SendRequest) : Stretch.Sound history sessionId manager
      (manager.sendSessionMessageLocked session request around) := by
  obtain ⟨hid, hsession⟩ := hs.of_get? hget
  unfold Manager.sendSessionMessageLocked
  split
  · exact .idle hs trivial
  split
  · exact .idle hs trivial
  next callId _ =>
    split
    · split
      · exact .idle hs trivial
      · exact resendCall_sound hs _ _
    · split
      · next hstate =>
          have hnew : session.held callId = 0 := by
            have hnot : ¬ 0 < session.held callId := fun hheld => by
              simp [CallLists.inAnyState_iff.mpr hheld] at hstate
            omega
          exact enqueueCall_sound hs hid hsession hnew request
      · split
        · split
          · exact .idle hs trivial
          · -- The fingerprint is filled in; the lists are those that were read.
            have hfilled : ∀ filled : ManagedSession, filled.id = session.id →
                filled.toCallLists = session.toCallLists →
                KeepsOthers history sessionId manager (manager.putSession filled) := by
              intro filled hsame hlists
              exact .putSession (hsame.trans hid) (hlists ▸ hsession)
            simp only
            split
            · exact .quiet hs (hfilled _ rfl rfl) trivial
            · refine .afterKeeps ?_ (resendCall_sound ?_ _ _)
              · exact hfilled _ rfl rfl
              · exact KeepsOthers.settled (hfilled _ (by rfl) (by rfl)) hs
        · split <;> exact .idle hs trivial

theorem sendSessionMessage_sound (hget : manager.sessions.get? sessionId = some session)
    (request : SendRequest) : Stretch.Sound history sessionId manager
      (manager.sendSessionMessage session request around) := by
  unfold Manager.sendSessionMessage
  split
  · next callId hcall =>
      split
      · next hwake =>
          refine .idle hs fun c hc => ?_
          cases hcall.symm.trans hc
          exact (Bool.and_eq_true_iff.mp hwake).2
      · exact sendSessionMessageLocked_sound hs hget request
  · exact sendSessionMessageLocked_sound hs hget request

theorem resumeExistingCall_sound (session : ManagedSession) (callId : CallId) :
    Stretch.Sound history sessionId manager (manager.resumeExistingCall session callId) := by
  unfold Manager.resumeExistingCall
  split
  · exact .idle hs trivial
  · split
    · exact startPump_sound hs _ _
    · split <;> exact .idle hs trivial

end

theorem undoRetry_keeps (hid : session.id = sessionId) {undo : CallLists → CallLists}
    (hundone : Settled history sessionId (undo session.toCallLists))
    (task : Option WorkspaceTask) :
    KeepsOthers history sessionId manager (manager.undoRetry session task undo) := by
  refine .mirror (.putSession ?_ hundone) _ _
  exact hid

theorem retryWithReceipt_sound (hs : SettledAt history manager sessionId)
    (hid : session.id = sessionId) (hsession : Settled history sessionId session.toCallLists)
    (hmem : callId ∈ session.uncertainCallIds) (task : Option WorkspaceTask) (present : Bool) :
    Stretch.Sound history sessionId manager
      (manager.retryWithReceipt session task callId present around) := by
  unfold Manager.retryWithReceipt
  have hin : callId ∈ (session.retryAccepted callId).processingCallIds :=
    List.mem_addNew.mpr (.inr (List.mem_singleton_self _))
  have hqueued : callId ∈ (session.retryUnsent callId).pendingCallIds :=
    List.mem_addNew.mpr (.inr (List.mem_singleton_self _))
  have haccepted := hsession.retryAccepted hmem
  have hunsent := hsession.retryUnsent hmem
  cases present with
  | true =>
    have hmoved : KeepsOthers history sessionId manager ((manager.putSession { session with
        toCallLists := session.retryAccepted callId }).mirror task (·.retryAccepted callId)) := by
      refine .mirror (.putSession ?_ haccepted) _ _
      exact hid
    simp only [if_true]
    split
    · exact .quiet hs (hmoved.trans (undoRetry_keeps (by exact hid) (haccepted.undoAccepted hin) _)) trivial
    · split
      · exact .quiet hs hmoved trivial
      · split
        · exact .quiet hs (hmoved.trans (undoRetry_keeps (by exact hid) (haccepted.undoAccepted hin) _))
            trivial
        · exact .quiet hs hmoved ⟨hid, haccepted, hin⟩
  | false =>
    have hmoved : KeepsOthers history sessionId manager ((manager.putSession { session with
        toCallLists := session.retryUnsent callId }).mirror task (·.retryUnsent callId)) := by
      refine .mirror (.putSession ?_ hunsent) _ _
      exact hid
    simp only [Bool.false_eq_true, if_false]
    split
    · exact .quiet hs (hmoved.trans (undoRetry_keeps (by exact hid) (hunsent.undoUnsent hqueued) _)) trivial
    · exact .afterKeeps hmoved (startPump_sound (hmoved.settled hs) _ _)

theorem retryUncertainDelivery_sound (hs : SettledAt history manager sessionId)
    (hget : manager.sessions.get? sessionId = some session) (evidence : ChatEvidence) :
    Stretch.Sound history sessionId manager
      (manager.retryUncertainDelivery session callId evidence around) := by
  obtain ⟨hid, hsession⟩ := hs.of_get? hget
  unfold Manager.retryUncertainDelivery
  split
  · exact .idle hs trivial
  next hnot =>
    have hmem : callId ∈ session.uncertainCallIds := by simpa using hnot
    split
    · exact .idle hs trivial
    · split
      · exact .idle hs trivial
      · split
        · split
          · exact .idle hs trivial
          · exact retryWithReceipt_sound hs hid hsession hmem _ _
          · exact retryWithReceipt_sound hs hid hsession hmem _ _
        · exact .idle hs ⟨hid, hsession, hmem⟩

theorem takeReport_sound (hs : SettledAt history manager sessionId)
    (hid : session.id = sessionId) (hsession : Settled history sessionId session.toCallLists)
    (report : Manager.ReportAcks) :
    Stretch.Sound history sessionId manager (manager.takeReport session report) := by
  subst hid
  have hrenamed : KeepsOthers history session.id manager
      (manager.renameSession session report.renamed) := by
    unfold Manager.renameSession
    split
    · exact .refl ..
    · refine .putSession ?_ hsession
      rfl
  unfold Manager.takeReport
  simp only
  split
  · exact .quiet hs hrenamed trivial
  · have hbound : KeepsOthers history session.id manager
        ((manager.renameSession session report.renamed).bindSession session.id
          (if report.binds then report.taskId else none)) := by
      refine hrenamed.trans ⟨fun k _ => Manager.lists_bindSession .., fun hs lists hlists => ?_⟩
      rw [Manager.lists_bindSession] at hlists
      exact hs lists hlists
    have hs' := hbound.settled hs
    refine .afterKeeps hbound ?_
    generalize (manager.renameSession session report.renamed).bindSession session.id
      (if report.binds then report.taskId else none) = renamed at hs'
    constructor
    · intro k hk
      simp [Manager.lists_ackCallIds, hk]
    · intro lists hlists
      rw [Manager.lists_ackCallIds, if_pos rfl] at hlists
      obtain ⟨before, hbefore, rfl⟩ := Option.map_eq_some_iff.mp hlists
      exact (hs' before hbefore).acknowledgeBy rfl (by simp only [hbefore])
    · exact trivial
    · simp

end

end ClaudeHub
