import ClaudeHub.Messaging.Run

/-! # Outboxes that agree with their history

`Settled` ties the four lists of one session to what was ever queued, withdrawn and
acknowledged for it. `KeepsOthers` says that an operation on one session leaves the others
alone and its own outbox settled; the operations compose through it.
-/

namespace ClaudeHub

/-- The lists of a session agree with its history. -/
structure Settled (history : DeliveryHistory) (sessionId : SessionId) (lists : CallLists) :
    Prop where
  single : lists.Single
  kept : ∀ callId, (sessionId, callId) ∈ history.enqueued →
    0 < lists.held callId ∨ (sessionId, callId) ∈ history.retired
  known : ∀ callId, 0 < lists.held callId → (sessionId, callId) ∈ history.enqueued
  acked : ∀ callId, (sessionId, callId) ∈ history.acked → callId ∈ lists.deliveredCallIds

namespace Settled

variable {history : DeliveryHistory} {sessionId : SessionId} {lists lists' : CallLists}
  {callId : CallId}

section

variable (h : Settled history sessionId lists)
include h

theorem move (hheld : ∀ c, lists'.held c = lists.held c)
    (hdelivered : ∀ c ∈ lists.deliveredCallIds, c ∈ lists'.deliveredCallIds) :
    Settled history sessionId lists' where
  single c := by
    rw [hheld]
    exact h.single c
  kept c hc := by
    rw [hheld]
    exact h.kept c hc
  known c hc := h.known c (by rwa [hheld] at hc)
  acked c hc := hdelivered c (h.acked c hc)

theorem notElsewhere {s t : DeliveryState} (hs : callId ∈ lists.callIds s) (hne : s ≠ t) :
    callId ∉ lists.callIds t :=
  fun ht => hne (h.single.unique hs ht)

theorem enqueued_of_mem (state : DeliveryState) (hmem : callId ∈ lists.callIds state) :
    (sessionId, callId) ∈ history.enqueued :=
  h.known callId (CallLists.held_of_mem state hmem)

theorem claim (hmem : callId ∈ lists.pendingCallIds) :
    Settled history sessionId (lists.claim callId) :=
  h.move (CallLists.held_claim h.single hmem) fun _ hc => hc

theorem failPending (hmem : callId ∈ lists.pendingCallIds) :
    Settled history sessionId (lists.failPending callId) :=
  h.move (CallLists.held_failPending h.single hmem) fun _ hc => hc

theorem rollback (callIds : List CallId) : Settled history sessionId (lists.rollback callIds) :=
  h.move (CallLists.held_rollback h.single callIds) fun _ hc => hc

end

variable {callIds : List CallId}

section

variable (h : Settled history sessionId lists)
include h

theorem queueFirst (hnodup : callIds.Nodup) (hmem : ∀ c ∈ callIds, c ∈ lists.pendingCallIds) :
    Settled history sessionId (lists.queueFirst callIds) :=
  h.move (CallLists.held_queueFirst h.single hnodup hmem) fun _ hc => hc

theorem nodup (state : DeliveryState) : (lists.callIds state).Nodup := by
  refine List.nodup_iff_count_le_one.mpr fun c => ?_
  have hone := h.single c
  unfold CallLists.held at hone
  cases state <;> simp only [CallLists.callIds] <;> omega

theorem rollbackFirst (callIds : List CallId) :
    Settled history sessionId (lists.rollbackFirst callIds) := by
  apply (h.rollback _).queueFirst
  · exact (h.nodup .processing).filter _
  · intro c hc
    have hwithin : c ∈ lists.processingCallIds.within (lists.processingCallIds.within callIds) :=
      List.mem_within.mpr ⟨(List.mem_within.mp hc).1, hc⟩
    exact List.mem_addNew.mpr (.inr hwithin)

theorem acknowledge (callIds : List CallId) :
    Settled history sessionId (lists.acknowledge callIds) :=
  h.move (CallLists.held_acknowledge h.single callIds) fun _ hc => List.mem_addNew.mpr (.inl hc)

theorem retryAccepted (hmem : callId ∈ lists.uncertainCallIds) :
    Settled history sessionId (lists.retryAccepted callId) :=
  h.move (CallLists.held_retryAccepted h.single hmem) fun _ hc => hc

theorem retryUnsent (hmem : callId ∈ lists.uncertainCallIds) :
    Settled history sessionId (lists.retryUnsent callId) :=
  h.move (CallLists.held_retryUnsent h.single hmem) fun _ hc => hc

theorem undoAccepted (hmem : callId ∈ lists.processingCallIds) :
    Settled history sessionId (lists.undoAccepted callId) :=
  h.move (CallLists.held_undoAccepted h.single hmem) fun _ hc => hc

theorem undoUnsent (hmem : callId ∈ lists.pendingCallIds) :
    Settled history sessionId (lists.undoUnsent callId) :=
  h.move (CallLists.held_undoUnsent h.single hmem) fun _ hc => hc

theorem markUncertain
    (hcurrent : ∀ c ∈ callIds, c ∉ lists.pendingCallIds ∧ c ∉ lists.deliveredCallIds)
    (henqueued : ∀ c ∈ callIds, (sessionId, c) ∈ history.enqueued) :
    Settled history sessionId (lists.markUncertain callIds) where
  single c := by
    rw [CallLists.held_markUncertain h.single hcurrent]
    have hone := h.single c
    split <;> omega
  kept c hc := by
    rw [CallLists.held_markUncertain h.single hcurrent]
    by_cases hmem : c ∈ callIds
    · exact .inl (by simp [hmem])
    · simpa [hmem] using h.kept c hc
  known c hc := by
    rw [CallLists.held_markUncertain h.single hcurrent] at hc
    by_cases hmem : c ∈ callIds
    · exact henqueued c hmem
    · exact h.known c (by simpa [hmem] using hc)
  acked c hc := h.acked c hc

theorem markInFlight (hmem : ∀ c ∈ callIds, c ∈ lists.processingCallIds) :
    Settled history sessionId (lists.markUncertain callIds) := by
  apply h.markUncertain
  · intro c hc
    have hprocessing : c ∈ lists.callIds .processing := hmem c hc
    exact ⟨h.notElsewhere (t := .pending) hprocessing (by decide),
      h.notElsewhere (t := .delivered) hprocessing (by decide)⟩
  · exact fun c hc => h.enqueued_of_mem .processing (hmem c hc)

theorem congr {history' : DeliveryHistory}
    (henqueued : ∀ c, (sessionId, c) ∈ history'.enqueued ↔ (sessionId, c) ∈ history.enqueued)
    (hretired : ∀ c, (sessionId, c) ∈ history.retired → (sessionId, c) ∈ history'.retired)
    (hacked : ∀ c, (sessionId, c) ∈ history'.acked → (sessionId, c) ∈ history.acked) :
    Settled history' sessionId lists where
  single := h.single
  kept c hc := (h.kept c ((henqueued c).mp hc)).imp_right (hretired c)
  known c hc := (henqueued c).mpr (h.known c hc)
  acked c hc := h.acked c (hacked c hc)

end

variable {stretch : Stretch}

theorem retire (h : Settled history sessionId lists)
    (hretired : stretch.retired = lists.pendingCallIds.within [callId])
    (henqueued : stretch.enqueued = []) (hacked : stretch.acked = []) :
    Settled (history.extend sessionId stretch) sessionId (lists.retire callId) := by
  have hextend : ∀ c, (sessionId, c) ∈ (history.extend sessionId stretch).retired
      ↔ (sessionId, c) ∈ history.retired ∨ c ∈ lists.pendingCallIds ∧ c = callId := by
    intro c
    simp [DeliveryHistory.extend, hretired]
  by_cases hmem : callId ∈ lists.pendingCallIds
  · have hheld := CallLists.held_retire h.single hmem
    constructor
    · intro c
      have hone := h.single c
      rw [hheld]
      split <;> omega
    · intro c hc
      rw [hheld]
      by_cases hcall : c = callId
      · exact .inr ((hextend c).mpr (.inr ⟨hcall ▸ hmem, hcall⟩))
      · rw [if_neg hcall]
        have hbefore : (sessionId, c) ∈ history.enqueued := by
          simpa [DeliveryHistory.extend, henqueued] using hc
        exact (h.kept c hbefore).imp_right fun hr => (hextend c).mpr (.inl hr)
    · intro c hc
      rw [hheld] at hc
      by_cases hcall : c = callId
      · simp [hcall] at hc
      · rw [if_neg hcall] at hc
        simpa [DeliveryHistory.extend, henqueued] using h.known c hc
    · intro c hc
      exact h.acked c (by simpa [DeliveryHistory.extend, hacked] using hc)
  · have hnone : lists.pendingCallIds.within [callId] = [] := by
      refine List.filter_eq_nil_iff.mpr fun c hc hcall => hmem ?_
      have heq : c = callId := by simpa using hcall
      exact heq ▸ hc
    have hsame : lists.retire callId = lists := by
      simp [CallLists.retire, List.without_eq_self hnone]
    rw [hsame]
    refine h.congr (fun c => ?_) (fun c hc => ?_) (fun c hc => ?_)
    · simp [DeliveryHistory.extend, henqueued]
    · exact (hextend c).mpr (.inl hc)
    · simpa [DeliveryHistory.extend, hacked] using hc

theorem enqueue (h : Settled history sessionId lists) (hnew : lists.held callId = 0)
    (henqueued : stretch.enqueued = [callId]) (hacked : stretch.acked = []) {first : Bool} :
    Settled (history.extend sessionId stretch) sessionId (lists.enqueue callId first) := by
  have hheld := CallLists.held_enqueue hnew first
  have hextend : ∀ c, (sessionId, c) ∈ (history.extend sessionId stretch).enqueued
      ↔ (sessionId, c) ∈ history.enqueued ∨ c = callId := by
    intro c
    simp [DeliveryHistory.extend, henqueued]
  constructor
  · intro c
    have hone := h.single c
    rw [hheld]
    split <;> omega
  · intro c hc
    rw [hheld]
    by_cases hcall : c = callId
    · exact .inl (by simp [hcall])
    · rw [if_neg hcall]
      have hbefore := ((hextend c).mp hc).resolve_right hcall
      exact (h.kept c hbefore).imp_right fun hr => by simp [DeliveryHistory.extend, hr]
  · intro c hc
    rw [hheld] at hc
    by_cases hcall : c = callId
    · exact (hextend c).mpr (.inr hcall)
    · rw [if_neg hcall] at hc
      exact (hextend c).mpr (.inl (h.known c hc))
  · intro c hc
    rw [CallLists.deliveredCallIds_enqueue]
    exact h.acked c (by simpa [DeliveryHistory.extend, hacked] using hc)

theorem acknowledgeBy (h : Settled history sessionId lists) {verified : List CallId}
    (henqueued : stretch.enqueued = []) (hacked : stretch.acked = lists.acknowledged verified) :
    Settled (history.extend sessionId stretch) sessionId (lists.acknowledge verified) := by
  have hmoved := h.acknowledge verified
  constructor
  · exact hmoved.single
  · intro c hc
    refine (hmoved.kept c ?_).imp_right fun hr => ?_
    · simpa [DeliveryHistory.extend, henqueued] using hc
    · simp [DeliveryHistory.extend, hr]
  · intro c hc
    have hbefore := hmoved.known c hc
    simp [DeliveryHistory.extend, hbefore]
  · intro c hc
    have hcases : (sessionId, c) ∈ history.acked ∨ c ∈ lists.acknowledged verified := by
      simpa [DeliveryHistory.extend, hacked] using hc
    rcases hcases with hold | hnew
    · exact hmoved.acked c hold
    · exact List.mem_addNew.mpr (.inr hnew)

end Settled

def SettledAt (history : DeliveryHistory) (manager : Manager) (sessionId : SessionId) : Prop :=
  ∀ lists, manager.lists sessionId = some lists → Settled history sessionId lists

/-- An operation on one session leaves the outboxes of the others and settles its own. -/
structure KeepsOthers (history : DeliveryHistory) (sessionId : SessionId) (before after : Manager) :
    Prop where
  others : ∀ k, k ≠ sessionId → after.lists k = before.lists k
  settled : SettledAt history before sessionId → SettledAt history after sessionId

namespace KeepsOthers

variable {history : DeliveryHistory} {sessionId : SessionId} {manager middle after : Manager}
  {session : ManagedSession} {callIds : List CallId}

theorem refl (history : DeliveryHistory) (sessionId : SessionId) (manager : Manager) :
    KeepsOthers history sessionId manager manager :=
  ⟨fun _ _ => rfl, id⟩

theorem trans (h : KeepsOthers history sessionId manager middle)
    (h' : KeepsOthers history sessionId middle after) : KeepsOthers history sessionId manager after where
  others k hk := (h'.others k hk).trans (h.others k hk)
  settled hs := h'.settled (h.settled hs)

theorem of_lists {f : CallLists → CallLists}
    (hlists : ∀ k, after.lists k = if k = sessionId then (manager.lists sessionId).map f
      else manager.lists k)
    (hf : ∀ lists, manager.lists sessionId = some lists → Settled history sessionId lists →
      Settled history sessionId (f lists)) : KeepsOthers history sessionId manager after where
  others k hk := by simp [hlists k, hk]
  settled hs lists' h' := by
    rw [hlists, if_pos rfl] at h'
    obtain ⟨lists, hlists, rfl⟩ := Option.map_eq_some_iff.mp h'
    exact hf lists hlists (hs lists hlists)

theorem putSession (hid : session.id = sessionId)
    (hs : Settled history sessionId session.toCallLists) :
    KeepsOthers history sessionId manager (manager.putSession session) where
  others k hk := by simp [Manager.lists_putSession, hid, hk]
  settled _ lists h := by
    rw [Manager.lists_putSession, if_pos hid.symm] at h
    cases h
    exact hs

theorem mirror (h : KeepsOthers history sessionId manager middle) (task : Option WorkspaceTask)
    (move : CallLists → CallLists) :
    KeepsOthers history sessionId manager (middle.mirror task move) where
  others k hk := (Manager.lists_mirror ..).trans (h.others k hk)
  settled hs lists hlists := h.settled hs lists (by rwa [Manager.lists_mirror] at hlists)

theorem rollback (taskId : Option TaskId) (callIds : List CallId) :
    KeepsOthers history sessionId manager
      (manager.rollbackProcessingToPending taskId sessionId callIds) :=
  of_lists (manager.lists_rollbackProcessingToPending taskId sessionId callIds)
    fun _ _ hs => hs.rollback callIds

theorem rollbackChat (callIds : List CallId) :
    KeepsOthers history sessionId manager
      (manager.rollbackChatProcessingToPending sessionId callIds) :=
  of_lists (manager.lists_rollbackChatProcessingToPending sessionId callIds)
    fun _ _ hs => hs.rollbackFirst callIds

theorem markUncertain
    (hcurrent : ∀ lists, manager.lists sessionId = some lists → ∀ c ∈ callIds,
      c ∉ lists.pendingCallIds ∧ c ∉ lists.deliveredCallIds)
    (henqueued : ∀ c ∈ callIds, (sessionId, c) ∈ history.enqueued) :
    KeepsOthers history sessionId manager (manager.markProcessingAsUncertain sessionId callIds) :=
  of_lists (manager.lists_markProcessingAsUncertain sessionId callIds)
    fun lists hlists hs => hs.markUncertain (hcurrent lists hlists) henqueued

theorem markInFlight
    (hmem : ∀ lists, manager.lists sessionId = some lists → ∀ c ∈ callIds,
      c ∈ lists.processingCallIds) :
    KeepsOthers history sessionId manager (manager.markProcessingAsUncertain sessionId callIds) :=
  of_lists (manager.lists_markProcessingAsUncertain sessionId callIds)
    fun lists hlists hs => hs.markInFlight (hmem lists hlists)

theorem markOwn (hget : manager.sessions.get? sessionId = some session)
    (hmem : ∀ c ∈ callIds, c ∈ session.processingCallIds) :
    KeepsOthers history sessionId manager (manager.markProcessingAsUncertain sessionId callIds) := by
  apply markInFlight
  intro lists hlists c hc
  cases (Manager.lists_of_get? hget).symm.trans hlists
  exact hmem c hc

theorem expireLeases (now : Time) :
    KeepsOthers history sessionId manager (manager.expireProcessingLeases sessionId now) := by
  unfold Manager.expireProcessingLeases
  cases hget : manager.sessions.get? sessionId with
  | none => exact refl ..
  | some session =>
    by_cases hstopped : session.status = .stopped
    · simp only [hstopped, if_true]
      exact markOwn hget fun c hc => List.mem_of_mem_filter hc
    · simp only [hstopped, if_false]
      exact refl ..

theorem recoverChat (evidence : CallId → ChatEvidence) :
    KeepsOthers history sessionId manager
      (manager.recoverChatProcessingViaReceipt sessionId evidence) := by
  unfold Manager.recoverChatProcessingViaReceipt
  cases hget : manager.sessions.get? sessionId with
  | none => exact refl ..
  | some session =>
    simp only
    by_cases hnil : (session.processingCallIds.filter fun c => evidence c = .notSent) = []
    · simp only [hnil, if_true]
      exact markOwn hget fun c hc => List.mem_of_mem_filter hc
    · simp only [hnil, if_false]
      refine (rollbackChat _).trans (markInFlight fun lists hlists c hc => ?_)
      obtain ⟨hmem, heq⟩ := List.mem_filter.mp hc
      rw [Manager.lists_rollbackChatProcessingToPending, if_pos rfl,
        Manager.lists_of_get? hget, Option.map_some] at hlists
      cases hlists
      refine List.mem_without.mpr ⟨hmem, fun hback => ?_⟩
      have hsent := (List.mem_filter.mp (List.mem_within.mp hback).2).2
      simp only [decide_eq_true_eq] at heq hsent
      rw [heq] at hsent
      cases hsent

theorem coldStart :
    KeepsOthers history sessionId manager (manager.recoverUncertainDeliveries sessionId) := by
  unfold Manager.recoverUncertainDeliveries
  cases hget : manager.sessions.get? sessionId with
  | none => exact refl ..
  | some session =>
    by_cases hstopped : session.status = .stopped
    · simp only [hstopped, if_true]
      exact markOwn hget fun c hc => hc
    · simp only [hstopped, if_false]
      exact refl ..

end KeepsOthers

end ClaudeHub
