import ClaudeHub.Lib.Lists
import ClaudeHub.Models.Records

/-! # Moving call ids between delivery states

Each operation rewrites the four lists of a session's outbox, or of a task's mirror
of it. `held` counts the places in which a call id is kept; `Single` says that there
is never more than one.
-/

namespace ClaudeHub

inductive DeliveryState
  | pending | processing | uncertain | delivered
  deriving DecidableEq, Repr

namespace CallLists

def callIds (lists : CallLists) : DeliveryState → List CallId
  | .pending => lists.pendingCallIds
  | .processing => lists.processingCallIds
  | .uncertain => lists.uncertainCallIds
  | .delivered => lists.deliveredCallIds

def inAnyState (lists : CallLists) (callId : CallId) : Bool :=
  callId ∈ lists.pendingCallIds || callId ∈ lists.processingCallIds
    || callId ∈ lists.deliveredCallIds || callId ∈ lists.uncertainCallIds

def enqueue (lists : CallLists) (callId : CallId) (first : Bool) : CallLists :=
  if callId ∈ lists.pendingCallIds then lists
  else if first then { lists with pendingCallIds := callId :: lists.pendingCallIds }
  else { lists with pendingCallIds := lists.pendingCallIds ++ [callId] }

def claim (lists : CallLists) (callId : CallId) : CallLists :=
  { lists with
    pendingCallIds := lists.pendingCallIds.without [callId]
    processingCallIds := lists.processingCallIds.addNew [callId] }

def failPending (lists : CallLists) (callId : CallId) : CallLists :=
  { lists with
    pendingCallIds := lists.pendingCallIds.without [callId]
    uncertainCallIds := lists.uncertainCallIds.addNew [callId] }

/-- `_rollback_processing_to_pending`: only what is still in flight goes back. -/
def rollback (lists : CallLists) (callIds : List CallId) : CallLists :=
  { lists with
    processingCallIds := lists.processingCallIds.without callIds
    pendingCallIds := lists.pendingCallIds.addNew (lists.processingCallIds.within callIds) }

/-- Move the queued call ids among `callIds` to the front, in that order. -/
def queueFirst (lists : CallLists) (callIds : List CallId) : CallLists :=
  { lists with pendingCallIds := callIds ++ lists.pendingCallIds.without callIds }

/-- `_rollback_chat_processing_to_pending`: what goes back is retried first. -/
def rollbackFirst (lists : CallLists) (callIds : List CallId) : CallLists :=
  let retryIds := lists.processingCallIds.within callIds
  (lists.rollback retryIds).queueFirst retryIds

/-- `_mark_processing_as_uncertain`: every call id given is appended, whether or not
it is still in flight. -/
def markUncertain (lists : CallLists) (callIds : List CallId) : CallLists :=
  { lists with
    processingCallIds := lists.processingCallIds.without callIds
    uncertainCallIds := lists.uncertainCallIds.addNew callIds }

/-- What an acknowledgement of `callIds` takes out of the open states. -/
def acknowledged (lists : CallLists) (callIds : List CallId) : List CallId :=
  lists.pendingCallIds.within callIds ++ lists.processingCallIds.within callIds
    ++ lists.uncertainCallIds.within callIds

/-- The commit of `_ack_call_ids`. -/
def acknowledge (lists : CallLists) (callIds : List CallId) : CallLists where
  pendingCallIds := lists.pendingCallIds.without callIds
  processingCallIds := lists.processingCallIds.without callIds
  uncertainCallIds := lists.uncertainCallIds.without callIds
  deliveredCallIds := lists.deliveredCallIds.addNew (lists.acknowledged callIds)

def retire (lists : CallLists) (callId : CallId) : CallLists :=
  { lists with pendingCallIds := lists.pendingCallIds.without [callId] }

def retryAccepted (lists : CallLists) (callId : CallId) : CallLists :=
  { lists with
    uncertainCallIds := lists.uncertainCallIds.without [callId]
    processingCallIds := lists.processingCallIds.addNew [callId] }

def retryUnsent (lists : CallLists) (callId : CallId) : CallLists :=
  { lists with
    uncertainCallIds := lists.uncertainCallIds.without [callId]
    pendingCallIds := lists.pendingCallIds.addNew [callId] }

/-- Take back `retryAccepted`. -/
def undoAccepted (lists : CallLists) (callId : CallId) : CallLists :=
  { lists with
    uncertainCallIds := lists.uncertainCallIds ++ [callId]
    processingCallIds := lists.processingCallIds.without [callId] }

/-- Take back `retryUnsent`. -/
def undoUnsent (lists : CallLists) (callId : CallId) : CallLists :=
  { lists with
    uncertainCallIds := lists.uncertainCallIds ++ [callId]
    pendingCallIds := lists.pendingCallIds.without [callId] }

variable {callIds : List CallId}

@[simp] theorem deliveredCallIds_enqueue (lists : CallLists) (callId : CallId) (first : Bool) :
    (lists.enqueue callId first).deliveredCallIds = lists.deliveredCallIds := by
  unfold enqueue
  split
  · rfl
  · split <;> rfl

@[simp] theorem markUncertain_nil (lists : CallLists) : lists.markUncertain [] = lists := by
  simp [markUncertain]

@[simp] theorem rollback_nil (lists : CallLists) : lists.rollback [] = lists := by
  simp [rollback, List.within]

theorem rollback_of_within_nil (lists : CallLists) (h : lists.processingCallIds.within callIds = []) :
    lists.rollback callIds = lists := by
  simp [rollback, h, List.without_eq_self h]

theorem acknowledge_of_nil (lists : CallLists) (h : lists.acknowledged callIds = []) :
    lists.acknowledge callIds = lists := by
  have hparts : (lists.pendingCallIds.within callIds = [] ∧
      lists.processingCallIds.within callIds = []) ∧
      lists.uncertainCallIds.within callIds = [] := by
    simpa only [acknowledged, List.append_eq_nil_iff] using h
  obtain ⟨⟨hp, hq⟩, hu⟩ := hparts
  simp [acknowledge, h, List.without_eq_self hp, List.without_eq_self hq,
    List.without_eq_self hu]

def held (lists : CallLists) (callId : CallId) : Nat :=
  lists.pendingCallIds.count callId + lists.processingCallIds.count callId
    + lists.uncertainCallIds.count callId + lists.deliveredCallIds.count callId

/-- No call id is kept in two places. -/
def Single (lists : CallLists) : Prop := ∀ callId, lists.held callId ≤ 1

variable {lists : CallLists} {callId : CallId}

theorem held_of_mem (state : DeliveryState) (h : callId ∈ lists.callIds state) :
    0 < lists.held callId := by
  have hpos : 0 < (lists.callIds state).count callId := List.count_pos_iff.mpr h
  unfold held
  cases state <;> simp only [callIds] at hpos <;> omega

theorem exists_of_held (h : 0 < lists.held callId) : ∃ state, callId ∈ lists.callIds state := by
  unfold held at h
  by_cases hpending : callId ∈ lists.pendingCallIds
  · exact ⟨.pending, hpending⟩
  by_cases hprocessing : callId ∈ lists.processingCallIds
  · exact ⟨.processing, hprocessing⟩
  by_cases huncertain : callId ∈ lists.uncertainCallIds
  · exact ⟨.uncertain, huncertain⟩
  by_cases hdelivered : callId ∈ lists.deliveredCallIds
  · exact ⟨.delivered, hdelivered⟩
  · simp [List.count_eq_zero_of_not_mem, *] at h

theorem inAnyState_iff : lists.inAnyState callId = true ↔ 0 < lists.held callId := by
  constructor
  · intro h
    have hmem : callId ∈ lists.pendingCallIds ∨ callId ∈ lists.processingCallIds
        ∨ callId ∈ lists.deliveredCallIds ∨ callId ∈ lists.uncertainCallIds := by
      simpa [inAnyState, or_assoc] using h
    rcases hmem with h | h | h | h
    · exact held_of_mem .pending h
    · exact held_of_mem .processing h
    · exact held_of_mem .delivered h
    · exact held_of_mem .uncertain h
  · intro h
    obtain ⟨state, hmem⟩ := exists_of_held h
    cases state <;> simp only [callIds] at hmem <;> simp [inAnyState, hmem]

theorem Single.unique (hsingle : lists.Single) {s t : DeliveryState}
    (hs : callId ∈ lists.callIds s) (ht : callId ∈ lists.callIds t) : s = t := by
  have hone := hsingle callId
  have hcs : 0 < (lists.callIds s).count callId := List.count_pos_iff.mpr hs
  have hct : 0 < (lists.callIds t).count callId := List.count_pos_iff.mpr ht
  unfold held at hone
  cases s <;> cases t <;> first
    | rfl
    | (simp only [callIds] at hcs hct; omega)

theorem Single.existsUnique (hsingle : lists.Single) (hheld : 0 < lists.held callId) :
    ∃! state, callId ∈ lists.callIds state := by
  obtain ⟨state, hmem⟩ := exists_of_held hheld
  exact ⟨state, hmem, fun other hother => hsingle.unique hother hmem⟩

theorem not_existsUnique {s t : DeliveryState} (hne : s ≠ t) (hs : callId ∈ lists.callIds s)
    (ht : callId ∈ lists.callIds t) : ¬ ∃! state, callId ∈ lists.callIds state :=
  fun h => hne (h.unique hs ht)

/-! ## What each operation does to it -/

theorem held_enqueue (hnew : lists.held callId = 0) (first : Bool) (a : CallId) :
    (lists.enqueue callId first).held a = if a = callId then 1 else lists.held a := by
  have hzero : lists.pendingCallIds.count callId = 0 := by unfold held at hnew; omega
  have hnot : callId ∉ lists.pendingCallIds := List.count_eq_zero.mp hzero
  unfold enqueue held at *
  by_cases ha : a = callId
  · subst ha
    cases first
    · simp only [hnot, if_false, Bool.false_eq_true, List.count_append, List.count_singleton_self,
        if_true]
      omega
    · simp only [hnot, if_false, List.count_cons_self, if_true]
      omega
  · have hne : callId ≠ a := fun h => ha h.symm
    cases first <;> simp [hnot, ha, hne, List.count_append]

/-- What leaves one list for another keeps its number of places: `zs` names the call
ids of `xs` among `ids`. -/
private theorem count_move (xs ys : List CallId) {ids zs : List CallId} {a : CallId}
    (hzs : a ∈ zs ↔ a ∈ xs ∧ a ∈ ids) (hsingle : xs.count a + ys.count a ≤ 1) :
    (xs.without ids).count a + (ys.addNew zs).count a = xs.count a + ys.count a := by
  rw [List.count_without, List.count_addNew]
  by_cases hxs : a ∈ xs
  · have hpos : 0 < xs.count a := List.count_pos_iff.mpr hxs
    have hys : a ∉ ys := List.count_eq_zero.mp (by omega)
    have hzero : ys.count a = 0 := List.count_eq_zero_of_not_mem hys
    by_cases hids : a ∈ ids
    · have hz : a ∈ zs := hzs.mpr ⟨hxs, hids⟩
      simp only [hids, hys, hz, if_true, if_false]
      omega
    · have hz : a ∉ zs := fun h => hids (hzs.mp h).2
      simp only [hids, hys, hz, if_false]
      omega
  · have hz : a ∉ zs := fun h => hxs (hzs.mp h).1
    have hzero : xs.count a = 0 := List.count_eq_zero_of_not_mem hxs
    by_cases hys : a ∈ ys
    · simp [hys, hzero]
    · simp [hys, hz, hzero, List.count_eq_zero_of_not_mem hys]

private theorem mem_singleton_iff {xs : List CallId} (a : CallId) (hmem : callId ∈ xs) :
    a ∈ [callId] ↔ a ∈ xs ∧ a ∈ [callId] := by
  constructor
  · intro h
    exact ⟨List.mem_singleton.mp h ▸ hmem, h⟩
  · exact And.right

section

variable (hsingle : lists.Single)
include hsingle

theorem held_claim (hmem : callId ∈ lists.pendingCallIds) (a : CallId) :
    (lists.claim callId).held a = lists.held a := by
  have hone := hsingle a
  simp only [held, claim] at hone ⊢
  have hmove := count_move _ lists.processingCallIds (mem_singleton_iff a hmem) (by omega)
  omega

theorem held_failPending (hmem : callId ∈ lists.pendingCallIds) (a : CallId) :
    (lists.failPending callId).held a = lists.held a := by
  have hone := hsingle a
  simp only [held, failPending] at hone ⊢
  have hmove := count_move _ lists.uncertainCallIds (mem_singleton_iff a hmem) (by omega)
  omega

theorem held_rollback (callIds : List CallId) (a : CallId) :
    (lists.rollback callIds).held a = lists.held a := by
  have hone := hsingle a
  simp only [held, rollback] at hone ⊢
  have hmove := count_move lists.processingCallIds lists.pendingCallIds
    (@List.mem_within _ _ _ callIds a) (by omega)
  omega

theorem held_queueFirst (hnodup : callIds.Nodup) (hmem : ∀ id ∈ callIds, id ∈ lists.pendingCallIds)
    (a : CallId) : (lists.queueFirst callIds).held a = lists.held a := by
  have hone := hsingle a
  simp only [held, queueFirst, List.count_append, List.count_without] at hone ⊢
  by_cases ha : a ∈ callIds
  · have hpos : 0 < lists.pendingCallIds.count a := List.count_pos_iff.mpr (hmem a ha)
    have hcount : callIds.count a = 1 := List.count_eq_one_of_mem hnodup ha
    simp only [ha, if_true]
    omega
  · simp [ha, List.count_eq_zero_of_not_mem ha]

theorem held_acknowledge (callIds : List CallId) (a : CallId) :
    (lists.acknowledge callIds).held a = lists.held a := by
  have hone := hsingle a
  simp only [held, acknowledge, acknowledged, List.count_without, List.count_addNew,
    List.mem_append, List.mem_within] at hone ⊢
  by_cases hids : a ∈ callIds
  · by_cases hd : a ∈ lists.deliveredCallIds
    · have hpos : 0 < lists.deliveredCallIds.count a := List.count_pos_iff.mpr hd
      simp only [hids, hd, if_true]
      omega
    · have hzero : lists.deliveredCallIds.count a = 0 := List.count_eq_zero_of_not_mem hd
      simp only [hids, hd, and_true, if_true, if_false, ← @List.count_pos_iff _ _ _ a]
      split <;> omega
  · by_cases hd : a ∈ lists.deliveredCallIds
    · simp [hids, hd]
    · simp [hids, hd, List.count_eq_zero_of_not_mem hd]

theorem held_markUncertain
    (hcurrent : ∀ id ∈ callIds, id ∉ lists.pendingCallIds ∧ id ∉ lists.deliveredCallIds)
    (a : CallId) :
    (lists.markUncertain callIds).held a = if a ∈ callIds then 1 else lists.held a := by
  have hone := hsingle a
  simp only [held, markUncertain, List.count_without, List.count_addNew] at hone ⊢
  by_cases hids : a ∈ callIds
  · obtain ⟨hp, hd⟩ := hcurrent a hids
    have hpzero : lists.pendingCallIds.count a = 0 := List.count_eq_zero_of_not_mem hp
    have hdzero : lists.deliveredCallIds.count a = 0 := List.count_eq_zero_of_not_mem hd
    by_cases hu : a ∈ lists.uncertainCallIds
    · have hpos : 0 < lists.uncertainCallIds.count a := List.count_pos_iff.mpr hu
      simp only [hids, hu, if_true]
      omega
    · simp [hids, hu, hpzero, hdzero]
  · by_cases hu : a ∈ lists.uncertainCallIds
    · simp [hids, hu]
    · simp [hids, hu, List.count_eq_zero_of_not_mem hu]

theorem held_retire (hmem : callId ∈ lists.pendingCallIds) (a : CallId) :
    (lists.retire callId).held a = if a = callId then 0 else lists.held a := by
  have hone := hsingle a
  simp only [held, retire, List.count_without, List.mem_singleton] at hone ⊢
  by_cases ha : a = callId
  · subst ha
    have hpos : 0 < lists.pendingCallIds.count a := List.count_pos_iff.mpr hmem
    simp only [if_true]
    omega
  · simp [ha]

theorem held_retryAccepted (hmem : callId ∈ lists.uncertainCallIds) (a : CallId) :
    (lists.retryAccepted callId).held a = lists.held a := by
  have hone := hsingle a
  simp only [held, retryAccepted] at hone ⊢
  have hmove := count_move _ lists.processingCallIds (mem_singleton_iff a hmem) (by omega)
  omega

theorem held_retryUnsent (hmem : callId ∈ lists.uncertainCallIds) (a : CallId) :
    (lists.retryUnsent callId).held a = lists.held a := by
  have hone := hsingle a
  simp only [held, retryUnsent] at hone ⊢
  have hmove := count_move _ lists.pendingCallIds (mem_singleton_iff a hmem) (by omega)
  omega

end

private theorem count_back {xs : List CallId} (ys : List CallId) (a : CallId) (hmem : callId ∈ xs)
    (hsingle : xs.count a ≤ 1) :
    (ys ++ [callId]).count a + (xs.without [callId]).count a = xs.count a + ys.count a := by
  rw [List.count_append, List.count_without]
  by_cases ha : a = callId
  · subst ha
    have hpos : 0 < xs.count a := List.count_pos_iff.mpr hmem
    simp only [List.mem_singleton, if_true, List.count_singleton_self]
    omega
  · have hne : callId ≠ a := fun h => ha h.symm
    simp only [List.mem_singleton, ha, if_false, List.count_singleton, beq_iff_eq, hne]
    omega

theorem held_undoAccepted (hsingle : lists.Single) (hmem : callId ∈ lists.processingCallIds)
    (a : CallId) : (lists.undoAccepted callId).held a = lists.held a := by
  have hone := hsingle a
  simp only [held, undoAccepted] at hone ⊢
  have hback := count_back lists.uncertainCallIds a hmem (by omega)
  omega

theorem held_undoUnsent (hsingle : lists.Single) (hmem : callId ∈ lists.pendingCallIds)
    (a : CallId) : (lists.undoUnsent callId).held a = lists.held a := by
  have hone := hsingle a
  simp only [held, undoUnsent] at hone ⊢
  have hback := count_back lists.uncertainCallIds a hmem (by omega)
  omega

end CallLists

end ClaudeHub
