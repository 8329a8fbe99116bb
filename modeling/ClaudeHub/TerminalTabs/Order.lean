import ClaudeHub.Lib.Lists
import ClaudeHub.Lib.Table
import ClaudeHub.Models.Enums
import Mathlib.Data.List.Perm.Subperm

/-! # The order of terminal tabs

A client submits the tabs that it knows. Their slots of the stored order are refilled in the
submitted order, and the slots of the tabs that it left out stay. A failed save of the order file
is only logged.
-/

namespace ClaudeHub.TabOrder

/-- `dict.fromkeys` of the ids that have a tab. -/
def liveIds (processes tabIds : List TabId) : List TabId :=
  [].addNew (tabIds.filter fun id => id ∈ processes)

def refill (processes submitted : List TabId) :
    (tabOrder currentIds submittedIter mergedIds : List TabId) → Option (List TabId × List TabId)
  | [], _, submittedIter, mergedIds => some (mergedIds, submittedIter)
  | tid :: tabOrder, currentIds, submittedIter, mergedIds =>
    if tid ∉ processes ∨ tid ∈ currentIds then
      refill processes submitted tabOrder currentIds submittedIter mergedIds
    else if tid ∈ submitted then
      match submittedIter with
      | [] => none
      | id :: submittedIter =>
        refill processes submitted tabOrder (currentIds ++ [tid]) submittedIter (mergedIds ++ [id])
    else refill processes submitted tabOrder (currentIds ++ [tid]) submittedIter (mergedIds ++ [tid])

def setTabOrder (processes tabOrder tabIds : List TabId) : Option (List TabId) :=
  let validIds := liveIds processes tabIds
  (refill processes validIds tabOrder [] validIds []).map fun (mergedIds, submittedIter) =>
    (mergedIds ++ submittedIter).addNew processes

def syncOrderWithProcesses (processes tabOrder : List TabId) : List TabId :=
  let live := (tabOrder.addNew processes).filter fun id => id ∈ processes
  if live = [] then processes else live

def slots (submitted : List TabId) : (order ids : List TabId) → List TabId
  | [], _ => []
  | tid :: order, ids =>
    if tid ∈ submitted then ids.headD tid :: slots submitted order ids.tail
    else tid :: slots submitted order ids

variable {processes submitted order ids : List TabId}

attribute [local simp] slots refill

theorem getElem?_slots {i : Nat} {tid : TabId} (h : order[i]? = some tid) (hout : tid ∉ submitted)
    (ids : List TabId) : (slots submitted order ids)[i]? = some tid := by
  induction order generalizing i ids with
  | nil => simp at h
  | cons first order ih =>
    cases i with
    | zero =>
      obtain rfl : first = tid := by simpa using h
      simp [hout]
    | succ i =>
      have hrest : order[i]? = some tid := by simpa using h
      rw [slots]
      split
      · simpa using ih hrest ids.tail
      · simpa using ih hrest ids

theorem slots_filter (hcount : (order.filter fun id => id ∈ submitted).length ≤ ids.length)
    (hids : ∀ id ∈ ids, id ∈ submitted) :
    (slots submitted order ids).filter (fun id => id ∈ submitted) =
        ids.take (order.filter fun id => id ∈ submitted).length ∧
      (slots submitted order ids).filter (fun id => id ∉ submitted) =
        order.filter fun id => id ∉ submitted := by
  induction order generalizing ids with
  | nil => simp
  | cons tid order ih =>
    by_cases hin : tid ∈ submitted
    · cases ids with
      | nil => simp [hin] at hcount
      | cons id ids =>
        have hrest := ih (by simpa [hin] using hcount) fun other h =>
          hids other (List.mem_cons_of_mem id h)
        simpa [hin, hids id List.mem_cons_self] using hrest
    · simpa [hin] using ih (by simpa [hin] using hcount) hids

theorem slots_self (submitted order rest : List TabId) :
    slots submitted order ((order.filter fun id => id ∈ submitted) ++ rest) = order := by
  induction order with
  | nil => rfl
  | cons tid order ih =>
    by_cases hin : tid ∈ submitted <;> simpa [hin] using ih

theorem refill_eq {tabOrder current fresh merged : List TabId}
    (hfresh : current.addNew (tabOrder.filter fun id => id ∈ processes) = current ++ fresh)
    (hcount : (fresh.filter fun id => id ∈ submitted).length ≤ ids.length) :
    refill processes submitted tabOrder current ids merged =
      some (merged ++ slots submitted fresh ids,
        ids.drop (fresh.filter fun id => id ∈ submitted).length) := by
  induction tabOrder generalizing current fresh ids merged with
  | nil =>
    obtain rfl : fresh = [] := by simpa using hfresh
    simp
  | cons tid tabOrder ih =>
    by_cases hskip : tid ∉ processes ∨ tid ∈ current
    · have hsame : current.addNew (tabOrder.filter fun id => id ∈ processes) =
          current ++ fresh := by
        by_cases hlive : tid ∈ processes
        · simpa [hlive, List.addNew, hskip.resolve_left (not_not_intro hlive)] using hfresh
        · simpa [hlive] using hfresh
      simp only [refill, if_pos hskip]
      exact ih hsame hcount
    · obtain ⟨hlive, hnew⟩ := not_or.mp hskip
      have hlive : tid ∈ processes := not_not.mp hlive
      have hstep : (current ++ [tid]).addNew (tabOrder.filter fun id => id ∈ processes) =
          current ++ fresh := by simpa [hlive, List.addNew, hnew] using hfresh
      obtain ⟨later, hlater⟩ := List.prefix_addNew (current ++ [tid])
        (tabOrder.filter fun id => id ∈ processes)
      obtain rfl : fresh = tid :: later := by simpa using (hstep.symm.trans hlater.symm)
      by_cases hin : tid ∈ submitted
      · cases ids with
        | nil => simp [hin] at hcount
        | cons id ids => simp [hlive, hnew, hin, ih hlater.symm (by simpa [hin] using hcount)]
      · simp [hlive, hnew, hin, ih hlater.symm (by simpa [hin] using hcount)]

/-! ## The order -/

theorem mem_liveIds {tabIds : List TabId} {id : TabId} :
    id ∈ liveIds processes tabIds ↔ id ∈ tabIds ∧ id ∈ processes := by
  simp [liveIds]

theorem nodup_liveIds (processes tabIds : List TabId) : (liveIds processes tabIds).Nodup :=
  List.nodup_nil.addNew _

def merged (submitted order : List TabId) : List TabId :=
  slots submitted order submitted ++
    submitted.drop (order.filter fun id => id ∈ submitted).length

theorem submitted_enough (horder : order.Nodup) :
    (order.filter fun id => id ∈ submitted).length ≤ submitted.length :=
  (List.subperm_of_subset (horder.filter _) fun id h =>
    by simpa using (List.mem_filter.mp h).2).length_le

theorem setTabOrder_eq (processes tabOrder tabIds : List TabId) :
    setTabOrder processes tabOrder tabIds =
      some ((merged (liveIds processes tabIds) (liveIds processes tabOrder)).addNew processes) := by
  rw [setTabOrder, refill_eq rfl (submitted_enough (nodup_liveIds processes tabOrder))]
  rfl

section Merged

variable (horder : order.Nodup)
include horder

theorem merged_filter : (merged submitted order).filter (fun id => id ∈ submitted) = submitted := by
  have hrest : (submitted.drop (order.filter fun id => id ∈ submitted).length).filter
      (fun id => id ∈ submitted) = submitted.drop (order.filter fun id => id ∈ submitted).length :=
    List.filter_eq_self.mpr fun id h => by simpa using List.mem_of_mem_drop h
  rw [merged, List.filter_append, (slots_filter (submitted_enough horder) fun _ h => h).1, hrest]
  exact List.take_append_drop _ submitted

theorem merged_filter_not : (merged submitted order).filter (fun id => id ∉ submitted) =
    order.filter fun id => id ∉ submitted := by
  have hrest : (submitted.drop (order.filter fun id => id ∈ submitted).length).filter
      (fun id => id ∉ submitted) = [] :=
    List.filter_eq_nil_iff.mpr fun id h => by simpa using List.mem_of_mem_drop h
  rw [merged, List.filter_append, (slots_filter (submitted_enough horder) fun _ h => h).2, hrest,
    List.append_nil]

theorem mem_merged {id : TabId} : id ∈ merged submitted order ↔ id ∈ submitted ∨ id ∈ order := by
  by_cases hid : id ∈ submitted
  · have hin : id ∈ (merged submitted order).filter fun id => id ∈ submitted := by
      rwa [merged_filter horder]
    simp [hid, (List.mem_filter.mp hin).1]
  · have hout := congrArg (id ∈ ·) (@merged_filter_not submitted order horder)
    simpa [hid] using hout

theorem nodup_merged (hsubmitted : submitted.Nodup) : (merged submitted order).Nodup := by
  refine List.nodup_iff_count_le_one.mpr fun id => ?_
  by_cases hid : id ∈ submitted
  · rw [← List.count_filter (p := fun id => id ∈ submitted) (by simpa using hid),
      merged_filter horder]
    exact List.nodup_iff_count_le_one.mp hsubmitted id
  · rw [← List.count_filter (p := fun id => id ∉ submitted) (by simpa using hid),
      merged_filter_not horder]
    exact List.nodup_iff_count_le_one.mp (horder.filter _) id

end Merged

structure Reordered (processes tabOrder tabIds stored : List TabId) : Prop where
  perm : stored.Perm processes
  submitted : stored.filter (fun id => id ∈ tabIds) = liveIds processes tabIds
  /-- A stored tab that was left out keeps its place among the live tabs. -/
  kept : ∀ (i : Nat) tid, (liveIds processes tabOrder)[i]? = some tid → tid ∉ tabIds →
    stored[i]? = some tid
  last : ∃ listed unlisted, stored = listed ++ unlisted ∧
    (∀ id ∈ listed, id ∈ tabOrder ∨ id ∈ tabIds) ∧ ∀ id ∈ unlisted, id ∉ tabOrder ∧ id ∉ tabIds
  again : setTabOrder processes stored tabIds = some stored
  synced : syncOrderWithProcesses processes stored = stored

theorem addNew_of_subset {xs ys : List TabId} (h : ∀ id ∈ ys, id ∈ xs) : xs.addNew ys = xs := by
  induction ys with
  | nil => rfl
  | cons y ys ih =>
    rw [List.addNew, if_pos (h y List.mem_cons_self)]
    exact ih fun id hid => h id (List.mem_cons_of_mem y hid)

theorem liveIds_self (hnodup : order.Nodup) (hlive : ∀ id ∈ order, id ∈ processes) :
    liveIds processes order = order := by
  have hall : order.filter (fun id => id ∈ processes) = order :=
    List.filter_eq_self.mpr fun id hid => by simpa using hlive id hid
  have hnew (front rest : List TabId) (h : (front ++ rest).Nodup) :
      front.addNew rest = front ++ rest := by
    induction rest generalizing front with
    | nil => simp
    | cons id rest ih =>
      have hout : id ∉ front := fun hin =>
        (List.nodup_append.mp h).2.2 id hin id List.mem_cons_self rfl
      rw [List.addNew, if_neg hout, ih (front ++ [id]) (by simpa using h)]
      simp
  rw [liveIds, hall, hnew [] order hnodup, List.nil_append]

/-- Every live tab is stored once: the submitted ones in the slots of submitted ones, and last
those that are in no list. -/
theorem set_tab_order_keeps_tabs {τ : Type} (processes : Dict TabId τ)
    (tabOrder tabIds : List TabId) :
    ∃ stored, setTabOrder (processes.rows.map Prod.fst) tabOrder tabIds = some stored ∧
      Reordered (processes.rows.map Prod.fst) tabOrder tabIds stored := by
  have hprocesses := processes.nodup
  generalize processes.rows.map Prod.fst = live at hprocesses ⊢
  refine ⟨_, setTabOrder_eq live tabOrder tabIds, ?_⟩
  have horder := nodup_liveIds live tabOrder
  generalize hsubmitted : liveIds live tabIds = submitted
  have hfront := nodup_merged horder (hsubmitted ▸ nodup_liveIds live tabIds)
  have hnodup := hfront.addNew live
  have hlive (id : TabId) : id ∈ (merged submitted (liveIds live tabOrder)).addNew live ↔
      id ∈ live := by
    rw [List.mem_addNew, mem_merged horder, ← hsubmitted, mem_liveIds, mem_liveIds]
    tauto
  obtain ⟨unlisted, hunlisted⟩ := List.prefix_addNew (merged submitted (liveIds live tabOrder)) live
  rw [← hunlisted] at hnodup hlive ⊢
  have hapart (id : TabId) (hid : id ∈ unlisted) : id ∉ submitted ∧ id ∉ liveIds live tabOrder :=
    not_or.mp fun h => (List.nodup_append.mp hnodup).2.2 id ((mem_merged horder).mpr h) id hid rfl
  have hfilter : (merged submitted (liveIds live tabOrder) ++ unlisted).filter
      (fun id => id ∈ submitted) = submitted := by
    rw [List.filter_append, merged_filter horder, List.filter_eq_nil_iff.mpr, List.append_nil]
    exact fun id hid => by simpa using (hapart id hid).1
  have hself := addNew_of_subset fun id hid => (hlive id).mpr hid
  refine ⟨(List.perm_ext_iff_of_nodup hnodup hprocesses).mpr hlive, ?_, ?_, ?_, ?_, ?_⟩
  · rw [hsubmitted]
    refine Eq.trans (List.filter_congr fun id hid => ?_) hfilter
    simp [← hsubmitted, mem_liveIds, (hlive id).mp hid]
  · intro i tid hi htid
    have hout : tid ∉ submitted := by simp [← hsubmitted, mem_liveIds, htid]
    have hslot := getElem?_slots hi hout submitted
    rw [merged, List.append_assoc]
    exact (List.getElem?_append_left (List.getElem?_eq_some_iff.mp hslot).1).trans hslot
  · refine ⟨_, unlisted, rfl, fun id hid => ?_, fun id hid => ?_⟩
    · rcases (mem_merged horder).mp hid with hid | hid
      · exact .inr (mem_liveIds.mp (hsubmitted ▸ hid)).1
      · exact .inl (mem_liveIds.mp hid).1
    · have hid' := (hlive id).mp (List.mem_append_right _ hid)
      simpa [← hsubmitted, mem_liveIds, hid', and_comm] using hapart id hid
  · have hslots := slots_self submitted (merged submitted (liveIds live tabOrder) ++ unlisted) []
    rw [hfilter, List.append_nil] at hslots
    rw [setTabOrder_eq, liveIds_self hnodup fun id hid => (hlive id).mp hid, hsubmitted]
    rw [merged, hslots, hfilter, List.drop_length, List.append_nil, hself]
  · have hall := List.filter_eq_self.mpr fun id hid => decide_eq_true ((hlive id).mp hid)
    simp only [syncOrderWithProcesses, hself, hall]
    split
    next hnil =>
      rw [hnil] at hlive ⊢
      exact List.eq_nil_iff_forall_not_mem.mpr fun id hid => List.not_mem_nil ((hlive id).mpr hid)
    · rfl

end ClaudeHub.TabOrder
