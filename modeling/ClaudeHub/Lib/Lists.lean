import Mathlib.Data.List.Basic
import Mathlib.Data.List.Nodup

/-! # Lists used as ordered sets

Appending what is not there yet, and keeping or dropping the members of another
list. Each operation is described by the number of occurrences it leaves.
-/

namespace List

universe u

variable {α : Type u} [DecidableEq α]

/-- Append, in order, each item that the list does not hold yet. -/
def addNew (xs : List α) : List α → List α
  | [] => xs
  | y :: ys => (if y ∈ xs then xs else xs ++ [y]).addNew ys

/-- Drop the members of `ys`. -/
def without (xs ys : List α) : List α := xs.filter fun x => x ∉ ys

/-- Keep the members of `ys`. -/
def within (xs ys : List α) : List α := xs.filter fun x => x ∈ ys

/-- Keep the last `limit` items, all of them when there are fewer. -/
def keepLast {β : Type u} (limit : Nat) (xs : List β) : List β := xs.drop (xs.length - limit)

variable {xs : List α}

@[simp] theorem addNew_nil (xs : List α) : xs.addNew [] = xs := rfl

@[simp] theorem mem_addNew {xs ys : List α} {a : α} : a ∈ xs.addNew ys ↔ a ∈ xs ∨ a ∈ ys := by
  induction ys generalizing xs with
  | nil => simp
  | cons y ys ih =>
      rw [addNew, ih]
      by_cases hy : y ∈ xs
      · simp only [hy, if_true, mem_cons]
        constructor
        · rintro (h | h)
          · exact .inl h
          · exact .inr (.inr h)
        · rintro (h | rfl | h)
          · exact .inl h
          · exact .inl hy
          · exact .inr h
      · simp [hy, or_assoc]

@[simp] theorem mem_without {xs ys : List α} {a : α} : a ∈ xs.without ys ↔ a ∈ xs ∧ a ∉ ys := by
  simp [without]

@[simp] theorem mem_within {xs ys : List α} {a : α} : a ∈ xs.within ys ↔ a ∈ xs ∧ a ∈ ys := by
  simp [within]

@[simp] theorem without_nil (xs : List α) : xs.without [] = xs := by
  simp [without]

/-- Nothing is dropped where nothing would be kept. -/
theorem without_eq_self {ys : List α} (h : xs.within ys = []) : xs.without ys = xs := by
  refine filter_eq_self.mpr fun a ha => ?_
  have hnot : a ∉ xs.within ys := by simp [h]
  simpa [ha] using hnot

theorem count_addNew (xs ys : List α) (a : α) :
    (xs.addNew ys).count a = if a ∈ xs then xs.count a else if a ∈ ys then 1 else 0 := by
  induction ys generalizing xs with
  | nil =>
    by_cases ha : a ∈ xs
    · simp [ha]
    · simp [ha, count_eq_zero_of_not_mem ha]
  | cons y ys ih =>
    rw [addNew, ih]
    by_cases hy : y ∈ xs
    · by_cases ha : a ∈ xs
      · simp [hy, ha]
      · have hne : a ≠ y := fun h => ha (h ▸ hy)
        simp [hy, ha, hne]
    · by_cases ha : a ∈ xs
      · have hne : y ≠ a := fun h => hy (h ▸ ha)
        simp [hy, ha, hne]
      · by_cases hay : a = y
        · subst hay
          simp [ha, count_eq_zero_of_not_mem ha]
        · simp [hy, ha, hay]

theorem count_without (xs ys : List α) (a : α) :
    (xs.without ys).count a = if a ∈ ys then 0 else xs.count a := by
  by_cases ha : a ∈ ys
  · simp only [ha, if_true]
    exact count_eq_zero_of_not_mem fun h => (mem_without.1 h).2 ha
  · simp only [ha, if_false]
    exact count_filter (by simpa using ha)

omit [DecidableEq α] in
theorem Nodup.append_new (h : xs.Nodup) {y : α} (hnew : y ∉ xs) :
    (xs ++ [y]).Nodup := by
  simpa only [concat_eq_append] using h.concat hnew

theorem Nodup.addNew (h : xs.Nodup) (ys : List α) : (xs.addNew ys).Nodup := by
  induction ys generalizing xs with
  | nil => exact h
  | cons y ys ih =>
    rw [List.addNew]
    apply ih
    by_cases hy : y ∈ xs
    · simpa [hy] using h
    · simp only [hy, if_false]
      exact h.append_new hy

theorem Nodup.without (h : xs.Nodup) (ys : List α) : (xs.without ys).Nodup :=
  h.filter _

theorem Nodup.within (h : xs.Nodup) (ys : List α) : (xs.within ys).Nodup :=
  h.filter _

/-- What is taken out of a list can be put before the rest of it. -/
theorem Nodup.append_without {ys : List α} (h : xs.Nodup) (hys : ys.Nodup) :
    (ys ++ xs.without ys).Nodup := by
  apply hys.append (h.without ys)
  intro a ha hrest
  exact (mem_without.1 hrest).2 ha

theorem prefix_addNew (xs ys : List α) : xs <+: xs.addNew ys := by
  induction ys generalizing xs with
  | nil => exact prefix_refl xs
  | cons y ys ih =>
    rw [addNew]
    by_cases hy : y ∈ xs
    · simpa [hy] using ih xs
    · simp only [hy, if_false]
      exact (prefix_append xs [y]).trans (ih (xs ++ [y]))

/-- A fold of maxima is above its start and above every item. -/
theorem le_foldl_max {xs : List Nat} {start x : Nat} (h : x = start ∨ x ∈ xs) :
    x ≤ xs.foldl max start := by
  induction xs generalizing start x with
  | nil =>
    simp only [not_mem_nil, or_false] at h
    simp [h]
  | cons y ys ih =>
    rw [foldl_cons]
    rcases h with rfl | h
    · exact Nat.le_trans (Nat.le_max_left x y) (ih (.inl rfl))
    · rcases mem_cons.mp h with rfl | h
      · exact Nat.le_trans (Nat.le_max_right start x) (ih (.inl rfl))
      · exact ih (.inr h)

theorem foldl_max_eq_or_mem (xs : List Nat) (start : Nat) :
    xs.foldl max start = start ∨ xs.foldl max start ∈ xs := by
  induction xs generalizing start with
  | nil => exact .inl rfl
  | cons y ys ih =>
    rw [foldl_cons]
    rcases ih (max start y) with h | h
    · rw [h]
      rcases Nat.le_total start y with hle | hle
      · rw [Nat.max_eq_right hle]
        exact .inr (mem_cons_self ..)
      · exact .inl (Nat.max_eq_left hle)
    · exact .inr (mem_cons_of_mem _ h)

omit [DecidableEq α] in
/-- A front that leaves something has a last item. -/
theorem exists_take_of_lt {n : Nat} (hpos : 1 ≤ n) (h : n < xs.length) :
    ∃ front x rest, xs = front ++ x :: rest ∧ xs.take n = front ++ [x] := by
  obtain ⟨m, rfl⟩ := Nat.exists_eq_add_of_le' hpos
  have hm : m < xs.length := by omega
  refine ⟨xs.take m, xs[m], xs.drop (m + 1), ?_, ?_⟩
  · rw [← drop_eq_getElem_cons hm, take_append_drop]
  · rw [take_append_getElem hm]

omit [DecidableEq α] in
theorem mem_keepLast_of_sublist {some all : List α} {x : α} {limit : Nat} (hnodup : all.Nodup)
    (hsub : some.Sublist all) (hmem : x ∈ some) (hlast : x ∈ all.keepLast limit) :
    x ∈ some.keepLast limit := by
  unfold keepLast at hlast ⊢
  have hsplit := take_append_drop (all.length - limit) all
  rw [← hsplit] at hsub hnodup
  obtain ⟨front, back, rfl, hfront, hback⟩ := sublist_append_iff.mp hsub
  have hmem' : x ∈ back := (mem_append.mp hmem).resolve_left fun h =>
    absurd rfl ((nodup_append.mp hnodup).2.2 x (hfront.subset h) x hlast)
  have hlength := hback.length_le
  rw [length_drop] at hlength
  rw [drop_append_of_le_length (by rw [length_append]; omega)]
  exact mem_append_right _ hmem'

def MarksFirst (eligible marked : α → Bool) (xs : List α) : Prop :=
  xs.filter marked = (xs.filter eligible).take 1

omit [DecidableEq α] in
theorem MarksFirst.concat {eligible marked : α → Bool} {xs : List α} {x : α}
    (h : MarksFirst eligible marked xs) (hmark : marked x = (eligible x && !xs.any eligible)) :
    MarksFirst eligible marked (xs ++ [x]) := by
  unfold MarksFirst at h ⊢
  rw [filter_append, filter_append, h, filter_singleton, filter_singleton, hmark]
  cases hx : eligible x with
  | false => simp
  | true =>
    cases hany : xs.any eligible with
    | false =>
      have hnone : xs.filter eligible = [] :=
        filter_eq_nil_iff.mpr fun y hy => by simpa using any_eq_false.mp hany y hy
      rw [hnone]
      rfl
    | true =>
      obtain ⟨y, hy, heligible⟩ := any_eq_true.mp hany
      have hpos : 0 < (xs.filter eligible).length :=
        length_pos_of_mem (mem_filter.mpr ⟨hy, heligible⟩)
      rw [take_append_of_le_length hpos]
      simp

end List
