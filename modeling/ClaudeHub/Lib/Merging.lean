import Mathlib.Logic.Relation
import Mathlib.Data.List.Induction

/-! # Merging and delaying in a sequence

`Merges` relates a sequence to what is left of it when neighbours are joined and empty items
are dropped, in any order. `Delays` relates it to what it becomes when items of one class fall
behind neighbours of the other class. Both are closures of a rewriting at one place, so they
compose, and they act on any part of a sequence.
-/

namespace Merging

open Relation

universe u v

variable {α : Type u}

section Merges

variable (empty : α → Prop) (join : α → α → Option α)

/-- Drop an empty item, or join two neighbours. -/
inductive MergeStep : List α → List α → Prop
  | drop (pre : List α) {a : α} (post : List α) (h : empty a) :
      MergeStep (pre ++ a :: post) (pre ++ post)
  | join (pre : List α) {a b c : α} (post : List α) (h : join a b = some c) :
      MergeStep (pre ++ a :: b :: post) (pre ++ c :: post)

def Merges : List α → List α → Prop := ReflTransGen (MergeStep empty join)

variable {empty join} {xs ys zs : List α}

theorem MergeStep.append (h : MergeStep empty join xs ys) (pre post : List α) :
    MergeStep empty join (pre ++ xs ++ post) (pre ++ ys ++ post) := by
  cases h with
  | drop inner outer hempty =>
    simpa using @MergeStep.drop _ _ join (pre ++ inner) _ (outer ++ post) hempty
  | join inner outer hjoin =>
    simpa using @MergeStep.join _ empty _ (pre ++ inner) _ _ _ (outer ++ post) hjoin

namespace Merges

theorem refl (xs : List α) : Merges empty join xs xs := ReflTransGen.refl

theorem trans (h : Merges empty join xs ys) (h' : Merges empty join ys zs) :
    Merges empty join xs zs :=
  ReflTransGen.trans h h'

theorem drop (pre : List α) {a : α} (post : List α) (h : empty a) :
    Merges empty join (pre ++ a :: post) (pre ++ post) :=
  ReflTransGen.single (.drop pre post h)

theorem joins (pre : List α) {a b c : α} (post : List α) (h : join a b = some c) :
    Merges empty join (pre ++ a :: b :: post) (pre ++ c :: post) :=
  ReflTransGen.single (.join pre post h)

theorem append (h : Merges empty join xs ys) (pre post : List α) :
    Merges empty join (pre ++ xs ++ post) (pre ++ ys ++ post) := by
  induction h with
  | refl => exact refl _
  | tail _ hstep ih => exact ReflTransGen.tail ih (hstep.append pre post)

theorem append_left (h : Merges empty join xs ys) (pre : List α) :
    Merges empty join (pre ++ xs) (pre ++ ys) := by
  simpa using h.append pre []

theorem append_right (h : Merges empty join xs ys) (post : List α) :
    Merges empty join (xs ++ post) (ys ++ post) := by
  simpa using h.append [] post

/-- What every item carries, in order, is kept by merging when joining concatenates it and an
empty item carries nothing. -/
theorem flatMap_eq {β : Type v} (f : α → List β) (hempty : ∀ a, empty a → f a = [])
    (hjoin : ∀ a b c, join a b = some c → f c = f a ++ f b) (h : Merges empty join xs ys) :
    ys.flatMap f = xs.flatMap f := by
  induction h with
  | refl => rfl
  | tail _ hstep ih =>
    rw [← ih]
    cases hstep with
    | drop pre post ha => simp [hempty _ ha]
    | join pre post hab => simp [hjoin _ _ _ hab]

/-- An item that takes no part in merging divides the result as it divides the start. -/
theorem split {e : α} (hempty : ¬ empty e) (hleft : ∀ b, join e b = none)
    (hright : ∀ a, join a e = none) {pre post : List α}
    (h : Merges empty join (pre ++ e :: post) zs) :
    ∃ pre' post', zs = pre' ++ e :: post' ∧ Merges empty join pre pre'
      ∧ Merges empty join post post' := by
  induction h with
  | refl => exact ⟨pre, post, rfl, refl _, refl _⟩
  | tail _ hstep ih =>
    obtain ⟨pre', post', rfl, hpre, hpost⟩ := ih
    generalize hall : pre' ++ e :: post' = all at hstep
    cases hstep with
    | @drop inner a outer ha =>
      rcases List.append_eq_append_iff.mp hall with ⟨gap, rfl, hgap⟩ | ⟨gap, rfl, hgap⟩
      · cases gap with
        | nil =>
          obtain ⟨rfl, rfl⟩ := List.cons.inj hgap
          exact absurd ha hempty
        | cons first gap =>
          obtain ⟨rfl, rfl⟩ := List.cons.inj hgap
          exact ⟨pre', gap ++ outer, by simp, hpre, hpost.trans (drop gap outer ha)⟩
      · cases gap with
        | nil =>
          obtain ⟨rfl, rfl⟩ := List.cons.inj hgap
          exact absurd ha hempty
        | cons first gap =>
          obtain ⟨rfl, rfl⟩ := List.cons.inj hgap
          exact ⟨inner ++ gap, post', by simp, hpre.trans (drop inner gap ha), hpost⟩
    | @join inner a b c outer hab =>
      rcases List.append_eq_append_iff.mp hall with ⟨gap, rfl, hgap⟩ | ⟨gap, rfl, hgap⟩
      · cases gap with
        | nil =>
          obtain ⟨rfl, -⟩ := List.cons.inj hgap
          exact absurd (hleft b) (by simp [hab])
        | cons first gap =>
          obtain ⟨rfl, rfl⟩ := List.cons.inj hgap
          exact ⟨pre', gap ++ c :: outer, by simp, hpre,
            hpost.trans (joins gap outer hab)⟩
      · cases gap with
        | nil =>
          obtain ⟨rfl, -⟩ := List.cons.inj hgap
          exact absurd (hleft b) (by simp [hab])
        | cons first gap =>
          obtain ⟨rfl, hrest⟩ := List.cons.inj hgap
          cases gap with
          | nil =>
            obtain ⟨rfl, rfl⟩ := List.cons.inj hrest
            exact absurd (hright a) (by simp [hab])
          | cons second gap =>
            obtain ⟨rfl, rfl⟩ := List.cons.inj hrest
            exact ⟨inner ++ c :: gap, post', by simp, hpre.trans (joins inner gap hab),
              hpost⟩

end Merges

end Merges

section Delays

variable (late : α → Bool)

/-- A late item falls behind its neighbour. -/
inductive DelayStep : List α → List α → Prop
  | swap (pre : List α) {a b : α} (post : List α) (ha : late a = true) (hb : late b = false) :
      DelayStep (pre ++ a :: b :: post) (pre ++ b :: a :: post)

/-- What becomes of a sequence when late items fall behind. -/
def Delays : List α → List α → Prop := ReflTransGen (DelayStep late)

variable {late} {xs ys zs : List α}

theorem DelayStep.append_right (h : DelayStep late xs ys) (post : List α) :
    DelayStep late (xs ++ post) (ys ++ post) := by
  cases h with
  | swap inner outer ha hb => simpa using DelayStep.swap inner (outer ++ post) ha hb

namespace Delays

theorem refl (xs : List α) : Delays late xs xs := ReflTransGen.refl

theorem trans (h : Delays late xs ys) (h' : Delays late ys zs) : Delays late xs zs :=
  ReflTransGen.trans h h'

theorem append_right (h : Delays late xs ys) (post : List α) :
    Delays late (xs ++ post) (ys ++ post) := by
  induction h with
  | refl => exact refl _
  | tail _ hstep ih => exact ReflTransGen.tail ih (hstep.append_right post)

theorem overtake (pre : List α) {waiting : List α} (hwaiting : ∀ a ∈ waiting, late a = true)
    {b : α} (hb : late b = false) : Delays late (pre ++ waiting ++ [b]) (pre ++ b :: waiting) := by
  induction waiting using List.reverseRecOn with
  | nil =>
    rw [List.append_nil]
    exact refl _
  | append_singleton waiting a ih =>
    have ha : late a = true := hwaiting a (by simp)
    have hswap : Delays late (pre ++ waiting ++ a :: b :: []) (pre ++ waiting ++ b :: a :: []) :=
      ReflTransGen.single (.swap (pre ++ waiting) [] ha hb)
    have hrest := (ih fun c hc => hwaiting c (by simp [hc])).append_right [a]
    simpa using hswap.trans (by simpa using hrest)

/-- What the items of one class carry keeps its order. -/
theorem flatMap_eq {β : Type v} (f : α → List β)
    (hclass : ∀ a b, late a = true → late b = false → f a = [] ∨ f b = [])
    (h : Delays late xs ys) : ys.flatMap f = xs.flatMap f := by
  induction h with
  | refl => rfl
  | tail _ hstep ih =>
    rw [← ih]
    cases hstep with
    | swap pre post ha hb =>
      rcases hclass _ _ ha hb with hnil | hnil <;> simp [hnil]

/-- A late item keeps behind it none of the items that were ahead of it, and as many late
ones ahead. -/
theorem split {e : α} (he : late e = true) {pre post : List α}
    (h : Delays late (pre ++ e :: post) zs) :
    ∃ pre' post', zs = pre' ++ e :: post' ∧ pre'.filter late = pre.filter late
      ∧ (pre.filter fun a => !late a) <+: pre'.filter fun a => !late a := by
  induction h with
  | refl => exact ⟨pre, post, rfl, rfl, List.prefix_refl _⟩
  | tail _ hstep ih =>
    obtain ⟨pre', post', rfl, hlate, hahead⟩ := ih
    generalize hall : pre' ++ e :: post' = all at hstep
    cases hstep with
    | @swap inner a b outer ha hb =>
      rcases List.append_eq_append_iff.mp hall with ⟨gap, rfl, hgap⟩ | ⟨gap, rfl, hgap⟩
      · cases gap with
        | nil =>
          obtain ⟨rfl, rfl⟩ := List.cons.inj hgap
          refine ⟨pre' ++ [b], outer, by simp, by simpa [hb] using hlate, ?_⟩
          refine hahead.trans ?_
          rw [List.filter_append]
          exact List.prefix_append _ _
        | cons first gap =>
          obtain ⟨rfl, rfl⟩ := List.cons.inj hgap
          exact ⟨pre', gap ++ b :: a :: outer, by simp, hlate, hahead⟩
      · cases gap with
        | nil =>
          obtain ⟨rfl, rfl⟩ := List.cons.inj hgap
          refine ⟨inner ++ [b], outer, by simp, by simpa [hb] using hlate, ?_⟩
          refine hahead.trans ?_
          simp only [List.append_nil, List.filter_append]
          exact List.prefix_append _ _
        | cons first gap =>
          obtain ⟨rfl, hrest⟩ := List.cons.inj hgap
          cases gap with
          | nil =>
            obtain ⟨rfl, rfl⟩ := List.cons.inj hrest
            simp [he] at hb
          | cons second gap =>
            obtain ⟨rfl, rfl⟩ := List.cons.inj hrest
            refine ⟨inner ++ b :: a :: gap, post', by simp, ?_, ?_⟩
            · simpa [ha, hb] using hlate
            · simpa [ha, hb] using hahead

end Delays

end Delays

section Neighbours

variable (join : α → α → Option α)

/-- One item more, joined to the last one where that is possible. -/
def mergeNext (done : List α) (a : α) : List α :=
  match done.getLast? with
  | none => done ++ [a]
  | some last =>
    match join last a with
    | some joined => done.dropLast ++ [joined]
    | none => done ++ [a]

/-- Every item joined to its neighbour in front, from the first to the last. -/
def mergeNeighbours (xs : List α) : List α := xs.foldl (mergeNext join) []

/-- What becomes of the items behind one that is still open. -/
def mergeFrom : α → List α → List α
  | a, [] => [a]
  | a, b :: xs =>
    match join a b with
    | some joined => mergeFrom joined xs
    | none => a :: mergeFrom b xs

variable {join} {a : α} {xs ys done : List α}

theorem foldl_mergeNext : xs.foldl (mergeNext join) (done ++ [a]) = done ++ mergeFrom join a xs := by
  induction xs generalizing done a with
  | nil => rfl
  | cons b xs ih =>
    rw [List.foldl_cons, mergeFrom, mergeNext, List.getLast?_concat]
    dsimp only
    cases hjoin : join a b with
    | some =>
      dsimp only
      rw [List.dropLast_concat, ih]
    | none =>
      dsimp only
      rw [ih, List.append_assoc, List.singleton_append]

theorem mergeNeighbours_cons : mergeNeighbours join (a :: xs) = mergeFrom join a xs :=
  @foldl_mergeNext α join a xs []

/-- No item can be joined to its neighbour. -/
def Separate (join : α → α → Option α) (xs : List α) : Prop :=
  xs.IsChain fun a b => join a b = none

theorem mergeFrom_of_separate (h : Separate join (a :: xs)) : mergeFrom join a xs = a :: xs := by
  induction xs generalizing a with
  | nil => rfl
  | cons b xs ih =>
    obtain ⟨hjoin, hrest⟩ := List.isChain_cons_cons.mp h
    rw [mergeFrom, hjoin]
    dsimp only
    rw [ih hrest]

theorem mergeNeighbours_of_separate (h : Separate join xs) : mergeNeighbours join xs = xs := by
  cases xs with
  | nil => rfl
  | cons =>
    rw [mergeNeighbours_cons]
    exact mergeFrom_of_separate h

variable (hkeep : ∀ first a b joined, join a b = some joined → join first a = none →
  join first joined = none)

include hkeep

theorem separate_cons_mergeFrom {first : α} (h : join first a = none) :
    Separate join (first :: mergeFrom join a xs) := by
  induction xs generalizing first a with
  | nil => exact List.isChain_cons_cons.mpr ⟨h, .singleton a⟩
  | cons b xs ih =>
    rw [mergeFrom]
    cases hjoin : join a b with
    | some joined => exact ih (hkeep first a b joined hjoin h)
    | none => exact List.isChain_cons_cons.mpr ⟨h, ih hjoin⟩

theorem separate_mergeNeighbours : Separate join (mergeNeighbours join xs) := by
  cases xs with
  | nil => exact .nil
  | cons a xs =>
    rw [mergeNeighbours_cons]
    induction xs generalizing a with
    | nil => exact .singleton a
    | cons b xs ih =>
      rw [mergeFrom]
      cases hjoin : join a b with
      | some joined => exact ih joined
      | none => exact separate_cons_mergeFrom hkeep hjoin

theorem mergeNeighbours_idem :
    mergeNeighbours join (mergeNeighbours join xs) = mergeNeighbours join xs :=
  mergeNeighbours_of_separate (separate_mergeNeighbours hkeep)

/-- The front of a list can be merged first. -/
theorem mergeNeighbours_append :
    mergeNeighbours join (mergeNeighbours join xs ++ ys) = mergeNeighbours join (xs ++ ys) := by
  have hfront : (mergeNeighbours join xs).foldl (mergeNext join) [] = mergeNeighbours join xs :=
    mergeNeighbours_idem hkeep
  rw [mergeNeighbours, List.foldl_append, hfront, mergeNeighbours, mergeNeighbours,
    List.foldl_append]

end Neighbours

end Merging
