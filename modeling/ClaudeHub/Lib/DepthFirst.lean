import Mathlib.Algebra.GroupWithZero.Nat
import Mathlib.Algebra.Order.BigOperators.Group.List
import Mathlib.Algebra.Order.Group.Nat
import ClaudeHub.Lib.Acyclic

/-! # Depth-first search with an explicit stack

The search enters the nodes on its stack and stops at a node that it is still in or that
has no successors. The second mark of an entry says that the node is left. It comes to its
end exactly when all that it reaches has successors and lies on no cycle.
-/

universe u v

namespace DepthFirst

open Relation

variable {α : Type u} {ε : Type v}

/-- The nodes that the search is in, those that it has left, and its stack, the top first. -/
def search [DecidableEq α] (successors : α → Except ε (List α)) (cycle : ε) :
    Nat → List α → List α → List (α × Bool) → Option (Except ε Unit)
  | _, _, _, [] => some (.ok ())
  | 0, _, _, _ :: _ => none
  | fuel + 1, active, visited, (node, true) :: stack =>
    search successors cycle fuel (active.erase node) (node :: visited) stack
  | fuel + 1, active, visited, (node, false) :: stack =>
    if node ∈ active then some (.error cycle)
    else if node ∈ visited then search successors cycle fuel active visited stack
    else
      match successors node with
      | .error e => some (.error e)
      | .ok next =>
        search successors cycle fuel (node :: active) visited
          (next.map (fun item => (item, false)) ++ (node, true) :: stack)

attribute [local simp] search

variable {successors : α → Except ε (List α)} {cycle : ε} {barred : α} {nodes roots : List α}

/-- The second node is a successor of the first. -/
def Leads (successors : α → Except ε (List α)) (a b : α) : Prop :=
  ∃ next, successors a = .ok next ∧ b ∈ next

/-- All that the node leads to has successors, and no way from it is without end or comes to the
barred node. -/
inductive Settled (successors : α → Except ε (List α)) (barred : α) : α → Prop
  | mk {node : α} {next : List α} (hnext : successors node = .ok next) (hne : node ≠ barred)
      (hall : ∀ item ∈ next, Settled successors barred item) : Settled successors barred node

theorem Settled.step {a b : α} (h : Settled successors barred a) (hleads : Leads successors a b) :
    Settled successors barred b := by
  obtain ⟨next, hnext, hmem⟩ := hleads
  cases h with
  | mk hnext' _ hall =>
    cases hnext.symm.trans hnext'
    exact hall b hmem

theorem Settled.steps {a b : α} (h : Settled successors barred a)
    (hleads : ReflTransGen (Leads successors) a b) : Settled successors barred b := by
  induction hleads with
  | refl => exact h
  | tail _ hstep ih => exact ih.step hstep

theorem Settled.ne_barred {a : α} (h : Settled successors barred a) : a ≠ barred := by
  cases h
  assumption

theorem Settled.acyclic {a : α} (h : Settled successors barred a) :
    ¬ TransGen (Leads successors) a a := by
  induction h with
  | @mk node next hnext hne hall ih =>
    intro hcycle
    obtain ⟨item, ⟨next', hnext', hmem⟩, hback⟩ := TransGen.head'_iff.mp hcycle
    cases hnext.symm.trans hnext'
    exact ih item hmem (TransGen.tail' hback ⟨next, hnext, hmem⟩)

/-- What is reached from the roots has successors, does not lead to the barred node, and is not
on a cycle. -/
def Sound (successors : α → Except ε (List α)) (barred : α) (roots : List α) : Prop :=
  ∀ root ∈ roots, ∀ node, ReflTransGen (Leads successors) root node →
    (∃ next, successors node = .ok next) ∧ ¬ ReflTransGen (Leads successors) node barred ∧
      ¬ TransGen (Leads successors) node node

theorem settled_iff (hnodes : ∀ {node next}, successors node = .ok next → node ∈ nodes) :
    (∀ root ∈ roots, Settled successors barred root) ↔ Sound successors barred roots := by
  constructor
  · intro h root hroot node hreached
    have hnode := (h root hroot).steps hreached
    refine ⟨?_, fun hback => (hnode.steps hback).ne_barred rfl, hnode.acyclic⟩
    cases hnode with
    | mk hnext _ _ => exact ⟨_, hnext⟩
  · intro h root hroot
    have hacyclic : ∀ a, ¬ TransGen
        (fun a b => ReflTransGen (Leads successors) root a ∧ Leads successors a b) a a := by
      intro a hcycle
      obtain ⟨_, ⟨hreached, _⟩, _⟩ := TransGen.head'_iff.mp hcycle
      exact (h root hroot a hreached).2.2 (TransGen.mono (fun _ _ hstep => hstep.2) _ _ hcycle)
    have htargets : ∀ {a b}, (ReflTransGen (Leads successors) root a ∧ Leads successors a b) →
        b ∈ nodes := by
      rintro a b ⟨hreached, hleads⟩
      obtain ⟨next, hnext⟩ := (h root hroot b (hreached.tail hleads)).1
      exact hnodes hnext
    have hall : ∀ a, ReflTransGen (Leads successors) root a → Settled successors barred a := by
      refine Acyclic.induction hacyclic htargets ?_
      intro a ih hreached
      obtain ⟨⟨next, hnext⟩, hbarred, -⟩ := h root hroot a hreached
      refine .mk hnext (fun heq => hbarred (heq ▸ .refl)) fun item hitem => ?_
      have hleads : Leads successors a item := ⟨next, hnext, hitem⟩
      exact ih item ⟨hreached, hleads⟩ (hreached.tail hleads)
    exact hall root .refl

variable [DecidableEq α]

/-- How much entering a node puts on the stack. -/
def weight (successors : α → Except ε (List α)) (node : α) : Nat :=
  match successors node with
  | .ok next => next.length + 1
  | .error _ => 0

/-- What is left to do: the stack, and for each node not entered its successors and its end. -/
def work (successors : α → Except ε (List α)) (nodes entered : List α)
    (stack : List (α × Bool)) : Nat :=
  stack.length + (nodes.map fun node => if node ∈ entered then 0 else weight successors node).sum

theorem sum_enter {entered : List α} {node : α} (hmem : node ∈ nodes) (hnew : node ∉ entered) :
    (nodes.map fun item => if item ∈ node :: entered then 0 else weight successors item).sum +
        weight successors node ≤
      (nodes.map fun item => if item ∈ entered then 0 else weight successors item).sum := by
  have hle : ∀ item, (if item ∈ node :: entered then 0 else weight successors item) ≤
      if item ∈ entered then 0 else weight successors item := by
    intro item
    by_cases hin : item ∈ entered
    · simp [hin]
    · simp only [hin, if_false]
      split <;> omega
  induction nodes with
  | nil => simp at hmem
  | cons item rest ih =>
    simp only [List.map_cons, List.sum_cons]
    rcases List.mem_cons.mp hmem with rfl | hrest
    · have hrest := List.sum_le_sum (l := rest) fun item _ => hle item
      simp only [List.mem_cons_self, if_true, hnew, if_false]
      omega
    · have hhead := hle item
      have htail := ih hrest
      omega

/-- With as many turns as there is work the search comes to a result. -/
theorem search_isSome (hnodes : ∀ {node next}, successors node = .ok next → node ∈ nodes)
    {fuel : Nat} {active visited entered : List α} {stack : List (α × Bool)}
    (hentered : ∀ node ∈ entered, node ∈ active ∨ node ∈ visited)
    (hfuel : work successors nodes entered stack ≤ fuel) :
    ∃ result, search successors cycle fuel active visited stack = some result := by
  induction fuel generalizing active visited entered stack with
  | zero =>
    cases stack with
    | nil => exact ⟨.ok (), by simp [search]⟩
    | cons => simp [work] at hfuel
  | succ fuel ih =>
    match stack with
    | [] => exact ⟨.ok (), by simp [search]⟩
    | (node, true) :: stack =>
      simp only [search]
      apply @ih _ _ entered
      · intro other hother
        by_cases hsame : other = node
        · exact .inr (hsame ▸ List.mem_cons_self)
        · rcases hentered other hother with hactive | hvisited
          · exact .inl ((List.mem_erase_of_ne hsame).mpr hactive)
          · exact .inr (List.mem_cons_of_mem _ hvisited)
      · simp only [work, List.length_cons] at hfuel ⊢
        omega
    | (node, false) :: stack =>
      simp only [search]
      split
      · exact ⟨_, rfl⟩
      next hactive =>
        split
        · apply ih hentered
          simp only [work, List.length_cons] at hfuel ⊢
          omega
        next hvisited =>
          cases hnext : successors node with
          | error => exact ⟨_, rfl⟩
          | ok next =>
            apply @ih _ _ (node :: entered)
            · intro other hother
              rcases List.mem_cons.mp hother with rfl | hother
              · exact .inl List.mem_cons_self
              · rcases hentered other hother with hin | hleft
                · exact .inl (List.mem_cons_of_mem _ hin)
                · exact .inr hleft
            · have hnew : node ∉ entered := fun hin => by
                rcases hentered node hin with hin | hin
                · exact hactive hin
                · exact hvisited hin
              have hsum := @sum_enter _ _ successors nodes _ entered node (hnodes hnext) hnew
              have hweight : weight successors node = next.length + 1 := by
                simp [weight, hnext]
              simp only [work, List.length_cons, List.length_append, List.length_map]
                at hfuel ⊢
              omega

/-- More turns do not change the result. -/
theorem search_mono {fuel more : Nat} {active visited : List α} {stack : List (α × Bool)}
    {result : Except ε Unit} (hle : fuel ≤ more)
    (h : search successors cycle fuel active visited stack = some result) :
    search successors cycle more active visited stack = some result := by
  induction fuel generalizing more active visited stack with
  | zero =>
    cases stack with
    | nil => simpa [search] using h
    | cons => simp [search] at h
  | succ fuel ih =>
    obtain ⟨more, rfl⟩ : ∃ n, more = n + 1 := ⟨more - 1, by omega⟩
    have hle : fuel ≤ more := by omega
    match stack with
    | [] => simpa [search] using h
    | (node, true) :: stack =>
      simp only [search] at h ⊢
      exact ih hle h
    | (node, false) :: stack =>
      simp only [search] at h ⊢
      split
      next hactive => simpa [hactive] using h
      next hactive =>
        rw [if_neg hactive] at h
        split
        next hvisited =>
          rw [if_pos hvisited] at h
          exact ih hle h
        next hvisited =>
          rw [if_neg hvisited] at h
          cases hnext : successors node with
          | error => simpa [hnext] using h
          | ok =>
            simp only [hnext] at h ⊢
            exact ih hle h

theorem settled_of_search {fuel : Nat} {active visited items : List α}
    {stack : List (α × Bool)} (hbarred : barred ∈ active)
    (hvisited : ∀ node ∈ visited, Settled successors barred node)
    (h : search successors cycle fuel active visited
      (items.map (fun item => (item, false)) ++ stack) = some (.ok ())) :
    (∀ item ∈ items, Settled successors barred item) ∧ ∃ less left, less ≤ fuel ∧
      (∀ node ∈ left, Settled successors barred node) ∧
        search successors cycle less active left stack = some (.ok ()) := by
  induction fuel using Nat.strong_induction_on generalizing active visited items stack with
  | _ fuel ih =>
    cases items with
    | nil => exact ⟨by simp, fuel, visited, le_rfl, hvisited, h⟩
    | cons node =>
      cases fuel with
      | zero => simp [search] at h
      | succ fuel =>
        simp only [List.map_cons, List.cons_append, search] at h
        split at h
        · simp at h
        next hactive =>
          split at h
          next hleft =>
            obtain ⟨hitems, less, left, hle, hrest⟩ :=
              ih fuel (by omega) hbarred hvisited h
            exact ⟨List.forall_mem_cons.mpr ⟨hvisited node hleft, hitems⟩, less, left,
              by omega, hrest⟩
          next hnew =>
            cases hnext : successors node with
            | error => simp [hnext] at h
            | ok =>
              simp only [hnext] at h
              obtain ⟨hall, less, left, hle, hleft, h⟩ :=
                ih fuel (by omega) (List.mem_cons_of_mem _ hbarred) hvisited h
              have hnode : Settled successors barred node :=
                .mk hnext (fun heq => hactive (heq ▸ hbarred)) hall
              cases less with
              | zero => simp [search] at h
              | succ less =>
                simp only [search, List.erase_cons_head] at h
                obtain ⟨hitems, less', left', hle', hrest⟩ :=
                  ih less (by omega) hbarred (List.forall_mem_cons.mpr ⟨hnode, hleft⟩) h
                exact ⟨List.forall_mem_cons.mpr ⟨hnode, hitems⟩, less', left', by omega,
                  hrest⟩

theorem Settled.search {node : α} (h : Settled successors barred node) :
    ∀ {active visited : List α} {stack : List (α × Bool)},
      (∀ a ∈ active, ¬ ReflTransGen (Leads successors) node a) →
        ∃ turns left, ∀ fuel, DepthFirst.search successors cycle (fuel + turns) active visited
          ((node, false) :: stack) = DepthFirst.search successors cycle fuel active left stack := by
  have hacyclic := h.acyclic
  induction h with
  | @mk node next hnext hne hall ih =>
    intro active visited stack hfree
    have hactive : node ∉ active := fun hmem => hfree node hmem .refl
    by_cases hvisited : node ∈ visited
    · refine ⟨1, visited, fun fuel => ?_⟩
      rw [DepthFirst.search, if_neg hactive, if_pos hvisited]
    · have hitems : ∀ items : List α, items ⊆ next → ∀ visited : List α, ∃ turns left,
          ∀ fuel, DepthFirst.search successors cycle (fuel + turns) (node :: active) visited
            (items.map (fun item => (item, false)) ++ (node, true) :: stack) =
            DepthFirst.search successors cycle fuel (node :: active) left
              ((node, true) :: stack) := by
        intro items hsub
        induction items with
        | nil => exact fun visited => ⟨0, visited, fun fuel => rfl⟩
        | cons item items ihitems =>
          intro visited
          obtain ⟨hmem, hrest⟩ := List.cons_subset.mp hsub
          have hleads : Leads successors node item := ⟨next, hnext, hmem⟩
          have hfree' : ∀ a ∈ node :: active, ¬ ReflTransGen (Leads successors) item a := by
            intro a ha hreach
            rcases List.mem_cons.mp ha with rfl | ha
            · exact hacyclic (TransGen.head' hleads hreach)
            · exact hfree a ha (.head hleads hreach)
          obtain ⟨turns, left, hturns⟩ := ih item hmem (hall item hmem).acyclic hfree'
          obtain ⟨turns', left', hturns'⟩ := ihitems hrest left
          refine ⟨turns' + turns, left', fun fuel => ?_⟩
          rw [← Nat.add_assoc, List.map_cons, List.cons_append, hturns, hturns']
      obtain ⟨turns, left, hturns⟩ := hitems next (List.Subset.refl _) visited
      refine ⟨turns + 1 + 1, node :: left, fun fuel => ?_⟩
      have hstep : fuel + (turns + 1 + 1) = fuel + 1 + turns + 1 := by omega
      rw [hstep, DepthFirst.search, if_neg hactive, if_neg hvisited, hnext]
      simp only
      rw [hturns, DepthFirst.search, List.erase_cons_head]

theorem search_of_settled (hroots : ∀ root ∈ roots, Settled successors barred root)
    (visited : List α) : ∃ fuel, search successors cycle fuel [barred] visited
      (roots.map fun root => (root, false)) = some (.ok ()) := by
  induction roots generalizing visited with
  | nil => exact ⟨0, by simp [search]⟩
  | cons root roots ih =>
    obtain ⟨hroot, hrest⟩ := List.forall_mem_cons.mp hroots
    have hfree : ∀ a ∈ [barred], ¬ ReflTransGen (Leads successors) root a := by
      intro a ha hreach
      exact (hroot.steps hreach).ne_barred (List.mem_singleton.mp ha)
    obtain ⟨turns, left, hturns⟩ := @Settled.search _ _ successors cycle barred _ root hroot
      [barred] visited (roots.map fun root => (root, false)) hfree
    obtain ⟨fuel, hfuel⟩ := ih hrest left
    exact ⟨fuel + turns, by rw [List.map_cons, hturns, hfuel]⟩

/-- The search from the roots ends, and finds nothing amiss exactly when all that the roots lead
to is sound. -/
theorem search_iff (hnodes : ∀ {node next}, successors node = .ok next → node ∈ nodes)
    {fuel : Nat} (hfuel : work successors nodes [] (roots.map fun root => (root, false)) ≤ fuel) :
    ∃ result, search successors cycle fuel [barred] [] (roots.map fun root => (root, false)) =
      some result ∧ (result = .ok () ↔ Sound successors barred roots) := by
  obtain ⟨result, hresult⟩ : ∃ result, search successors cycle fuel [barred] []
      (roots.map fun root => (root, false)) = some result :=
    search_isSome hnodes (by simp) hfuel
  refine ⟨result, hresult, ?_⟩
  rw [← settled_iff hnodes]
  constructor
  · rintro rfl
    have h : search successors cycle fuel [barred] []
        (roots.map (fun root => (root, false)) ++ []) = some (.ok ()) := by
      rw [List.append_nil]
      exact hresult
    exact (settled_of_search (List.mem_singleton.mpr rfl) (by simp) h).1
  · intro hroots
    obtain ⟨enough, henough⟩ : ∃ enough, search successors cycle enough [barred] []
        (roots.map fun root => (root, false)) = some (.ok ()) := search_of_settled hroots []
    have hmore := search_mono (Nat.le_max_left enough fuel) henough
    have hmore' := search_mono (Nat.le_max_right enough fuel) hresult
    exact Option.some.inj (hmore'.symm.trans hmore)

end DepthFirst
