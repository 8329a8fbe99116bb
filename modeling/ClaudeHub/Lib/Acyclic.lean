import Mathlib.Data.Set.Finite.List
import Mathlib.Order.WellFounded

/-! # Relations without cycles on finitely many nodes -/

universe u

namespace Acyclic

open Relation

variable {α : Type u} {r : α → α → Prop} {nodes : List α}

/-- A relation without cycles that leads to finitely many nodes can be followed in an induction:
what holds of a node as soon as it holds of all that it is related to holds of every node. -/
theorem induction (hacyclic : ∀ a, ¬ TransGen r a a) (hnodes : ∀ {a b}, r a b → b ∈ nodes)
    {P : α → Prop} (h : ∀ a, (∀ b, r a b → P b) → P a) (a : α) : P a := by
  have hwf : WellFounded fun (a b : { a // a ∈ nodes }) => TransGen r b.1 a.1 := by
    have : Finite { a // a ∈ nodes } := List.finite_toSet nodes
    have : IsTrans { a // a ∈ nodes } fun a b => TransGen r b.1 a.1 :=
      ⟨fun a b c hab hbc => hbc.trans hab⟩
    have : Std.Irrefl fun (a b : { a // a ∈ nodes }) => TransGen r b.1 a.1 :=
      ⟨fun a => hacyclic a.1⟩
    exact Finite.wellFounded_of_trans_of_irrefl _
  have hnode : ∀ node : { a // a ∈ nodes }, P node.1 := by
    intro node
    induction node using hwf.induction with
    | h node ih =>
      apply h
      intro b hb
      exact ih ⟨b, hnodes hb⟩ (.single hb)
  exact h a fun b hb => hnode ⟨b, hnodes hb⟩

/-- Giving one node other targets, none of which leads back to it, makes no cycle. -/
theorem redirect {r' : α → α → Prop} {t : α} (hacyclic : ∀ a, ¬ TransGen r a a)
    (hsame : ∀ {a b}, a ≠ t → r' a b → r a b) (hnew : ∀ {b}, r' t b → ¬ ReflTransGen r b t) :
    ∀ a, ¬ TransGen r' a a := by
  -- What does not lead to the node keeps its own steps, and goes on not leading there.
  have hfree : ∀ {a b}, ¬ ReflTransGen r a t → TransGen r' a b →
      TransGen r a b ∧ ¬ ReflTransGen r b t := by
    intro a b ha hpath
    induction hpath with
    | single hstep =>
      have hold := hsame (fun heq => ha (heq ▸ .refl)) hstep
      exact ⟨.single hold, fun hback => ha (.head hold hback)⟩
    | tail _ hstep ih =>
      have hold := hsame (fun heq => ih.2 (heq ▸ .refl)) hstep
      exact ⟨ih.1.tail hold, fun hback => ih.2 (.head hold hback)⟩
  have hsplit : ∀ {a b}, TransGen r' a b →
      TransGen r a b ∨ ∃ c, ¬ ReflTransGen r c t ∧ ReflTransGen r' c b := by
    intro a b hpath
    induction hpath with
    | @single b hstep =>
      by_cases ha : a = t
      · subst ha
        exact .inr ⟨b, hnew hstep, .refl⟩
      · exact .inl (.single (hsame ha hstep))
    | @tail b c _ hstep ih =>
      by_cases hb : b = t
      · subst hb
        exact .inr ⟨c, hnew hstep, .refl⟩
      · rcases ih with hold | ⟨d, hd, hpath⟩
        · exact .inl (hold.tail (hsame hb hstep))
        · exact .inr ⟨d, hd, hpath.tail hstep⟩
  intro a hcycle
  rcases hsplit hcycle with hold | ⟨c, hc, hpath⟩
  · exact hacyclic a hold
  · have ha : ¬ ReflTransGen r a t := by
      rcases Relation.reflTransGen_iff_eq_or_transGen.mp hpath with rfl | hpath
      · exact hc
      · exact (hfree hc hpath).2
    exact hacyclic a (hfree ha hcycle).1

open Classical in
/-- A relation without cycles has a rank that every step lowers, no larger than the number of
nodes. -/
theorem exists_rank (hacyclic : ∀ a, ¬ TransGen r a a) (nodes : List α) :
    ∃ rank : α → Nat, (∀ a, rank a ≤ nodes.length) ∧
      ∀ {a b}, r a b → b ∈ nodes → rank b < rank a := by
  refine ⟨fun a => nodes.countP fun node => decide (TransGen r a node),
    fun a => List.countP_le_length, ?_⟩
  intro a b hstep hmem
  have hle : ∀ rest : List α, (rest.countP fun node => decide (TransGen r b node)) ≤
      rest.countP fun node => decide (TransGen r a node) := by
    intro rest
    apply List.countP_mono_left
    intro node _ hnode
    exact decide_eq_true (.head hstep (of_decide_eq_true hnode))
  obtain ⟨front, rest, rfl⟩ := List.append_of_mem hmem
  have hfront := hle front
  have hrest := hle rest
  have hself : decide (TransGen r b b) = false := decide_eq_false (hacyclic b)
  have hnext : decide (TransGen r a b) = true := decide_eq_true (.single hstep)
  simp only [List.countP_append, List.countP_cons, hself, hnext]
  simp only [Bool.false_eq_true, ↓reduceIte]
  omega

/-- A step from a node without steps to another one: what leads where. -/
theorem link_iff {r' : α → α → Prop} {t k : α} (hlink : ∀ a b, r' a b ↔ r a b ∨ a = t ∧ b = k)
    (hk : ∀ b, ¬ r k b) (hne : k ≠ t) {a x : α} :
    ReflTransGen r' a x ↔ ReflTransGen r a x ∨ x = k ∧ ReflTransGen r a t := by
  constructor
  · intro hpath
    induction hpath with
    | refl => exact .inl .refl
    | @tail b c _ hstep ih =>
      rcases (hlink b c).mp hstep with hold | ⟨rfl, rfl⟩
      · rcases ih with hpath | ⟨rfl, -⟩
        · exact .inl (hpath.tail hold)
        · exact absurd hold (hk c)
      · rcases ih with hpath | ⟨hsame, -⟩
        · exact .inr ⟨rfl, hpath⟩
        · exact absurd hsame.symm hne
  · have hmono : ∀ {b c}, ReflTransGen r b c → ReflTransGen r' b c := fun h =>
      ReflTransGen.mono (fun b c hold => (hlink b c).mpr (.inl hold)) _ _ h
    rintro (hpath | ⟨rfl, hpath⟩)
    · exact hmono hpath
    · exact (hmono hpath).tail ((hlink t x).mpr (.inr ⟨rfl, rfl⟩))

end Acyclic
