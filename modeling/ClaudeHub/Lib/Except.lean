import Mathlib.Data.List.Forall2

/-! # Inversion for computations that may raise -/

universe u v w

namespace Except

variable {ε : Type u} {α β : Type v}

theorem bind_ok_iff {x : Except ε α} {f : α → Except ε β} {b : β} :
    x >>= f = .ok b ↔ ∃ a, x = .ok a ∧ f a = .ok b := by
  cases x with
  | error => simp [bind, Except.bind]
  | ok => simp [bind, Except.bind]

theorem pure_ok_iff {a b : α} : (pure a : Except ε α) = .ok b ↔ a = b := by
  simp [pure, Except.pure]

theorem map_ok_iff {x : Except ε α} {f : α → β} {b : β} :
    x.map f = .ok b ↔ ∃ a, x = .ok a ∧ f a = b := by
  cases x with
  | error => simp [Except.map]
  | ok => simp [Except.map]

/-- A property that each turn of a raising loop preserves holds when it returns. -/
theorem foldlM_invariant {γ : Type w} {P : β → Prop} {f : β → γ → Except ε β} {items : List γ}
    {b b' : β} (hstep : ∀ b item b', P b → f b item = .ok b' → P b') (hinit : P b)
    (h : items.foldlM f b = .ok b') : P b' := by
  induction items generalizing b with
  | nil =>
    obtain rfl : b = b' := pure_ok_iff.1 h
    exact hinit
  | cons item items ih =>
    rw [List.foldlM_cons] at h
    obtain ⟨mid, hmid, hrest⟩ := bind_ok_iff.1 h
    exact ih (hstep b item mid hinit hmid) hrest

/-- A loop that collects what each item gives returns where every item does. -/
theorem mapM_ok_iff {γ : Type v} {f : γ → Except ε β} {items : List γ} {results : List β} :
    items.mapM f = .ok results ↔ List.Forall₂ (fun item b => f item = .ok b) items results := by
  induction items generalizing results with
  | nil =>
    rw [List.mapM_nil, pure_ok_iff, List.forall₂_nil_left_iff, eq_comm]
  | cons item items ih =>
    rw [List.mapM_cons, bind_ok_iff, List.forall₂_cons_left_iff]
    constructor
    · rintro ⟨b, hb, hrest⟩
      obtain ⟨bs, hbs, hresult⟩ := bind_ok_iff.1 hrest
      exact ⟨b, bs, hb, ih.mp hbs, (pure_ok_iff.1 hresult).symm⟩
    · rintro ⟨b, bs, hb, hbs, rfl⟩
      refine ⟨b, hb, ?_⟩
      rw [bind_ok_iff]
      exact ⟨bs, ih.mpr hbs, rfl⟩

instance decidableForallOk {p : α → Prop} [∀ a, Decidable (p a)] (x : Except ε α) :
    Decidable (∀ a, x = .ok a → p a) :=
  match x with
  | .error _ => isTrue (by simp)
  | .ok a => decidable_of_iff (p a) (by simp)

instance decidableExistsOk {p : α → Prop} [∀ a, Decidable (p a)] (x : Except ε α) :
    Decidable (∃ a, x = .ok a ∧ p a) :=
  match x with
  | .error _ => isFalse (by simp)
  | .ok a => decidable_of_iff (p a) (by simp)

/-- A loop whose turns all return and preserve a property returns with it. -/
theorem foldlM_ok {γ : Type w} {P : β → Prop} {f : β → γ → Except ε β} (items : List γ) {b : β}
    (hstep : ∀ b item, P b → ∃ b', f b item = .ok b' ∧ P b') (hinit : P b) :
    ∃ b', items.foldlM f b = .ok b' ∧ P b' := by
  induction items generalizing b with
  | nil => exact ⟨b, rfl, hinit⟩
  | cons item items ih =>
    obtain ⟨next, hnext, hP⟩ := hstep b item hinit
    obtain ⟨last, hlast, hdone⟩ := ih hP
    refine ⟨last, ?_, hdone⟩
    rw [List.foldlM_cons]
    exact bind_ok_iff.2 ⟨next, hnext, hlast⟩

end Except
