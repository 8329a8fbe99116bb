import Mathlib.Data.List.Basic

/-! # Runs of a partial labelled step function

A system is a step function from a state and a label to the next state, where
`none` means that the label is not enabled. `Run step ok s as t` is a run whose
every step meets the side condition `ok` in the state it leaves. Invariants are
proved once per step and carried to whole runs by `Run.invariant`.
-/

namespace StepSystem

universe u v

variable {σ : Type u} {α : Type v}

/-- Execute the labels in order, failing at the first one that is not enabled. -/
def exec (step : σ → α → Option σ) : σ → List α → Option σ
  | s, [] => some s
  | s, a :: as => (step s a).bind fun t => exec step t as

@[simp] theorem exec_nil (step : σ → α → Option σ) (s : σ) : exec step s [] = some s := rfl

theorem exec_cons (step : σ → α → Option σ) (s : σ) (a : α) (as : List α) :
    exec step s (a :: as) = (step s a).bind fun t => exec step t as := rfl

theorem exists_exec_of_any {P : σ → Prop} [DecidablePred P] {step : σ → α → Option σ} {s : σ}
    {as : List α} (h : (exec step s as).any fun t => decide (P t)) :
    ∃ t, exec step s as = some t ∧ P t := by
  obtain ⟨t, ht, hP⟩ := (Option.any_eq_true _ _).mp h
  exact ⟨t, ht, of_decide_eq_true hP⟩

/-- A run from `s` to `t` along `as` whose steps all meet `ok`. -/
inductive Run (step : σ → α → Option σ) (ok : σ → α → Prop) : σ → List α → σ → Prop
  | nil (s : σ) : Run step ok s [] s
  | cons {s t u : σ} {a : α} {as : List α} (hok : ok s a) (hstep : step s a = some t)
      (hrun : Run step ok t as u) : Run step ok s (a :: as) u

/-- The states in which some guarded run from `s` ends. -/
def Reachable (step : σ → α → Option σ) (ok : σ → α → Prop) (s t : σ) : Prop :=
  ∃ as, Run step ok s as t

/-- Execute the labels, failing as well where the decidable side condition does. -/
def execOk (step : σ → α → Option σ) (ok : σ → α → Prop) [∀ s a, Decidable (ok s a)] :
    σ → List α → Option σ
  | s, [] => some s
  | s, a :: as => if ok s a then (step s a).bind fun t => execOk step ok t as else none

namespace Run

variable {step : σ → α → Option σ} {ok ok' : σ → α → Prop} {s t u : σ} {as bs : List α}

/-- A property of the start that every admitted step preserves holds at the end. -/
theorem invariant {P : σ → Prop} (hrun : Run step ok s as t) (hinit : P s)
    (hpres : ∀ s a t, P s → ok s a → step s a = some t → P t) : P t := by
  induction hrun with
  | nil => exact hinit
  | cons hok hstep _ ih => exact ih (hpres _ _ _ hinit hok hstep)

theorem mono (himp : ∀ s a, ok s a → ok' s a) (hrun : Run step ok s as t) :
    Run step ok' s as t := by
  induction hrun with
  | nil s => exact .nil s
  | cons hok hstep _ ih => exact .cons (himp _ _ hok) hstep ih

/-- What an invariant and the side condition imply is met by each step of a run. -/
theorem mono_of_invariant {P : σ → Prop} (hinit : P s)
    (hpres : ∀ s a t, P s → ok s a → step s a = some t → P t)
    (himp : ∀ s a, P s → ok s a → ok' s a) (hrun : Run step ok s as t) :
    Run step ok' s as t := by
  induction hrun with
  | nil s => exact .nil s
  | cons hok hstep _ ih =>
    exact .cons (himp _ _ hinit hok) hstep (ih (hpres _ _ _ hinit hok hstep))

/-- What holds of every label of a run is met by each of its steps. -/
theorem and_forall {p : α → Prop} (hrun : Run step ok s as t) (h : ∀ a ∈ as, p a) :
    Run step (fun s a => ok s a ∧ p a) s as t := by
  induction hrun with
  | nil s => exact .nil s
  | cons hok hstep _ ih =>
    have htail := ih fun b hb => h b (List.mem_cons_of_mem _ hb)
    exact .cons ⟨hok, h _ List.mem_cons_self⟩ hstep htail

theorem append (hrun : Run step ok s as t) (hrest : Run step ok t bs u) :
    Run step ok s (as ++ bs) u := by
  induction hrun with
  | nil => exact hrest
  | cons hok hstep _ ih => exact .cons hok hstep (ih hrest)

theorem exec_eq (hrun : Run step ok s as t) : exec step s as = some t := by
  induction hrun with
  | nil => rfl
  | cons hok hstep _ ih => simp [exec_cons, hstep, ih]

theorem of_exec (h : exec step s as = some t) : Run step (fun _ _ => True) s as t := by
  induction as generalizing s with
  | nil =>
    obtain rfl : s = t := by simpa using h
    exact .nil s
  | cons a as ih =>
    obtain ⟨m, hstep, hrest⟩ := Option.bind_eq_some_iff.mp h
    exact .cons trivial hstep (ih hrest)

theorem of_execOk [∀ s a, Decidable (ok s a)] (h : execOk step ok s as = some t) :
    Run step ok s as t := by
  induction as generalizing s with
  | nil =>
    obtain rfl : s = t := by simpa [execOk] using h
    exact .nil s
  | cons a as ih =>
    by_cases hok : ok s a
    · obtain ⟨m, hstep, hrest⟩ :=
        Option.bind_eq_some_iff.mp (by simpa [execOk, hok] using h)
      exact .cons hok hstep (ih hrest)
    · simp [execOk, hok] at h

end Run

/-- The states that the labels pass through, the first and the last included. -/
def Visits (step : σ → α → Option σ) (s : σ) (as : List α) (u : σ) : Prop :=
  ∃ bs, bs <+: as ∧ exec step s bs = some u

section

variable {step : σ → α → Option σ} {ok : σ → α → Prop} {s t : σ} {a : α} {as : List α}

theorem Visits.refl (s : σ) (as : List α) : Visits step s as s :=
  ⟨[], List.nil_prefix, rfl⟩

theorem Visits.cons {u : σ} (hstep : step s a = some t) (h : Visits step t as u) :
    Visits step s (a :: as) u := by
  obtain ⟨bs, hbs, hexec⟩ := h
  exact ⟨a :: bs, List.cons_prefix_cons.mpr ⟨rfl, hbs⟩, by simp [exec_cons, hstep, hexec]⟩

theorem Visits.cons_iff {u : σ} (hstep : step s a = some t) :
    Visits step s (a :: as) u ↔ u = s ∨ Visits step t as u := by
  constructor
  · rintro ⟨bs, hbs, hexec⟩
    cases bs with
    | nil => exact .inl (Option.some.inj hexec).symm
    | cons b bs =>
      obtain ⟨rfl, hrest⟩ := List.cons_prefix_cons.mp hbs
      exact .inr ⟨bs, hrest, by simpa [exec_cons, hstep] using hexec⟩
  · rintro (rfl | h)
    · exact Visits.refl u _
    · exact h.cons hstep

/-- Where the side condition is all that keeps an invariant with the property `P`, and a
step that fails it leaves a state without `P`, a run has `P` throughout exactly when each
of its steps meets the side condition. -/
theorem Run.forall_visits_iff {Inv P : σ → Prop} (hsound : ∀ s, Inv s → P s)
    (hpres : ∀ s a t, Inv s → ok s a → step s a = some t → Inv t)
    (hbreak : ∀ s a t, Inv s → ¬ ok s a → step s a = some t → ¬ P t)
    (hinit : Inv s) (hrun : Run step (fun _ _ => True) s as t) :
    (∀ u, Visits step s as u → P u) ↔ Run step ok s as t := by
  induction hrun with
  | nil s =>
    constructor
    · exact fun _ => .nil s
    · rintro - u ⟨bs, hbs, hexec⟩
      obtain rfl := List.prefix_nil.mp hbs
      obtain rfl : s = u := by simpa using hexec
      exact hsound s hinit
  | @cons s m t a as _ hstep _ ih =>
    constructor
    · intro h
      have hok : ok s a := by
        by_contra hnot
        exact hbreak s a m hinit hnot hstep (h m ((Visits.refl m as).cons hstep))
      have hinv := hpres s a m hinit hok hstep
      exact .cons hok hstep ((ih hinv).mp fun u hu => h u (hu.cons hstep))
    · intro hguarded u hu
      cases hguarded with
      | cons hok hstep' hrest =>
        cases hstep'.symm.trans hstep
        rcases (Visits.cons_iff hstep).mp hu with rfl | hu
        · exact hsound u hinit
        · exact (ih (hpres _ _ _ hinit hok hstep)).mpr hrest u hu

end

end StepSystem
