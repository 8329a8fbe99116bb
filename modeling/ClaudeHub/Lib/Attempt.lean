import Mathlib.Data.List.Basic
import Mathlib.Order.Defs.Unbundled

/-! # Computations over a state that may raise or die

An attempt runs over a state that it keeps whichever way it ends: with a value, with an
exception, which a handler may catch, or with the death of the process, which none can.
`Ends` states what holds at either kind of end; its rules follow the shape of the code.
-/

universe u

/-- How a computation ends. -/
inductive Outcome (ε α : Type u)
  | returned (value : α)
  | raised (error : ε)
  | died
  deriving DecidableEq, Repr

def Attempt (σ ε α : Type u) := σ → Outcome ε α × σ

namespace Attempt

variable {σ ε α β : Type u}

def bindOf (m : Attempt σ ε α) (f : α → Attempt σ ε β) : Attempt σ ε β := fun s =>
  match m s with
  | (.returned a, t) => f a t
  | (.raised e, t) => (.raised e, t)
  | (.died, t) => (.died, t)

instance : Monad (Attempt σ ε) where
  pure a := fun s => (.returned a, s)
  bind := bindOf

def raise (e : ε) : Attempt σ ε α := fun s => (.raised e, s)

def die : Attempt σ ε α := fun s => (.died, s)

def reads (f : σ → α) : Attempt σ ε α := fun s => (.returned (f s), s)

def update (f : σ → σ) : Attempt σ ε PUnit := fun s => (.returned ⟨⟩, f s)

/-- An `if` without an `else`. -/
def runIf (c : Prop) [Decidable c] (m : Attempt σ ε PUnit) : Attempt σ ε PUnit :=
  if c then m else pure ⟨⟩

/-- Run the handler on an exception, in the state that the exception left. -/
def catching (m : Attempt σ ε α) (handler : ε → Attempt σ ε α) : Attempt σ ε α := fun s =>
  match m s with
  | (.returned a, t) => (.returned a, t)
  | (.raised e, t) => handler e t
  | (.died, t) => (.died, t)

/-- Started in `s`, the attempt returns with `Q` or ends otherwise with `E`. -/
def Ends (m : Attempt σ ε α) (s : σ) (Q : α → σ → Prop) (E : σ → Prop) : Prop :=
  match m s with
  | (.returned a, t) => Q a t
  | (.raised _, t) => E t
  | (.died, t) => E t

variable {m : Attempt σ ε α} {f : α → Attempt σ ε β} {s : σ} {Q Q' : α → σ → Prop}
  {Q₂ : β → σ → Prop} {E E' : σ → Prop}

theorem Ends.pure {a : α} (h : Q a s) : Ends (Pure.pure a : Attempt σ ε α) s Q E := h

theorem Ends.raise {e : ε} (h : E s) : Ends (Attempt.raise e : Attempt σ ε α) s Q E := h

theorem Ends.reads {g : σ → α} (h : Q (g s) s) : Ends (Attempt.reads g : Attempt σ ε α) s Q E := h

theorem Ends.update {g : σ → σ} {Q : PUnit → σ → Prop} (h : Q ⟨⟩ (g s)) :
    Ends (Attempt.update g : Attempt σ ε PUnit) s Q E := h

theorem Ends.mono (h : Ends m s Q E) (hQ : ∀ a t, Q a t → Q' a t) (hE : ∀ t, E t → E' t) :
    Ends m s Q' E' := by
  unfold Ends at h ⊢
  match hm : m s with
  | (.returned a, t) => exact hQ a t (by simpa [hm] using h)
  | (.raised e, t) => exact hE t (by simpa [hm] using h)
  | (.died, t) => exact hE t (by simpa [hm] using h)

/-- What follows a computation starts in the state that the computation left. -/
theorem Ends.bind (h : Ends m s (fun a t => Ends (f a) t Q₂ E) E) :
    Ends (m >>= f) s Q₂ E := by
  unfold Ends at h ⊢
  simp only [Bind.bind, bindOf]
  match hm : m s with
  | (.returned a, t) => simpa [hm, Ends] using h
  | (.raised e, t) => simpa [hm] using h
  | (.died, t) => simpa [hm] using h

/-- A handler starts in a state that the exception left. -/
theorem Ends.catching {handler : ε → Attempt σ ε α} (h : Ends m s Q E')
    (hE : ∀ t, E' t → E t) (hhandler : ∀ e t, E' t → Ends (handler e) t Q E) :
    Ends (catching m handler) s Q E := by
  unfold Ends at h ⊢
  simp only [Attempt.catching]
  match hm : m s with
  | (.returned a, t) => simpa [hm] using h
  | (.raised e, t) =>
    have hraised : E' t := by simpa [hm] using h
    exact hhandler e t hraised
  | (.died, t) =>
    have hdied : E' t := by simpa [hm] using h
    exact hE t hdied

/-- What holds of every end of an attempt holds of the state that it leaves. -/
theorem Ends.state {P : σ → Prop} (h : Ends m s (fun _ t => P t) P) : P (m s).2 := by
  unfold Ends at h
  match hm : m s with
  | (.returned a, t) => simpa [hm] using h
  | (.raised e, t) => simpa [hm] using h
  | (.died, t) => simpa [hm] using h

theorem Ends.returned {a : α} {t : σ} (h : Ends m s Q E) (hm : m s = (.returned a, t)) : Q a t := by
  simpa [Ends, hm] using h

section Keeps

variable {I : σ → Prop} {R R' : σ → σ → Prop}

def Keeps (I : σ → Prop) (R : σ → σ → Prop) (m : Attempt σ ε α) (s : σ) (Q : α → σ → Prop) : Prop :=
  I s → Ends m s (fun a t => I t ∧ R s t ∧ Q a t) (fun t => I t ∧ R s t)

theorem Keeps.mono (h : Keeps I R m s Q) (hQ : ∀ a t, I t → Q a t → Q' a t) :
    Keeps I R m s Q' := by
  intro hI
  apply (h hI).mono
  · rintro a t ⟨ht, hR, ha⟩
    exact ⟨ht, hR, hQ a t ht ha⟩
  · exact fun t ht => ht

theorem Keeps.weaken (h : Keeps I R m s Q) (hR : ∀ t, R s t → R' s t) : Keeps I R' m s Q := by
  intro hI
  apply (h hI).mono
  · rintro a t ⟨ht, hst, ha⟩
    exact ⟨ht, hR t hst, ha⟩
  · rintro t ⟨ht, hst⟩
    exact ⟨ht, hR t hst⟩

theorem Keeps.ite {c : Prop} [Decidable c] {m' : Attempt σ ε α} (hthen : c → Keeps I R m s Q)
    (helse : ¬ c → Keeps I R m' s Q) : Keeps I R (if c then m else m') s Q := by
  by_cases h : c
  · rw [if_pos h]
    exact hthen h
  · rw [if_neg h]
    exact helse h

section Reflexive

variable [Std.Refl R]

theorem Keeps.pure {a : α} (h : Q a s) : Keeps I R (Pure.pure a : Attempt σ ε α) s Q :=
  fun hI => Ends.pure ⟨hI, Std.Refl.refl s, h⟩

theorem Keeps.raise {e : ε} : Keeps I R (Attempt.raise e : Attempt σ ε α) s Q :=
  fun hI => Ends.raise ⟨hI, Std.Refl.refl s⟩

theorem Keeps.reads {g : σ → α} (h : Q (g s) s) :
    Keeps I R (Attempt.reads g : Attempt σ ε α) s Q :=
  fun hI => Ends.reads ⟨hI, Std.Refl.refl s, h⟩

theorem Keeps.runIf {c : Prop} [Decidable c] {m : Attempt σ ε PUnit} {Q : PUnit → σ → Prop}
    (hthen : c → Keeps I R m s Q) (helse : ¬ c → Q ⟨⟩ s) : Keeps I R (Attempt.runIf c m) s Q :=
  .ite hthen (fun h => Keeps.pure (helse h))

end Reflexive

/-- A computation and what follows it may move by relations of their own. -/
theorem Keeps.bind_of {R₁ R₂ : σ → σ → Prop} (h : Keeps I R₁ m s Q)
    (hfirst : ∀ t, R₁ s t → R s t) (hboth : ∀ a t u, R₁ s t → Q a t → R₂ t u → R s u)
    (hf : ∀ a t, I t → R₁ s t → Q a t → Keeps I R₂ (f a) t Q₂) : Keeps I R (m >>= f) s Q₂ := by
  intro hI
  apply Ends.bind
  apply (h hI).mono
  · rintro a t ⟨ht, hst, ha⟩
    apply (hf a t ht hst ha ht).mono
    · rintro b u ⟨hu, htu, hb⟩
      exact ⟨hu, hboth a t u hst ha htu, hb⟩
    · rintro u ⟨hu, htu⟩
      exact ⟨hu, hboth a t u hst ha htu⟩
  · rintro t ⟨ht, hst⟩
    exact ⟨ht, hfirst t hst⟩

section Transitive

variable [IsTrans σ R]

theorem Keeps.bind (h : Keeps I R m s Q)
    (hf : ∀ a t, I t → R s t → Q a t → Keeps I R (f a) t Q₂) : Keeps I R (m >>= f) s Q₂ :=
  h.bind_of (fun _ hst => hst) (fun _ t u hst _ htu => IsTrans.trans s t u hst htu) hf

theorem Keeps.catching {handler : ε → Attempt σ ε α} (h : Keeps I R m s Q)
    (hhandler : ∀ e t, I t → R s t → Keeps I R (handler e) t Q) :
    Keeps I R (catching m handler) s Q := by
  intro hI
  apply Ends.catching (h hI)
  · exact fun t ht => ht
  · rintro e t ⟨ht, hst⟩
    apply (hhandler e t ht hst ht).mono
    · rintro b u ⟨hu, htu, hb⟩
      exact ⟨hu, IsTrans.trans s t u hst htu, hb⟩
    · rintro u ⟨hu, htu⟩
      exact ⟨hu, IsTrans.trans s t u hst htu⟩

end Transitive

/-- Whichever way the computation ends, it leaves the invariant and has moved by `R`. -/
theorem Keeps.state (h : Keeps I R m s Q) (hI : I s) : I (m s).2 ∧ R s (m s).2 := by
  have hends : Ends m s (fun _ t => I t ∧ R s t) (fun t => I t ∧ R s t) := by
    apply (h hI).mono
    · rintro a t ⟨ht, hst, -⟩
      exact ⟨ht, hst⟩
    · exact fun t ht => ht
  exact hends.state

theorem Keeps.returned {a : α} {t : σ} (h : Keeps I R m s Q) (hI : I s)
    (hm : m s = (.returned a, t)) : Q a t :=
  ((h hI).returned hm).2.2

end Keeps

end Attempt
