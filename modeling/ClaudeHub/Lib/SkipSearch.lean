import Mathlib.Data.Nat.Init
import Mathlib.Order.Basic

/-! # Searching a line with skips

A search walks up a line of places. At each place it has found what it looks for, or goes on to a
later place, or falls off the end of the line. Where it passes over no hit it finds the first one,
and where the line has no hit behind its end it does not miss one by falling off.
-/

namespace SkipSearch

universe u v

variable {σ : Type u} {ε : Type v}

/-- What a search does at a place: it has found a hit, goes on, or fails. -/
abbrev Visit (σ : Type u) (ε : Type v) := Option (Except ε σ)

/-- The loop, up to `fuel` places; without fuel it has no result. -/
def search (within : σ → Bool) (visit : σ → Visit σ ε) : Nat → σ → Option (Except ε (Option σ))
  | 0, _ => none
  | fuel + 1, place =>
    if within place then
      match visit place with
      | none => some (.ok (some place))
      | some (.error e) => some (.error e)
      | some (.ok next) => search within visit fuel next
    else some (.ok none)

/-- A line on which a search loses nothing: it goes up by at least one, passes over no hit and no
place at which it falls off, and where it falls off, every later place does. -/
structure Line (position : σ → Nat) (visit : σ → Visit σ ε) (Place : σ → Prop) : Prop where
  place : ∀ {s next}, Place s → visit s = some (.ok next) → Place next
  up : ∀ {s next}, Place s → visit s = some (.ok next) → position s < position next
  passes : ∀ {s next t}, Place s → Place t → visit s = some (.ok next) →
    position s ≤ position t → position t < position next → visit t ≠ none
  stays : ∀ {s next t e}, Place s → Place t → visit s = some (.ok next) →
    position s ≤ position t → position t < position next → visit t ≠ some (.error e)
  ends : ∀ {s t e}, Place s → Place t → visit s = some (.error e) →
    position s ≤ position t → visit t = some (.error e)

attribute [local simp] search

def First (position : σ → Nat) (within : σ → Bool) (visit : σ → Visit σ ε) (Place : σ → Prop)
    (s : σ) : Option σ → Prop
  | some r => (Place r ∧ visit r = none ∧ within r = true ∧ position s ≤ position r) ∧
      ∀ t, Place t → visit t = none → position s ≤ position t → position r ≤ position t
  | none => ∀ t, Place t → visit t = none → within t = true → position s ≤ position t → False

variable {position : σ → Nat} {within : σ → Bool} {visit : σ → Visit σ ε} {Place : σ → Prop}

section

variable (line : Line position visit Place)
include line

/-- Enough fuel ends the loop. -/
theorem exists_result {bound : Nat} (hbound : ∀ s, Place s → within s = true → position s ≤ bound) :
    ∀ {fuel : Nat} {s : σ}, Place s → bound + 1 < position s + fuel → 0 < fuel →
      ∃ result, search within visit fuel s = some result := by
  intro fuel
  induction fuel with
  | zero => intro s _ _ hpos; omega
  | succ fuel ih =>
    intro s hs hfuel _
    unfold search
    by_cases hwithin : within s = true
    · rw [if_pos hwithin]
      cases hvisit : visit s with
      | none => exact ⟨_, rfl⟩
      | some step =>
        cases step with
        | error => exact ⟨_, rfl⟩
        | ok =>
          have hup := line.up hs hvisit
          have hle := hbound s hs hwithin
          apply ih (line.place hs hvisit)
          · omega
          · omega
    · rw [if_neg hwithin]
      exact ⟨_, rfl⟩

theorem first_of_search
    (hmono : ∀ {s t}, Place s → Place t → position s ≤ position t → within t = true →
      within s = true) : ∀ {fuel : Nat} {s : σ} {result : Option σ}, Place s →
      search within visit fuel s = some (.ok result) →
      First position within visit Place s result := by
  intro fuel
  induction fuel with
  | zero => intro s result _ h; simp [search] at h
  | succ fuel ih =>
    intro s result hs h
    unfold search at h
    by_cases hwithin : within s = true
    · rw [if_pos hwithin] at h
      cases hvisit : visit s with
      | none =>
        obtain rfl : some s = result := by simpa [hvisit] using h
        exact ⟨⟨hs, hvisit, hwithin, Nat.le_refl _⟩, fun t _ _ hle => hle⟩
      | some step =>
        cases step with
        | error => simp [hvisit] at h
        | ok next =>
          simp only [hvisit] at h
          have hnext := ih (line.place hs hvisit) h
          have hup := line.up hs hvisit
          have hbehind : ∀ t, Place t → visit t = none → position s ≤ position t →
              position next ≤ position t := by
            intro t ht hit hle
            by_contra hlt
            exact line.passes hs ht hvisit hle (by omega) hit
          cases result with
          | some =>
            obtain ⟨⟨hr, hit, hin, hle⟩, hleast⟩ := hnext
            refine ⟨⟨hr, hit, hin, by omega⟩, fun t ht hit hle => ?_⟩
            exact hleast t ht hit (hbehind t ht hit hle)
          | none =>
            intro t ht hit hin hle
            exact hnext t ht hit hin (hbehind t ht hit hle)
    · rw [if_neg hwithin] at h
      obtain rfl : none = result := by simpa using h
      intro t ht _ hin hle
      exact hwithin (hmono hs ht hle hin)

/-- A search that falls off was at a place from which no hit follows. -/
theorem fell_of_search :
    ∀ {fuel : Nat} {s : σ} {e : ε}, Place s → search within visit fuel s = some (.error e) →
      (∃ last, Place last ∧ within last = true ∧ position s ≤ position last ∧
        visit last = some (.error e)) ∧
      ∀ t, Place t → visit t = none → position s ≤ position t → False := by
  intro fuel
  induction fuel with
  | zero => intro s e _ h; simp [search] at h
  | succ fuel ih =>
    intro s e hs h
    unfold search at h
    by_cases hwithin : within s = true
    · rw [if_pos hwithin] at h
      cases hvisit : visit s with
      | none => simp [hvisit] at h
      | some step =>
        cases step with
        | error e' =>
          obtain rfl : e' = e := by simpa [hvisit] using h
          exact ⟨⟨s, hs, hwithin, Nat.le_refl _, hvisit⟩,
            fun t ht hit hle => by
              rw [line.ends hs ht hvisit hle] at hit
              contradiction⟩
        | ok next =>
          simp only [hvisit] at h
          obtain ⟨⟨last, hlast, hin, hle, hfell⟩, hnone⟩ := ih (line.place hs hvisit) h
          have hup := line.up hs hvisit
          refine ⟨⟨last, hlast, hin, by omega, hfell⟩, fun t ht hit hst => ?_⟩
          by_cases hlt : position t < position next
          · exact line.passes hs ht hvisit hst hlt hit
          · exact hnone t ht hit (by omega)
    · rw [if_neg hwithin] at h
      simp at h

/-- A search that finds nothing does not fall off within its bound. -/
theorem kept_of_search
    (hmono : ∀ {s t}, Place s → Place t → position s ≤ position t → within t = true →
      within s = true) {l : σ} (hl : Place l) (hin : within l = true) {e : ε} :
    ∀ {fuel : Nat} {s : σ}, Place s → position s ≤ position l →
      search within visit fuel s = some (.ok none) → visit l ≠ some (.error e) := by
  intro fuel
  induction fuel with
  | zero => intro s _ _ h; simp [search] at h
  | succ fuel ih =>
    intro s hs hle h
    unfold search at h
    rw [if_pos (hmono hs hl hle hin)] at h
    cases hvisit : visit s with
    | none => simp [hvisit] at h
    | some step =>
      cases step with
      | error => simp [hvisit] at h
      | ok next =>
        simp only [hvisit] at h
        by_cases hlt : position l < position next
        · exact line.stays hs hl hvisit hle hlt
        · exact ih (line.place hs hvisit) (by omega) h

end

end SkipSearch
