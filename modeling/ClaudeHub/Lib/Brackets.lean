import Mathlib.Data.Finset.Basic
import Mathlib.Data.List.Induction

/-! # Histories that open and close keys

Two ways to read what a history leaves open: the set of all open keys, and the last item that
opened something. Both are folds, and each is described by where in the history an item stands.
-/

namespace Brackets

universe u v

variable {α : Type u} {κ : Type v}

/-- What an item of a history does. -/
inductive Edge (κ : Type v)
  | opens (key : κ)
  | closes (key : κ)
  | other
  deriving DecidableEq

/-- An item of a history with what stands before and behind it. -/
def Occurs (history before : List α) (item : α) (after : List α) : Prop :=
  history = before ++ item :: after

theorem occurs_concat {history before after : List α} {item last : α} :
    Occurs (history ++ [last]) before item after ↔
      (after = [] ∧ history = before ∧ last = item) ∨
        ∃ rest, after = rest ++ [last] ∧ Occurs history before item rest := by
  unfold Occurs
  constructor
  · intro h
    cases after using List.reverseRecOn with
    | nil =>
      obtain ⟨hhistory, hlast⟩ := List.append_inj' h rfl
      exact .inl ⟨rfl, hhistory, by simpa using hlast⟩
    | append_singleton rest final =>
      rw [← List.cons_append, ← List.append_assoc] at h
      obtain ⟨hhistory, hlast⟩ := List.append_inj' h rfl
      obtain rfl : last = final := by simpa using hlast
      exact .inr ⟨rest, rfl, hhistory⟩
  · rintro (⟨rfl, rfl, rfl⟩ | ⟨rest, rfl, rfl⟩)
    · rfl
    · simp

variable [DecidableEq κ] (edge : α → Edge κ)

def seeKey (opened : Finset κ) (item : α) : Finset κ :=
  match edge item with
  | .opens key => insert key opened
  | .closes key => opened.erase key
  | .other => opened

def openKeys (history : List α) : Finset κ := history.foldl (seeKey edge) ∅

@[simp] theorem openKeys_nil : openKeys edge [] = ∅ := rfl

@[simp] theorem openKeys_concat (history : List α) (item : α) :
    openKeys edge (history ++ [item]) = seeKey edge (openKeys edge history) item := by
  simp [openKeys]

variable {edge}

theorem mem_seeKey {opened : Finset κ} {item : α} {key : κ} :
    key ∈ seeKey edge opened item ↔
      edge item = .opens key ∨ key ∈ opened ∧ edge item ≠ .closes key := by
  unfold seeKey
  cases hedge : edge item with
  | opens =>
    simp only [Finset.mem_insert, Edge.opens.injEq, ne_eq, reduceCtorEq, not_false_eq_true,
      and_true]
    rw [eq_comm]
  | closes =>
    simp only [Finset.mem_erase, reduceCtorEq, ne_eq, Edge.closes.injEq, false_or]
    rw [and_comm, eq_comm]
  | other => simp

variable {history : List α}

theorem mem_openKeys {key : κ} : key ∈ openKeys edge history ↔
      ∃ before item after, Occurs history before item after ∧ edge item = .opens key ∧
        ∀ later ∈ after, edge later ≠ .closes key := by
  induction history using List.reverseRecOn with
  | nil => simp [Occurs]
  | append_singleton history last ih =>
    rw [openKeys_concat, mem_seeKey, ih]
    constructor
    · rintro (hopens | ⟨⟨before, item, after, hoccurs, hopens, hlater⟩, hlast⟩)
      · exact ⟨history, last, [], occurs_concat.2 (.inl ⟨rfl, rfl, rfl⟩), hopens, by simp⟩
      · refine ⟨before, item, after ++ [last], occurs_concat.2 (.inr ⟨after, rfl, hoccurs⟩),
          hopens, fun later hmem => ?_⟩
        rcases List.mem_append.mp hmem with hold | hnew
        · exact hlater later hold
        · rw [List.mem_singleton.mp hnew]
          exact hlast
    · rintro ⟨before, item, after, hoccurs, hopens, hlater⟩
      rcases occurs_concat.1 hoccurs with ⟨rfl, rfl, rfl⟩ | ⟨rest, rfl, hrest⟩
      · exact .inl hopens
      · refine .inr ⟨⟨before, item, rest, hrest, hopens, fun later hmem => ?_⟩, ?_⟩
        · exact hlater later (List.mem_append_left _ hmem)
        · exact hlater last (by simp)

theorem openKeys_eq_empty : openKeys edge history = ∅ ↔
      ∀ before item after key, Occurs history before item after → edge item = .opens key →
        ∃ later ∈ after, edge later = .closes key := by
  rw [Finset.eq_empty_iff_forall_notMem]
  constructor
  · intro h before item after key hoccurs hopens
    by_contra hnone
    push Not at hnone
    exact h key (mem_openKeys.2 ⟨before, item, after, hoccurs, hopens, hnone⟩)
  · intro h key hmem
    obtain ⟨before, item, after, hoccurs, hopens, hlater⟩ := mem_openKeys.1 hmem
    obtain ⟨later, hin, hcloses⟩ := h before item after key hoccurs hopens
    exact hlater later hin hcloses

omit [DecidableEq κ]

variable (starts : α → Bool) (ends : α → α → Bool)

/-- The candidate after one more item: the item itself, none when it ends the candidate. -/
def seeLast (candidate : Option α) (item : α) : Option α :=
  if starts item then some item else candidate.filter fun started => !ends item started

def lastOpen (history : List α) : Option α := history.foldl (seeLast starts ends) none

@[simp] theorem lastOpen_concat (history : List α) (item : α) :
    lastOpen starts ends (history ++ [item]) =
      seeLast starts ends (lastOpen starts ends history) item := by
  simp [lastOpen]

variable {starts ends}

/-- The candidate is the last item that starts, unless a later one ends it. -/
theorem lastOpen_eq_some {started : α} : lastOpen starts ends history = some started ↔
      ∃ before after, Occurs history before started after ∧ starts started = true ∧
        ∀ later ∈ after, starts later = false ∧ ends later started = false := by
  induction history using List.reverseRecOn with
  | nil => simp [lastOpen, Occurs]
  | append_singleton history last ih =>
    rw [lastOpen_concat, seeLast]
    constructor
    · intro h
      by_cases hlast : starts last = true
      · obtain rfl : last = started := by simpa [hlast] using h
        exact ⟨history, [], occurs_concat.2 (.inl ⟨rfl, rfl, rfl⟩), hlast, by simp⟩
      · rw [if_neg hlast, Option.filter_eq_some_iff] at h
        obtain ⟨before, after, hoccurs, hstarts, hlater⟩ := ih.mp h.1
        refine ⟨before, after ++ [last], occurs_concat.2 (.inr ⟨after, rfl, hoccurs⟩),
          hstarts, fun later hmem => ?_⟩
        rcases List.mem_append.mp hmem with hold | hnew
        · exact hlater later hold
        · rw [List.mem_singleton.mp hnew]
          exact ⟨by simpa using hlast, by simpa using h.2⟩
    · rintro ⟨before, after, hoccurs, hstarts, hlater⟩
      rcases occurs_concat.1 hoccurs with ⟨rfl, rfl, rfl⟩ | ⟨rest, rfl, hrest⟩
      · simp [hstarts]
      · have hlast := hlater last (by simp)
        have hcandidate := ih.mpr ⟨before, rest, hrest, hstarts, fun later hmem =>
          hlater later (List.mem_append_left _ hmem)⟩
        simp [hlast, hcandidate]

theorem lastOpen_eq_none : lastOpen starts ends history = none ↔
      ∀ before started after, Occurs history before started after → starts started = true →
        (∀ later ∈ after, starts later = false) → ∃ later ∈ after, ends later started = true := by
  constructor
  · intro h before started after hoccurs hstarts hlast
    by_contra hnone
    push Not at hnone
    have hsome := lastOpen_eq_some.2 ⟨before, after, hoccurs, hstarts, fun later hmem =>
      ⟨hlast later hmem, by simpa using hnone later hmem⟩⟩
    rw [h] at hsome
    contradiction
  · intro h
    cases hlast : lastOpen starts ends history with
    | none => rfl
    | some started =>
      obtain ⟨before, after, hoccurs, hstarts, hlater⟩ := lastOpen_eq_some.1 hlast
      obtain ⟨later, hmem, hends⟩ := h before started after hoccurs hstarts fun later hmem =>
        (hlater later hmem).1
      rw [(hlater later hmem).2] at hends
      contradiction

end Brackets
