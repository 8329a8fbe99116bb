import Mathlib.Data.List.Basic
import Mathlib.Data.List.Chain

/-! # A fold that is kept between calls

Each call gets a whole list. The state is kept when the key of one element has not changed, and only
what lies behind it is folded.
-/

universe u v w

namespace IncrementalFold

variable {σ : Type u} {ε : Type v} {κ : Type w}

/-- What is kept: the state, the length of the list it was folded of, how many elements were folded
since the last reset, and the key of the last one. -/
structure Cache (σ : Type u) (κ : Type w) where
  state : σ
  processedCount : Nat
  totalApplied : Nat
  lastAppliedKey : Option κ

section Definitions

variable (apply : σ → ε → σ) (initial : σ) (key : ε → κ) [DecidableEq κ]

def fresh : Cache σ κ := ⟨initial, 0, 0, none⟩

/-- The element at the end of what was folded is missing, or another one. -/
def mismatch (cache : Cache σ κ) (events : List ε) : Bool :=
  match events[cache.processedCount - 1]? with
  | none => true
  | some last => some (key last) ≠ cache.lastAppliedKey

def reduce (cache : Cache σ κ) (events : List ε) : Cache σ κ :=
  let cache :=
    if 0 < cache.processedCount ∧ mismatch key cache events then fresh initial else cache
  let newEvents := events.drop cache.processedCount
  { state := newEvents.foldl apply cache.state
    processedCount := events.length
    totalApplied := cache.totalApplied + newEvents.length
    lastAppliedKey := (newEvents.getLast?.map key).or cache.lastAppliedKey }

def reduceAll (cache : Cache σ κ) : List (List ε) → List σ
  | [] => []
  | events :: calls =>
    (reduce apply initial key cache events).state ::
      reduceAll (reduce apply initial key cache events) calls

/-- What is kept belongs to the list. -/
structure Holds (cache : Cache σ κ) (events : List ε) : Prop where
  state : cache.state = events.foldl apply initial
  processedCount : cache.processedCount = events.length
  lastAppliedKey : cache.lastAppliedKey = events.getLast?.map key

/-- The list goes on with the previous one, or shows by one key that it does not. -/
def Continues (previous events : List ε) : Prop :=
  previous = [] ∨ previous <+: events ∨
    events[previous.length - 1]?.map key ≠ previous.getLast?.map key

end Definitions

variable {apply : σ → ε → σ} {initial : σ} {key : ε → κ} {cache : Cache σ κ}
  {previous events : List ε}

theorem holds_fresh : Holds apply initial key (fresh initial) [] := ⟨rfl, rfl, rfl⟩

variable [DecidableEq κ]

/-- After a reset the whole list is folded. -/
theorem reduce_of_reset (hpos : 0 < cache.processedCount)
    (hreset : mismatch key cache events = true) :
    Holds apply initial key (reduce apply initial key cache events) events := by
  rw [reduce, if_pos ⟨hpos, hreset⟩]
  exact ⟨rfl, rfl, Option.or_none⟩

section

variable (h : Holds apply initial key cache previous)
include h

/-- Otherwise what lies behind the previous list is folded on top of it. -/
theorem reduce_of_kept (hkept : ¬ (0 < cache.processedCount ∧ mismatch key cache events = true)) :
    (reduce apply initial key cache events).state =
      (previous ++ events.drop previous.length).foldl apply initial := by
  rw [reduce, if_neg hkept]
  dsimp only
  rw [h.state, h.processedCount, List.foldl_append]

theorem mismatch_iff (hne : previous ≠ []) : mismatch key cache events = true ↔
      events[previous.length - 1]?.map key ≠ previous.getLast?.map key := by
  obtain ⟨last, hlast⟩ : ∃ last, previous.getLast? = some last :=
    ⟨_, List.getLast?_eq_some_getLast hne⟩
  rw [mismatch, h.processedCount, h.lastAppliedKey, hlast]
  cases events[previous.length - 1]? with
  | none => simp
  | some => simp

theorem reduce_holds (hcontinues : Continues key previous events) :
    Holds apply initial key (reduce apply initial key cache events) events := by
  by_cases hempty : previous = []
  · have hkept : ¬ (0 < cache.processedCount ∧ mismatch key cache events = true) := by
      rw [h.processedCount, hempty]
      exact fun hpos => absurd hpos.1 (Nat.lt_irrefl 0)
    have hstate := reduce_of_kept h hkept
    rw [hempty, List.nil_append] at hstate
    refine ⟨hstate, rfl, ?_⟩
    rw [reduce, if_neg hkept]
    dsimp only
    rw [h.processedCount, h.lastAppliedKey, hempty]
    exact Option.or_none
  · have hpos : 0 < cache.processedCount := by
      rw [h.processedCount]
      exact List.length_pos_iff.mpr hempty
    by_cases hreset : mismatch key cache events = true
    · exact reduce_of_reset hpos hreset
    · have hsame := mt (mismatch_iff h hempty).mpr hreset
      obtain ⟨more, rfl⟩ := (hcontinues.resolve_left hempty).resolve_right hsame
      have hkept : ¬ (0 < cache.processedCount ∧
          mismatch key cache (previous ++ more) = true) := fun hboth => hreset hboth.2
      have hstate := reduce_of_kept h hkept
      rw [List.drop_left] at hstate
      refine ⟨hstate, rfl, ?_⟩
      rw [reduce, if_neg hkept]
      dsimp only
      rw [h.processedCount, h.lastAppliedKey, List.drop_left, List.getLast?_append, Option.map_or]

/-- Calls whose lists continue one another all give the fold of their list. -/
theorem reduceAll_eq {calls : List (List ε)}
    (hcalls : List.IsChain (Continues key) (previous :: calls)) :
    reduceAll apply initial key cache calls =
      calls.map fun events => events.foldl apply initial := by
  induction calls generalizing cache previous with
  | nil => rfl
  | cons events calls ih =>
    rw [List.isChain_cons_cons] at hcalls
    have hnext := reduce_holds h hcalls.1
    rw [reduceAll, List.map_cons, hnext.state, ih hnext hcalls.2]

end

theorem reduceAll_append (calls more : List (List ε)) :
    reduceAll apply initial key cache (calls ++ more) = reduceAll apply initial key cache calls ++
      reduceAll apply initial key (calls.foldl (reduce apply initial key) cache) more := by
  induction calls generalizing cache with
  | nil => rfl
  | cons events calls ih =>
    rw [List.cons_append, reduceAll, reduceAll, ih, List.foldl_cons, List.cons_append]

theorem holds_foldl (h : Holds apply initial key cache previous) {calls : List (List ε)}
    (hcalls : List.IsChain (Continues key) (previous :: calls)) :
    Holds apply initial key (calls.foldl (reduce apply initial key) cache)
      (calls.getLast?.getD previous) := by
  induction calls generalizing cache previous with
  | nil => exact h
  | cons events calls ih =>
    rw [List.isChain_cons_cons] at hcalls
    have hrest := ih (reduce_holds h hcalls.1) hcalls.2
    rw [List.foldl_cons, List.getLast?_cons, Option.getD_some]
    exact hrest

/-- After such calls, a list that does not continue the last one is folded on top of a stale
front. -/
theorem state_of_not_continues (h : Holds apply initial key cache previous)
    (hnot : ¬ Continues key previous events) :
    (reduce apply initial key cache events).state =
      (previous ++ events.drop previous.length).foldl apply initial := by
  apply reduce_of_kept h
  rw [Continues, not_or, not_or, not_not] at hnot
  rintro ⟨-, hreset⟩
  exact (mismatch_iff h hnot.1).mp hreset hnot.2.2

end IncrementalFold
