import ClaudeHub.Lib.Table
import Mathlib.Data.Int.Order.Basic
import Mathlib.Order.Basic

/-! # Contiguous events

Long-poll and server-sent events bring the events of a log in any order and more than once. A buffer
commits what is contiguous behind its cursor, and keeps the rest until the gap is filled.
-/

namespace ClaudeHub

universe u

/-- The events of a log with the numbers behind one place and up to another one. -/
inductive Contiguous {τ : Type u} (log : Int → Option τ) : Int → List τ → Int → Prop
  | nil (place : Int) : Contiguous log place [] place
  | cons {place last : Int} {event : τ} {events : List τ} (hlog : log (place + 1) = some event)
      (hrest : Contiguous log (place + 1) events last) : Contiguous log place (event :: events) last

/-- `createContiguousEventBuffer` -/
structure ContiguousEventBuffer (τ : Type u) where
  cursor : Int := -1
  pending : Dict Int τ := Table.empty

namespace ContiguousEventBuffer

variable {τ : Type u} (sequence : τ → Option Int)

/-- The first loop of `push`; a number that is no integer is `none`. -/
def keep (buffer : ContiguousEventBuffer τ) (event : τ) : ContiguousEventBuffer τ :=
  match sequence event with
  | none => buffer
  | some n =>
    if buffer.cursor < n ∧ (buffer.pending.lookup n).isNone then
      { buffer with pending := buffer.pending.set n event }
    else buffer

/-- The second loop, each turn of which takes an event out of the buffer. -/
def commit : Nat → ContiguousEventBuffer τ → List τ × ContiguousEventBuffer τ
  | 0, buffer => ([], buffer)
  | turns + 1, buffer =>
    match buffer.pending.lookup (buffer.cursor + 1) with
    | none => ([], buffer)
    | some next =>
      let rest := commit turns
        { cursor := buffer.cursor + 1, pending := buffer.pending.erase (buffer.cursor + 1) }
      (next :: rest.1, rest.2)

def push (buffer : ContiguousEventBuffer τ) (incoming : List τ) :
    List τ × ContiguousEventBuffer τ :=
  let buffer := incoming.foldl (keep sequence) buffer
  commit buffer.pending.rows.length buffer

def pushAll : List (List τ) → ContiguousEventBuffer τ → List τ × ContiguousEventBuffer τ
  | [], buffer => ([], buffer)
  | incoming :: rest, buffer =>
    let pushed := push sequence buffer incoming
    let last := pushAll rest pushed.2
    (pushed.1 ++ last.1, last.2)

end ContiguousEventBuffer

section

variable {τ : Type u} {log : Int → Option τ} {first place last : Int} {events rest : List τ}

theorem Contiguous.append (h : Contiguous log first events place)
    (hrest : Contiguous log place rest last) : Contiguous log first (events ++ rest) last := by
  induction h with
  | nil => exact hrest
  | cons hlog _ ih => exact .cons hlog (ih hrest)

theorem Contiguous.le (h : Contiguous log first events last) : first ≤ last := by
  induction h with
  | nil => exact le_rfl
  | cons _ _ ih => omega

end

namespace ContiguousEventBuffer

variable {τ : Type u} {sequence : τ → Option Int} {log : Int → Option τ} {arrived : Int → Prop}
  {buffer : ContiguousEventBuffer τ} {start : Int}

/-- What is in the buffer lies ahead in the log, and what has arrived was committed or is there. -/
structure Holds (log : Int → Option τ) (start : Int) (arrived : Int → Prop)
    (buffer : ContiguousEventBuffer τ) : Prop where
  ahead : ∀ n event, buffer.pending.lookup n = some event → buffer.cursor < n ∧ log n = some event
  arrived : ∀ n, start < n → (arrived n ↔ n ≤ buffer.cursor ∨ (buffer.pending.lookup n).isSome)

def Gap (buffer : ContiguousEventBuffer τ) : Prop :=
  buffer.pending.lookup (buffer.cursor + 1) = none

@[simp] theorem cursor_keep (event : τ) : (buffer.keep sequence event).cursor = buffer.cursor := by
  unfold keep
  split
  · rfl
  · split <;> rfl

theorem holds_keep (h : Holds log start arrived buffer) {event : τ}
    (hlog : ∀ n, sequence event = some n → log n = some event) :
    Holds log start (fun n => arrived n ∨ sequence event = some n)
      (buffer.keep sequence event) := by
  unfold keep
  split
  next hnone => exact ⟨h.ahead, fun n hn => by simp [h.arrived n hn, hnone]⟩
  next m hm =>
    split
    next hnew =>
      constructor
      · intro n other hn
        rw [Dict.lookup_set] at hn
        split at hn
        next heq =>
          obtain rfl := Option.some.inj hn
          exact ⟨heq ▸ hnew.1, heq ▸ hlog m hm⟩
        · exact h.ahead n other hn
      · intro n hn
        dsimp only
        rw [h.arrived n hn, hm, Dict.lookup_set]
        by_cases heq : n = m
        · simp [heq]
        · simp [heq, Ne.symm heq]
    next hold =>
      refine ⟨h.ahead, fun n hn => ?_⟩
      have hknown : m ≤ buffer.cursor ∨ (buffer.pending.lookup m).isSome := by
        rcases not_and_or.mp hold with hpast | hthere
        · exact .inl (not_lt.mp hpast)
        · exact .inr (by simpa [Option.isSome_iff_ne_none] using hthere)
      rw [h.arrived n hn, hm]
      constructor
      · rintro (hthere | heq)
        · exact hthere
        · obtain rfl := Option.some.inj heq
          exact hknown
      · exact .inl

theorem holds_keepAll {incoming : List τ} (h : Holds log start arrived buffer)
    (hlog : ∀ event ∈ incoming, ∀ n, sequence event = some n → log n = some event) :
    Holds log start (fun n => arrived n ∨ ∃ event ∈ incoming, sequence event = some n)
        (incoming.foldl (keep sequence) buffer) ∧
      (incoming.foldl (keep sequence) buffer).cursor = buffer.cursor := by
  induction incoming generalizing arrived buffer with
  | nil => simpa using h
  | cons event incoming ih =>
    have hkept := holds_keep h (hlog event List.mem_cons_self)
    obtain ⟨hall, hcursor⟩ := ih hkept fun other hother => hlog other (List.mem_cons_of_mem _ hother)
    refine ⟨⟨hall.ahead, fun n hn => ?_⟩, hcursor.trans (cursor_keep event)⟩
    have hiff := hall.arrived n hn
    rw [List.foldl_cons, ← hiff]
    simp [or_assoc]

theorem length_erase_lt {n : Int} {event : τ} (h : buffer.pending.lookup n = some event) :
    (buffer.pending.erase n).rows.length < buffer.pending.rows.length := by
  have hmem := Dict.lookup_eq_some.mp h
  exact List.length_filter_lt_length_iff_exists.mpr ⟨_, hmem, by simp⟩

theorem holds_commit {turns : Nat} (h : Holds log start arrived buffer)
    (hturns : buffer.pending.rows.length ≤ turns) (hstart : start ≤ buffer.cursor) :
    Contiguous log buffer.cursor (commit turns buffer).1 (commit turns buffer).2.cursor ∧
      Holds log start arrived (commit turns buffer).2 ∧
      (commit turns buffer).2.Gap := by
  induction turns generalizing buffer with
  | zero =>
    refine ⟨.nil _, h, ?_⟩
    have hrows : buffer.pending.rows = [] := List.length_eq_zero_iff.mp (Nat.le_zero.mp hturns)
    simp [Gap, commit, Dict.lookup, Table.get?, hrows]
  | succ turns ih =>
    unfold commit
    split
    next hnone => exact ⟨.nil _, h, hnone⟩
    next next hnext =>
      have hmoved : Holds log start arrived
          { cursor := buffer.cursor + 1, pending := buffer.pending.erase (buffer.cursor + 1) } := by
        constructor
        · intro n event hn
          dsimp only at hn ⊢
          rw [Dict.lookup_erase] at hn
          split at hn
          · cases hn
          next hne =>
            have hahead := h.ahead n event hn
            exact ⟨by omega, hahead.2⟩
        · intro n hn
          rw [h.arrived n hn]
          dsimp only
          rw [Dict.lookup_erase]
          by_cases heq : n = buffer.cursor + 1
          · simp [heq, hnext]
          · rw [if_neg heq]
            exact or_congr_left (by omega)
      have hlength := length_erase_lt hnext
      obtain ⟨hrest, hholds, hgap⟩ := ih hmoved (by dsimp only; omega) (by dsimp only; omega)
      exact ⟨.cons (h.ahead _ _ hnext).2 hrest, hholds, hgap⟩

theorem holds_push {incoming : List τ} (h : Holds log start arrived buffer)
    (hstart : start ≤ buffer.cursor)
    (hlog : ∀ event ∈ incoming, ∀ n, sequence event = some n → log n = some event) :
    Contiguous log buffer.cursor (buffer.push sequence incoming).1
        (buffer.push sequence incoming).2.cursor ∧
      Holds log start (fun n => arrived n ∨ ∃ event ∈ incoming, sequence event = some n)
        (buffer.push sequence incoming).2 ∧
      (buffer.push sequence incoming).2.Gap := by
  obtain ⟨hkept, hcursor⟩ := holds_keepAll h hlog
  have hcommitted := holds_commit hkept (Nat.le_refl _) (hstart.trans hcursor.ge)
  rwa [hcursor] at hcommitted

theorem holds_empty (log : Int → Option τ) (start : Int) :
    Holds log start (fun n => n ≤ start) { cursor := start } :=
  ⟨fun n event hn => by simp at hn, fun n _ => by simp⟩

theorem holds_pushAll {arrivals : List (List τ)} (h : Holds log start arrived buffer)
    (hstart : start ≤ buffer.cursor) (hgap : buffer.Gap)
    (hlog : ∀ incoming ∈ arrivals, ∀ event ∈ incoming, ∀ n, sequence event = some n →
      log n = some event) :
    Contiguous log buffer.cursor (pushAll sequence arrivals buffer).1
        (pushAll sequence arrivals buffer).2.cursor ∧
      Holds log start
        (fun n => arrived n ∨ ∃ incoming ∈ arrivals, ∃ event ∈ incoming, sequence event = some n)
        (pushAll sequence arrivals buffer).2 ∧
      (pushAll sequence arrivals buffer).2.Gap := by
  induction arrivals generalizing arrived buffer with
  | nil => exact ⟨.nil _, ⟨h.ahead, fun n hn => by simpa [pushAll] using h.arrived n hn⟩, hgap⟩
  | cons incoming arrivals ih =>
    obtain ⟨hfirst, hpushed, hnext⟩ := holds_push h hstart (hlog incoming List.mem_cons_self)
    obtain ⟨hrest, hall, hlast⟩ := ih hpushed (hstart.trans hfirst.le) hnext
      fun other hother => hlog other (List.mem_cons_of_mem _ hother)
    refine ⟨hfirst.append hrest, ⟨hall.ahead, fun n hn => ?_⟩, hlast⟩
    have hiff := hall.arrived n hn
    rw [pushAll, ← hiff]
    simp [or_assoc]

/-- However the events of a log arrive, those behind the start are committed in their order, each
once, and up to the first number that has not arrived. -/
theorem pushes_commit_contiguous (log : Int → Option τ) (start : Int) (arrivals : List (List τ))
    (hlog : ∀ incoming ∈ arrivals, ∀ event ∈ incoming, ∀ n, sequence event = some n →
      log n = some event) :
    Contiguous log start (pushAll sequence arrivals { cursor := start }).1
        (pushAll sequence arrivals { cursor := start }).2.cursor ∧
      ∀ n, start < n → (n ≤ (pushAll sequence arrivals { cursor := start }).2.cursor ↔
        ∀ k, start < k → k ≤ n →
          ∃ incoming ∈ arrivals, ∃ event ∈ incoming, sequence event = some k) := by
  obtain ⟨hcommitted, hholds, hgap⟩ := holds_pushAll (holds_empty log start) le_rfl rfl hlog
  refine ⟨hcommitted, fun n hn => ⟨fun hle k hk hkn => ?_, fun hall => ?_⟩⟩
  · rcases (hholds.arrived k hk).mpr (.inl (hkn.trans hle)) with hpast | hthere
    · omega
    · exact hthere
  · by_contra hlt
    have hnext := hcommitted.le
    dsimp only at hnext
    have hthere := hall _ (by omega) (Int.add_one_le_iff.mpr (not_le.mp hlt))
    rcases (hholds.arrived _ (by omega)).mp (.inr hthere) with hpast | hpending
    · omega
    · rw [hgap] at hpending
      cases hpending

theorem pushes_commit_contiguous_gap :
    pushAll some [[1, 0], [0, 3]] { cursor := -1 } =
        ([0, 1], { cursor := 1, pending := Dict.set Table.empty 3 3 }) ∧
      Contiguous some (-1) (pushAll some [[1, 0], [0, 3]] { cursor := -1 }).1
        (pushAll some [[1, 0], [0, 3]] { cursor := -1 }).2.cursor :=
  ⟨rfl, (pushes_commit_contiguous some (-1) [[1, 0], [0, 3]] fun _ _ _ _ _ hn => hn.symm).1⟩

end ContiguousEventBuffer

end ClaudeHub
