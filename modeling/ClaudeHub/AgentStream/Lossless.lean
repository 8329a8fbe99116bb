import ClaudeHub.AgentStream.Coalescer

/-! # What the publish path emits

Whatever tasks publish, flush and run timers in whatever order, the emitted events are the
published ones with neighbouring deltas of one stream merged, where an event that is not a
delta may fall behind deltas that were published while it waited for the flush lock.
-/

namespace ClaudeHub

open Merging StepSystem

namespace StreamEvent

def IsEmptyDelta (event : StreamEvent) : Prop :=
  event.isCoalescable = true ∧ event.payload.text = ""

def mergeDeltas (a b : StreamEvent) : Option StreamEvent :=
  if a.isCoalescable && b.isCoalescable then a.merge b else none

def isDirect (event : StreamEvent) : Bool := !event.isCoalescable

def textOf (key : StreamKey) (event : StreamEvent) : List Char :=
  if event.isCoalescable && event.key = key then event.payload.text.toList else []

variable {a b c : StreamEvent}

theorem merge_spec (h : a.merge b = some c) :
    a.key = b.key ∧ c.key = a.key ∧ c.isCoalescable = a.isCoalescable
      ∧ c.payload.text = a.payload.text ++ b.payload.text := by
  unfold merge at h
  split at h
  · next hsame =>
      cases h
      exact ⟨hsame.1, rfl, rfl, rfl⟩
  · cases h

theorem mergeDeltas_spec (h : mergeDeltas a b = some c) :
    a.isCoalescable = true ∧ b.isCoalescable = true ∧ a.merge b = some c := by
  unfold mergeDeltas at h
  split at h
  · next hboth =>
      obtain ⟨ha, hb⟩ := Bool.and_eq_true_iff.mp hboth
      exact ⟨ha, hb, h⟩
  · cases h

end StreamEvent

def streamText (key : StreamKey) (events : List StreamEvent) : List Char :=
  events.flatMap (StreamEvent.textOf key)

abbrev MergesDeltas : List StreamEvent → List StreamEvent → Prop :=
  Merges StreamEvent.IsEmptyDelta StreamEvent.mergeDeltas

/-- Events that are not deltas fall behind deltas. -/
abbrev DelaysDirect : List StreamEvent → List StreamEvent → Prop := Delays StreamEvent.isDirect

variable {xs ys : List StreamEvent}

theorem MergesDeltas.streamText_eq (h : MergesDeltas xs ys) (key : StreamKey) :
    streamText key ys = streamText key xs := by
  refine h.flatMap_eq _ ?_ ?_
  · rintro a ⟨-, hempty⟩
    simp [StreamEvent.textOf, hempty]
  · intro a b c hjoin
    obtain ⟨ha, hb, hmerge⟩ := StreamEvent.mergeDeltas_spec hjoin
    obtain ⟨hsame, hkey, hcoalescable, htext⟩ := StreamEvent.merge_spec hmerge
    by_cases hk : b.key = key
    · simp [StreamEvent.textOf, ha, hb, hcoalescable, hkey, hsame, hk, htext]
    · simp [StreamEvent.textOf, hkey, hsame, hk]

theorem flatMap_direct (xs : List StreamEvent) :
    xs.flatMap (fun e => if e.isDirect then [e] else []) = xs.filter StreamEvent.isDirect := by
  induction xs with
  | nil => rfl
  | cons x xs ih => cases hx : x.isDirect <;> simp [hx, ih]

theorem MergesDeltas.filter_direct (h : MergesDeltas xs ys) :
    ys.filter StreamEvent.isDirect = xs.filter StreamEvent.isDirect := by
  rw [← flatMap_direct, ← flatMap_direct]
  refine h.flatMap_eq _ ?_ ?_
  · rintro a ⟨hdelta, -⟩
    simp [StreamEvent.isDirect, hdelta]
  · intro a b c hjoin
    obtain ⟨ha, hb, hmerge⟩ := StreamEvent.mergeDeltas_spec hjoin
    have hc := (StreamEvent.merge_spec hmerge).2.2.1
    simp [StreamEvent.isDirect, ha, hb, hc]

theorem MergesDeltas.split_direct {pre post zs : List StreamEvent} {e : StreamEvent}
    (he : e.isDirect = true) (h : MergesDeltas (pre ++ e :: post) zs) :
    ∃ pre' post', zs = pre' ++ e :: post' ∧ MergesDeltas pre pre' ∧ MergesDeltas post post' := by
  have hnot : e.isCoalescable = false := by simpa [StreamEvent.isDirect] using he
  apply Merges.split _ _ _ h
  · rintro ⟨hdelta, -⟩
    rw [hnot] at hdelta
    cases hdelta
  · intro b
    simp [StreamEvent.mergeDeltas, hnot]
  · intro a
    simp [StreamEvent.mergeDeltas, hnot]

theorem DelaysDirect.streamText_eq (h : DelaysDirect xs ys) (key : StreamKey) :
    streamText key ys = streamText key xs := by
  refine h.flatMap_eq _ fun a b ha _ => .inl ?_
  have hnot : a.isCoalescable = false := by simpa [StreamEvent.isDirect] using ha
  simp [StreamEvent.textOf, hnot]

theorem DelaysDirect.filter_direct (h : DelaysDirect xs ys) :
    ys.filter StreamEvent.isDirect = xs.filter StreamEvent.isDirect := by
  rw [← flatMap_direct, ← flatMap_direct]
  exact h.flatMap_eq _ fun a b _ hb => .inr (by simp [hb])

theorem collapseOne_merges {collapsed : List StreamEvent} {event : StreamEvent}
    (hcollapsed : ∀ e ∈ collapsed, e.isCoalescable = true) (hevent : event.isCoalescable = true) :
    MergesDeltas (collapsed ++ [event]) (collapseOne collapsed event)
      ∧ ∀ e ∈ collapseOne collapsed event, e.isCoalescable = true := by
  unfold collapseOne
  cases hlast : collapsed.getLast? with
  | none =>
    refine ⟨.refl _, fun e he => ?_⟩
    rcases List.mem_append.mp he with hold | hnew
    · exact hcollapsed e hold
    · rwa [List.mem_singleton.mp hnew]
  | some prev =>
    obtain ⟨front, rfl⟩ := List.getLast?_eq_some_iff.mp hlast
    have hprev : prev.isCoalescable = true := hcollapsed prev (by simp)
    cases hmerge : prev.merge event with
    | none =>
      simp only [hmerge]
      refine ⟨.refl _, fun e he => ?_⟩
      rcases List.mem_append.mp he with hold | hnew
      · exact hcollapsed e hold
      · rwa [List.mem_singleton.mp hnew]
    | some merged =>
      have hjoin : StreamEvent.mergeDeltas prev event = some merged := by
        simp [StreamEvent.mergeDeltas, hprev, hevent, hmerge]
      simp only [hmerge, List.dropLast_concat]
      constructor
      · simpa using (Merges.joins front [] hjoin : MergesDeltas _ _)
      · intro e he
        rcases List.mem_append.mp he with hold | hnew
        · exact hcollapsed e (List.mem_append_left _ hold)
        · rw [List.mem_singleton.mp hnew, (StreamEvent.merge_spec hmerge).2.2.1, hprev]

variable {events : List StreamEvent}

theorem foldl_collapseOne_merges (hevents : ∀ e ∈ events, e.isCoalescable = true)
    {collapsed : List StreamEvent} (hcollapsed : ∀ e ∈ collapsed, e.isCoalescable = true) :
    MergesDeltas (collapsed ++ events) (events.foldl collapseOne collapsed) := by
  induction events generalizing collapsed with
  | nil => simpa using Merges.refl collapsed
  | cons event events ih =>
    obtain ⟨hmerges, hall⟩ := collapseOne_merges hcollapsed (hevents event (by simp))
    have hone := hmerges.append_right events
    have hrest := ih (fun e he => hevents e (List.mem_cons_of_mem _ he)) hall
    simpa using hone.trans hrest

theorem collapse_merges (hevents : ∀ e ∈ events, e.isCoalescable = true) :
    MergesDeltas events (collapse events) :=
  @foldl_collapseOne_merges events hevents [] fun _ he => nomatch he

theorem collapseOne_ne_nil (collapsed : List StreamEvent) (event : StreamEvent) :
    collapseOne collapsed event ≠ [] := by
  unfold collapseOne
  split
  · simp
  · split <;> simp

theorem collapse_eq_nil : collapse events = [] ↔ events = [] := by
  constructor
  · intro h
    by_contra hne
    obtain ⟨front, last, rfl⟩ := List.eq_nil_or_concat events |>.resolve_left hne
    rw [collapse, List.concat_eq_append, List.foldl_append] at h
    exact collapseOne_ne_nil _ _ h
  · rintro rfl
    rfl

end ClaudeHub
