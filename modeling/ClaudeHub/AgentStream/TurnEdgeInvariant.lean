import ClaudeHub.AgentStream.TurnEdges

/-! # What holds between two awaits of a tailer

The holder of the send lock knows the active turn and that it has no terminal edge yet, except
where a one-shot failure may have come between. Without a holder, an active turn has the guard.
-/

namespace ClaudeHub

open Brackets

namespace TurnTailer

variable {tailer next : TurnTailer} {turnId : TurnId} {since : Nat}

theorem old_iff {turn : Option TurnId} :
    tailer.old since turn = true ↔
      ∀ turnId, turn = some turnId → turnId ∈ tailer.started.take since := by
  cases turn <;> simp [old]

/-- What holds of the history and the two guards. -/
structure Base (tailer : TurnTailer) : Prop where
  once : ∀ turnId, tailer.completions turnId ≤ 1
  inOrder : ∀ release ∈ tailer.releases, release.InOrder tailer.started
  active : ∀ turnId, tailer.activeTurnId = some turnId → turnId ∈ tailer.started
  guard : ∀ turnId, tailer.guard = some turnId → turnId ∈ tailer.started
  completed : ∀ turnId, tailer.completions turnId ≠ 0 → turnId ∈ tailer.started
  seen : ∀ turnId, tailer.activeTurnId = some turnId → tailer.turnCompletedSeen = false
  ordered : ∀ before started after turnId, Occurs tailer.events before started after →
    started.type = .turnStarted → started.turnId = some turnId →
      ∀ event ∈ before, event.type = .turnCompleted → event.turnId ≠ some turnId
  logged : ∀ event ∈ tailer.events, ∀ turnId, event.type = .turnStarted →
    event.turnId = some turnId → turnId ∈ tailer.started
  failed : ∀ edge since stage, tailer.consumer = .failing edge since stage →
    edge.turnId.isSome = true
  wanted : ∀ edge since turnId, tailer.consumer = .wants (.completion edge since) →
    edge.turnId = some turnId → turnId ∈ tailer.started.take since
  torn : ∀ task, tailer.turnTeardownTask = some task → task.since ≤ tailer.started.length ∧
    ∀ turnId, tailer.activeTurnId = some turnId → turnId ∉ tailer.started.take task.since

/-- Nobody ends or starts a turn under the send lock. -/
def Open (tailer : TurnTailer) : Prop :=
  ∀ turnId, tailer.activeTurnId = some turnId → tailer.guard = some turnId ∧
    (tailer.completions turnId = 0 ∨
      ∃ edge since, tailer.consumer = .failing edge since .observed)

def Reasoned (tailer : TurnTailer) (edge : StreamEvent) : EdgeReason → Prop
  | .orphan => tailer.activeTurnId = none
  | .rejected => tailer.activeTurnId = edge.turnId
  | .provider since => tailer.old since tailer.activeTurnId = true ∧
      tailer.old since tailer.guard = true
  | .cancel _ | .goal => tailer.activeTurnId = edge.turnId ∧ tailer.guard = edge.turnId
  | .cleanEof since | .fatalEof since =>
    tailer.activeTurnId = edge.turnId ∧ tailer.guard = edge.turnId ∧
      tailer.old since tailer.activeTurnId = true

def Holds (tailer : TurnTailer) : LockedSection → Prop
  | .publishing reason edge stage =>
    tailer.Reasoned edge reason ∧ ∀ turnId, edge.turnId = some turnId →
      turnId ∈ tailer.started ∧ (stage ≠ .observed → tailer.completions turnId = 0)
  | .teardown since => tailer.activeTurnId = none ∧ tailer.old since tailer.guard = true
  | .starting turnId | .submitting turnId =>
    tailer.activeTurnId = some turnId ∧ tailer.completions turnId = 0
  | .submitted turnId =>
    (tailer.activeTurnId = none ∨ tailer.activeTurnId = some turnId) ∧ tailer.Open
  | _ => tailer.activeTurnId = none

def Settled (tailer : TurnTailer) : Prop :=
  match tailer.lock with
  | none => tailer.Open
  | some section' => tailer.Holds section'

structure Inv (tailer : TurnTailer) : Prop where
  base : tailer.Base
  settled : tailer.calm = true → tailer.Settled

/-! ## Small changes -/

theorem Open.of_inactive (h : tailer.activeTurnId = none) : tailer.Open := by
  intro turnId hactive
  rw [h] at hactive
  contradiction

theorem completions_append (tailer : TurnTailer) (event : StreamEvent) (turnId : TurnId) :
    (tailer.append event).completions turnId = tailer.completions turnId +
      if event.type = .turnCompleted ∧ event.turnId = some turnId then 1 else 0 := by
  unfold completions append
  rw [List.countP_append, List.countP_singleton]
  simp only [Bool.and_eq_true, decide_eq_true_eq]

theorem Base.append (h : tailer.Base) {event : StreamEvent}
    (hends : ∀ turnId, event.type = .turnCompleted → event.turnId = some turnId →
      turnId ∈ tailer.started ∧ tailer.completions turnId = 0)
    (hstarts : ∀ turnId, event.type = .turnStarted → event.turnId = some turnId →
      turnId ∈ tailer.started ∧ tailer.completions turnId = 0) : (tailer.append event).Base := by
  refine ⟨?_, h.inOrder, h.active, h.guard, ?_, h.seen, ?_, ?_, h.failed, h.wanted, h.torn⟩
  · intro turnId
    rw [completions_append]
    split
    next hevent => rw [(hends turnId hevent.1 hevent.2).2]
    next => exact h.once turnId
  · intro turnId hcount
    rw [completions_append] at hcount
    split at hcount
    next hevent => exact (hends turnId hevent.1 hevent.2).1
    next => exact h.completed turnId hcount
  · intro before started after turnId hoccurs htype hturn
    rcases occurs_concat.mp hoccurs with ⟨-, hbefore, rfl⟩ | ⟨rest, -, hrest⟩
    · have hcount := (hstarts turnId htype hturn).2
      subst hbefore
      unfold completions at hcount
      rw [List.countP_eq_zero] at hcount
      intro other hmem hcompleted hsame
      exact hcount other hmem (by simp [hcompleted, hsame])
    · exact h.ordered before started rest turnId hrest htype hturn
  · intro other hother turnId htype hturn
    rcases List.mem_append.mp hother with hold | hnew
    · exact h.logged other hold turnId htype hturn
    · obtain rfl := List.mem_singleton.mp hnew
      exact (hstarts turnId htype hturn).1

theorem Base.appendError (h : tailer.Base) (ok : Bool) (edge : StreamEvent) :
    (tailer.appendIf ok { edge with type := .error }).Base := by
  unfold appendIf
  split
  · exact h.append nofun nofun
  · exact h

theorem completions_appendError (tailer : TurnTailer) (ok : Bool) (edge : StreamEvent)
    (turnId : TurnId) :
    (tailer.appendIf ok { edge with type := .error }).completions turnId =
      tailer.completions turnId := by
  unfold appendIf
  split
  · rw [completions_append]
    simp
  · rfl

theorem Base.enter (h : tailer.Base) (section' : LockedSection) : (tailer.enter section').Base :=
  { h with }

theorem Base.consumes (h : tailer.Base) {phase : ConsumerPhase}
    (hfailed : ∀ edge since stage, phase = .failing edge since stage → edge.turnId.isSome = true)
    (hwanted : ∀ edge since turnId, phase = .wants (.completion edge since) →
      edge.turnId = some turnId → turnId ∈ tailer.started.take since) :
    ({ tailer with consumer := phase } : TurnTailer).Base :=
  { h with failed := hfailed, wanted := hwanted }

theorem Base.unlock (h : tailer.Base) : tailer.unlock.Base := by
  have hconsumer : ∀ {phase}, tailer.unlock.consumer = phase → phase ≠ .reading →
      tailer.consumer = phase := by
    intro phase hphase hne
    change (if tailer.consumer = .inLock then .reading else tailer.consumer) = phase at hphase
    split at hphase
    · exact absurd hphase.symm hne
    · exact hphase
  refine { h with failed := ?_, wanted := ?_ }
  · exact fun edge since stage hfails =>
      h.failed edge since stage (hconsumer hfails nofun)
  · exact fun edge since turnId hwants =>
      h.wanted edge since turnId (hconsumer hwants nofun)

theorem Base.clearWaits (h : tailer.Base) : tailer.clearWaits.Base :=
  { h with }

theorem inOrder_concat {release : TurnRelease} (h : ∀ earlier ∈ tailer.releases,
      earlier.InOrder tailer.started) (hrelease : release.InOrder tailer.started) :
    ∀ earlier ∈ tailer.releases ++ [release], earlier.InOrder tailer.started := by
  intro earlier hmem
  rcases List.mem_append.mp hmem with hold | hnew
  · exact h earlier hold
  · rw [List.mem_singleton.mp hnew]
    exact hrelease

section

variable (h : tailer.Base)
include h

theorem Base.releaseActive : tailer.releaseActive.Base := by
  refine ⟨h.once, inOrder_concat h.inOrder ?_, nofun, h.guard, h.completed, nofun,
    h.ordered, h.logged, h.failed, h.wanted, fun task htask => ⟨(h.torn task htask).1, nofun⟩⟩
  rintro turnId (hactive | hguard)
  · rw [List.take_length]
    exact h.active turnId hactive
  · contradiction

theorem Base.endTurn (hold : tailer.old since tailer.guard = true) :
    (tailer.endTurn since).Base := by
  refine { h with inOrder := inOrder_concat h.inOrder ?_, guard := nofun }
  rintro turnId (hactive | hguard)
  · contradiction
  · exact old_iff.1 hold turnId hguard

theorem Base.release (hactive : tailer.old since tailer.activeTurnId = true)
    (hguard : tailer.old since tailer.guard = true) : (tailer.release since).Base := by
  refine ⟨h.once, inOrder_concat h.inOrder ?_, nofun, nofun, h.completed, nofun,
    h.ordered, h.logged, h.failed, h.wanted, fun task htask => ⟨(h.torn task htask).1, nofun⟩⟩
  rintro turnId (hturn | hturn)
  · exact old_iff.1 hactive turnId hturn
  · exact old_iff.1 hguard turnId hturn

theorem Base.old_guard : tailer.old tailer.started.length tailer.guard = true := by
  rw [old_iff, List.take_length]
  exact h.guard

theorem Base.spawnTurnTeardown (hactive : tailer.activeTurnId = none) :
    tailer.spawnTurnTeardown.Base := by
  unfold TurnTailer.spawnTurnTeardown
  split
  · exact h
  · refine { h with torn := ?_ }
    intro task htask
    cases htask
    refine ⟨Nat.le_refl _, fun turnId hturn => ?_⟩
    rw [show tailer.activeTurnId = some turnId from hturn] at hactive
    contradiction

theorem Base.saw (hactive : tailer.activeTurnId = none) (seen : Bool) :
    ({ tailer with turnCompletedSeen := seen } : TurnTailer).Base := by
  refine { h with seen := ?_ }
  intro turnId hturn
  rw [show tailer.activeTurnId = some turnId from hturn] at hactive
  contradiction

theorem Base.outputs (output : TurnOutput) : ({ tailer with output := output } : TurnTailer).Base :=
  { h with }

theorem Base.startTurn (hfresh : turnId ∉ tailer.started) (goalProtocol : Bool) :
    (tailer.startTurn turnId goalProtocol).Base := by
  have hmono : ∀ {since other}, other ∈ tailer.started.take since →
      other ∈ (tailer.started ++ [turnId]).take since := by
    intro since other hmem
    rw [List.take_append]
    exact List.mem_append_left _ hmem
  refine ⟨h.once, ?_, ?_, ?_, ?_, fun _ _ => rfl, h.ordered, ?_, h.failed, ?_, ?_⟩
  · intro release hrelease other hother
    exact hmono (h.inOrder release hrelease other hother)
  · intro other hother
    obtain rfl : turnId = other := Option.some.inj hother
    exact List.mem_append_right _ (List.mem_singleton_self _)
  · intro other hother
    exact List.mem_append_left _ (h.guard other hother)
  · intro other hcount
    exact List.mem_append_left _ (h.completed other hcount)
  · intro event hevent other htype hturn
    exact List.mem_append_left _ (h.logged event hevent other htype hturn)
  · intro edge since other hwants hturn
    exact hmono (h.wanted edge since other hwants hturn)
  · intro task htask
    obtain ⟨hlength, -⟩ := h.torn task htask
    refine ⟨?_, fun other hother => ?_⟩
    · show task.since ≤ (tailer.started ++ [turnId]).length
      rw [List.length_append]
      exact Nat.le_add_right_of_le hlength
    · obtain rfl : turnId = other := Option.some.inj hother
      show turnId ∉ (tailer.started ++ [turnId]).take task.since
      rw [List.take_append_of_le_length hlength]
      exact fun hmem => hfresh (List.mem_of_mem_take hmem)

end

end TurnTailer

end ClaudeHub
