import ClaudeHub.GoalRun.Invariant

/-! # Each step is handed to the transport at most once

A dispatch whose end cannot be written leaves its goal pending with nobody waiting for the
transport, and the next replay hands the step over again. Where the last write of every
dispatch succeeds and every restart recovers the whole store, no step is handed over twice,
and a goal whose last dispatch may have been accepted is left alone until an explicit
resume or steer.
-/

namespace ClaudeHub

open StepSystem

theorem GoalMove.awaits {event : GoalEvent} {prepared goal next : GoalRun} {step : TurnId}
    (hmove : GoalMove event goal next) (hstep : prepared.pendingStepId = some step)
    (h : next.awaits prepared) : goal.awaits prepared ∨ event = .prepared step := by
  obtain ⟨hpending, hsame⟩ := h
  cases hmove with
  | stopped => simp [GoalRun.stoppedTurn] at hpending
  | unreconciled => simp at hpending
  | prepared step' =>
    obtain rfl : step' = step := Option.some.inj (hsame.trans hstep)
    exact .inr rfl
  | counted _ _ _ _ hcounted => simp [hcounted.dispatchState] at hpending
  | accepted => simp at hpending
  | uncertain => simp at hpending
  | recovered now hrecovered =>
    have hrec := GoalRun.recovered_spec hrecovered
    rw [hrec.dispatchState] at hpending
    split at hpending
    · contradiction
    · exact .inl ⟨hpending, hrec.pendingStepId ▸ hsame⟩
  | _ => exact .inl ⟨hpending, hsame⟩

theorem GoalPath.awaits {writes : List GoalWrite} {prepared goal last : GoalRun} {step : TurnId}
    (hpath : GoalPath goal writes last) (hstep : prepared.pendingStepId = some step)
    (hother : step ∉ preparedSteps writes) (h : last.awaits prepared) : goal.awaits prepared := by
  induction hpath with
  | nil => exact h
  | cons hmove _ ih =>
    rw [preparedSteps_cons, List.mem_append, not_or] at hother
    rcases hmove.awaits hstep (ih hother.2 h) with hgoal | rfl
    · exact hgoal
    · exact absurd (mem_preparedSteps.mpr ⟨_, List.mem_cons_self⟩) hother.1

/-! ## Goals whose last dispatch is unknown -/

namespace GoalHistory

theorem note_unknown_other {history : GoalHistory} {write : GoalWrite} {id : GoalId}
    (hid : id ≠ write.goal.id) (h : id ∈ (history.note write).unknown) :
    id ∈ history.unknown := by
  obtain ⟨event, goal⟩ := write
  cases event with
  | counted => exact (foldl_carry_calls _ history).2.2 ▸ h
  | uncertain => simpa [note, show id ≠ goal.id from hid] using h
  | unreconciled => simpa [note, show id ≠ goal.id from hid] using h
  | steered => exact (List.mem_filter.mp h).1
  | resumed => exact (List.mem_filter.mp h).1
  | activated => exact (List.mem_filter.mp h).1
  | _ => exact h

theorem foldl_note_unknown_other {goal last : GoalRun} {writes : List GoalWrite}
    (hpath : GoalPath goal writes last) {history : GoalHistory} {id : GoalId}
    (hid : id ≠ goal.id) (h : id ∈ (writes.foldl note history).unknown) :
    id ∈ history.unknown := by
  induction hpath generalizing history with
  | nil => exact h
  | cons hmove _ ih =>
    have hid' := hmove.sameGoal.id ▸ hid
    exact note_unknown_other hid' (ih hid' h)

end GoalHistory

theorem GoalMove.unknown {event : GoalEvent} {goal next : GoalRun} {history : GoalHistory}
    (hmove : GoalMove event goal next)
    (h : goal.id ∈ history.unknown → goal.status ≠ .active)
    (hnext : next.id ∈ (history.note ⟨event, next⟩).unknown) : next.status ≠ .active := by
  cases hmove with
  | paused => simp
  | resumed => simp [GoalHistory.note] at hnext
  | steered => simp
  | edited => exact h hnext
  | finished _ _ _ _ _ hterminal => exact terminal_ne_active hterminal
  | stopped now hparked => exact hparked
  | unreconciled _ _ hparked => exact hparked
  | activated => simp [GoalHistory.note] at hnext
  | unconnected => simp
  | prepared _ _ hactive => exact absurd hactive (h hnext)
  | released _ _ hactive => exact absurd hactive (h hnext)
  | interrupted => simp
  | counted tokens hactive _ _ hcounted =>
    have hold : next.id ∈ history.unknown :=
      (GoalHistory.foldl_carry_calls _ history).2.2 ▸ hnext
    exact absurd hactive (h (hcounted.id ▸ hold))
  | accepted => exact h hnext
  | uncertain =>
    dsimp only
    split
    · simp
    · assumption
  | recovered now hrecovered => exact (GoalRun.recovered_spec hrecovered).status_ne_active

theorem GoalPath.unknown {writes : List GoalWrite} {goal last : GoalRun}
    {history : GoalHistory} (hpath : GoalPath goal writes last)
    (h : goal.id ∈ history.unknown → goal.status ≠ .active)
    (hlast : last.id ∈ (writes.foldl GoalHistory.note history).unknown) :
    last.status ≠ .active := by
  induction hpath generalizing history with
  | nil => exact h hlast
  | cons hmove _ ih => exact ih (fun hmem => hmove.unknown h hmem) hlast

namespace GoalSystem

variable {system after base : GoalSystem}

/-- The last write of a dispatch that ends succeeds, and a restart recovers every goal. -/
def Settles (system : GoalSystem) : GoalOp → Prop
  | .transportReturned prepared moment =>
    ∀ goal, system.controller.store.goals.get? prepared.id = some goal → goal.awaits prepared →
      moment.saves.acceptance = true ∨ moment.saves.failure = true
  | .transportRaised prepared _ moment =>
    ∀ goal, system.controller.store.goals.get? prepared.id = some goal → goal.awaits prepared →
      moment.saves.failure = true
  | .restart _ failing => failing = none
  | _ => True

/-- The claims of the steps that are still pending, and the goals to leave alone. -/
structure Once (system : GoalSystem) : Prop where
  calls : (system.history.calls.map fun call => call.goal.pendingStepId).Nodup
  known : ∀ call ∈ system.history.calls, call.acceptanceUnknown = false
  claimed : ∀ call ∈ system.history.calls, ∀ goal ∈ system.controller.store.goals.rows,
    goal.awaits call.goal →
      ∃ step ∈ system.controller.acceptances, call.goal.pendingStepId = some step
  unknown : ∀ id ∈ system.history.unknown,
    ∃ goal ∈ system.controller.store.goals.rows, goal.id = id ∧ goal.status ≠ .active

theorem mem_snapshots_of_call {call : GoalCall} (h : call ∈ system.history.calls) :
    call.goal ∈ system.snapshots :=
  List.mem_append_right _ (List.mem_map_of_mem h)

theorem Inv.owner (hinv : system.Inv) {step : TurnId} {id id' : GoalId}
    (h : (step, id) ∈ system.history.steps) (h' : (step, id') ∈ system.history.steps) :
    id = id' :=
  congrArg Prod.snd (List.inj_on_of_nodup_map hinv.stepsOnce h h' rfl)

theorem Drops.once (hdrops : system.Drops base) (h : system.Once) : base.Once where
  calls := by rw [hdrops.history]; exact h.calls
  known := by rw [hdrops.history]; exact h.known
  claimed := by rw [hdrops.history, hdrops.store, hdrops.acceptances]; exact h.claimed
  unknown := by rw [hdrops.history, hdrops.store]; exact h.unknown

section

variable {goal : GoalRun} {result : Section} {ids : List TurnId} {op : GoalOp}

theorem commit_unknown (hgoal : goal ∈ base.controller.store.goals.rows)
    (hsound : result.Sound ids op goal)
    (h : ∀ id ∈ base.history.unknown,
      ∃ goal ∈ base.controller.store.goals.rows, goal.id = id ∧ goal.status ≠ .active) :
    ∀ id ∈ (base.commit result).history.unknown,
      ∃ goal ∈ (base.commit result).controller.store.goals.rows,
        goal.id = id ∧ goal.status ≠ .active := by
  have hsame := hsound.path.sameGoal
  intro id hid
  by_cases heq : id = result.goal.id
  · subst heq
    refine ⟨result.goal, mem_commit_goals.mpr (.inl rfl), rfl, ?_⟩
    refine hsound.path.unknown (fun hold => ?_) hid
    obtain ⟨other, hother, hid', hactive⟩ := h _ hold
    obtain rfl := Table.eq_of_mem hother hgoal hid'
    exact hactive
  · have hold := GoalHistory.foldl_note_unknown_other hsound.path (hsame.id ▸ heq) hid
    obtain ⟨other, hother, rfl, hactive⟩ := h id hold
    exact ⟨other, mem_commit_goals.mpr (.inr ⟨hother, heq⟩), rfl, hactive⟩

theorem Once.commit (honce : base.Once) (hinv : base.Inv)
    (hgoal : goal ∈ base.controller.store.goals.rows) (hsound : result.Sound ids op goal)
    (hnew : ∀ step ∈ ids, step ∉ base.history.steps.map Prod.fst) :
    (base.commit result).Once := by
  have hcalls : (base.commit result).history.calls = base.history.calls :=
    GoalHistory.record_calls _ _
  refine ⟨hcalls ▸ honce.calls, hcalls ▸ honce.known, ?_, commit_unknown hgoal hsound honce.unknown⟩
  intro call hcall other hother hawaits
  rw [hcalls] at hcall
  show ∃ step ∈ (base.controller.follow result).acceptances, _
  rw [GoalRunController.follow_acceptances]
  rcases mem_commit_goals.mp hother with rfl | ⟨hother, -⟩
  · obtain ⟨step, hstep, hmem⟩ := hinv.taken call.goal (mem_snapshots_of_call hcall)
    refine honce.claimed call hcall goal hgoal
      (hsound.path.awaits hstep (fun hprepared => ?_) hawaits)
    exact new_of_prepared hsound hnew hprepared (List.mem_map_of_mem hmem)
  · exact honce.claimed call hcall other hother hawaits

theorem Once.create {store : GoalRunStore} (honce : system.Once) (hinv : system.Inv)
    (hgoals : store.goals = system.controller.store.goals.insert goal)
    (hidle : goal.pendingStepId = none)
    (hfresh : system.controller.store.goals.get? goal.id = none) :
    ({ system with controller := { system.controller with store } } : GoalSystem).Once where
  calls := honce.calls
  known := honce.known
  claimed := fun call hcall other hother hawaits => by
    rw [hgoals] at hother
    rcases Table.mem_insert.mp hother with rfl | ⟨hother, -⟩
    · obtain ⟨step, hstep, -⟩ := hinv.taken call.goal (mem_snapshots_of_call hcall)
      have hsame := hawaits.2
      rw [hidle, hstep] at hsame
      contradiction
    · exact honce.claimed call hcall other hother hawaits
  unknown := fun id hid => by
    obtain ⟨other, hother, rfl, hactive⟩ := honce.unknown id hid
    refine ⟨other, ?_, rfl, hactive⟩
    rw [hgoals]
    exact Table.mem_insert.mpr (.inr ⟨hother, Table.get?_eq_none.mp hfresh other hother⟩)

theorem Once.invoke {prepared : PreparedGoal} {step : TurnId} (honce : system.Once)
    (hstep : prepared.goal.pendingStepId = some step)
    (hfree : step ∉ system.controller.acceptances)
    (hgoal : goal ∈ system.controller.store.goals.rows) (hid : goal.id = prepared.goal.id)
    (hactive : goal.status = .active) (hawaits : goal.awaits prepared.goal) :
    ((system.dropPrepared prepared).invoke prepared.goal step).Once := by
  have hnew : ∀ call ∈ system.history.calls, call.goal.pendingStepId ≠ some step := by
    intro call hcall hsame
    obtain ⟨step', hstep', hclaimed⟩ :=
      honce.claimed call hcall goal hgoal ⟨hawaits.1, by rw [hawaits.2, hstep, hsame]⟩
    obtain rfl : step' = step := Option.some.inj (hclaimed.symm.trans hsame)
    exact hfree hstep'
  refine ⟨?_, ?_, ?_, honce.unknown⟩
  · show ((system.history.calls ++ [_]).map _).Nodup
    rw [List.map_append, List.nodup_append]
    refine ⟨honce.calls, by simp, ?_⟩
    rintro s hs s' hs' rfl
    obtain ⟨call, hcall, rfl⟩ := List.mem_map.mp hs
    exact hnew call hcall (by simpa [hstep] using hs')
  · intro call hcall
    rcases List.mem_append.mp hcall with hcall | hcall
    · exact honce.known call hcall
    · obtain rfl := List.mem_singleton.mp hcall
      refine decide_eq_false fun hunknown => ?_
      obtain ⟨other, hother, hid', hactive'⟩ := honce.unknown _ hunknown
      obtain rfl := Table.eq_of_mem hother hgoal (hid'.trans hid.symm)
      exact hactive' hactive
  · intro call hcall other hother hawaits'
    rcases List.mem_append.mp hcall with hcall | hcall
    · obtain ⟨s, hs, hsame⟩ := honce.claimed call hcall other hother hawaits'
      exact ⟨s, List.mem_append_left _ hs, hsame⟩
    · obtain rfl := List.mem_singleton.mp hcall
      exact ⟨step, List.mem_append_right _ (List.mem_singleton.mpr rfl), hstep⟩

variable {prepared : GoalRun} {accepted : Bool}

theorem mem_ended_acceptances {step settled : TurnId}
    (hsettled : prepared.pendingStepId = some settled) (hne : step ≠ settled)
    (h : step ∈ system.controller.acceptances) :
    step ∈ (system.ended prepared accepted result).controller.acceptances := by
  show step ∈ ((system.controller.follow result).acceptances).erase _
  rw [GoalRunController.follow_acceptances, hsettled]
  exact (List.mem_erase_of_ne hne).mpr h

theorem Once.ended (honce : system.Once) (hinv : system.Inv)
    (hmem : prepared ∈ system.controller.transporting)
    (hgoal : goal ∈ system.controller.store.goals.rows) (hid : goal.id = prepared.id)
    (hsound : result.Sound [] op goal) (hsettled : ¬ result.goal.awaits prepared) :
    (system.ended prepared accepted result).Once := by
  have hcommit := honce.commit hinv hgoal hsound (by simp)
  have hcalls := (ended_history system prepared accepted result).2.1
  obtain ⟨settled, hstep, howner⟩ := hinv.taken prepared (snapshots_transporting hmem)
  have hunknown : (system.ended prepared accepted result).history.unknown =
      (system.commit result).history.unknown := by
    cases accepted with
    | false => simp [GoalSystem.ended, GoalSystem.commit, hsettled]
    | true => simp [GoalSystem.ended, GoalSystem.commit, hsettled, GoalHistory.carry_calls]
  refine ⟨hcalls ▸ hcommit.calls, hcalls ▸ hcommit.known, ?_,
    hunknown ▸ hcommit.unknown⟩
  intro call hcall other hother hawaits
  rw [hcalls] at hcall
  obtain ⟨step, hclaimed, hsame⟩ := hcommit.claimed call hcall other hother hawaits
  refine ⟨step, mem_ended_acceptances hstep ?_ ?_, hsame⟩
  · rintro rfl
    rcases mem_commit_goals.mp hother with rfl | ⟨hother, hne⟩
    · exact hsettled ⟨hawaits.1, by rw [hawaits.2, hsame, hstep]⟩
    · have hown := hinv.owned other hother step (hawaits.2.trans hsame)
      exact hne ((hinv.owner hown howner).trans (hid.symm.trans hsound.path.sameGoal.id.symm))
  · rwa [show (system.commit result).controller.acceptances = system.controller.acceptances from
      GoalRunController.follow_acceptances _ _] at hclaimed

variable {now : Time}

theorem restart_not_pending {next : GoalRun}
    (h : next ∈ (system.restart now none).controller.store.goals.rows) :
    next.dispatchState ≠ .pending := by
  obtain ⟨goal, hgoal, rfl⟩ := List.mem_map.mp h
  have hall : (system.controller.store.goals.rows.map GoalRun.id).takeWhile
      (fun id => decide (some id ≠ none)) = system.controller.store.goals.rows.map GoalRun.id := by
    rw [List.takeWhile_eq_self_iff]
    simp
  have hdone : goal.id ∈ (system.controller.store.goals.rows.map GoalRun.id).takeWhile
      (fun id => decide (some id ≠ none)) := by
    rw [hall]
    exact List.mem_map_of_mem hgoal
  rw [if_pos hdone]
  cases hrecovered : goal.recovered now with
  | none =>
    intro hpending
    simp [GoalRun.recovered, show goal.dispatchState = .pending from hpending] at hrecovered
  | some next =>
    show next.dispatchState ≠ .pending
    rw [(GoalRun.recovered_spec hrecovered).dispatchState]
    split
    · simp
    · rename_i hnot
      exact fun hpending => hnot (.inl hpending)

theorem restart_goal {failing : Option GoalId} (hgoal : goal ∈ system.controller.store.goals.rows) :
    ∃ next ∈ (system.restart now failing).controller.store.goals.rows,
      next.id = goal.id ∧ (goal.status ≠ .active → next.status ≠ .active) := by
  refine ⟨_, List.mem_map_of_mem hgoal, ?_⟩
  split
  · cases hrecovered : goal.recovered now with
    | none => exact ⟨rfl, fun h => h⟩
    | some =>
      have hrec := GoalRun.recovered_spec hrecovered
      exact ⟨hrec.id, fun _ => hrec.status_ne_active⟩
  · exact ⟨rfl, fun h => h⟩

theorem Once.restart (honce : system.Once) (hinv : system.Inv) (now : Time) :
    (system.restart now none).Once where
  calls := honce.calls
  known := honce.known
  claimed := fun _ _ _ hnext hawaits => absurd hawaits.1 (restart_not_pending hnext)
  unknown := fun id hid => by
    rcases List.mem_append.mp hid with hold | hnew
    · obtain ⟨goal, hgoal, rfl, hactive⟩ := honce.unknown id hold
      obtain ⟨next, hnext, hsame, hkeep⟩ := restart_goal hgoal
      exact ⟨next, hnext, hsame, hkeep hactive⟩
    · obtain ⟨next, hnext, rfl⟩ := List.mem_map.mp hnew
      obtain ⟨hmem, huncertain⟩ := List.mem_filter.mp hnext
      exact ⟨next, hmem, rfl, ((hinv.restart now none).wellFormed next hmem).uncertain
        (by simpa using huncertain)⟩

theorem put_not_awaits {next : GoalRun} {event : GoalEvent} {rest : GoalRun → Section}
    (hnext : next.dispatchState ≠ .pending) (hrest : ∀ goal, (rest goal).goal = goal) :
    ¬ (goal.put next event now true rest).goal.awaits prepared := by
  intro hawaits
  refine hnext ?_
  have hpending : (rest { next with updatedAt := now }).goal.dispatchState = .pending := hawaits.1
  rwa [hrest] at hpending

theorem dispatchFailed_settles {error : GoalError} {moment : Moment}
    (hsaved : goal.awaits prepared → moment.saves.failure = true) :
    ¬ (goal.dispatchFailed prepared error moment).goal.awaits prepared := by
  unfold GoalRun.dispatchFailed
  split
  · rename_i hawaits
    rw [hsaved hawaits]
    refine put_not_awaits (by simp) fun goal => ?_
    split <;> rfl
  · assumption

theorem dispatchAccepted_settles {next : Option TurnId} {moment : Moment}
    (hsaved : goal.awaits prepared →
        moment.saves.acceptance = true ∨ moment.saves.failure = true) :
    ¬ (goal.dispatchAccepted prepared next moment).goal.awaits prepared := by
  unfold GoalRun.dispatchAccepted
  split
  · rename_i hawaits
    split
    · exact put_not_awaits (by simp) fun goal => rfl
    · rename_i hlost
      exact dispatchFailed_settles fun _ => (hsaved hawaits).resolve_left hlost
  · assumption

theorem Ending.settles {op : GoalOp} (hending : Ending prepared goal op accepted result)
    (hsettles : system.Settles op)
    (hget : system.controller.store.goals.get? prepared.id = some goal) :
    ¬ result.goal.awaits prepared := by
  cases hending with
  | returned => exact dispatchAccepted_settles (hsettles goal hget)
  | raised => exact dispatchFailed_settles (hsettles goal hget)

theorem Once.step {op : GoalOp} (honce : system.Once) (hinv : system.Inv)
    (hnew : system.NewIds op) (hsettles : system.Settles op)
    (h : system.step op = some after) : after.Once := by
  cases shape hinv h with
  | drops hdrops => exact hdrops.once honce
  | wrote hdrops hgoal hsound =>
    exact (hdrops.once honce).commit (hdrops.inv hinv) (hdrops.store ▸ hgoal) hsound
      (hdrops.history ▸ hnew.1)
  | created hop hgoal hgoals hfree hsound =>
    subst hop
    subst hgoal
    have hcreate := hinv.create hgoals (newGoal_wellFormed _ _ _ _) rfl hnew.2
    refine (honce.create hinv hgoals rfl hnew.2).commit hcreate ?_ hsound hnew.1
    rw [hgoals]
    exact Table.mem_insert.mpr (.inl rfl)
  | invoked hmem hstep hfree hlatest hid hactive hawaits =>
    exact honce.invoke hstep hfree hlatest hid hactive hawaits
  | ended hmem hgoal hid hending hsound =>
    exact honce.ended hinv hmem hgoal hid hsound
      (hending.settles hsettles (Table.get?_eq_some.mpr ⟨hgoal, hid⟩))
  | restarted now failing hop =>
    subst hop
    obtain rfl : failing = none := hsettles
    exact honce.restart hinv now

end

instance (system : GoalSystem) (op : GoalOp) : Decidable (system.Settles op) := by
  unfold Settles
  split <;> infer_instance

/-- Where the ids are new and what is written is recovered, no step is handed to the transport
twice, and no goal whose last dispatch may have been accepted is dispatched again without an
explicit resume or steer. -/
theorem dispatched_at_most_once {callbacks : Callbacks} {ops : List GoalOp}
    (hrun : Run GoalSystem.step (fun system op => system.NewIds op ∧ system.Settles op)
      (initial callbacks) ops system) :
    (system.history.calls.map fun call => call.goal.pendingStepId).Nodup ∧
      ∀ call ∈ system.history.calls, call.acceptanceUnknown = false := by
  have hinitial : (initial callbacks).Once := by
    constructor <;> simp [initial]
  have h := hrun.invariant (P := fun system => system.Inv ∧ system.Once)
    ⟨initial_inv callbacks, hinitial⟩ fun s op t hs hok hstep =>
      ⟨hs.1.step hok.1 hstep, hs.2.step hs.1 hok.1 hok.2 hstep⟩
  exact ⟨h.2.calls, h.2.known⟩

/-! ### A goal that is created and dispatched -/

private def startRequest : GoalRunCreate := { objective := "ship it", clientRequestId := "create" }

private def startGoal : GoalOp := .createAndStart "tab" startRequest "goal" ⟨1, "step", {}⟩

private def preparedGoal : GoalRun :=
  { newGoal "tab" startRequest "goal" 1 with
    pendingStepId := some "step"
    currentTurnId := some "step"
    dispatchState := .pending }

private def handOver : GoalOp := .dispatch ⟨preparedGoal, false⟩ ⟨2, "unused", {}⟩

private def acceptedOnce : List GoalOp :=
  [startGoal, handOver, .transportReturned preparedGoal ⟨3, "unused", {}⟩,
    .turnCompleted "tab" "step" { status := "completed", signal := some { state := .complete } }
      ⟨4, "next", {}⟩, .restart 5 none]

/-- The transport raises and the failure cannot be saved; then a late completion of another
turn replays the pending step. -/
private def replayed : List GoalOp :=
  [startGoal, handOver,
    .transportRaised preparedGoal (.callback "lost") ⟨3, "unused", { failure := false }⟩,
    .turnCompleted "tab" "earlier" { status := "completed" } ⟨4, "next", {}⟩, handOver]

theorem dispatched_at_most_once_accepted :
    ∃ system : GoalSystem, system.history.calls.length = 1 ∧
      (system.history.calls.map fun call => call.goal.pendingStepId).Nodup ∧
      ∀ call ∈ system.history.calls, call.acceptanceUnknown = false := by
  have h : ((execOk GoalSystem.step (fun system op => system.NewIds op ∧ system.Settles op)
      (initial {}) acceptedOnce).map fun system => system.history.calls.length) = some 1 := by
    decide +kernel
  obtain ⟨system, hexec, hcalls⟩ := Option.map_eq_some_iff.mp h
  exact ⟨system, hcalls, dispatched_at_most_once (Run.of_execOk hexec)⟩

/-- One lost write, and the same step is handed to the transport twice. -/
theorem step_handed_over_twice :
    ∃ system : GoalSystem,
      Run GoalSystem.step NewIds (initial {}) replayed system ∧
        ¬ (system.history.calls.map fun call => call.goal.pendingStepId).Nodup := by
  have h : ((execOk GoalSystem.step NewIds (initial {}) replayed).map fun system =>
      system.history.calls.map fun call => call.goal.pendingStepId) =
        some [some "step", some "step"] := by
    decide +kernel
  obtain ⟨system, hexec, hcalls⟩ := Option.map_eq_some_iff.mp h
  refine ⟨system, Run.of_execOk hexec, ?_⟩
  rw [hcalls]
  decide

/-- In every run the records of the goals are consistent, no two of them wait for one step, and
what is to follow a stop is kept for goals that are not active. -/
theorem goal_records_consistent {callbacks : Callbacks} {ops : List GoalOp}
    (hrun : Run GoalSystem.step NewIds (initial callbacks) ops system) :
    (∀ goal ∈ system.controller.store.goals.rows, goal.WellFormed) ∧
      (∀ goal ∈ system.controller.store.goals.rows,
        ∀ other ∈ system.controller.store.goals.rows, goal.pendingStepId ≠ none →
          other.pendingStepId = goal.pendingStepId → goal = other) ∧
      ∀ entry ∈ system.controller.stopping.rows,
        ∃ goal ∈ system.controller.store.goals.rows, goal.id = entry.1 ∧ goal.status ≠ .active ∧
          ∀ turnId, entry.2.after = .steer turnId → goal.status = .paused := by
  have hinv := hrun.invariant (initial_inv callbacks) fun _ _ _ h hnew hstep => h.step hnew hstep
  refine ⟨hinv.wellFormed, fun goal hgoal other hother hstep hsame => ?_, hinv.parked⟩
  obtain ⟨step, hpending⟩ := Option.ne_none_iff_exists'.mp hstep
  have howned := hinv.owned goal hgoal step hpending
  have howned' := hinv.owned other hother step (hsame.trans hpending)
  exact Table.eq_of_mem hgoal hother (hinv.owner howned howned')

theorem goal_records_consistent_pending :
    ∃ system : GoalSystem, (∃ goal ∈ system.controller.store.goals.rows,
        goal.pendingStepId = some "step") ∧
      ∀ goal ∈ system.controller.store.goals.rows, goal.WellFormed := by
  have h : (execOk GoalSystem.step NewIds (initial {}) [startGoal]).any (fun system =>
      decide (∃ goal ∈ system.controller.store.goals.rows, goal.pendingStepId = some "step")) := by
    decide +kernel
  obtain ⟨system, hexec, hpending⟩ := (Option.any_eq_true _ _).mp h
  exact ⟨system, of_decide_eq_true hpending, (goal_records_consistent (Run.of_execOk hexec)).1⟩

end GoalSystem

end ClaudeHub
