import ClaudeHub.GoalRun.Moves

/-! # The shapes of a step

Every step of the controller drops waiting coroutines, runs one section on one stored
goal, adds a goal, invokes the transport, ends a dispatch, or restarts. The invariants are
proved by these shapes, so none of them looks at an entry point.
-/

namespace ClaudeHub

/-- The step ids that an operation may bring: the id that `uuid4` draws or the one that
the caller supplies, unless the request is a replay. -/
def GoalSystem.steps (system : GoalSystem) : GoalOp → List TurnId
  | .createAndStart _ _ _ moment | .turnCompleted _ _ _ moment
  | .releaseDeferredResume _ moment | .dispatchNext _ moment => [moment.uuid]
  | .resume goalId request moment =>
    match system.controller.store.goals.get? goalId with
    | none => []
    | some goal =>
      if goal.idempotency.lookup request.clientRequestId = none then
        (AfterStop.resume request).steps moment
      else []
  | .steer goalId request moment =>
    match system.controller.store.goals.get? goalId with
    | none => []
    | some goal =>
      if goal.idempotency.lookup request.clientRequestId = none then
        (AfterStop.steer request.turnId).steps moment
      else []
  | .cancelReturned goalId moment =>
    match system.controller.stopping.lookup goalId with
    | none => []
    | some stopping => stopping.after.steps moment
  | _ => []

namespace GoalSystem

/-- The goal of a section that `perform` runs. -/
theorem perform_some {system after : GoalSystem} {goalId : GoalId} {body : GoalRun → Section}
    (h : system.perform goalId body = some after) :
    ∃ goal, system.controller.store.goals.get? goalId = some goal ∧
      after = system.commit (body goal) := by
  obtain ⟨goal, hget, hafter⟩ := Option.map_eq_some_iff.mp h
  exact ⟨goal, hget, hafter.symm⟩

theorem mutate_some {system after : GoalSystem} {goalId : GoalId} {body : GoalRun → Section}
    (h : system.mutate goalId body = some after) :
    system.controller.stopping.lookup goalId = none ∧
      ∃ goal, system.controller.store.goals.get? goalId = some goal ∧
        after = system.commit (body goal) := by
  unfold mutate at h
  cases hstopping : system.controller.stopping.lookup goalId with
  | some => simp [hstopping] at h
  | none =>
    rw [hstopping] at h
    exact ⟨rfl, perform_some h⟩

/-- Some waiting coroutines are gone and nothing else has changed. -/
structure Drops (system base : GoalSystem) : Prop where
  history : base.history = system.history
  callbacks : base.controller.callbacks = system.controller.callbacks
  store : base.controller.store = system.controller.store
  acceptances : base.controller.acceptances = system.controller.acceptances
  transporting : base.controller.transporting = system.controller.transporting
  prepared : ∀ p ∈ base.controller.prepared, p ∈ system.controller.prepared
  stopping : ∀ entry ∈ base.controller.stopping.rows, entry ∈ system.controller.stopping.rows

theorem Drops.refl (system : GoalSystem) : system.Drops system :=
  ⟨rfl, rfl, rfl, rfl, rfl, fun _ h => h, fun _ h => h⟩

def dropPrepared (system : GoalSystem) (prepared : PreparedGoal) : GoalSystem :=
  { system with
    controller :=
      { system.controller with prepared := system.controller.prepared.erase prepared } }

theorem Drops.prepare (system : GoalSystem) (prepared : PreparedGoal) :
    system.Drops (system.dropPrepared prepared) :=
  ⟨rfl, rfl, rfl, rfl, rfl, fun _ h => List.mem_of_mem_erase h, fun _ h => h⟩

theorem Drops.stop (system : GoalSystem) (goalId : GoalId) :
    system.Drops { system with
      controller :=
        { system.controller with stopping := system.controller.stopping.erase goalId } } :=
  ⟨rfl, rfl, rfl, rfl, rfl, fun _ h => h, fun _ h => (Table.mem_erase.mp h).1⟩

/-- A section that runs beside a coroutine that is stopping the goal's turn leaves the
status of a parked goal. -/
def KeepsParked (base : GoalSystem) (goal : GoalRun) (result : Section) : Prop :=
  ∀ entry ∈ base.controller.stopping.rows, entry.1 = goal.id → goal.status ≠ .active →
    result.goal.status = goal.status

theorem keepsParked_of_lookup {base : GoalSystem} {goal : GoalRun} {result : Section}
    (h : base.controller.stopping.lookup goal.id = none) : base.KeepsParked goal result := by
  intro entry hmem hid
  have hget : base.controller.stopping.get? goal.id = some entry :=
    Table.get?_eq_some.mpr ⟨hmem, hid⟩
  simp [Dict.lookup, hget] at h

/-- How a dispatch ended, as a section of its goal. -/
inductive Ending (prepared goal : GoalRun) : GoalOp → Bool → Section → Prop
  | returned (moment : Moment) :
      Ending prepared goal (.transportReturned prepared moment) true
        (goal.dispatchAccepted prepared prepared.pendingStepId moment)
  | raised (error : GoalError) (moment : Moment) :
      Ending prepared goal (.transportRaised prepared error moment) false
        (goal.dispatchFailed prepared error moment)

def ended (system : GoalSystem) (prepared : GoalRun) (accepted : Bool) (result : Section) :
    GoalSystem where
  controller :=
    { (system.commit result).controller with
      transporting := (system.commit result).controller.transporting.erase prepared }.release
        (prepared.pendingStepId.getD "")
  history :=
    let history := system.history.record result
    let history :=
      if result.goal.awaits prepared then
        { history with unknown := history.unknown ++ [prepared.id] }
      else history
    if accepted then history.carry prepared else history

inductive Shape (system : GoalSystem) (op : GoalOp) : GoalSystem → Prop
  | drops {after : GoalSystem} (hdrops : system.Drops after) : Shape system op after
  | wrote {base : GoalSystem} {goal : GoalRun} {result : Section} (hdrops : system.Drops base)
      (hgoal : goal ∈ system.controller.store.goals.rows)
      (hsound : result.Sound (system.steps op) op goal)
      (hparked : base.KeepsParked goal result)
      (hreturned : ∀ prepared moment, op ≠ .transportReturned prepared moment) :
      Shape system op (base.commit result)
  | created {goal : GoalRun} {store : GoalRunStore} {result : Section} {tabId : TabId}
      {request : GoalRunCreate} {goalId : GoalId} {moment : Moment}
      (hop : op = .createAndStart tabId request goalId moment)
      (hnew : goal = newGoal tabId request goalId moment.now)
      (hgoals : store.goals = system.controller.store.goals.insert goal)
      (hfree : ∀ existing ∈ system.controller.store.goals.rows, existing.tabId = goal.tabId →
        existing.status.terminal = true ∧ existing.dispatchState = .idle)
      (hsound : result.Sound (system.steps op) op goal) :
      Shape system op
        ({ system with controller := { system.controller with store } }.commit result)
  | invoked {prepared : PreparedGoal} {step : TurnId} {latest : GoalRun}
      (hmem : prepared ∈ system.controller.prepared)
      (hstep : prepared.goal.pendingStepId = some step)
      (hfree : step ∉ system.controller.acceptances)
      (hlatest : latest ∈ system.controller.store.goals.rows) (hid : latest.id = prepared.goal.id)
      (hactive : latest.status = .active) (hawaits : latest.awaits prepared.goal) :
      Shape system op ((system.dropPrepared prepared).invoke prepared.goal step)
  | ended {prepared goal : GoalRun} {accepted : Bool} {result : Section}
      (hmem : prepared ∈ system.controller.transporting)
      (hgoal : goal ∈ system.controller.store.goals.rows) (hid : goal.id = prepared.id)
      (hending : Ending prepared goal op accepted result)
      (hsound : result.Sound [] op goal) : Shape system op (system.ended prepared accepted result)
  | restarted (now : Time) (failing : Option GoalId) (hop : op = .restart now failing) :
      Shape system op (system.restart now failing)

end GoalSystem

/-- A record that was taken while its step was pending. -/
def Snapshot (steps : List (TurnId × GoalId)) (prepared : GoalRun) : Prop :=
  ∃ step, prepared.pendingStepId = some step ∧ (step, prepared.id) ∈ steps

/-- As long as the goal runs the step of a record taken of it, its objective has not been
edited beyond the record unseen, and an active goal that still waits for the transport has
the input of the record. -/
structure GoalRun.Agrees (prepared goal : GoalRun) : Prop where
  dispatched : goal.pendingStepId = prepared.pendingStepId →
    goal.dispatchedObjectiveRevision ≤ prepared.objectiveRevision
  edited : goal.pendingStepId = prepared.pendingStepId →
    prepared.objectiveRevision ≤ goal.objectiveRevision
  objective : goal.pendingStepId = prepared.pendingStepId →
    prepared.objectiveRevision = goal.objectiveRevision → prepared.objective = goal.objective
  input : goal.pendingStepId = prepared.pendingStepId → goal.status = .active →
    goal.dispatchState = .pending → goal.pendingInput = prepared.pendingInput

namespace GoalSystem

def snapshots (system : GoalSystem) : List GoalRun :=
  system.controller.prepared.map PreparedGoal.goal ++ system.controller.transporting ++
    system.history.calls.map GoalCall.goal

structure Inv (system : GoalSystem) : Prop where
  wellFormed : ∀ goal ∈ system.controller.store.goals.rows, goal.WellFormed
  owned : ∀ goal ∈ system.controller.store.goals.rows, ∀ step,
    goal.pendingStepId = some step → (step, goal.id) ∈ system.history.steps
  stepsOnce : (system.history.steps.map Prod.fst).Nodup
  taken : ∀ prepared ∈ system.snapshots, Snapshot system.history.steps prepared
  agrees : ∀ prepared ∈ system.snapshots, ∀ goal ∈ system.controller.store.goals.rows,
    goal.id = prepared.id → GoalRun.Agrees prepared goal
  parked : ∀ entry ∈ system.controller.stopping.rows,
    ∃ goal ∈ system.controller.store.goals.rows, goal.id = entry.1 ∧ goal.status ≠ .active ∧
      ∀ turnId, entry.2.after = .steer turnId → goal.status = .paused

end GoalSystem

/-! ## Sections that leave a parked goal -/

namespace GoalRun

variable {callbacks : Callbacks} {goal : GoalRun} {moment : Moment}

section

variable (hparked : goal.status ≠ .active)
include hparked

theorem prepareDispatch_parked (stepId : Option TurnId) (override : Bool)
    (rest : GoalRun → Section) :
    goal.prepareDispatch callbacks stepId override moment rest = rest goal := by
  simp [prepareDispatch, hparked]

theorem start_parked : goal.start callbacks moment = goal.dispatchIfPending false := by
  simp [start, hparked]

theorem dispatchNext_parked : goal.dispatchNext callbacks moment = goal.dispatchIfPending false :=
  prepareDispatch_parked hparked _ _ _

theorem releaseDeferredResume_parked :
    goal.releaseDeferredResume callbacks moment = goal.dispatchIfPending false := by
  simp [releaseDeferredResume, releaseDeferredLocked, hparked]

theorem onTurnCompleted_parked (turnId : TurnId) (report : TurnReport) :
    goal.onTurnCompleted callbacks turnId report moment = goal.dispatchIfPending false := by
  simp [onTurnCompleted, onTurnCompletedLocked, hparked]

end

theorem put_status {next : GoalRun} {event : GoalEvent} {now : Time} {saved : Bool}
    {rest : GoalRun → Section} (hnext : next.status = goal.status)
    (hrest : ∀ goal, (rest goal).goal = goal) :
    (goal.put next event now saved rest).goal.status = goal.status := by
  cases saved with
  | false => rfl
  | true =>
    show (rest { next with updatedAt := now }).goal.status = goal.status
    rw [hrest]
    exact hnext

theorem dispatchFailed_parked {prepared : GoalRun} {error : GoalError}
    (hparked : goal.status ≠ .active) :
    (goal.dispatchFailed prepared error moment).goal.status = goal.status := by
  unfold dispatchFailed
  split
  · refine put_status rfl fun goal => ?_
    split <;> rfl
  · rfl

theorem dispatchAccepted_parked {prepared : GoalRun} {next : Option TurnId}
    (hparked : goal.status ≠ .active) :
    (goal.dispatchAccepted prepared next moment).goal.status = goal.status := by
  unfold dispatchAccepted
  split
  · split
    · exact put_status rfl fun goal => rfl
    · exact dispatchFailed_parked hparked
  · rfl

end GoalRun

namespace GoalSystem

variable {system after : GoalSystem} {goalId : GoalId}

theorem get?_mem {goal : GoalRun} (h : system.controller.store.goals.get? goalId = some goal) :
    goal ∈ system.controller.store.goals.rows ∧ goal.id = goalId :=
  Table.get?_eq_some.mp h

variable {op : GoalOp} {body : GoalRun → Section}

theorem shape_perform (hsound : ∀ goal, (body goal).Sound (system.steps op) op goal)
    (hparked : ∀ goal : GoalRun, goal.status ≠ .active → (body goal).goal.status = goal.status)
    (h : system.perform goalId body = some after)
    (hop : ∀ prepared moment, op ≠ .transportReturned prepared moment := by simp) :
    system.Shape op after := by
  obtain ⟨goal, hget, rfl⟩ := perform_some h
  exact .wrote (Drops.refl system) (get?_mem hget).1 (hsound goal)
    (fun _ _ _ hactive => hparked goal hactive) hop

theorem shape_mutate
    (hsound : ∀ goal ∈ system.controller.store.goals.rows,
        system.controller.store.goals.get? goalId = some goal →
        (body goal).Sound (system.steps op) op goal)
    (h : system.mutate goalId body = some after)
    (hop : ∀ prepared moment, op ≠ .transportReturned prepared moment := by simp) :
    system.Shape op after := by
  obtain ⟨hfree, goal, hget, rfl⟩ := mutate_some h
  obtain ⟨hmem, hid⟩ := get?_mem hget
  exact .wrote (Drops.refl system) hmem (hsound goal hmem hget)
    (keepsParked_of_lookup (hid ▸ hfree)) hop

theorem shape_leaveStop {body : GoalRun → AfterStop → Section} {allowed : StoppingTurn → Bool}
    (hinv : system.Inv)
    (hsound : ∀ goal stopping, system.controller.stopping.lookup goalId = some stopping →
        goal.status ≠ .active →
        (∀ turnId, stopping.after = .steer turnId → goal.status = .paused) →
        (body goal stopping.after).Sound (system.steps op) op goal)
    (h : system.leaveStop goalId body allowed = some after)
    (hop : ∀ prepared moment, op ≠ .transportReturned prepared moment := by simp) :
    system.Shape op after := by
  unfold leaveStop at h
  cases hlookup : system.controller.stopping.lookup goalId with
  | none => simp [hlookup] at h
  | some =>
    rw [hlookup] at h
    dsimp only at h
    split at h
    · obtain ⟨goal, hget, rfl⟩ := perform_some h
      obtain ⟨hmem, hid⟩ := get?_mem hget
      obtain ⟨entry, hentry, hafter⟩ := Option.map_eq_some_iff.mp hlookup
      obtain ⟨hentryMem, hentryId⟩ := Table.get?_eq_some.mp hentry
      obtain ⟨goal', hmem', hid', hactive, hpaused⟩ := hinv.parked entry hentryMem
      obtain rfl : goal' = goal := Table.eq_of_mem hmem' hmem (by rw [hid', hentryId, hid])
      rw [hafter] at hpaused
      refine .wrote (Drops.stop system goalId) hmem' (hsound _ _ hlookup hactive hpaused)
        (keepsParked_of_lookup ?_) hop
      rw [hid]
      simp [Dict.lookup, Table.get?_erase]
    · simp at h

variable {moment : Moment}

theorem shape_createAndStart {tabId : TabId} {request : GoalRunCreate} :
    system.Shape (.createAndStart tabId request goalId moment)
      (system.createAndStart tabId request goalId moment) := by
  unfold createAndStart
  dsimp only
  have hsound : ∀ goal : GoalRun, (goal.start system.controller.callbacks moment).Sound
      (system.steps (.createAndStart tabId request goalId moment))
      (.createAndStart tabId request goalId moment) goal := fun goal =>
    GoalRun.start_sound (by simp [steps])
  cases hcreate : system.controller.store.create (newGoal tabId request goalId moment.now) request
      moment.saves.mutation with
  | error => exact .drops (Drops.refl system)
  | ok pair =>
    obtain ⟨store, stored⟩ := pair
    rcases GoalRunStore.create_spec hcreate with ⟨rfl, hmem⟩ | ⟨rfl, hgoals, hfree⟩
    · refine .wrote (Drops.refl system) hmem (hsound stored) (fun _ _ _ hactive => ?_) (by simp)
      rw [GoalRun.start_parked hactive]
      rfl
    · exact .created rfl rfl hgoals hfree (hsound _)

theorem shape_dispatch {prepared : PreparedGoal} (h : system.dispatch prepared moment = some after) :
    system.Shape (.dispatch prepared moment) after := by
  unfold dispatch at h
  split at h
  · contradiction
  rename_i hmem
  rw [not_not] at hmem
  have hdrop : system.Shape (.dispatch prepared moment) (system.dropPrepared prepared) :=
    .drops (Drops.prepare system prepared)
  cases hstep : prepared.goal.pendingStepId with
  | none =>
    simp only [hstep] at h
    cases h
    exact hdrop
  | some =>
    cases hget : system.controller.store.goals.get? prepared.goal.id with
    | none =>
      simp only [hstep, hget] at h
      cases h
      exact hdrop
    | some =>
      obtain ⟨hlatest, hid⟩ := get?_mem hget
      simp only [hstep, hget] at h
      split at h
      · cases h
        exact hdrop
      split at h
      · cases h
        exact hdrop
      rename_i hfree
      split at h
      · cases h
        exact hdrop
      rename_i hlive
      rw [not_or, not_not, not_not] at hlive
      split at h
      · cases h
        exact .wrote (Drops.prepare system prepared) hlatest GoalRun.dispatchFailed_sound
          (fun _ _ _ hparked => absurd hlive.1 hparked) (by simp)
      · cases h
        exact .invoked hmem hstep hfree hlatest hid hlive.1 hlive.2

variable {prepared : GoalRun}

theorem snapshots_transporting (h : prepared ∈ system.controller.transporting) :
    prepared ∈ system.snapshots :=
  List.mem_append_left _ (List.mem_append_right _ h)

theorem transportEnds_some (h : system.transportEnds prepared body = some after) :
    prepared ∈ system.controller.transporting ∧
      ∃ goal ∈ system.controller.store.goals.rows, goal.id = prepared.id ∧
        after = system.ended prepared false (body goal) := by
  unfold transportEnds at h
  split at h
  · contradiction
  · rename_i hmem
    obtain ⟨goal, hget, rfl⟩ := Option.map_eq_some_iff.mp h
    obtain ⟨hgoal, hid⟩ := get?_mem hget
    exact ⟨not_not.mp hmem, goal, hgoal, hid, rfl⟩

theorem shape_returned (hinv : system.Inv)
    (h : system.step (.transportReturned prepared moment) = some after) :
    system.Shape (.transportReturned prepared moment) after := by
  obtain ⟨mid, hmid, rfl⟩ := Option.map_eq_some_iff.mp h
  obtain ⟨hmem, goal, hgoal, hid, rfl⟩ := transportEnds_some hmid
  have hsnapshot := snapshots_transporting hmem
  obtain ⟨step, hstep, -⟩ := hinv.taken prepared hsnapshot
  refine Shape.ended hmem hgoal hid (Ending.returned moment) ?_
  refine GoalRun.dispatchAccepted_sound hstep fun hawaits hactive => ?_
  exact (hinv.agrees prepared hsnapshot goal hgoal hid).input hawaits.2 hactive hawaits.1

theorem shape (hinv : system.Inv) (h : system.step op = some after) :
    system.Shape op after := by
  cases op with
  | createAndStart =>
    cases h
    exact shape_createAndStart
  | pause =>
    exact shape_mutate (fun goal _ _ => GoalRun.pause_sound) h
  | resume =>
    refine shape_mutate (fun goal _ hget => GoalRun.resume_sound fun hnew => ?_) h
    simp [steps, hget, hnew, AfterStop.steps]
  | steer =>
    refine shape_mutate (fun goal _ hget => GoalRun.steer_sound fun hnew => ?_) h
    simp [steps, hget, hnew, AfterStop.steps]
  | updateObjective =>
    exact shape_mutate (fun goal _ _ => GoalRun.updateObjective_sound) h
  | complete =>
    exact shape_mutate (fun goal hmem _ => GoalRun.complete_sound (hinv.wellFormed goal hmem)) h
  | clear =>
    exact shape_mutate (fun goal hmem _ => GoalRun.clear_sound (hinv.wellFormed goal hmem)) h
  | cancelReturned =>
    refine shape_leaveStop hinv (fun goal stopping hlookup hactive hpaused => ?_) h
    exact GoalRun.cancelReturned_sound (by simp [steps, hlookup]) hactive hpaused
  | cancelRaised =>
    exact shape_leaveStop hinv
      (fun goal stopping _ hactive _ => GoalRun.cancelRaised_sound hactive) h
  | turnCompleted =>
    simp only [step] at h
    split at h
    · cases h
      exact .drops (Drops.refl system)
    · refine shape_perform (fun goal => GoalRun.onTurnCompleted_sound (by simp [steps]))
        (fun goal hparked => ?_) h
      rw [GoalRun.onTurnCompleted_parked hparked]
      rfl
  | releaseDeferredResume =>
    refine shape_perform (fun goal => GoalRun.releaseDeferredResume_sound (by simp [steps]))
      (fun goal hparked => ?_) h
    rw [GoalRun.releaseDeferredResume_parked hparked]
    rfl
  | dispatchNext =>
    refine shape_perform (fun goal => GoalRun.dispatchNext_sound (by simp [steps]))
      (fun goal hparked => ?_) h
    rw [GoalRun.dispatchNext_parked hparked]
    rfl
  | dispatch => exact shape_dispatch h
  | abandon prepared =>
    simp only [step] at h
    split at h
    · cases h
      exact .drops (Drops.prepare system prepared)
    · contradiction
  | transportReturned => exact shape_returned hinv h
  | transportRaised prepared error moment =>
    obtain ⟨hmem, goal, hgoal, hid, rfl⟩ := transportEnds_some h
    exact .ended hmem hgoal hid (.raised error moment) GoalRun.dispatchFailed_sound
  | restart now failing =>
    cases h
    exact .restarted now failing rfl

end GoalSystem

end ClaudeHub
