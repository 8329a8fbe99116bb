import ClaudeHub.GoalRun.Controller
import ClaudeHub.Lib.Except

/-! # What a write does to a goal

`GoalMove event before after` lists every write of the controller with the guard under
which it is made. Each section is a path of such moves, and everything that is proved
about runs is proved once for a move.
-/

namespace ClaudeHub

/-- The accounting of a goal's current turn: the turn is over, its tokens are added, and
what the goal is about stays. -/
structure GoalRun.Counted (goal : GoalRun) (tokens : Option Nat) (next : GoalRun) : Prop where
  id : next.id = goal.id
  tabId : next.tabId = goal.tabId
  createdAt : next.createdAt = goal.createdAt
  objective : next.objective = goal.objective
  objectiveRevision : next.objectiveRevision = goal.objectiveRevision
  dispatchedObjectiveRevision :
    next.dispatchedObjectiveRevision = goal.dispatchedObjectiveRevision
  idempotency : next.idempotency = goal.idempotency
  dispatchState : next.dispatchState = .idle
  pendingStepId : next.pendingStepId = none
  currentTurnId : next.currentTurnId = none
  pendingInput : next.pendingInput = none
  turnsCompleted : next.turnsCompleted = goal.turnsCompleted + 1
  tokenUsage : next.tokenUsage.getD 0 = goal.tokenUsage.getD 0 + tokens.getD 0

inductive GoalMove : GoalEvent → GoalRun → GoalRun → Prop
  | paused {goal : GoalRun} (clientRequestId : String) (pausedAt : Option Time) (now : Time)
      (hunfinished : goal.status.terminal = false) :
      GoalMove .paused goal
        { goal with
          status := .paused
          pausedAt := pausedAt
          resumeAfterTurn := false
          idempotency := goal.idempotency.set clientRequestId .pause
          updatedAt := now }
  | resumed {goal : GoalRun} (clientRequestId : String) (deferred : Bool)
      (message : Option String) (now : Time) (hunfinished : goal.status.terminal = false)
      (hidle : goal.status = .active ∨ goal.dispatchState = .idle) :
      GoalMove .resumed goal
        { goal with
          status := .active
          pausedAt := none
          resumeAfterTurn := deferred
          statusMessage := message
          idempotency := goal.idempotency.set clientRequestId .resume
          updatedAt := now }
  | steered {goal : GoalRun} (request : SteerRequest) (pausedAt : Option Time)
      (message : Option String) (now : Time) (hunfinished : goal.status.terminal = false) :
      GoalMove (.steered request.text) goal
        { goal with
          status := .paused
          pausedAt := pausedAt
          statusMessage := message
          pendingInput := some request.text
          pendingImageCount := request.imageCount
          pendingImageFingerprint := request.imageDigest
          resumeAfterTurn := false
          idempotency := goal.idempotency.set request.clientRequestId request.operation
          updatedAt := now }
  | edited {goal : GoalRun} (clientRequestId objective text : String) (revision : Nat)
      (now : Time) (hunfinished : goal.status.terminal = false)
      (hrevision : (revision = goal.objectiveRevision ∧ text = goal.objective) ∨
        revision = goal.objectiveRevision + 1) :
      GoalMove .edited goal
        { goal with
          objective := text
          objectiveRevision := revision
          idempotency := goal.idempotency.set clientRequestId (.objective objective)
          updatedAt := now }
  | finished {goal : GoalRun} (clientRequestId : String) (operation : GoalOperation)
      (status : GoalRunStatus) (completedAt : Option Time) (now : Time)
      (hterminal : status.terminal = true) :
      GoalMove .finished goal
        { goal with
          status := status
          completedAt := completedAt
          resumeAfterTurn := false
          idempotency := goal.idempotency.set clientRequestId operation
          updatedAt := now }
  | stopped {goal : GoalRun} (now : Time) (hparked : goal.status ≠ .active) :
      GoalMove .stopped goal { goal.stoppedTurn with updatedAt := now }
  | unreconciled {goal : GoalRun} (message : Option String) (now : Time)
      (hparked : goal.status ≠ .active) :
      GoalMove .unreconciled goal
        { goal with dispatchState := .uncertain, statusMessage := message, updatedAt := now }
  | activated {goal : GoalRun} (now : Time) (hpaused : goal.status = .paused)
      (hidle : goal.dispatchState = .idle) :
      GoalMove .activated goal
        { goal with
          status := .active, pausedAt := none, statusMessage := none, updatedAt := now }
  | unconnected {goal : GoalRun} (message : Option String) (now : Time)
      (hactive : goal.status = .active) (hidle : goal.dispatchState = .idle) :
      GoalMove .unconnected goal
        { goal with status := .paused, statusMessage := message, updatedAt := now }
  | prepared {goal : GoalRun} (step : TurnId) (now : Time) (hactive : goal.status = .active)
      (hidle : goal.dispatchState = .idle) :
      GoalMove (.prepared step) goal
        { goal with
          pendingStepId := some step
          currentTurnId := some step
          dispatchState := .pending
          dispatchedObjectiveRevision := goal.objectiveRevision
          updatedAt := now }
  | released {goal : GoalRun} (turns : List TurnId) (now : Time) (hactive : goal.status = .active)
      (hidle : goal.dispatchState = .idle) :
      GoalMove .released goal
        { goal with
          completedTurnIds := turns
          resumeAfterTurn := false
          statusMessage := none
          updatedAt := now }
  | interrupted {goal : GoalRun} (turns : List TurnId) (pausedAt : Option Time)
      (message : Option String) (now : Time) (hactive : goal.status = .active)
      (hidle : goal.dispatchState = .idle) :
      GoalMove .interrupted goal
        { goal with
          completedTurnIds := turns
          status := .paused
          pausedAt := pausedAt
          resumeAfterTurn := false
          statusMessage := message
          updatedAt := now }
  | counted {goal next : GoalRun} {turn : TurnId} (tokens : Option Nat)
      (hactive : goal.status = .active)
      (hrunning : goal.dispatchState = .pending ∨ goal.dispatchState = .dispatched)
      (hturn : goal.currentTurnId = some turn)
      (hcounted : goal.Counted tokens next) :
      GoalMove (.counted turn tokens) goal next
  | accepted {goal : GoalRun} (prepared : GoalRun) (step : TurnId) (now : Time)
      (hawaits : goal.awaits prepared) (hstep : prepared.pendingStepId = some step)
      (hinput : goal.status = .active → goal.pendingInput = prepared.pendingInput) :
      GoalMove .accepted goal
        { goal with
          currentTurnId := some step
          dispatchState := .dispatched
          pendingInput :=
            if goal.pendingInput = prepared.pendingInput then none else goal.pendingInput
          pendingImageCount :=
            if goal.pendingImageFingerprint = prepared.pendingImageFingerprint then 0
            else goal.pendingImageCount
          pendingImageFingerprint :=
            if goal.pendingImageFingerprint = prepared.pendingImageFingerprint then ""
            else goal.pendingImageFingerprint
          updatedAt := now }
  | uncertain {goal : GoalRun} (message : Option String) (now : Time)
      (hpending : goal.dispatchState = .pending) :
      GoalMove .uncertain goal
        { goal with
          status := if goal.status = .active then .paused else goal.status
          statusMessage := message
          dispatchState := .uncertain
          updatedAt := now }
  | recovered {goal next : GoalRun} (now : Time) (h : goal.recovered now = some next) :
      GoalMove .recovered goal next

/-- The writes of a section, one after the other. -/
inductive GoalPath : GoalRun → List GoalWrite → GoalRun → Prop
  | nil (goal : GoalRun) : GoalPath goal [] goal
  | cons {goal next last : GoalRun} {event : GoalEvent} {writes : List GoalWrite}
      (hmove : GoalMove event goal next) (hpath : GoalPath next writes last) :
      GoalPath goal (⟨event, next⟩ :: writes) last

theorem GoalPath.invariant {P : GoalRun → Prop} {goal last : GoalRun} {writes : List GoalWrite}
    (hpath : GoalPath goal writes last)
    (hmove : ∀ event goal next, ⟨event, next⟩ ∈ writes → GoalMove event goal next → P goal → P next)
    (h : P goal) : P last := by
  induction hpath with
  | nil => exact h
  | cons hstep _ ih =>
    exact ih (fun e g n he => hmove e g n (List.mem_cons_of_mem _ he))
      (hmove _ _ _ List.mem_cons_self hstep h)

/-! ## Goals are well formed -/

/-- The fields of a goal agree with each other: an idle goal has no step, a pending or
dispatched one runs its step, an uncertain one is not active, and a goal that was ever
completed or cleared stays terminal. -/
structure GoalRun.WellFormed (goal : GoalRun) : Prop where
  idle : goal.dispatchState = .idle → goal.pendingStepId = none ∧ goal.currentTurnId = none
  running : goal.dispatchState = .pending ∨ goal.dispatchState = .dispatched →
    ∃ step, goal.pendingStepId = some step ∧ goal.currentTurnId = some step
  uncertain : goal.dispatchState = .uncertain → goal.status ≠ .active
  revision : goal.dispatchedObjectiveRevision ≤ goal.objectiveRevision
  delivered : goal.status = .active → goal.dispatchState = .dispatched → goal.pendingInput = none
  closed : ∀ clientRequestId operation,
    goal.idempotency.lookup clientRequestId = some operation →
    operation = .complete ∨ operation = .clear → goal.status.terminal = true

theorem terminal_ne_active {status : GoalRunStatus} (h : status.terminal = true) :
    status ≠ .active := by
  rintro rfl
  simp [GoalRunStatus.terminal] at h

theorem closed_set {idempotency : Dict String GoalOperation} {status : GoalRunStatus}
    {clientRequestId : String} {operation : GoalOperation}
    (hclosed : ∀ id operation, idempotency.lookup id = some operation →
      operation = .complete ∨ operation = .clear → status.terminal = true)
    (hoperation : operation ≠ .complete ∧ operation ≠ .clear) :
    ∀ id prior, (idempotency.set clientRequestId operation).lookup id = some prior →
      prior = .complete ∨ prior = .clear → status.terminal = true := by
  intro id prior hlookup hprior
  rw [Dict.lookup_set] at hlookup
  split at hlookup
  · obtain rfl : operation = prior := by simpa using hlookup
    exact absurd hprior (by simp [hoperation.1, hoperation.2])
  · exact hclosed id prior hlookup hprior

theorem closed_of_unfinished {idempotency : Dict String GoalOperation}
    {status other : GoalRunStatus}
    (hclosed : ∀ id operation, idempotency.lookup id = some operation →
      operation = .complete ∨ operation = .clear → status.terminal = true)
    (hunfinished : status.terminal = false) :
    ∀ id operation, idempotency.lookup id = some operation →
      operation = .complete ∨ operation = .clear → other.terminal = true := by
  intro id operation hlookup hoperation
  have h := hclosed id operation hlookup hoperation
  rw [hunfinished] at h
  contradiction

/-- What `recover` changes: an active goal is paused and a running step is uncertain. -/
structure GoalRun.Recovered (goal next : GoalRun) : Prop where
  id : next.id = goal.id
  tabId : next.tabId = goal.tabId
  createdAt : next.createdAt = goal.createdAt
  objective : next.objective = goal.objective
  objectiveRevision : next.objectiveRevision = goal.objectiveRevision
  dispatchedObjectiveRevision :
    next.dispatchedObjectiveRevision = goal.dispatchedObjectiveRevision
  pendingInput : next.pendingInput = goal.pendingInput
  pendingStepId : next.pendingStepId = goal.pendingStepId
  currentTurnId : next.currentTurnId = goal.currentTurnId
  turnsCompleted : next.turnsCompleted = goal.turnsCompleted
  tokenUsage : next.tokenUsage = goal.tokenUsage
  idempotency : next.idempotency = goal.idempotency
  status : next.status = if goal.status = .active then .paused else goal.status
  dispatchState : next.dispatchState =
    if goal.dispatchState = .pending ∨ goal.dispatchState = .dispatched then .uncertain
    else goal.dispatchState

theorem GoalRun.recovered_spec {goal next : GoalRun} {now : Time}
    (h : goal.recovered now = some next) : goal.Recovered next := by
  by_cases hactive : goal.status = .active
  · by_cases hrunning : goal.dispatchState = .pending ∨ goal.dispatchState = .dispatched
    · simp only [GoalRun.recovered, hactive, hrunning, if_true, Option.some.injEq] at h
      subst h
      constructor <;> simp [hactive, hrunning]
    · simp only [GoalRun.recovered, hactive, hrunning, if_true, if_false, Option.some.injEq] at h
      subst h
      constructor <;> simp [hactive, hrunning]
  · by_cases hrunning : goal.dispatchState = .pending ∨ goal.dispatchState = .dispatched
    · simp only [GoalRun.recovered, hactive, hrunning, if_true, if_false, Option.some.injEq] at h
      subst h
      constructor <;> simp [hactive, hrunning]
    · simp [GoalRun.recovered, hactive, hrunning] at h

theorem GoalRun.Recovered.status_ne_active {goal next : GoalRun} (h : goal.Recovered next) :
    next.status ≠ .active := by
  rw [h.status]
  split
  · simp
  · assumption

theorem GoalRun.Recovered.wellFormed {goal next : GoalRun} (h : goal.Recovered next)
    (hgoal : goal.WellFormed) : next.WellFormed := by
  refine ⟨fun hidle => ?_, fun hrunning => ?_, fun _ => h.status_ne_active, ?_,
    fun hactive => absurd hactive h.status_ne_active, ?_⟩
  · rw [h.dispatchState] at hidle
    split at hidle
    · contradiction
    · rw [h.pendingStepId, h.currentTurnId]
      exact hgoal.idle hidle
  · rw [h.dispatchState] at hrunning
    split at hrunning
    · simp at hrunning
    · contradiction
  · rw [h.objectiveRevision, h.dispatchedObjectiveRevision]
    exact hgoal.revision
  · rw [h.idempotency, h.status]
    split
    · rename_i hactive
      exact closed_of_unfinished hgoal.closed (by rw [hactive]; rfl)
    · exact hgoal.closed

theorem GoalMove.wellFormed {event : GoalEvent} {goal next : GoalRun}
    (hmove : GoalMove event goal next) (h : goal.WellFormed) : next.WellFormed := by
  cases hmove with
  | paused clientRequestId pausedAt now hunfinished =>
    exact ⟨h.idle, h.running, by simp, h.revision, by simp,
      closed_set (closed_of_unfinished h.closed hunfinished) (by simp)⟩
  | resumed clientRequestId deferred message now hunfinished hidle =>
    refine ⟨h.idle, h.running, ?_, h.revision, ?_,
      closed_set (closed_of_unfinished h.closed hunfinished) (by simp)⟩
    · rintro huncertain -
      rcases hidle with hactive | hidle
      · exact h.uncertain huncertain hactive
      · simp_all
    · rintro - hdispatched
      rcases hidle with hactive | hidle
      · exact h.delivered hactive hdispatched
      · simp_all
  | steered request pausedAt message now hunfinished =>
    exact ⟨h.idle, h.running, by simp, h.revision, by simp,
      closed_set (closed_of_unfinished h.closed hunfinished) (by simp [SteerRequest.operation])⟩
  | edited clientRequestId objective text revision =>
    refine { h with revision := ?_, closed := closed_set h.closed (by simp) }
    have := h.revision
    dsimp only
    omega
  | finished clientRequestId operation status completedAt now hterminal =>
    exact ⟨h.idle, h.running, fun _ => terminal_ne_active hterminal, h.revision,
      fun hactive => absurd hactive (terminal_ne_active hterminal), fun _ _ _ _ => hterminal⟩
  | stopped =>
    exact ⟨fun _ => ⟨rfl, rfl⟩, by simp [GoalRun.stoppedTurn], by simp [GoalRun.stoppedTurn],
      h.revision, by simp [GoalRun.stoppedTurn], h.closed⟩
  | unreconciled message now hparked =>
    exact ⟨by simp, by simp, fun _ => hparked, h.revision, by simp, h.closed⟩
  | activated now hpaused hidle =>
    refine ⟨h.idle, h.running, by simp [hidle], h.revision, by simp [hidle], ?_⟩
    exact closed_of_unfinished h.closed (by rw [hpaused]; rfl)
  | unconnected message now hactive =>
    refine ⟨h.idle, h.running, by simp, h.revision, by simp, ?_⟩
    exact closed_of_unfinished h.closed (by rw [hactive]; rfl)
  | prepared step =>
    exact ⟨by simp, fun _ => ⟨step, rfl, rfl⟩, by simp, Nat.le_refl _, by simp, h.closed⟩
  | released =>
    exact { h with }
  | interrupted turns pausedAt message now hactive =>
    refine ⟨h.idle, h.running, by simp, h.revision, by simp, ?_⟩
    exact closed_of_unfinished h.closed (by rw [hactive]; rfl)
  | counted tokens hactive hrunning hturn hcounted =>
    have hidle := hcounted.dispatchState
    refine ⟨fun _ => ⟨hcounted.pendingStepId, hcounted.currentTurnId⟩, by simp [hidle],
      by simp [hidle], ?_, by simp [hidle], ?_⟩
    · rw [hcounted.objectiveRevision, hcounted.dispatchedObjectiveRevision]
      exact h.revision
    · rw [hcounted.idempotency]
      exact closed_of_unfinished h.closed (by rw [hactive]; rfl)
  | accepted prepared step now hawaits hstep hinput =>
    refine ⟨by simp, fun _ => ⟨step, hawaits.2.trans hstep, rfl⟩, by simp, h.revision, ?_,
      h.closed⟩
    intro hactive _
    exact if_pos (hinput hactive)
  | uncertain =>
    refine ⟨by simp, by simp, fun _ => ?_, h.revision, by simp, ?_⟩
    · dsimp only
      split
      · simp
      · assumption
    · dsimp only
      split
      · rename_i hactive
        exact closed_of_unfinished h.closed (by rw [hactive]; rfl)
      · exact h.closed
  | recovered now hrecovered => exact (GoalRun.recovered_spec hrecovered).wellFormed h

/-! ## Sections are paths -/

def preparedSteps (writes : List GoalWrite) : List TurnId :=
  writes.filterMap fun write =>
    match write.event with
    | .prepared step => some step
    | _ => none

/-- The writes that only one kind of operation makes: a turn is counted when its completion
is reported, a text is steered by `steer`, and a dispatch is accepted when the transport
returns. -/
def GoalOp.mayWrite (op : GoalOp) : GoalEvent → Prop
  | .counted turn _ => ∃ tabId report moment, op = .turnCompleted tabId turn report moment
  | .steered text => ∃ goalId request moment, op = .steer goalId request moment ∧ request.text = text
  | .accepted => ∃ prepared moment, op = .transportReturned prepared moment
  | _ => True

/-- What is known of a section: its writes are a path that belongs to the operation, it
prepares at most one step, of the given ids and by its last write, it goes to the transport
with a pending goal only, and it waits for a stop only with a parked one. -/
structure Section.Sound (ids : List TurnId) (op : GoalOp) (goal : GoalRun) (result : Section) :
    Prop where
  path : GoalPath goal result.writes result.goal
  steps : preparedSteps result.writes = [] ∨ ∃ step ∈ ids, preparedSteps result.writes = [step]
  last : ∀ write ∈ result.writes.dropLast, ∀ step, write.event ≠ .prepared step
  events : ∀ write ∈ result.writes, op.mayWrite write.event
  pending : ∀ override, result.next = .dispatches override → result.goal.dispatchState = .pending
  parked : ∀ after, result.next = .stops after → result.goal.status ≠ .active ∧
    ∀ turnId, after = .steer turnId → result.goal.status = .paused

/-- A section that ends without a write. -/
structure Section.Quiet (goal : GoalRun) (result : Section) : Prop where
  same : result.goal = goal
  writes : result.writes = []
  pending : ∀ override, result.next = .dispatches override → goal.dispatchState = .pending
  running : ∀ after, result.next ≠ .stops after

theorem Section.Quiet.sound {ids : List TurnId} {op : GoalOp} {goal : GoalRun}
    {result : Section} (h : result.Quiet goal) : result.Sound ids op goal where
  path := by
    rw [h.same, h.writes]
    exact .nil goal
  steps := .inl (by rw [h.writes]; rfl)
  last := by
    rw [h.writes]
    simp
  events := by
    rw [h.writes]
    simp
  pending := fun override hnext => h.same ▸ h.pending override hnext
  parked := fun after hnext => absurd hnext (h.running after)

def AfterStop.steps (moment : Moment) : AfterStop → List TurnId
  | .done => []
  | .resume request => [(truthy request.stepId).getD moment.uuid]
  | .steer turnId => [(truthy (some turnId)).getD moment.uuid]

namespace GoalRun

variable {ids : List TurnId} {op : GoalOp} {callbacks : Callbacks} {goal : GoalRun}
  {moment : Moment}

theorem returns_quiet (goal : GoalRun) : goal.returns.Quiet goal :=
  ⟨rfl, rfl, by simp [returns], by simp [returns]⟩

theorem raises_quiet (goal : GoalRun) (error : GoalError) : (goal.raises error).Quiet goal :=
  ⟨rfl, rfl, by simp [raises], by simp [raises]⟩

theorem dispatchIfPending_quiet (goal : GoalRun) (override : Bool) :
    (goal.dispatchIfPending override).Quiet goal := by
  refine ⟨rfl, rfl, ?_, ?_⟩
  · intro override' hnext
    by_contra hidle
    simp [dispatchIfPending, hidle] at hnext
  · intro after
    unfold dispatchIfPending
    dsimp only
    split <;> simp

theorem resumeDispatch_quiet (goal : GoalRun) (request : ResumeRequest) :
    (goal.resumeDispatch request).Quiet goal := by
  unfold resumeDispatch
  split
  · exact returns_quiet goal
  · exact dispatchIfPending_quiet goal request.override

variable {now : Time}

theorem put_sound {next : GoalRun} {event : GoalEvent} {saved : Bool} {rest : GoalRun → Section}
    (hmove : GoalMove event goal { next with updatedAt := now })
    (hevent : ∀ step, event ≠ .prepared step) (hop : op.mayWrite event)
    (hrest : (rest { next with updatedAt := now }).Sound ids op { next with updatedAt := now }) :
    (goal.put next event now saved rest).Sound ids op goal := by
  cases saved with
  | false => exact (raises_quiet goal .save).sound
  | true =>
    refine ⟨.cons hmove hrest.path, ?_, ?_, ?_, hrest.pending, hrest.parked⟩
    · have hsteps : preparedSteps (goal.put next event now true rest).writes =
          preparedSteps (rest { next with updatedAt := now }).writes := by
        cases event with
        | prepared step => exact absurd rfl (hevent step)
        | _ => rfl
      rw [hsteps]
      exact hrest.steps
    · intro write hmem
      have hwrites : write ∈ (⟨event, { next with updatedAt := now }⟩ ::
          (rest { next with updatedAt := now }).writes).dropLast := hmem
      cases hlater : (rest { next with updatedAt := now }).writes with
      | nil => simp [hlater] at hwrites
      | cons =>
        rw [hlater, List.dropLast_cons_cons] at hwrites
        rcases List.mem_cons.mp hwrites with rfl | hwrites
        · exact hevent
        · exact hrest.last write (hlater ▸ hwrites)
    · intro write hmem
      rcases List.mem_cons.mp hmem with rfl | hmem
      · exact hop
      · exact hrest.events write hmem

theorem put_prepared_sound {next : GoalRun} {step : TurnId} {saved : Bool}
    {rest : GoalRun → Section} (hmove : GoalMove (.prepared step) goal { next with updatedAt
    := now }) (hstep : step ∈ ids)
    (hrest : (rest { next with updatedAt := now }).Quiet { next with updatedAt := now }) :
    (goal.put next (.prepared step) now saved rest).Sound ids op goal := by
  cases saved with
  | false => exact (raises_quiet goal .save).sound
  | true =>
    have hsound := @Section.Quiet.sound ids op _ _ hrest
    have hwrites : (goal.put next (.prepared step) now true rest).writes =
        [⟨.prepared step, { next with updatedAt := now }⟩] := by
      show _ :: (rest _).writes = _
      rw [hrest.writes]
    refine ⟨.cons hmove hsound.path, .inr ⟨step, hstep, ?_⟩, ?_, ?_, hsound.pending,
      hsound.parked⟩
    · rw [hwrites]
      rfl
    · rw [hwrites]
      simp
    · rw [hwrites]
      simp [GoalOp.mayWrite]

variable {clientRequestId : String}

theorem mutateOnce_sound {operation : GoalOperation} {event : GoalEvent}
    {mutate : GoalRun → Except GoalError GoalRun} {rest : GoalRun → Section}
    (hevent : ∀ step, event ≠ .prepared step) (hop : op.mayWrite event)
    (hreplay : goal.idempotency.lookup clientRequestId = some operation →
        (rest goal).Sound ids op goal)
    (happly : ∀ next, mutate goal = .ok next →
        let stored := { next with
        idempotency := next.idempotency.set clientRequestId operation, updatedAt := moment.now }
      GoalMove event goal stored ∧ (rest stored).Sound ids op stored) :
    (goal.mutateOnce clientRequestId operation event moment mutate rest).Sound ids op goal := by
  unfold mutateOnce
  cases hprior : goal.idempotency.lookup clientRequestId with
  | some =>
    dsimp only
    split
    · rename_i heq
      exact hreplay (heq ▸ hprior)
    · exact (raises_quiet goal _).sound
  | none =>
    dsimp only
    cases hnext : mutate goal with
    | error => exact (raises_quiet goal _).sound
    | ok next =>
      obtain ⟨hmove, hrest⟩ := happly next hnext
      exact put_sound hmove hevent hop hrest

theorem prepareDispatch_sound {stepId : Option TurnId} {override : Bool}
    {rest : GoalRun → Section} (hstep : (truthy stepId).getD moment.uuid ∈ ids)
    (hrest : ∀ goal, (rest goal).Quiet goal) :
    (goal.prepareDispatch callbacks stepId override moment rest).Sound ids op goal := by
  unfold prepareDispatch
  split
  · exact (hrest goal).sound
  · rename_i hactive
    split
    · exact (hrest goal).sound
    · rename_i hidle
      rw [not_not] at hactive hidle
      split
      · exact put_sound (.unconnected _ _ hactive hidle) (by simp) trivial (hrest _).sound
      · exact put_prepared_sound (.prepared _ _ hactive hidle) hstep (hrest _)

theorem start_sound (hid : moment.uuid ∈ ids) : (goal.start callbacks moment).Sound ids op goal := by
  unfold start
  split
  · exact prepareDispatch_sound (by simpa [truthy] using hid) fun goal =>
      dispatchIfPending_quiet goal false
  · exact (dispatchIfPending_quiet goal false).sound

theorem dispatchNext_sound (hid : moment.uuid ∈ ids) :
    (goal.dispatchNext callbacks moment).Sound ids op goal :=
  prepareDispatch_sound (by simpa [truthy] using hid) fun goal => dispatchIfPending_quiet goal false

theorem releaseDeferredLocked_sound (turns : List TurnId) {rest : GoalRun → Section}
    (hid : moment.uuid ∈ ids) (hrest : ∀ goal, (rest goal).Quiet goal) :
    (goal.releaseDeferredLocked callbacks { goal with completedTurnIds := turns } moment
      rest).Sound ids op goal := by
  unfold releaseDeferredLocked
  split
  · rename_i h
    exact put_sound (.released turns moment.now h.1 h.2.2) (by simp) trivial
      (prepareDispatch_sound (by simpa [truthy] using hid) hrest)
  · exact (hrest goal).sound

theorem releaseDeferredResume_sound (hid : moment.uuid ∈ ids) :
    (goal.releaseDeferredResume callbacks moment).Sound ids op goal :=
  releaseDeferredLocked_sound goal.completedTurnIds hid fun goal =>
    dispatchIfPending_quiet goal false

theorem ensureUnfinished_bind_ok {rest : Except GoalError GoalRun} {next : GoalRun}
    (h : (goal.ensureUnfinished >>= fun _ => rest) = .ok next) :
    goal.status.terminal = false ∧ rest = .ok next := by
  unfold ensureUnfinished at h
  split at h
  · contradiction
  · rename_i hunfinished
    exact ⟨by simpa using hunfinished, h⟩

theorem resumeLocked_sound {request : ResumeRequest}
    (hid : goal.idempotency.lookup request.clientRequestId = none →
      (truthy request.stepId).getD moment.uuid ∈ ids)
    (hidle : goal.status = .active ∨ goal.dispatchState = .idle ∨
      goal.idempotency.lookup request.clientRequestId ≠ none) :
    (goal.resumeLocked callbacks request moment).Sound ids op goal := by
  unfold resumeLocked
  cases hprior : goal.idempotency.lookup request.clientRequestId with
  | some =>
    dsimp only
    split
    · exact (resumeDispatch_quiet goal request).sound
    · exact (raises_quiet goal _).sound
  | none =>
    have hrest : ∀ goal : GoalRun,
        (if goal.dispatchState ≠ .idle ∨ goal.resumeAfterTurn = true then
          goal.resumeDispatch request
        else goal.prepareDispatch callbacks request.stepId request.override moment fun goal =>
          goal.resumeDispatch request).Sound ids op goal := by
      intro goal
      split
      · exact (resumeDispatch_quiet goal request).sound
      · exact prepareDispatch_sound (hid hprior) fun goal => resumeDispatch_quiet goal request
    refine mutateOnce_sound (by simp) trivial (by simp [hprior]) fun next hnext => ?_
    obtain ⟨hunfinished, hnext⟩ := ensureUnfinished_bind_ok hnext
    obtain rfl := Except.pure_ok_iff.mp hnext
    exact ⟨.resumed _ _ _ _ hunfinished (by simpa [hprior] using hidle), hrest _⟩

variable {after : AfterStop}

theorem afterStop_sound (hids : ∀ step ∈ after.steps moment, step ∈ ids)
    (hidle : goal.dispatchState = .idle)
    (hpaused : ∀ turnId, after = .steer turnId → goal.status = .paused) :
    (goal.afterStop callbacks moment after).Sound ids op goal := by
  cases after with
  | done => exact (returns_quiet goal).sound
  | resume =>
    exact resumeLocked_sound (fun _ => hids _ (by simp [AfterStop.steps])) (.inr (.inl hidle))
  | steer turnId =>
    unfold afterStop
    refine put_sound (.activated moment.now (hpaused turnId rfl) hidle) (by simp) trivial ?_
    exact prepareDispatch_sound (hids _ (by simp [AfterStop.steps])) fun goal =>
      dispatchIfPending_quiet goal false

theorem cancelReturned_sound (hids : ∀ step ∈ after.steps moment, step ∈ ids)
    (hparked : goal.status ≠ .active)
    (hpaused : ∀ turnId, after = .steer turnId → goal.status = .paused) :
    (goal.cancelReturned callbacks moment after).Sound ids op goal :=
  put_sound (.stopped moment.now hparked) (by simp) trivial (afterStop_sound hids rfl hpaused)

theorem cancelRaised_sound {error : GoalError} (hparked : goal.status ≠ .active) :
    (goal.cancelRaised error moment after).Sound ids op goal := by
  refine put_sound (.unreconciled _ moment.now hparked) (by simp) trivial ?_
  split
  · exact (raises_quiet _ _).sound
  · split
    · exact (returns_quiet _).sound
    · exact (raises_quiet _ _).sound

theorem cancelCurrent_sound (hids : ∀ step ∈ after.steps moment, step ∈ ids)
    (hparked : goal.status ≠ .active)
    (hpaused : ∀ turnId, after = .steer turnId → goal.status = .paused) :
    (goal.cancelCurrent callbacks moment after).Sound ids op goal := by
  unfold cancelCurrent
  split
  · rename_i h
    exact afterStop_sound hids h.2 hpaused
  · split
    · exact cancelReturned_sound hids hparked hpaused
    · refine ⟨.nil goal, .inl rfl, by simp, by simp, by simp, fun after' hafter => ?_⟩
      obtain rfl : after = after' := by simpa using hafter
      exact ⟨hparked, hpaused⟩

theorem pause_sound :
    (goal.pause callbacks clientRequestId moment).Sound ids op goal := by
  have hstop : ∀ goal : GoalRun, (if goal.status ≠ .paused then goal.returns
      else goal.cancelCurrent callbacks moment .done).Sound ids op goal := by
    intro goal
    split
    · exact (returns_quiet goal).sound
    · rename_i hpaused
      rw [not_not] at hpaused
      exact cancelCurrent_sound (by simp [AfterStop.steps]) (by simp [hpaused]) (by simp)
  refine mutateOnce_sound (by simp) trivial (fun _ => hstop goal) fun next hnext => ?_
  obtain ⟨hunfinished, hnext⟩ := ensureUnfinished_bind_ok hnext
  obtain rfl := Except.pure_ok_iff.mp hnext
  exact ⟨.paused _ _ _ hunfinished, hstop _⟩

theorem resume_sound {request : ResumeRequest}
    (hid : goal.idempotency.lookup request.clientRequestId = none →
      (truthy request.stepId).getD moment.uuid ∈ ids) :
    (goal.resume callbacks request moment).Sound ids op goal := by
  unfold resume
  split
  · exact (raises_quiet goal _).sound
  split
  · exact (raises_quiet goal _).sound
  split
  · exact (raises_quiet goal _).sound
  split
  · exact (raises_quiet goal _).sound
  split
  · exact (raises_quiet goal _).sound
  split
  · rename_i h
    exact cancelCurrent_sound (by simpa [AfterStop.steps] using hid h.1) h.2.1 (by simp)
  · rename_i h
    refine resumeLocked_sound hid ?_
    by_contra hnot
    simp only [not_or, not_not] at hnot
    exact h ⟨hnot.2.2, hnot.1, hnot.2.1⟩

theorem steerApply_ok {request : SteerRequest} {next : GoalRun}
    (h : steerApply request now goal = .ok next) :
    goal.status.terminal = false ∧
      next = { goal with
        status := .paused
        pausedAt := some now
        statusMessage := some "steering the Goal with a new message"
        pendingInput := some request.text
        pendingImageCount := request.imageCount
        pendingImageFingerprint := request.imageDigest
        resumeAfterTurn := false } := by
  unfold steerApply at h
  obtain ⟨hunfinished, h⟩ := ensureUnfinished_bind_ok h
  refine ⟨hunfinished, ?_⟩
  split at h
  · contradiction
  · split at h
    · contradiction
    · exact (Except.pure_ok_iff.mp h).symm

theorem steer_sound {goalId : GoalId} {request : SteerRequest}
    (hid : goal.idempotency.lookup request.clientRequestId = none →
      (truthy (some request.turnId)).getD moment.uuid ∈ ids) :
    (goal.steer callbacks request moment).Sound ids (.steer goalId request moment) goal := by
  unfold steer
  split
  · exact (raises_quiet goal _).sound
  cases hprior : goal.idempotency.lookup request.clientRequestId with
  | some =>
    dsimp only
    split
    · exact (returns_quiet goal).sound
    · exact (raises_quiet goal _).sound
  | none =>
    refine mutateOnce_sound (by simp) ⟨goalId, request, moment, rfl, rfl⟩ (by simp [hprior])
      fun next hnext => ?_
    obtain ⟨hunfinished, rfl⟩ := steerApply_ok hnext
    refine ⟨.steered request _ _ _ hunfinished, ?_⟩
    exact cancelCurrent_sound (by simpa [AfterStop.steps] using hid hprior) (by simp) (by simp)

theorem updateObjective_sound {objective : String} :
    (goal.updateObjective clientRequestId objective moment).Sound ids op goal := by
  refine mutateOnce_sound (by simp) trivial (fun _ => (returns_quiet goal).sound) fun next hnext => ?_
  obtain ⟨hunfinished, hnext⟩ := ensureUnfinished_bind_ok hnext
  refine ⟨?_, (returns_quiet _).sound⟩
  split at hnext
  · contradiction
  · split at hnext
    · obtain rfl := Except.pure_ok_iff.mp hnext
      exact .edited _ objective _ _ _ hunfinished (.inr rfl)
    · obtain rfl := Except.pure_ok_iff.mp hnext
      exact .edited _ objective _ _ _ hunfinished (.inl ⟨rfl, rfl⟩)

theorem complete_sound (hgoal : goal.WellFormed) :
    (goal.complete callbacks clientRequestId moment).Sound ids op goal := by
  refine mutateOnce_sound (by simp) trivial (fun hreplay => ?_) fun next hnext => ?_
  · have hterminal := hgoal.closed _ _ hreplay (.inl rfl)
    exact cancelCurrent_sound (by simp [AfterStop.steps]) (terminal_ne_active hterminal) (by simp)
  · obtain ⟨hunfinished, hnext⟩ := ensureUnfinished_bind_ok hnext
    obtain rfl := Except.pure_ok_iff.mp hnext
    exact ⟨.finished _ _ _ _ _ rfl, cancelCurrent_sound (by simp [AfterStop.steps]) (by simp)
      (by simp)⟩

theorem clear_sound (hgoal : goal.WellFormed) :
    (goal.clear callbacks clientRequestId moment).Sound ids op goal := by
  refine mutateOnce_sound (by simp) trivial (fun hreplay => ?_) fun next hnext => ?_
  · have hterminal := hgoal.closed _ _ hreplay (.inr rfl)
    exact cancelCurrent_sound (by simp [AfterStop.steps]) (terminal_ne_active hterminal) (by simp)
  · obtain rfl : _ = next := by simpa using hnext
    exact ⟨.finished _ _ _ _ _ rfl, cancelCurrent_sound (by simp [AfterStop.steps]) (by simp)
      (by simp)⟩

/-! ## Turn completion and the outcome of a dispatch -/

section

variable {tokens : Option Nat} {next : GoalRun} {tabId : TabId} {turnId : TurnId}
  {usage : GoalTurnUsage} {report : TurnReport} {rest : GoalRun → Section}

theorem countTurn_counted : goal.Counted usage.totalTokens (goal.countTurn turnId usage) := by
  refine ⟨rfl, rfl, rfl, rfl, rfl, rfl, rfl, rfl, rfl, rfl, rfl, rfl, ?_⟩
  cases htokens : usage.totalTokens with
  | none => simp [countTurn, htokens]
  | some => simp [countTurn, htokens]

theorem Counted.update (h : goal.Counted tokens next) (status : GoalRunStatus)
    (statusMessage : Option String) (checkpoint : Option GoalCheckpoint)
    (checkpointHistory : List GoalCheckpoint) (checkpointWarning : Option String)
    (pausedAt completedAt : Option Time) (updatedAt : Time) :
    goal.Counted tokens { next with
      status, statusMessage, checkpoint, checkpointHistory, checkpointWarning, pausedAt,
      completedAt, updatedAt } :=
  { h with }

theorem Counted.readReply (h : goal.Counted tokens next) (turnId : TurnId)
    (checkpoint : ReadCheckpoint) (signal : GoalSignal) (now : Time) :
    goal.Counted tokens (next.readReply turnId checkpoint signal now) := by
  cases checkpoint with
  | invalid => exact h.update _ _ _ _ _ _ _ _
  | omitted => exact h.update _ _ _ _ _ _ _ _
  | parsed => exact h.update _ _ _ _ _ _ _ _

theorem put_counted_sound {now : Time} {saved : Bool} (hactive : goal.status = .active)
    (hrunning : goal.dispatchState = .pending ∨ goal.dispatchState = .dispatched)
    (hturn : goal.currentTurnId = some turnId) (hcounted : goal.Counted tokens next)
    (hrest : ∀ goal, (rest goal).Sound ids (.turnCompleted tabId turnId report moment) goal) :
    (goal.put next (.counted turnId tokens) now saved rest).Sound ids
      (.turnCompleted tabId turnId report moment) goal :=
  put_sound (.counted _ hactive hrunning hturn (hcounted.update _ _ _ _ _ _ _ _)) (by simp)
    ⟨tabId, report, moment, rfl⟩ (hrest _)

theorem concludeTurn_sound (hid : moment.uuid ∈ ids)
    (hrest : ∀ goal, (rest goal).Quiet goal) (hactive : goal.status = .active)
    (hrunning : goal.dispatchState = .pending ∨ goal.dispatchState = .dispatched)
    (hturn : goal.currentTurnId = some turnId) (hcounted : goal.Counted tokens next) :
    (goal.concludeTurn callbacks next turnId tokens report moment rest).Sound ids
      (.turnCompleted tabId turnId report moment) goal := by
  have hends := fun goal =>
    @Section.Quiet.sound ids (.turnCompleted tabId turnId report moment) goal _ (hrest goal)
  have hagain : ∀ next, goal.Counted tokens next →
      (goal.put next (.counted turnId tokens) moment.now moment.saves.turn fun goal =>
        goal.prepareDispatch callbacks none false moment rest).Sound ids
          (.turnCompleted tabId turnId report moment) goal :=
    fun next hnext => put_counted_sound hactive hrunning hturn hnext fun goal =>
      prepareDispatch_sound (by simpa [truthy] using hid) hrest
  unfold concludeTurn
  cases report.signal with
  | none =>
    dsimp only
    split
    · exact hagain next hcounted
    · exact put_counted_sound hactive hrunning hturn (hcounted.update _ _ _ _ _ _ _ _) hends
  | some signal =>
    dsimp only
    have hread := hcounted.readReply turnId report.checkpoint signal moment.now
    generalize next.readReply turnId report.checkpoint signal moment.now = read at *
    split
    · exact hagain read hread
    · cases signal.state with
      | complete =>
        exact put_counted_sound hactive hrunning hturn (hread.update _ _ _ _ _ _ _ _) hends
      | blocked =>
        exact put_counted_sound hactive hrunning hturn (hread.update _ _ _ _ _ _ _ _) hends
      | needsInput =>
        exact put_counted_sound hactive hrunning hturn (hread.update _ _ _ _ _ _ _ _) hends
      | continues =>
        dsimp only
        split
        · exact put_counted_sound hactive hrunning hturn (hread.update _ _ _ _ _ _ _ _) hends
        · exact hagain read hread

theorem onTurnCompleted_sound (hid : moment.uuid ∈ ids) :
    (goal.onTurnCompleted callbacks turnId report moment).Sound ids
      (.turnCompleted tabId turnId report moment) goal := by
  have hrest : ∀ goal : GoalRun, (goal.dispatchIfPending false).Quiet goal := fun goal =>
    dispatchIfPending_quiet goal false
  unfold onTurnCompleted onTurnCompletedLocked
  split
  · exact (hrest goal).sound
  split
  · exact (hrest goal).sound
  rename_i hactive
  rw [not_not] at hactive
  split
  · rename_i hdeferred
    split
    · exact put_sound (.interrupted _ _ _ _ hactive hdeferred.2) (by simp) trivial (hrest _).sound
    · exact releaseDeferredLocked_sound _ hid hrest
  split
  · exact (hrest goal).sound
  rename_i hcurrent
  rw [not_or, not_and_or, not_not, not_not, not_not] at hcurrent
  obtain ⟨hrunning, hturn⟩ := hcurrent
  cases report.usage with
  | none => exact (raises_quiet goal _).sound
  | some usage =>
    have hcounted : goal.Counted usage.totalTokens (goal.countTurn turnId usage) :=
      countTurn_counted
    dsimp only
    split
    · exact put_counted_sound hactive hrunning hturn (hcounted.update _ _ _ _ _ _ _ _)
        fun goal => (hrest goal).sound
    split
    · exact put_counted_sound hactive hrunning hturn (hcounted.update _ _ _ _ _ _ _ _)
        fun goal => (hrest goal).sound
    · exact concludeTurn_sound hid hrest hactive hrunning hturn hcounted

end

section

variable {prepared : GoalRun} {error : GoalError}

theorem dispatchFailed_sound : (goal.dispatchFailed prepared error moment).Sound ids op goal := by
  have hrest : ∀ goal : GoalRun,
      (if error = .cancelled then goal.raises error else goal.returns).Quiet goal := by
    intro goal
    split
    · exact raises_quiet goal error
    · exact returns_quiet goal
  unfold dispatchFailed
  split
  · rename_i hawaits
    exact put_sound (.uncertain _ moment.now hawaits.1) (by simp) trivial (hrest _).sound
  · exact (returns_quiet goal).sound

theorem dispatchAccepted_sound {step : TurnId} (hstep : prepared.pendingStepId = some step)
    (hinput : goal.awaits prepared → goal.status = .active →
      goal.pendingInput = prepared.pendingInput) :
    (goal.dispatchAccepted prepared prepared.pendingStepId moment).Sound ids
      (.transportReturned prepared moment) goal := by
  unfold dispatchAccepted
  split
  · rename_i hawaits
    split
    · refine put_sound ?_ (by simp) ⟨prepared, moment, rfl⟩ (returns_quiet _).sound
      have hnext : (truthy prepared.pendingStepId).getD (prepared.pendingStepId.getD "") = step := by
        rw [hstep]
        by_cases hempty : step = ""
        · simp [truthy, Option.filter_some, hempty]
        · simp [truthy, Option.filter_some, hempty]
      rw [hnext]
      exact .accepted prepared step moment.now hawaits hstep (hinput hawaits)
    · exact dispatchFailed_sound
  · exact (returns_quiet goal).sound

end

end GoalRun

end ClaudeHub
