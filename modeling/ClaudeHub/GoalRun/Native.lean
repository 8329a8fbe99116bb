import ClaudeHub.GoalRun.NativeRecords
import ClaudeHub.Lib.Attempt
import ClaudeHub.Lib.Runs
import ClaudeHub.Scheduling.Schedule

/-! # The coordinator of provider-owned Goals

A call runs over its own script: what each awaited callback answers, whether each save of
the snapshot file succeeds, and the id and the time stamp of each record it creates. The
process dies where the script ends, so that every prefix of a call is the whole of a call
with a shorter script. The file holds what the memory holds after each save that returns,
and a save that raises puts the memory back: a restart goes on from the records of the
state in which the process died.
-/

namespace ClaudeHub

inductive NativeFault
  | native (detail : String)
  | policy (detail : String)
  | value (detail : String)
  /-- `KeyError` -/
  | missing (goal : GoalId)
  /-- `RuntimeError`, `ValueError` or `NotImplementedError` of a callback -/
  | runtime (text : String)
  | other (text : String)
  | assertion
  | save
  | cancelled
  deriving DecidableEq, Repr

def NativeFault.text : NativeFault → String
  | .native detail | .policy detail | .value detail | .runtime detail | .other detail => detail
  | .missing goal => "\"goal '" ++ goal ++ "' not found\""
  | .save => "the snapshot could not be saved"
  | .assertion | .cancelled => ""

inductive NativeReply
  /-- The resolver's connection, by its snapshot, or what `read` returns. -/
  | snapshot (snapshot : Option ProviderGoalSnapshot)
  | turn (turnId : Option TurnId)
  | inFlight (running : Bool)
  | goal (raw : ProviderGoal)
  | done
  | raises (fault : NativeFault)
  deriving DecidableEq, Repr

def NativeReply.fault? : NativeReply → Option NativeFault
  | .raises fault => some fault
  | _ => none

inductive NativeEffect
  | setGoal (objective : Option String) (status : Option GoalRunStatus)
  | clearGoal
  | stopTurn
  | sendInput (text : String) (turnId : TurnId)
  deriving DecidableEq, Repr

/-- What a client request is known by: its id, and for a mutation the Goal that it is for. -/
inductive RequestKey
  | create (requestId : String)
  | mutation (goalId : GoalId) (requestId : String)
  deriving DecidableEq, Repr

inductive NativeRequest
  | create (requestId : String) (input : CreateInput)
  | mutation (goalId : GoalId) (requestId : String) (content : MutationFingerprint)
  deriving DecidableEq, Repr

def RequestKey.requestId : RequestKey → String
  | .create requestId => requestId
  | .mutation _ requestId => requestId

def NativeRequest.key : NativeRequest → RequestKey
  | .create requestId _ => .create requestId
  | .mutation goalId requestId _ => .mutation goalId requestId

/-- A provider call that was begun, by the number of the coordinator call that began it. -/
structure StartedEffect where
  call : Nat
  request : NativeRequest
  effect : NativeEffect
  deriving DecidableEq, Repr

/-- What a call gives back. `unsupported` is the `None` of a tab without a native provider. -/
inductive NativeResult
  | unsupported (current : Option NativeGoalRun)
  | goal (goal : NativeGoalRun)
  | refreshed (goal : Option NativeGoalRun)
  deriving DecidableEq

structure NativeBirth where
  id : GoalId
  createdAt : Time
  deriving DecidableEq, Repr

structure NativeWorld where
  store : NativeGoalStore
  started : List StartedEffect := []
  call : Nat := 0
  now : Time := 0
  replies : List NativeReply := []
  saves : List Bool := []
  births : List NativeBirth := []

abbrev Native := Attempt NativeWorld NativeFault

namespace Native

open Attempt

/-- Await a callback. The process dies where the script has no answer of the right kind. -/
def ask (decode : NativeReply → Option α) : Native α := fun world =>
  match world.replies with
  | [] => (.died, world)
  | reply :: replies =>
    let world := { world with replies := replies }
    match reply.fault? with
    | some fault => (.raised fault, world)
    | none =>
      match decode reply with
      | some a => (.returned a, world)
      | none => (.died, world)

def askSnapshot : Native (Option ProviderGoalSnapshot) :=
  ask fun | .snapshot snapshot => some snapshot | _ => none

def activeTurnId : Native (Option TurnId) :=
  ask fun | .turn turnId => some turnId | _ => none

def turnInFlight : Native Bool :=
  ask fun | .inFlight running => some running | _ => none

def begin (request : NativeRequest) (effect : NativeEffect) : Native PUnit :=
  update fun world =>
    { world with started := world.started ++ [⟨world.call, request, effect⟩] }

def setGoal (request : NativeRequest) (objective : Option String)
    (status : Option GoalRunStatus) : Native ProviderGoal := do
  begin request (.setGoal objective status)
  ask fun | .goal raw => some raw | _ => none

def clearGoal (request : NativeRequest) : Native PUnit := do
  begin request .clearGoal
  ask fun | .done => some ⟨⟩ | _ => none

def stopTurn (request : NativeRequest) : Native PUnit := do
  begin request .stopTurn
  ask fun | .done => some ⟨⟩ | _ => none

def sendInput (request : NativeRequest) (text : String) (turnId : TurnId) : Native PUnit := do
  begin request (.sendInput text turnId)
  ask fun | .done => some ⟨⟩ | _ => none

/-- `_save`, and what the memory holds after it. -/
def commit (store : NativeGoalStore) : Native PUnit := fun world =>
  match world.saves with
  | [] => (.died, world)
  | false :: saves => (.raised .save, { world with saves := saves })
  | true :: saves => (.returned ⟨⟩, { world with saves := saves, store := store })

def birth : Native NativeBirth := fun world =>
  match world.births with
  | [] => (.died, world)
  | newborn :: births => (.returned newborn, { world with births := births })

def get (goalId : GoalId) : Native NativeGoalRun := do
  let found ← reads fun world => world.store.goals.get? goalId
  match found with
  | none => raise (.missing goalId)
  | some goal => pure goal

/-- `GoalRunStore.put` -/
def storePut (goal : NativeGoalRun) : Native NativeGoalRun := do
  let _ ← get goal.id
  let now ← reads NativeWorld.now
  let store ← reads NativeWorld.store
  commit (store.withGoal (goal.stamped now))
  pure (goal.stamped now)

def put (goal : NativeGoalRun) : Native NativeGoalRun := do
  let previous ← get goal.id
  if previous = goal then pure previous else storePut goal

/-- `replay_create`: the goal of an exact replay; other input under its id is refused. -/
def replayCreate (key : CreateKey) (supplied : CreateInput) : Native (Option NativeGoalRun) := do
  let store ← reads NativeWorld.store
  match store.createRequests.lookup key with
  | none => pure none
  | some priorId =>
    let prior ← get priorId
    if store.inputOf key prior ≠ supplied then
      raise (.value "client_request_id was already used for another create")
    else pure (some prior)

/-- A goal that keeps its tab from starting another. -/
def occupies (tabId : TabId) (goal : NativeGoalRun) : Prop :=
  goal.tabId = tabId ∧ (goal.unfinished ∨ goal.dispatchState ≠ .idle)

instance (tabId : TabId) (goal : NativeGoalRun) : Decidable (occupies tabId goal) :=
  inferInstanceAs (Decidable (_ ∧ _))

/-- `GoalRunStore.create` -/
def storeCreate (goal : NativeGoalRun) (key : CreateKey) (supplied : CreateInput) :
    Native NativeGoalRun := do
  match ← replayCreate key supplied with
  | some prior => pure prior
  | none =>
    let store ← reads NativeWorld.store
    if ∃ existing ∈ store.goals.rows, occupies goal.tabId existing then
      raise (.value "tab already has an unfinished goal")
    else do
      commit (store.withCreated goal key
        ⟨goal.tabId, goal.objective, truthy goal.pendingImageFingerprint⟩)
      pure goal

/-- The validation of `GoalRun.objective`. -/
def objectiveField (text : String) : Native String :=
  if 1 ≤ text.length ∧ text.length ≤ 4000 ∧ stripText text ≠ "" then pure (stripText text)
  else raise (.value "objective must not be blank")

/-! ## Projection of a snapshot -/

/-- `connect`, with a resolver. -/
def connect (tabId : TabId) : Native (Option ProviderGoalSnapshot) := do
  let connection ← catching askSnapshot fun fault =>
    match fault with
    | .runtime text => raise (.native ("Could not read provider Goal: " ++ text))
    | fault => raise fault
  let previous ← reads fun world => world.store.currentForTab tabId
  match connection, previous with
  | none, some previous =>
    if previous.executionOwner = .providerNative ∧
        (previous.unfinished ∨ previous.dispatchState ≠ .idle ∨ previous.providerStopPending) then
      raise (.native "The existing Goal requires its native provider API")
    else pure none
  | connection, _ => pure connection

/-- `turn_in_flight`, which only a pending stop makes the coordinator look at. -/
def stopStillPending (goal : NativeGoalRun) : Native Bool :=
  if goal.providerStopPending then turnInFlight else pure false

def ownedTurns (goal : NativeGoalRun) (owns : Bool) : Option TurnId → List TurnId
  | some turnId =>
    if owns then (goal.ownTurn turnId).providerOwnedTurnIds else goal.providerOwnedTurnIds
  | none => goal.providerOwnedTurnIds

def absentRecord (snapshot : ProviderGoalSnapshot) (previous : NativeGoalRun) : NativeGoalRun :=
  if previous.executionOwner = .providerNative then
    { previous with
      providerGoalAbsent := previous.providerGoalAbsent ||
        previous.providerThreadId = some snapshot.threadId
      dispatchState := .idle
      currentTurnId := if previous.dispatchState = .idle then previous.currentTurnId else none }
  else previous

/-- What a snapshot without a Goal makes of a record that has not ended, or whose stop is
still pending. -/
def clearedRecord (snapshot : ProviderGoalSnapshot) (activeTurn : Option TurnId) (now : Time)
    (stopping : Bool) (previous : NativeGoalRun) : NativeGoalRun :=
  { previous with
    executionOwner := .providerNative
    providerThreadId := some snapshot.threadId
    providerGoalAbsent := true
    providerStatus := none
    status := if previous.status = .complete then .complete else .cancelled
    completedAt := some (previous.completedAt.getD now)
    pendingStepId := none
    resumeAfterTurn := false
    providerOwnedTurnIds := ownedTurns previous previous.providerStopPending activeTurn
    currentTurnId := if previous.providerStopPending then activeTurn else none
    providerStopPending := stopping
    dispatchState := if stopping then .uncertain else .idle }

/-- The branch of `synchronize` for a snapshot without a Goal. -/
def projectAbsent (snapshot : ProviderGoalSnapshot) (activeTurn : Option TurnId)
    (previous : NativeGoalRun) : Native (Option NativeGoalRun) := do
  if previous.terminal ∧ ¬ previous.providerStopPending then do
    let _ ← put (absentRecord snapshot previous)
    pure none
  else do
    let stopping ← stopStillPending previous
    let now ← reads NativeWorld.now
    let cleared := clearedRecord snapshot activeTurn now stopping previous
    let _ ← put cleared
    pure (if stopping then some cleared else none)

/-- The snapshot shows the Goal that the latest record is about. -/
def sameGeneration (snapshot : ProviderGoalSnapshot) (raw : ProviderGoal)
    (previous : NativeGoalRun) : Prop :=
  (previous.executionOwner = .hubManaged ∧ previous.unfinished ∧
      previous.objective = raw.objective) ∨
    (previous.executionOwner = .providerNative ∧
      previous.providerThreadId = some snapshot.threadId ∧
      previous.providerGoalAbsent = false ∧ previous.status ≠ .cancelled ∧
      (previous.providerGoalCreatedAt = some raw.createdAt ∨
        (previous.providerGoalCreatedAt = none ∧ previous.objective = raw.objective)))

instance (snapshot : ProviderGoalSnapshot) (raw : ProviderGoal) (previous : NativeGoalRun) :
    Decidable (sameGeneration snapshot raw previous) := inferInstanceAs (Decidable (_ ∨ _))

def retiredRecord (previous : NativeGoalRun) : NativeGoalRun :=
  { previous with
    status := .cancelled
    dispatchState := .idle
    pendingStepId := none
    currentTurnId := none
    resumeAfterTurn := false }

def retire (previous : NativeGoalRun) : Native PUnit :=
  if previous.unfinished ∨ previous.dispatchState ≠ .idle then do
    let _ ← put (retiredRecord previous)
    pure ⟨⟩
  else pure ⟨⟩

def adopt (tabId : TabId) (snapshot : ProviderGoalSnapshot) (raw : ProviderGoal)
    (previous : Option NativeGoalRun) : Native NativeGoalRun := do
  let objective ← objectiveField raw.objective
  let newborn ← birth
  storeCreate
    { id := newborn.id
      tabId := tabId
      objective := objective
      executionOwner := .providerNative
      providerThreadId := some snapshot.threadId
      providerGoalCreatedAt := some raw.createdAt
      createdAt := newborn.createdAt
      updatedAt := newborn.createdAt }
    (.generation tabId snapshot.threadId raw.createdAt (previous.map NativeGoalRun.id))
    ⟨tabId, objective, none⟩

def generation (tabId : TabId) (snapshot : ProviderGoalSnapshot) (raw : ProviderGoal) :
    Option NativeGoalRun → Native NativeGoalRun
  | none => adopt tabId snapshot raw none
  | some previous =>
    if sameGeneration snapshot raw previous then pure previous
    else do
      retire previous
      adopt tabId snapshot raw (some previous)

def projected (snapshot : ProviderGoalSnapshot) (raw : ProviderGoal)
    (activeTurn : Option TurnId) (now : Time) (stopping : Bool) (goal : NativeGoalRun) :
    NativeGoalRun :=
  let owned := ownedTurns goal (raw.status = GoalRunStatus.active || goal.providerStopPending)
    activeTurn
  { goal with
    providerOwnedTurnIds := owned
    objective := raw.objective
    objectiveRevision :=
      if goal.objective = raw.objective then goal.objectiveRevision
      else goal.objectiveRevision + 1
    executionOwner := .providerNative
    providerThreadId := some snapshot.threadId
    providerGoalCreatedAt := some raw.createdAt
    providerUpdatedAt := some raw.updatedAt
    providerStatus := some raw.status
    providerGoalAbsent := false
    status := raw.status
    tokenUsage := some raw.tokensUsed
    usageQuality := .exact
    currentTurnId := activeTurn.filter fun turnId => turnId ∈ owned
    pendingStepId := none
    resumeAfterTurn := false
    providerStopPending := stopping
    dispatchState := if stopping then .uncertain else .idle
    statusMessage := if stopping then goal.statusMessage else none
    pausedAt := if raw.status = GoalRunStatus.paused then some (goal.pausedAt.getD now) else none
    completedAt := if raw.status = GoalRunStatus.complete then some (goal.completedAt.getD now) else none
    checkpoint := none
    checkpointWarning := none }

def synchronize (tabId : TabId) (snapshot : ProviderGoalSnapshot) :
    Native (Option NativeGoalRun) := do
  let previous ← reads fun world => world.store.latestForTab tabId
  let activeTurn ← activeTurnId
  match snapshot.goal with
  | none =>
    match previous with
    | none => pure none
    | some previous => projectAbsent snapshot activeTurn previous
  | some raw => do
      let goal ← generation tabId snapshot raw previous
      let stopping ← stopStillPending goal
      let now ← reads NativeWorld.now
      let goal ← put (projected snapshot raw activeTurn now stopping goal)
      pure (some goal)

/-! ## The calls -/

def refresh (tabId : TabId) : Native NativeResult := do
  match ← connect tabId with
  | none => do
      let current ← reads fun world => world.store.currentForTab tabId
      pure (.unsupported current)
  | some snapshot => do
      let goal ← synchronize tabId snapshot
      pure (.refreshed goal)

def readBack (tabId : TabId) (connected : ProviderGoalSnapshot) :
    Native (Option NativeGoalRun) := do
  match ← askSnapshot with
  | none => raise (.native "Provider Goal ownership changed during the operation")
  | some snapshot =>
    if snapshot.threadId ≠ connected.threadId then
      raise (.native "Provider Goal ownership changed during the operation")
    else synchronize tabId snapshot

def uncertainRecord (fault : NativeFault) (goal : NativeGoalRun) : NativeGoalRun :=
  { goal with
    dispatchState := .uncertain
    statusMessage := some ("Provider Goal operation is unconfirmed: " ++ fault.text) }

def uncertain (goalId : GoalId) (fault : NativeFault) : Native PUnit := do
  let goal ← get goalId
  let _ ← put (uncertainRecord fault goal)
  pure ⟨⟩

/-- The `except` of `create` and `mutate`. -/
def unconfirmed (goalId : GoalId) (fault : NativeFault) : Native NativeResult := do
  uncertain goalId fault
  raise (if fault = .cancelled then .cancelled else .native fault.text)

def createConfirmed (request : GoalRunCreate) (goal : NativeGoalRun) : NativeGoalRun :=
  { goal.withReceipt request.clientRequestId .create with
    pendingImageCount := 0
    pendingImageFingerprint := "" }

def confirmCreate (request : GoalRunCreate) (current : Option NativeGoalRun)
    (baseline : Option Int) (replay : NativeGoalRun) : Native NativeResult :=
  match current with
  | none => raise (.native "Previous native Goal creation is not confirmed")
  | some current =>
    if current.id ≠ replay.id ∨ current.objective ≠ request.objective ∨
        current.providerGoalCreatedAt = baseline ∨
        (request.imageCount ≠ 0 ∧
          (request.clientRequestId ∉ replay.providerOwnedTurnIds ∨
            current.status = .paused)) then
      raise (.native "Previous native Goal creation is not confirmed")
    else do
      let goal ← put (createConfirmed request replay)
      pure (.goal goal)

def replayedCreate (request : GoalRunCreate) (current : Option NativeGoalRun)
    (replay : NativeGoalRun) : Native NativeResult :=
  match replay.receipt request.clientRequestId with
  | some (.pendingCreate baseline) => confirmCreate request current baseline replay
  | _ => pure (.goal replay)

def createInput (tabId : TabId) (request : GoalRunCreate) : CreateInput :=
  ⟨tabId, request.objective, truthy request.imageFingerprint⟩

def createOrigin (tabId : TabId) (request : GoalRunCreate) : NativeRequest :=
  .create request.clientRequestId (createInput tabId request)

def deliverImages (origin : NativeRequest) (goalId : GoalId) (request : GoalRunCreate) :
    Native PUnit := do
  let _ ← get goalId
  sendInput origin request.objective request.clientRequestId
  let accepted ← get goalId
  let _ ← put (accepted.ownTurn request.clientRequestId)
  let _ ← setGoal origin none (some .active)
  pure ⟨⟩

def startCreate (tabId : TabId) (snapshot : ProviderGoalSnapshot) (goalId : GoalId)
    (request : GoalRunCreate) : Native NativeResult := do
  let origin := createOrigin tabId request
  runIf (snapshot.goal ≠ none) (clearGoal origin)
  let raw ← setGoal origin (some request.objective)
    (some (if request.imageCount = 0 then .active else .paused))
  let _ ← synchronize tabId ⟨snapshot.threadId, some raw⟩
  runIf (request.imageCount ≠ 0) (deliverImages origin goalId request)
  match ← readBack tabId snapshot with
  | none => raise (.native "Provider did not retain the created Goal")
  | some result =>
    if result.id ≠ goalId then raise (.native "Provider did not retain the created Goal")
    else do
      let goal ← put (createConfirmed request result)
      pure (.goal goal)

def createdRecord (tabId : TabId) (snapshot : ProviderGoalSnapshot) (request : GoalRunCreate)
    (newborn : NativeBirth) : NativeGoalRun where
  id := newborn.id
  tabId := tabId
  objective := request.objective
  executionOwner := .providerNative
  providerThreadId := some snapshot.threadId
  status := .paused
  dispatchState := .pending
  pendingImageCount := request.imageCount
  pendingImageFingerprint := request.imageFingerprint
  createdAt := newborn.createdAt
  updatedAt := newborn.createdAt
  idempotency := Dict.set Table.empty request.clientRequestId
    (.pendingCreate (snapshot.goal.map ProviderGoal.createdAt))

def create (tabId : TabId) (request : GoalRunCreate) : Native NativeResult := do
  match ← connect tabId with
  | none => pure (.unsupported none)
  | some snapshot => do
      let current ← synchronize tabId snapshot
      let key := CreateKey.client request.clientRequestId
      match ← replayCreate key (createInput tabId request) with
      | some replay => replayedCreate request current replay
      | none =>
        if ∃ goal ∈ current, goal.unfinished then
          raise (.policy "tab already has an unfinished provider Goal")
        else do
          let newborn ← birth
          let goal ← storeCreate (createdRecord tabId snapshot request newborn) key
            (createInput tabId request)
          catching (startCreate tabId snapshot goal.id request) (unconfirmed goal.id)

structure MutationArgs where
  goalId : GoalId
  requestId : String
  operation : GoalMutation
  objective : Option String := none
  text : Option String := none
  turnId : Option TurnId := none
  imageCount : Nat := 0
  imageDigest : String := ""
  deriving DecidableEq, Repr

namespace MutationArgs

def fingerprint (args : MutationArgs) : MutationFingerprint where
  operation := args.operation
  digested :=
    if args.objective ≠ none ∨ args.text ≠ none then
      some ((truthy args.objective).getD (args.text.getD "" ++ "\x00" ++ args.imageDigest))
    else none

def origin (args : MutationArgs) : NativeRequest :=
  .mutation args.goalId args.requestId args.fingerprint

def stops (args : MutationArgs) : Prop :=
  args.operation = .pause ∨ args.operation = .complete ∨ args.operation = .clear ∨
    args.operation = .steer

instance (args : MutationArgs) : Decidable args.stops := inferInstanceAs (Decidable (_ ∨ _))

end MutationArgs

def mutationReflected (args : MutationArgs) (goal : NativeGoalRun)
    (current : Option NativeGoalRun) : Prop :=
  goal.providerStopPending = false ∧
    match args.operation with
    | .clear => current = none
    | operation =>
      (∃ shown ∈ current, shown.id = goal.id) ∧
        match operation with
        | .pause => goal.status = .paused ∨ goal.status = .complete
        | .complete => goal.status = .complete
        | .resume => goal.status = .active
        | .objective => some goal.objective = args.objective
        | .steer => goal.status = .active ∧ ∃ turnId ∈ args.turnId,
            turnId ∈ goal.providerOwnedTurnIds
        | .clear => False

instance (args : MutationArgs) (goal : NativeGoalRun) (current : Option NativeGoalRun) :
    Decidable (mutationReflected args goal current) := by
  unfold mutationReflected
  cases args.operation <;> infer_instance

def reflectedRecord (args : MutationArgs) (goal : NativeGoalRun) : NativeGoalRun :=
  { goal.withReceipt args.requestId (.applied args.fingerprint) with
    status := if args.operation = .clear then .cancelled else goal.status }

def replayMutation (args : MutationArgs) (goal : NativeGoalRun) (current : Option NativeGoalRun)
    (prior : GoalReceipt) : Native NativeResult :=
  if prior = .pending args.fingerprint then
    if mutationReflected args goal current then do
      let goal ← put (reflectedRecord args goal)
      pure (.goal goal)
    else raise (.native "Previous native Goal operation is not confirmed")
  else if prior ≠ .applied args.fingerprint then
    raise (.policy "client_request_id was already used for another mutation")
  else pure (.goal goal)

def mutateOther (args : MutationArgs) (goal : NativeGoalRun) (current : Option NativeGoalRun) :
    Native NativeResult :=
  if args.operation = .clear ∧ current = none then do
    let goal ← put { reflectedRecord args goal with dispatchState := .idle }
    pure (.goal goal)
  else raise (.policy "The provider Goal changed or was cleared; refresh before continuing")

def shouldStop (goal : NativeGoalRun) : Prop :=
  goal.status = .active ∨ goal.currentTurnId ≠ none ∨ goal.providerStopPending

instance (goal : NativeGoalRun) : Decidable (shouldStop goal) :=
  inferInstanceAs (Decidable (_ ∨ _))

def pendingRecord (args : MutationArgs) (goal : NativeGoalRun) : NativeGoalRun :=
  { goal.withReceipt args.requestId (.pending args.fingerprint) with
    dispatchState := .uncertain
    providerStopPending := decide (shouldStop goal ∧ args.stops)
    pendingImageCount := args.imageCount
    pendingImageFingerprint := args.imageDigest }

def ownTarget (target : Option TurnId) (goal : NativeGoalRun) : NativeGoalRun :=
  match target with
  | some turnId => goal.ownTurn turnId
  | none => goal

def stopRunningTurn (args : MutationArgs) (goalId : GoalId) : Native PUnit := do
  let target ← activeTurnId
  let stopping ← get goalId
  let _ ← put (ownTarget target stopping)
  stopTurn args.origin

def parkAndStop (args : MutationArgs) (snapshot : ProviderGoalSnapshot) (goal : NativeGoalRun) :
    Native PUnit := do
  runIf (snapshot.goal ≠ none ∧ goal.status ≠ .complete) do
    let _ ← setGoal args.origin none
      (some (if args.operation = .complete then .complete else .paused))
    pure ⟨⟩
  runIf (shouldStop goal) (stopRunningTurn args goal.id)

def applyOperation (args : MutationArgs) : Native PUnit :=
  match args.operation with
  | .clear => clearGoal args.origin
  | .resume => do
      let _ ← setGoal args.origin none (some .active)
      pure ⟨⟩
  | .objective =>
    match args.objective with
    | none => raise .assertion
    | some objective => do
        let _ ← setGoal args.origin (some objective) none
        pure ⟨⟩
  | .steer =>
    match args.text, args.turnId with
    | some text, some turnId => do
        let _ ← get args.goalId
        sendInput args.origin text turnId
        let accepted ← get args.goalId
        let _ ← put (accepted.ownTurn turnId)
        let _ ← setGoal args.origin none (some .active)
        pure ⟨⟩
    | _, _ => raise .assertion
  | .pause | .complete => pure ⟨⟩

def confirmedRecord (args : MutationArgs) (result : NativeGoalRun) : NativeGoalRun :=
  { result.withReceipt args.requestId (.applied args.fingerprint) with
    status := if args.operation = .clear then .cancelled else result.status
    pendingImageCount := 0
    pendingImageFingerprint := ""
    providerStopPending := false
    dispatchState := .idle }

def startMutation (args : MutationArgs) (tabId : TabId) (snapshot : ProviderGoalSnapshot)
    (goal : NativeGoalRun) : Native NativeResult := do
  runIf args.stops (parkAndStop args snapshot goal)
  applyOperation args
  match ← readBack tabId snapshot with
  | some result =>
    if args.operation = .clear then raise (.native "Provider Goal clear was not confirmed")
    else if result.id ≠ args.goalId then
      raise (.native "Provider Goal changed during the operation")
    else do
      let goal ← put (confirmedRecord args result)
      pure (.goal goal)
  | none => do
      let result ← get args.goalId
      let goal ← put (confirmedRecord args result)
      pure (.goal goal)

def mutateCurrent (args : MutationArgs) (tabId : TabId) (snapshot : ProviderGoalSnapshot)
    (goal : NativeGoalRun) : Native NativeResult := do
  if goal.status = .complete ∧ args.operation ≠ .clear ∧
      ¬ (goal.providerStopPending ∧ (args.operation = .pause ∨ args.operation = .complete)) then
    raise (.policy "The provider Goal is complete")
  else do
    let _ ← put (pendingRecord args goal)
    catching (startMutation args tabId snapshot goal) (unconfirmed args.goalId)

def mutate (args : MutationArgs) : Native NativeResult := do
  let original ← get args.goalId
  match ← connect original.tabId with
  | none => pure (.unsupported none)
  | some snapshot => do
      let current ← synchronize original.tabId snapshot
      let goal ← get args.goalId
      match goal.receipt args.requestId with
      | some prior => replayMutation args goal current prior
      | none =>
        if ∃ shown ∈ current, shown.id = args.goalId then
          mutateCurrent args original.tabId snapshot goal
        else mutateOther args goal current

end Native

inductive NativeCall
  | refresh (tabId : TabId)
  | create (tabId : TabId) (request : GoalRunCreate)
  | mutate (args : Native.MutationArgs)
  deriving DecidableEq, Repr

def NativeCall.run : NativeCall → Native NativeResult
  | .refresh tabId => Native.refresh tabId
  | .create tabId request => Native.create tabId request
  | .mutate args => Native.mutate args

structure NativeOp where
  call : NativeCall
  replies : List NativeReply := []
  saves : List Bool := []
  births : List NativeBirth := []
  now : Time := 0
  deriving DecidableEq, Repr

/-- The records between two calls, and the provider calls that were begun so far. -/
structure NativeGoals where
  store : NativeGoalStore := {}
  started : List StartedEffect := []
  calls : Nat := 0
  deriving DecidableEq

namespace NativeGoals

def world (goals : NativeGoals) (op : NativeOp) : NativeWorld where
  store := goals.store
  started := goals.started
  call := goals.calls
  now := op.now
  replies := op.replies
  saves := op.saves
  births := op.births

def invoke (goals : NativeGoals) (op : NativeOp) : Outcome NativeFault NativeResult × NativeWorld :=
  op.call.run (goals.world op)

def step (goals : NativeGoals) (op : NativeOp) : Option NativeGoals :=
  let world := (goals.invoke op).2
  some ⟨world.store, world.started, goals.calls + 1⟩

end NativeGoals

end ClaudeHub
