import ClaudeHub.GoalRun.Store

/-! # Provider-owned Chat Goals

The record of a Goal with the fields that the native coordinator reads and writes, what
the provider says of its Goal, and the receipts that a client request leaves. As for the
Goals of the Hub, a digest is taken to be injective and is carried as what it digests; the
request id of an adopted generation, which is such a digest, is a constructor of its own.
-/

namespace ClaudeHub

abbrev ThreadId := String

inductive GoalExecutionOwner
  | hubManaged | providerNative
  deriving DecidableEq, Repr

/-- The operations of `mutate`. -/
inductive GoalMutation
  | pause | complete | clear | resume | objective | steer
  deriving DecidableEq, Repr

/-- An operation and what its digest covers, where the request has an objective or a text. -/
structure MutationFingerprint where
  operation : GoalMutation
  digested : Option String := none
  deriving DecidableEq, Repr

/-- A value of `GoalRun.idempotency`. -/
inductive GoalReceipt
  /-- `pending:create:` and the `createdAt` of the Goal that the request replaces. -/
  | pendingCreate (baseline : Option Int)
  | create
  | pending (request : MutationFingerprint)
  | applied (request : MutationFingerprint)
  deriving DecidableEq, Repr

structure ProviderGoal where
  objective : String
  status : GoalRunStatus
  tokensUsed : Int
  createdAt : Int
  updatedAt : Int
  deriving DecidableEq, Repr

structure ProviderGoalSnapshot where
  threadId : ThreadId
  goal : Option ProviderGoal
  deriving DecidableEq, Repr

structure NativeGoalRun where
  id : GoalId
  tabId : TabId
  executionOwner : GoalExecutionOwner := .hubManaged
  providerThreadId : Option ThreadId := none
  providerGoalCreatedAt : Option Int := none
  providerUpdatedAt : Option Int := none
  providerStatus : Option GoalRunStatus := none
  providerGoalAbsent : Bool := false
  providerStopPending : Bool := false
  providerOwnedTurnIds : List TurnId := []
  objective : String
  objectiveRevision : Nat := 0
  pendingImageCount : Nat := 0
  pendingImageFingerprint : String := ""
  status : GoalRunStatus := .active
  tokenUsage : Option Int := none
  usageQuality : GoalUsageQuality := .unavailable
  dispatchState : GoalDispatchState := .idle
  pendingStepId : Option TurnId := none
  currentTurnId : Option TurnId := none
  checkpoint : Option GoalCheckpoint := none
  checkpointWarning : Option String := none
  statusMessage : Option String := none
  resumeAfterTurn : Bool := false
  createdAt : Time
  updatedAt : Time
  pausedAt : Option Time := none
  completedAt : Option Time := none
  idempotency : Dict String GoalReceipt := Table.empty
  deriving DecidableEq

namespace NativeGoalRun

abbrev terminal (goal : NativeGoalRun) : Bool := goal.status.terminal

def unfinished (goal : NativeGoalRun) : Prop := goal.status.terminal = false

instance (goal : NativeGoalRun) : Decidable goal.unfinished := inferInstanceAs (Decidable (_ = _))

def receipt (goal : NativeGoalRun) (requestId : String) : Option GoalReceipt :=
  goal.idempotency.lookup requestId

def withReceipt (goal : NativeGoalRun) (requestId : String) (receipt : GoalReceipt) :
    NativeGoalRun :=
  { goal with idempotency := goal.idempotency.set requestId receipt }

def stamped (goal : NativeGoalRun) (now : Time) : NativeGoalRun := { goal with updatedAt := now }

def ownTurn (goal : NativeGoalRun) (turnId : TurnId) : NativeGoalRun :=
  let owned := goal.providerOwnedTurnIds
  let kept :=
    if turnId ∈ owned then owned
    else (owned ++ [turnId]).drop ((owned ++ [turnId]).length - goalRecentTurnIdsLimit)
  { goal with providerOwnedTurnIds := kept, currentTurnId := some turnId }

theorem receipt_withReceipt (goal : NativeGoalRun) (requestId other : String)
    (receipt : GoalReceipt) :
    (goal.withReceipt requestId receipt).receipt other =
      if other = requestId then some receipt else goal.receipt other :=
  Dict.lookup_set _ _ _ _

end NativeGoalRun

/-- The request ids of `_create_requests`: a client's, or the digest of the generation that
an adopted Goal starts and of the record before it. -/
inductive CreateKey
  | client (requestId : String)
  | generation (tabId : TabId) (threadId : ThreadId) (createdAt : Int) (previous : Option GoalId)
  deriving DecidableEq, Repr

structure NativeGoalStore where
  goals : Table NativeGoalRun.id := Table.empty
  createRequests : Dict CreateKey GoalId := Table.empty
  createInputs : Dict CreateKey CreateInput := Table.empty
  deriving DecidableEq

namespace NativeGoalStore

def forTab (store : NativeGoalStore) (tabId : TabId) : List NativeGoalRun :=
  store.goals.rows.filter fun goal => goal.tabId = tabId

@[simp] theorem mem_forTab {store : NativeGoalStore} {tabId : TabId} {goal : NativeGoalRun} :
    goal ∈ store.forTab tabId ↔ goal ∈ store.goals.rows ∧ goal.tabId = tabId := by
  simp [forTab]

def withGoal (store : NativeGoalStore) (goal : NativeGoalRun) : NativeGoalStore :=
  { store with goals := store.goals.insert goal }

def withCreated (store : NativeGoalStore) (goal : NativeGoalRun) (key : CreateKey)
    (input : CreateInput) : NativeGoalStore where
  goals := store.goals.insert goal
  createRequests := store.createRequests.set key goal.id
  createInputs := store.createInputs.set key input

/-- `max(candidates, key=created_at)`, which keeps the first of two equals. -/
def latestForTab (store : NativeGoalStore) (tabId : TabId) : Option NativeGoalRun :=
  (store.forTab tabId).argmax NativeGoalRun.createdAt

def currentForTab (store : NativeGoalStore) (tabId : TabId) : Option NativeGoalRun :=
  match store.latestForTab tabId with
  | none => none
  | some current =>
    if current.status = .cancelled ∧ current.dispatchState = .idle then none else some current

def inputOf (store : NativeGoalStore) (key : CreateKey) (prior : NativeGoalRun) : CreateInput :=
  (store.createInputs.lookup key).getD ⟨prior.tabId, prior.objective, none⟩

variable {store : NativeGoalStore} {tabId : TabId} {goal : NativeGoalRun}

theorem latestForTab_mem (h : store.latestForTab tabId = some goal) :
    goal ∈ store.goals.rows ∧ goal.tabId = tabId :=
  mem_forTab.1 (List.argmax_mem h)

theorem latestForTab_le {other : NativeGoalRun} (h : store.latestForTab tabId = some goal)
    (hmem : other ∈ store.goals.rows) (htab : other.tabId = tabId) :
    other.createdAt ≤ goal.createdAt := by
  have hother : other ∈ store.forTab tabId := mem_forTab.2 ⟨hmem, htab⟩
  exact List.le_of_mem_argmax hother h

theorem latestForTab_eq_none (h : store.latestForTab tabId = none) (hmem : goal ∈ store.goals.rows) :
    goal.tabId ≠ tabId := by
  intro htab
  have hnil : store.forTab tabId = [] := List.argmax_eq_none.mp h
  have hgoal : goal ∈ store.forTab tabId := mem_forTab.2 ⟨hmem, htab⟩
  rw [hnil] at hgoal
  exact absurd hgoal List.not_mem_nil

end NativeGoalStore

end ClaudeHub
