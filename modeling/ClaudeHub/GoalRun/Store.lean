import Mathlib.Data.List.MinMax
import ClaudeHub.GoalRun.Records

/-! # The snapshot store of the Goals

Every write replaces the whole file before it returns, and where the save raises the
memory is put back: the file always holds what the memory holds, so a restart loads the
memory that the crash left.
-/

namespace ClaudeHub

inductive GoalError
  | policy (detail : String)
  | value (detail : String)
  /-- `KeyError` -/
  | missing (goal : GoalId)
  | save
  | callback (text : String)
  | cancelled
  deriving DecidableEq, Repr

def GoalError.text : GoalError → String
  | .policy detail | .value detail | .callback detail => detail
  | .missing goal => "\"goal '" ++ goal ++ "' not found\""
  | .save => "the snapshot could not be saved"
  | .cancelled => ""

structure CreateInput where
  tabId : TabId
  objective : String
  images : Option String := none
  deriving DecidableEq, Repr

structure GoalRunStore where
  goals : GoalTable := Table.empty
  createRequests : Dict String GoalId := Table.empty
  createInputs : Dict String CreateInput := Table.empty
  deriving DecidableEq

namespace GoalRunStore

def hasGoalHistory (store : GoalRunStore) (tabId : TabId) : Bool :=
  store.goals.rows.any fun goal => goal.tabId = tabId

def forTab (store : GoalRunStore) (tabId : TabId) : List GoalRun :=
  store.goals.rows.filter fun goal => goal.tabId = tabId

def currentForTab (store : GoalRunStore) (tabId : TabId) : Option GoalRun :=
  match (store.forTab tabId).argmax GoalRun.createdAt with
  | none => none
  | some current =>
    if current.status = .cancelled ∧ current.dispatchState = .idle then none else some current

def replayCreate (store : GoalRunStore) (tabId : TabId) (request : GoalRunCreate) :
    Except GoalError (Option GoalRun) :=
  match store.createRequests.lookup request.clientRequestId with
  | none => .ok none
  | some priorId =>
    match store.goals.get? priorId with
    | none => .error (.missing priorId)
    | some prior =>
      let original := (store.createInputs.lookup request.clientRequestId).getD
        ⟨prior.tabId, prior.objective, none⟩
      let supplied : CreateInput := ⟨tabId, request.objective, truthy request.imageFingerprint⟩
      if original ≠ supplied then
        .error (.value "client_request_id was already used for another create")
      else .ok (some prior)

/-- A goal that keeps its tab from starting another. -/
def occupies (tabId : TabId) (goal : GoalRun) : Prop :=
  goal.tabId = tabId ∧ (goal.unfinished ∨ goal.dispatchState ≠ .idle)

instance (tabId : TabId) (goal : GoalRun) : Decidable (occupies tabId goal) :=
  inferInstanceAs (Decidable (_ ∧ _))

def create (store : GoalRunStore) (goal : GoalRun) (request : GoalRunCreate) (saved : Bool) :
    Except GoalError (GoalRunStore × GoalRun) :=
  match store.replayCreate goal.tabId request with
  | .error error => .error error
  | .ok (some prior) => .ok (store, prior)
  | .ok none =>
    if ∃ existing ∈ store.goals.rows, occupies goal.tabId existing then
      .error (.value "tab already has an unfinished goal")
    else if saved then
      .ok ({ goals := store.goals.insert goal
             createRequests := store.createRequests.set request.clientRequestId goal.id
             createInputs := store.createInputs.set request.clientRequestId
               ⟨goal.tabId, goal.objective, truthy goal.pendingImageFingerprint⟩ }, goal)
    else .error .save

@[simp] theorem mem_forTab {store : GoalRunStore} {tabId : TabId} {goal : GoalRun} :
    goal ∈ store.forTab tabId ↔ goal ∈ store.goals.rows ∧ goal.tabId = tabId := by
  simp [forTab]

theorem replayCreate_mem {store : GoalRunStore} {tabId : TabId} {request : GoalRunCreate}
    {prior : GoalRun} (h : store.replayCreate tabId request = .ok (some prior)) :
    prior ∈ store.goals.rows := by
  unfold replayCreate at h
  cases hid : store.createRequests.lookup request.clientRequestId with
  | none => simp [hid] at h
  | some priorId =>
    cases hget : store.goals.get? priorId with
    | none => simp [hid, hget] at h
    | some goal =>
      simp only [hid, hget] at h
      split at h
      · simp at h
      · obtain rfl : goal = prior := by simpa using h
        exact (Table.get?_eq_some.mp hget).1

/-- What a create leaves: the goal of an exact replay and an unchanged store, or the new
goal in a tab that no goal occupies. -/
theorem create_spec {store after : GoalRunStore} {goal stored : GoalRun}
    {request : GoalRunCreate} {saved : Bool}
    (h : store.create goal request saved = .ok (after, stored)) :
    (after = store ∧ stored ∈ store.goals.rows) ∨
      (stored = goal ∧ after.goals = store.goals.insert goal ∧
        ∀ existing ∈ store.goals.rows, existing.tabId = goal.tabId →
          existing.status.terminal = true ∧ existing.dispatchState = .idle) := by
  unfold create at h
  cases hreplay : store.replayCreate goal.tabId request with
  | error => simp [hreplay] at h
  | ok prior =>
    rw [hreplay] at h
    cases prior with
    | some prior =>
      obtain ⟨rfl, rfl⟩ : store = after ∧ prior = stored := by simpa using h
      exact .inl ⟨rfl, replayCreate_mem hreplay⟩
    | none =>
      by_cases hbusy : ∃ existing ∈ store.goals.rows, occupies goal.tabId existing
      · simp [hbusy] at h
      · cases saved with
        | false => simp [hbusy] at h
        | true =>
          simp only [hbusy, if_false, if_true, Except.ok.injEq, Prod.mk.injEq] at h
          obtain ⟨rfl, rfl⟩ := h
          refine .inr ⟨rfl, rfl, fun existing hmem htab => ?_⟩
          have hfree : ¬ occupies goal.tabId existing := fun ho => hbusy ⟨_, hmem, ho⟩
          have hfree' : ¬ (existing.unfinished ∨ existing.dispatchState ≠ .idle) :=
            fun ho => hfree ⟨htab, ho⟩
          rw [not_or] at hfree'
          exact ⟨by simpa [GoalRun.unfinished] using hfree'.1, by simpa using hfree'.2⟩

end GoalRunStore

end ClaudeHub
