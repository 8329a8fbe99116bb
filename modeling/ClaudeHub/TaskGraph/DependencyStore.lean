import ClaudeHub.Lib.Runs
import ClaudeHub.TaskGraph.Dependencies
import ClaudeHub.TaskGraph.Tree

/-! # Prerequisites over runs of the task operations

Creations and edits check the prerequisites that they write, and deletions refuse tasks
that others wait for. An edit that moves a task to review goes on after its commit: it takes
the task, waits for a reviewer, and writes back the task that it took.
-/

namespace ClaudeHub.TaskGraph

open Relation StepSystem

inductive SaveEnd
  | saved
  | failed (replaced : Bool)
  deriving DecidableEq, Repr

def SaveEnd.written : SaveEnd → Bool
  | saved => true
  | failed replaced => replaced

/-- `_save_task_edit_state`: after an error the file is read back, if it can be. -/
def editOutcome (save : SaveEnd) (readable : Bool) : EditOutcome :=
  match save, readable with
  | .saved, _ => .committed
  | .failed _, false => .unknown
  | .failed true, true => .committed
  | .failed false, true => .uncommitted

/-- What an edit says about prerequisites and status, and whether it has other fields that only a
task to do may change. -/
structure DependencyEdit where
  dependsOnTaskIds : Option (List TaskId) := none
  status : Option WorkspaceTaskStatus := none
  todoOnly : Bool := false
  deriving DecidableEq

inductive DependencyEditError
  | onlyTodo
  | dependency (error : DependencyError)
  | unsatisfied
  deriving DecidableEq, Repr

/-- The part of `_prepare_task_edit` that reads or writes prerequisites and status. -/
def prepareTaskEdit (tasks : DependencyTable) (task : DependencyTask) (edit : DependencyEdit) :
    Option (Except DependencyEditError DependencyTask) :=
  if (edit.todoOnly || edit.dependsOnTaskIds.isSome) && task.status ≠ .todo then
    some (.error .onlyTodo)
  else
    let dependencies : Option (Except DependencyEditError (List TaskId)) :=
      match edit.dependsOnTaskIds with
      | none => some (.ok task.dependsOnTaskIds)
      | some ids => (validateTaskDependencies tasks task.workspaceId task.id ids).map
          fun result => result.mapError .dependency
    dependencies.map fun result => result.bind fun ids =>
      let edited := { task with dependsOnTaskIds := ids }
      if (edit.status = some .queued ∨ edit.status = some .working) ∧ task.status ≠ .working ∧
          dependenciesDone tasks edited = false then .error .unsatisfied
      else .ok { edited with status := edit.status.getD task.status }

/-- The tasks in memory, the state file of each workspace, the ids ever created with their
workspaces, the edits that are to request a review, and the tasks that requests have taken. -/
structure DependencyStore where
  tasks : DependencyTable := Table.empty
  files : WorkspaceId → DependencyTable := fun _ => Table.empty
  created : Dict TaskId WorkspaceId := .empty
  requests : List TaskId := []
  reviewing : List DependencyTask := []

/-- `admitted` is the outcome of the checks that do not read prerequisites. -/
inductive DependencyOp
  | createTask (workspaceId : WorkspaceId) (id : Uuid) (ids : List TaskId) (admitted : Bool)
      (save : SaveEnd)
  /-- The transaction does not yield. The review is requested for a task with a worker and without
  an active reviewer. -/
  | updateTask (taskId : TaskId) (edit : DependencyEdit) (admitted : Bool) (save : SaveEnd)
      (readable requestsReview : Bool)
  | deleteTask (taskId : TaskId) (admitted : Bool) (save : SaveEnd)
  | beginReview (taskId : TaskId)
  | finishReview (task : DependencyTask) (save : SaveEnd)
  | dropReview (task : DependencyTask)

namespace DependencyStore

def tasksOf (tasks : DependencyTable) (workspaceId : WorkspaceId) : DependencyTable :=
  tasks.filter fun task => task.workspaceId = workspaceId

/-- `_save_workspace_state` -/
def saveWorkspace (store : DependencyStore) (tasks : DependencyTable) (workspaceId : WorkspaceId)
    (save : SaveEnd) : WorkspaceId → DependencyTable := fun other =>
  if other = workspaceId ∧ save.written then tasksOf tasks workspaceId else store.files other

/-- `_save_state` -/
def saveAll (store : DependencyStore) (tasks : DependencyTable) (save : SaveEnd) :
    WorkspaceId → DependencyTable := fun workspaceId =>
  if save.written then tasksOf tasks workspaceId else store.files workspaceId

def create (store : DependencyStore) (task : DependencyTask) (save : SaveEnd) : DependencyStore :=
  let tasks := store.tasks.insert task
  { store with
    tasks := tasks
    files := store.saveWorkspace tasks task.workspaceId save
    created := store.created.set task.id task.workspaceId }

/-- The candidate is put in the place of the task, saved, and taken back when the file is still the
old one. -/
def commitEdit (store : DependencyStore) (edited : DependencyTask) (save : SaveEnd)
    (outcome : EditOutcome) : DependencyStore :=
  let tasks := store.tasks.insert edited
  { store with
    tasks := if outcome = .uncommitted then store.tasks else tasks
    files := store.saveWorkspace tasks edited.workspaceId save }

def update (store : DependencyStore) (edited : DependencyTask) (edit : DependencyEdit)
    (save : SaveEnd) (readable requestsReview : Bool) : DependencyStore :=
  let outcome := editOutcome save readable
  let next := store.commitEdit edited save outcome
  if outcome = .committed ∧ edit.status = some .review ∧ requestsReview then
    { next with requests := edited.id :: next.requests }
  else next

def delete (store : DependencyStore) (task : DependencyTask) (save : SaveEnd) : DependencyStore :=
  let tasks := store.tasks.erase task.id
  { store with
    tasks := if save = .saved then tasks else store.tasks
    files := store.saveWorkspace tasks task.workspaceId save }

/-- `_request_task_review_workspace_report` writes the task that it took before it waited. -/
def writeReview (store : DependencyStore) (task : DependencyTask) (save : SaveEnd) :
    DependencyStore :=
  let tasks := store.tasks.insert { task with status := .review }
  { store with
    tasks := tasks
    files := store.saveAll tasks save
    reviewing := store.reviewing.erase task }

def step (store : DependencyStore) : DependencyOp → Option DependencyStore
  | .createTask workspaceId id ids admitted save =>
    if (store.created.lookup id.text).isSome then none
    else if !admitted then some store
    else
      (validateTaskDependencies store.tasks workspaceId id.text ids).map fun result =>
        match result with
        | .error _ => store
        | .ok kept => store.create ⟨id.text, workspaceId, .todo, kept⟩ save
  | .updateTask taskId edit admitted save readable requestsReview =>
    match store.tasks.get? taskId with
    | none => some store
    | some task =>
      if !admitted then some store
      else
        (prepareTaskEdit store.tasks task edit).map fun result =>
          match result with
          | .error _ => store
          | .ok edited => store.update edited edit save readable requestsReview
  | .deleteTask taskId admitted save =>
    match store.tasks.get? taskId with
    | none => some store
    | some task =>
      if !admitted || store.tasks.rows.any fun item => taskId ∈ item.dependsOnTaskIds then
        some store
      else some (store.delete task save)
  | .beginReview taskId =>
    if taskId ∉ store.requests then none
    else
      let requests := store.requests.erase taskId
      match store.tasks.get? taskId with
      | none => some { store with requests := requests }
      | some task =>
        some { store with requests := requests, reviewing := task :: store.reviewing }
  | .finishReview task save =>
    if task ∉ store.reviewing then none else some (store.writeReview task save)
  | .dropReview task =>
    if task ∉ store.reviewing then none
    else some { store with reviewing := store.reviewing.erase task }

/-- The task that a review request writes back is in memory with the prerequisites that it had. -/
def undisturbed (store : DependencyStore) : DependencyOp → Prop
  | .finishReview task _ => ∃ current, store.tasks.get? task.id = some current ∧
      current.dependsOnTaskIds = task.dependsOnTaskIds
  | _ => True

instance (store : DependencyStore) (op : DependencyOp) : Decidable (store.undisturbed op) := by
  unfold undisturbed
  split <;> infer_instance

end DependencyStore

/-! ## Prerequisites of a workspace -/

def DependsIn (tasks : DependencyTable) (workspaceId : WorkspaceId) (id dependency : TaskId) :
    Prop :=
  ∃ task, tasks.get? id = some task ∧ task.workspaceId = workspaceId ∧
    dependency ∈ task.dependsOnTaskIds

/-- Every prerequisite is a task of the workspace, and no task waits for itself. -/
structure DependenciesOk (tasks : DependencyTable) (workspaceId : WorkspaceId) : Prop where
  present : ∀ {id dependency}, DependsIn tasks workspaceId id dependency →
    ∃ row, tasks.get? dependency = some row ∧ row.workspaceId = workspaceId
  acyclic : ∀ id, ¬ TransGen (DependsIn tasks workspaceId) id id

section Tables

variable {tasks tasks' : DependencyTable} {workspaceId : WorkspaceId} {task : DependencyTask}
  {taskId : TaskId}

theorem DependenciesOk.congr (h : DependenciesOk tasks workspaceId)
    (hrows : ∀ id row, row.workspaceId = workspaceId →
      (tasks'.get? id = some row ↔ tasks.get? id = some row)) :
    DependenciesOk tasks' workspaceId := by
  have hsame : DependsIn tasks' workspaceId = DependsIn tasks workspaceId := by
    funext id dependency
    apply propext
    unfold DependsIn
    refine exists_congr fun row => ?_
    constructor
    · rintro ⟨hget, hws, hmem⟩
      exact ⟨(hrows id row hws).mp hget, hws, hmem⟩
    · rintro ⟨hget, hws, hmem⟩
      exact ⟨(hrows id row hws).mpr hget, hws, hmem⟩
  constructor
  · intro id dependency hdepends
    rw [hsame] at hdepends
    obtain ⟨row, hrow, hws⟩ := h.present hdepends
    exact ⟨row, (hrows dependency row hws).mpr hrow, hws⟩
  · rw [hsame]
    exact h.acyclic

theorem DependenciesOk.tasksOf (h : DependenciesOk tasks workspaceId) :
    DependenciesOk (DependencyStore.tasksOf tasks workspaceId) workspaceId := by
  refine h.congr fun id row hws => ?_
  rw [Table.get?_eq_some, Table.get?_eq_some, DependencyStore.tasksOf, Table.mem_filter]
  simp [hws]

theorem DependenciesOk.empty : DependenciesOk Table.empty workspaceId := by
  constructor
  · rintro id dependency ⟨row, hrow, -⟩
    simp at hrow
  · intro id hcycle
    obtain ⟨_, ⟨row, hrow, -⟩, -⟩ := TransGen.head'_iff.mp hcycle
    simp at hrow

theorem DependenciesOk.insert (h : DependenciesOk tasks workspaceId)
    (hknown : ∀ old, tasks.get? task.id = some old → old.workspaceId = task.workspaceId)
    (hadmissible : task.workspaceId = workspaceId →
      Admissible tasks workspaceId task.id task.dependsOnTaskIds) :
    DependenciesOk (tasks.insert task) workspaceId := by
  by_cases hws : task.workspaceId = workspaceId
  · have hadmissible := hadmissible hws
    have hself : (tasks.insert task).get? task.id = some task := Table.get?_insert_self tasks task
    have hold : ∀ {id dependency}, id ≠ task.id →
        DependsIn (tasks.insert task) workspaceId id dependency →
          DependsIn tasks workspaceId id dependency := by
      rintro id dependency hne ⟨row, hrow, hrest⟩
      rw [Table.get?_insert_ne _ hne] at hrow
      exact ⟨row, hrow, hrest⟩
    have hnew : ∀ {dependency}, DependsIn (tasks.insert task) workspaceId task.id dependency →
        dependency ∈ task.dependsOnTaskIds := by
      rintro dependency ⟨row, hrow, -, hmem⟩
      cases hself.symm.trans hrow
      exact hmem
    constructor
    · intro id dependency hdepends
      have hrow : ∃ row, tasks.get? dependency = some row ∧ row.workspaceId = workspaceId := by
        by_cases hid : id = task.id
        · subst hid
          exact (hadmissible dependency (hnew hdepends) dependency .refl).1
        · exact h.present (hold hid hdepends)
      obtain ⟨row, hrow, hin⟩ := hrow
      by_cases hdependency : dependency = task.id
      · exact ⟨task, hdependency ▸ hself, hws⟩
      · exact ⟨row, by rw [Table.get?_insert_ne _ hdependency, hrow], hin⟩
    · refine Acyclic.redirect h.acyclic hold ?_
      intro dependency hdepends hback
      refine (hadmissible dependency (hnew hdepends) dependency .refl).2.1 ?_
      refine ReflTransGen.mono (fun _ _ hstep => ?_) _ _ hback
      obtain ⟨row, hrow, -, hmem⟩ := hstep
      exact ⟨row, hrow, hmem⟩
  · refine h.congr fun id row hin => ?_
    rw [Table.get?_insert]
    split
    next hid =>
      constructor
      · intro hrow
        cases hrow
        exact absurd hin hws
      · intro hrow
        exact absurd ((hknown row (hid ▸ hrow)).symm.trans hin) hws
    next => exact Iff.rfl

theorem DependenciesOk.admissible (h : DependenciesOk tasks workspaceId)
    (hget : tasks.get? taskId = some task) (hws : task.workspaceId = workspaceId) :
    Admissible tasks workspaceId taskId task.dependsOnTaskIds := by
  intro id hid node hreached
  have hfirst : DependsIn tasks workspaceId taskId id := ⟨task, hget, hws, hid⟩
  have hinside : ∀ {a b}, (∃ row, tasks.get? a = some row ∧ row.workspaceId = workspaceId) →
      ReflTransGen (DependsOn tasks) a b → ReflTransGen (DependsIn tasks workspaceId) a b ∧
        ∃ row, tasks.get? b = some row ∧ row.workspaceId = workspaceId := by
    intro a b ha hpath
    induction hpath with
    | refl => exact ⟨.refl, ha⟩
    | tail _ hstep ih =>
      obtain ⟨hpath, row, hrow, hin⟩ := ih
      obtain ⟨other, hother, hmem⟩ := hstep
      cases hrow.symm.trans hother
      have hdepends : DependsIn tasks workspaceId _ _ := ⟨row, hrow, hin, hmem⟩
      exact ⟨hpath.tail hdepends, h.present hdepends⟩
  obtain ⟨hpath, hnode⟩ := hinside (h.present hfirst) hreached
  refine ⟨hnode, ?_, ?_⟩
  · intro hback
    exact h.acyclic taskId (TransGen.head' hfirst (hpath.trans (hinside hnode hback).1))
  · intro hcycle
    obtain ⟨other, hstep, hrest⟩ := TransGen.head'_iff.mp hcycle
    obtain ⟨row, hrow, hin⟩ := hnode
    have hdepends : DependsIn tasks workspaceId node other := by
      obtain ⟨found, hfound, hmem⟩ := hstep
      cases hrow.symm.trans hfound
      exact ⟨row, hrow, hin, hmem⟩
    have hback := (hinside (h.present hdepends) hrest).1
    exact h.acyclic node (TransGen.head' hdepends hback)

theorem DependenciesOk.erase (h : DependenciesOk tasks workspaceId)
    (hfree : ∀ item ∈ tasks.rows, taskId ∉ item.dependsOnTaskIds) :
    DependenciesOk (tasks.erase taskId) workspaceId := by
  have hold : ∀ {id dependency}, DependsIn (tasks.erase taskId) workspaceId id dependency →
      DependsIn tasks workspaceId id dependency := by
    rintro id dependency ⟨row, hrow, hrest⟩
    rw [Table.get?_erase] at hrow
    split at hrow
    · simp at hrow
    · exact ⟨row, hrow, hrest⟩
  constructor
  · intro id dependency hdepends
    obtain ⟨row, hrow, hin⟩ := h.present (hold hdepends)
    refine ⟨row, ?_, hin⟩
    obtain ⟨task, htask, -, hmem⟩ := hold hdepends
    have hne : dependency ≠ taskId := by
      rintro rfl
      exact hfree task (Table.get?_eq_some.mp htask).1 hmem
    rw [Table.get?_erase, if_neg hne]
    exact hrow
  · intro id hcycle
    exact h.acyclic id (TransGen.mono (fun _ _ => hold) _ _ hcycle)

theorem prepareTaskEdit_ok {edit : DependencyEdit} {edited : DependencyTask}
    (h : prepareTaskEdit tasks task edit = some (.ok edited)) :
    edited.id = task.id ∧ edited.workspaceId = task.workspaceId ∧
      (edited.dependsOnTaskIds = task.dependsOnTaskIds ∨
        Admissible tasks task.workspaceId task.id edited.dependsOnTaskIds) := by
  unfold prepareTaskEdit at h
  split at h
  · simp at h
  · obtain ⟨result, hresult, h⟩ := Option.map_eq_some_iff.mp h
    cases result with
    | error => simp [Except.bind] at h
    | ok ids =>
      simp only [Except.bind] at h
      split at h
      · simp at h
      · cases h
        refine ⟨rfl, rfl, ?_⟩
        cases hids : edit.dependsOnTaskIds with
        | none =>
          rw [hids] at hresult
          exact .inl (Except.ok.inj (Option.some.inj hresult)).symm
        | some given =>
          right
          simp only [hids] at hresult
          obtain ⟨outcome, houtcome, hiff, hfirst⟩ :=
            validateTaskDependencies_iff tasks task.workspaceId task.id given
          simp only [houtcome] at hresult
          cases outcome with
          | error => simp [Except.mapError] at hresult
          | ok kept =>
            have hsame : kept = ids := by simpa [Except.mapError] using hresult
            have hadmissible := hiff.mp ⟨kept, rfl⟩
            intro id hid
            exact hadmissible id (((hfirst kept rfl).mem id).mp (hsame ▸ hid))

end Tables

/-! ## Every state -/

namespace DependencyStore

/-- What holds of the store after each operation. -/
structure Inv (store : DependencyStore) : Prop where
  memory : ∀ workspaceId, DependenciesOk store.tasks workspaceId
  files : ∀ workspaceId, DependenciesOk (store.files workspaceId) workspaceId
  tasks : ∀ task ∈ store.tasks.rows, store.created.lookup task.id = some task.workspaceId
  reviewing : ∀ task ∈ store.reviewing, store.created.lookup task.id = some task.workspaceId

variable {store next : DependencyStore} {task edited : DependencyTask} {save : SaveEnd}
  {op : DependencyOp}

theorem Inv.empty : Inv {} where
  memory _ := .empty
  files _ := .empty
  tasks := by simp
  reviewing := by simp

theorem saveWorkspace_ok (hfiles : ∀ workspaceId, DependenciesOk (store.files workspaceId) workspaceId)
    {tasks : DependencyTable} (hmemory : ∀ workspaceId, DependenciesOk tasks workspaceId)
    (target workspaceId : WorkspaceId) :
    DependenciesOk (store.saveWorkspace tasks target save workspaceId) workspaceId := by
  unfold saveWorkspace
  split
  next hsame =>
    obtain ⟨rfl, -⟩ := hsame
    exact (hmemory workspaceId).tasksOf
  next => exact hfiles workspaceId

theorem saveAll_ok (hfiles : ∀ workspaceId, DependenciesOk (store.files workspaceId) workspaceId)
    {tasks : DependencyTable} (hmemory : ∀ workspaceId, DependenciesOk tasks workspaceId)
    (workspaceId : WorkspaceId) :
    DependenciesOk (store.saveAll tasks save workspaceId) workspaceId := by
  unfold saveAll
  split
  · exact (hmemory workspaceId).tasksOf
  · exact hfiles workspaceId

theorem Inv.workspaceId_eq (h : store.Inv) {old : DependencyTask}
    (hget : store.tasks.get? task.id = some old)
    (hcreated : store.created.lookup task.id = some task.workspaceId) :
    old.workspaceId = task.workspaceId := by
  obtain ⟨hmem, hid⟩ := Table.get?_eq_some.mp hget
  have hold := h.tasks old hmem
  rw [hid, hcreated] at hold
  exact (Option.some.inj hold).symm

theorem Inv.create (h : store.Inv) (hfresh : store.created.lookup task.id = none)
    (hadmissible : Admissible store.tasks task.workspaceId task.id task.dependsOnTaskIds) :
    (store.create task save).Inv := by
  have hother : ∀ {id workspaceId}, store.created.lookup id = some workspaceId →
      (store.created.set task.id task.workspaceId).lookup id = some workspaceId := by
    intro id workspaceId hlookup
    rw [Dict.lookup_set]
    split
    next hid =>
      rw [hid, hfresh] at hlookup
      simp at hlookup
    next => exact hlookup
  have hmemory : ∀ workspaceId, DependenciesOk (store.tasks.insert task) workspaceId := by
    intro workspaceId
    apply (h.memory workspaceId).insert
    · intro old hold
      have hknown := h.tasks old (Table.get?_eq_some.mp hold).1
      rw [Table.key_of_get? hold, hfresh] at hknown
      simp at hknown
    · rintro rfl
      exact hadmissible
  constructor
  · exact hmemory
  · exact saveWorkspace_ok h.files hmemory task.workspaceId
  · intro row hrow
    rcases Table.mem_insert.mp hrow with rfl | ⟨hrow, -⟩
    · exact (Dict.lookup_set _ _ _ _).trans (if_pos rfl)
    · exact hother (h.tasks row hrow)
  · exact fun row hrow => hother (h.reviewing row hrow)

theorem Inv.insert (h : store.Inv)
    (hcreated : store.created.lookup edited.id = some edited.workspaceId)
    (hadmissible : Admissible store.tasks edited.workspaceId edited.id edited.dependsOnTaskIds) :
    (∀ workspaceId, DependenciesOk (store.tasks.insert edited) workspaceId) ∧
      ∀ row ∈ (store.tasks.insert edited).rows,
        store.created.lookup row.id = some row.workspaceId := by
  constructor
  · intro workspaceId
    apply (h.memory workspaceId).insert
    · exact fun old hold => h.workspaceId_eq hold hcreated
    · rintro rfl
      exact hadmissible
  · intro row hrow
    rcases Table.mem_insert.mp hrow with rfl | ⟨hrow, -⟩
    · exact hcreated
    · exact h.tasks row hrow

theorem Inv.update (h : store.Inv) {edit : DependencyEdit} {readable requestsReview : Bool}
    (hcreated : store.created.lookup edited.id = some edited.workspaceId)
    (hadmissible : Admissible store.tasks edited.workspaceId edited.id edited.dependsOnTaskIds) :
    (store.update edited edit save readable requestsReview).Inv := by
  obtain ⟨hmemory, hrows⟩ := h.insert hcreated hadmissible
  have hcommit : (store.commitEdit edited save (editOutcome save readable)).Inv := by
    constructor
    · intro workspaceId
      simp only [commitEdit]
      split
      · exact h.memory workspaceId
      · exact hmemory workspaceId
    · exact saveWorkspace_ok h.files hmemory edited.workspaceId
    · intro row hrow
      simp only [commitEdit] at hrow
      split at hrow
      · exact h.tasks row hrow
      · exact hrows row hrow
    · exact h.reviewing
  unfold DependencyStore.update
  simp only
  split
  · exact { hcommit with }
  · exact hcommit

theorem Inv.delete (h : store.Inv)
    (hfree : ∀ item ∈ store.tasks.rows, task.id ∉ item.dependsOnTaskIds) :
    (store.delete task save).Inv := by
  have hmemory : ∀ workspaceId, DependenciesOk (store.tasks.erase task.id) workspaceId :=
    fun workspaceId => (h.memory workspaceId).erase hfree
  constructor
  · intro workspaceId
    simp only [DependencyStore.delete]
    split
    · exact hmemory workspaceId
    · exact h.memory workspaceId
  · exact saveWorkspace_ok h.files hmemory task.workspaceId
  · intro row hrow
    simp only [DependencyStore.delete] at hrow
    split at hrow
    · exact h.tasks row (Table.mem_erase.mp hrow).1
    · exact h.tasks row hrow
  · exact h.reviewing

theorem Inv.writeReview (h : store.Inv) (htask : task ∈ store.reviewing) {current : DependencyTask}
    (hcurrent : store.tasks.get? task.id = some current)
    (hsame : current.dependsOnTaskIds = task.dependsOnTaskIds) :
    (store.writeReview task save).Inv := by
  have hcreated := h.reviewing task htask
  have hws := h.workspaceId_eq hcurrent hcreated
  have hadmissible := (h.memory task.workspaceId).admissible hcurrent hws
  rw [hsame] at hadmissible
  obtain ⟨hmemory, hrows⟩ :=
    @Inv.insert store { task with status := .review } h hcreated hadmissible
  constructor
  · exact hmemory
  · exact saveAll_ok h.files hmemory
  · exact hrows
  · exact fun row hrow => h.reviewing row (List.mem_of_mem_erase hrow)

theorem Inv.step (h : store.Inv) (hundisturbed : store.undisturbed op)
    (hstep : store.step op = some next) : next.Inv := by
  cases op with
    simp only [DependencyStore.step] at hstep
  | createTask workspaceId id ids =>
    split at hstep
    · simp at hstep
    next hfresh =>
      split at hstep
      · exact Option.some.inj hstep ▸ h
      · obtain ⟨outcome, houtcome, hiff, hfirst⟩ :=
          validateTaskDependencies_iff store.tasks workspaceId id.text ids
        rw [houtcome] at hstep
        cases outcome with
        | error => exact Option.some.inj hstep ▸ h
        | ok kept =>
          cases hstep
          have hadmissible := hiff.mp ⟨kept, rfl⟩
          apply h.create
          · simpa using hfresh
          · exact fun item hitem => hadmissible item (((hfirst kept rfl).mem item).mp hitem)
  | updateTask =>
    split at hstep
    · exact Option.some.inj hstep ▸ h
    next task hget =>
      split at hstep
      · exact Option.some.inj hstep ▸ h
      · obtain ⟨result, hresult, hstep⟩ := Option.map_eq_some_iff.mp hstep
        cases result with
        | error => exact hstep ▸ h
        | ok =>
          obtain rfl := hstep
          obtain ⟨hid, hws, hkept⟩ := prepareTaskEdit_ok hresult
          obtain ⟨hmem, hkey⟩ := Table.get?_eq_some.mp hget
          apply h.update
          · rw [hid, hws]
            exact h.tasks task hmem
          · rw [hid, hws]
            rcases hkept with hkept | hkept
            · rw [hkept]
              exact (h.memory task.workspaceId).admissible (hkey ▸ hget) rfl
            · exact hkept
  | deleteTask =>
    split at hstep
    · exact Option.some.inj hstep ▸ h
    next task hget =>
      split at hstep
      · exact Option.some.inj hstep ▸ h
      next hfree =>
        cases hstep
        obtain rfl := Table.key_of_get? hget
        apply h.delete
        intro item hitem hmem
        simp only [Bool.or_eq_true, List.any_eq_true, decide_eq_true_eq, not_or, not_exists,
          not_and] at hfree
        exact hfree.2 item hitem hmem
  | beginReview =>
    split at hstep
    · simp at hstep
    · split at hstep
      · cases hstep
        exact { h with }
      next task hget =>
        cases hstep
        refine ⟨h.memory, h.files, h.tasks, ?_⟩
        intro row hrow
        rcases List.mem_cons.mp hrow with rfl | hrow
        · exact h.tasks row (Table.get?_eq_some.mp hget).1
        · exact h.reviewing row hrow
  | finishReview =>
    split at hstep
    · simp at hstep
    next htask =>
      cases hstep
      obtain ⟨current, hcurrent, hsame⟩ := hundisturbed
      exact h.writeReview (not_not.mp htask) hcurrent hsame
  | dropReview =>
    split at hstep
    · simp at hstep
    · cases hstep
      exact ⟨h.memory, h.files, h.tasks, fun row hrow =>
        h.reviewing row (List.mem_of_mem_erase hrow)⟩

end DependencyStore

/-- The check accepts exactly the admissible ids. Where a review request writes back the
prerequisites that its task has, no relation has a cycle or a dangling id, in memory or in the file.
-/
theorem task_prerequisites_acyclic (tasks : DependencyTable) (workspaceId : String)
    (taskId : TaskId) (dependencyIds : List TaskId) :
    (∃ outcome, validateTaskDependencies tasks workspaceId taskId dependencyIds = some outcome ∧
      ((∃ kept, outcome = .ok kept) ↔ Admissible tasks workspaceId taskId dependencyIds) ∧
        ∀ kept, outcome = .ok kept → FirstOccurrences dependencyIds kept) ∧
    ∀ ops store, Run DependencyStore.step DependencyStore.undisturbed {} ops store →
      ∀ workspaceId, DependenciesOk store.tasks workspaceId ∧
        DependenciesOk (store.files workspaceId) workspaceId := by
  refine ⟨validateTaskDependencies_iff tasks workspaceId taskId dependencyIds, fun ops store hrun workspaceId => ?_⟩
  have hinv : store.Inv := hrun.invariant .empty fun s op t hs hok hstep => hs.step hok hstep
  exact ⟨hinv.memory workspaceId, hinv.files workspaceId⟩

private def prerequisiteId : Uuid := ⟨"d1", by decide, by decide⟩

private def dependentId : Uuid := ⟨"t1", by decide, by decide⟩

private def takenTask : DependencyTask := ⟨"t1", "w1", .review, ["d1"]⟩

private def reviewedOps : List DependencyOp :=
  [.createTask "w1" prerequisiteId [] true .saved,
    .createTask "w1" dependentId ["d1", "d1"] true .saved,
    .updateTask "t1" { status := some .review } true .saved true true,
    .beginReview "t1"]

theorem task_prerequisites_acyclic_reviewed :
    ∃ store, Run DependencyStore.step DependencyStore.undisturbed {}
        (reviewedOps ++ [.finishReview takenTask .saved]) store ∧
      DependsIn store.tasks "w1" "t1" "d1" ∧ DependenciesOk store.tasks "w1" ∧
        DependenciesOk (store.files "w1") "w1" := by
  have hany : (execOk DependencyStore.step DependencyStore.undisturbed {}
      (reviewedOps ++ [.finishReview takenTask .saved])).any
        (fun store => store.tasks.get? "t1" = some takenTask) = true := by decide +kernel
  obtain ⟨store, hexec, hget⟩ := (Option.any_eq_true _ _).mp hany
  have hrun := Run.of_execOk hexec
  obtain ⟨hmemory, hfile⟩ := (task_prerequisites_acyclic .empty "w1" "t1" []).2 _ store hrun "w1"
  exact ⟨store, hrun, ⟨takenTask, by simpa using hget, rfl, by decide⟩, hmemory, hfile⟩

/-- While a review request waits for its reviewer the task and then its prerequisite are deleted;
the request brings the task back. -/
theorem task_prerequisites_revived : ∃ ops store,
    exec DependencyStore.step {} ops = some store ∧ ¬ DependenciesOk store.tasks "w1" := by
  have hany : (exec DependencyStore.step {} (reviewedOps ++
      [.deleteTask "t1" true .saved, .deleteTask "d1" true .saved,
        .finishReview takenTask .saved])).any (fun store =>
      store.tasks.get? "t1" = some takenTask ∧ store.tasks.get? "d1" = none) = true := by
    decide +kernel
  obtain ⟨store, hexec, hstore⟩ := (Option.any_eq_true _ _).mp hany
  obtain ⟨htask, hgone⟩ := of_decide_eq_true hstore
  refine ⟨_, store, hexec, fun h => ?_⟩
  have hdepends : DependsIn store.tasks "w1" "t1" "d1" := ⟨takenTask, htask, rfl, by decide⟩
  obtain ⟨row, hrow, -⟩ := h.present hdepends
  simp [hgone] at hrow

end ClaudeHub.TaskGraph
