import ClaudeHub.Lib.Except
import ClaudeHub.Lib.Separated
import ClaudeHub.Models.Records

/-! # The task graph helpers on materialized paths

A task names its parent, and carries its root and the path from the root as a
slash-joined text. Parents are validated by walking up; the queries and the
reparenting of descendants read the paths.
-/

namespace ClaudeHub.TaskGraph

abbrev WorkspaceId := String

/-- The fields of a task that place it in the graph. The path is its characters. -/
structure GraphTask where
  id : TaskId
  workspaceId : WorkspaceId
  parentTaskId : Option TaskId
  rootTaskId : TaskId
  path : List Char
  deriving DecidableEq

abbrev GraphTable := Table GraphTask.id

inductive TreeError
  | ownParent
  | unknownTask (id : TaskId)
  | otherWorkspace
  | cycle (child : TaskId)
  deriving DecidableEq

/-- `"/".join(ids)`. -/
def slashPath (ids : List TaskId) : List Char := Separated.joinWith '/' (ids.map String.toList)

/-- The loop of `validate_parent_task`. Every turn adds a task to `seen`, so one turn more
than there are tasks is enough. -/
def walkParents (tasks : GraphTable) (workspaceId : WorkspaceId) (child : TaskId) :
    Nat → List TaskId → Option TaskId → Except TreeError Unit
  | _, _, none => .ok ()
  | 0, _, some _ => .error (.cycle child)
  | fuel + 1, seen, some nodeId =>
    if nodeId ∈ seen then .error (.cycle child)
    else
      match tasks.get? nodeId with
      | none => .error (.unknownTask nodeId)
      | some node =>
        if node.workspaceId ≠ workspaceId then .error .otherWorkspace
        else walkParents tasks workspaceId child fuel (nodeId :: seen) node.parentTaskId

def validateParentTask (tasks : GraphTable) (workspaceId : WorkspaceId) (childId : TaskId)
    (parentTaskId : Option TaskId) : Except TreeError Unit :=
  match parentTaskId with
  | none => .ok ()
  | some parentId =>
    if parentId = childId then .error .ownParent
    else
      match tasks.get? parentId with
      | none => .error (.unknownTask parentId)
      | some parent =>
        if parent.workspaceId ≠ workspaceId then .error .otherWorkspace
        else walkParents tasks workspaceId childId (tasks.rows.length + 1) [childId]
          (some parentId)

/-- The second loop of `resolve_task_tree_fields`: the parent, its parent, and so on. -/
def ancestors (tasks : GraphTable) : Nat → Option TaskId → Except TreeError (List TaskId)
  | _, none => .ok []
  | 0, some nodeId => .error (.unknownTask nodeId)
  | fuel + 1, some nodeId =>
    match tasks.get? nodeId with
    | none => .error (.unknownTask nodeId)
    | some node => (ancestors tasks fuel node.parentTaskId).map fun above => nodeId :: above

structure TreeFields where
  parentTaskId : Option TaskId
  rootTaskId : TaskId
  path : List Char
  deriving DecidableEq

def resolveTaskTreeFields (tasks : GraphTable) (workspaceId : WorkspaceId) (taskId : TaskId)
    (parentTaskId : Option TaskId) : Except TreeError TreeFields :=
  match truthy parentTaskId with
  | none => .ok ⟨none, taskId, taskId.toList⟩
  | some parentId => do
      validateParentTask tasks workspaceId taskId (some parentId)
      let above ← ancestors tasks (tasks.rows.length + 1) (some parentId)
      return ⟨some parentId, above.getLastD taskId, slashPath (above.reverse ++ [taskId])⟩

/-- `path.startswith(f"{root}/")`. -/
def isUnder (path root : List Char) : Bool := (root ++ ['/']).isPrefixOf path

def tasksInSubtree (tasks : GraphTable) (workspaceId : WorkspaceId) (root : GraphTask) :
    List GraphTask :=
  tasks.rows.filter fun task =>
    task.workspaceId = workspaceId && (task.id = root.id || isUnder task.path root.path)

def taskHasDescendants (tasks : GraphTable) (workspaceId : WorkspaceId) (task : GraphTask) :
    Bool :=
  tasks.rows.any fun other =>
    other.workspaceId = workspaceId && other.id ≠ task.id && isUnder other.path task.path

/-- The staged updates of a reparenting: the task's own fields, and the path and root of
every task whose path says that it is below. -/
structure StagedReparent where
  taskId : TaskId
  fields : TreeFields
  descendants : List (TaskId × List Char)
  deriving DecidableEq

def reparentTask (tasks : GraphTable) (task : GraphTask) (newParentId : Option TaskId) :
    Except TreeError StagedReparent :=
  (resolveTaskTreeFields tasks task.workspaceId task.id newParentId).map fun fields =>
    let oldPath := if task.path = [] then task.id.toList else task.path
    { taskId := task.id
      fields := fields
      descendants := (tasks.rows.filter fun other =>
          (other.id ≠ task.id && other.workspaceId = task.workspaceId) &&
            (other.path = oldPath || isUnder other.path oldPath)).map fun other =>
        (other.id, fields.path ++ other.path.drop oldPath.length) }

def StagedReparent.apply (staged : StagedReparent) (task : GraphTask) : GraphTask :=
  if task.id = staged.taskId then
    { task with
      parentTaskId := staged.fields.parentTaskId
      rootTaskId := staged.fields.rootTaskId
      path := staged.fields.path }
  else
    match staged.descendants.lookup task.id with
    | some path => { task with path := path, rootTaskId := staged.fields.rootTaskId }
    | none => task

theorem StagedReparent.apply_id (staged : StagedReparent) (task : GraphTask) :
    (staged.apply task).id = task.id := by
  unfold apply
  split
  · rfl
  · split <;> rfl

theorem StagedReparent.apply_workspaceId (staged : StagedReparent) (task : GraphTask) :
    (staged.apply task).workspaceId = task.workspaceId := by
  unfold apply
  split
  · rfl
  · split <;> rfl

def StagedReparent.applyAll (staged : StagedReparent) (tasks : GraphTable) : GraphTable :=
  tasks.map staged.apply staged.apply_id

/-- An id as `uuid4` prints it: not empty and without a slash. -/
structure Uuid where
  text : TaskId
  nonempty : text ≠ ""
  noSlash : '/' ∉ text.toList
  deriving DecidableEq

/-- How the save of an edit is classified after it raised, or that it did not raise. -/
inductive EditOutcome
  | committed
  | uncommitted
  | unknown
  deriving DecidableEq

/-- The tasks in memory, the ids ever created with their workspaces, and for each workspace
whose lock an edit holds the tasks it has put by for its rollback. -/
structure TaskStore where
  tasks : GraphTable := Table.empty
  created : Dict TaskId WorkspaceId := .empty
  editing : Dict WorkspaceId GraphTable := .empty

/-- `admitted` is the outcome of the checks that do not read the graph. -/
inductive TaskOp
  | createTask (workspaceId : WorkspaceId) (id : Uuid) (parent : Option TaskId) (admitted : Bool)
  /-- The edit up to its save: the lock is taken and the candidate is in memory. A parent that
  is absent is left alone, an empty one makes the task a root. -/
  | beginUpdate (taskId : TaskId) (parent : Option TaskId) (admitted : Bool)
  | finishUpdate (workspaceId : WorkspaceId) (outcome : EditOutcome)
  | deleteTask (taskId : TaskId) (admitted saved : Bool)

namespace TaskStore

def tasksOf (tasks : GraphTable) (workspaceId : WorkspaceId) : GraphTable :=
  tasks.filter fun task => task.workspaceId = workspaceId

def restoreWorkspace (tasks : GraphTable) (workspaceId : WorkspaceId) (snapshot : GraphTable) :
    GraphTable :=
  (tasks.filter fun task => task.workspaceId ≠ workspaceId).update snapshot

def createTask (store : TaskStore) (workspaceId : WorkspaceId) (id : Uuid)
    (parent : Option TaskId) : Except TreeError TaskStore :=
  (resolveTaskTreeFields store.tasks workspaceId id.text parent).map fun fields =>
    { store with
      tasks := store.tasks.insert
        ⟨id.text, workspaceId, fields.parentTaskId, fields.rootTaskId, fields.path⟩
      created := store.created.set id.text workspaceId }

def stageUpdate (store : TaskStore) (taskId : TaskId) (parent : Option TaskId) :
    Except TreeError TaskStore :=
  match store.tasks.get? taskId with
  | none => .error (.unknownTask taskId)
  | some task =>
    let staged : Except TreeError GraphTable :=
      match parent with
      | none => .ok store.tasks
      | some parent =>
        (reparentTask store.tasks task (truthy (some parent))).map fun staged =>
          staged.applyAll store.tasks
    staged.map fun tasks =>
      { store with
        tasks := tasks
        editing := store.editing.set task.workspaceId (tasksOf store.tasks task.workspaceId) }

def finishUpdate (store : TaskStore) (workspaceId : WorkspaceId) (snapshot : GraphTable)
    (outcome : EditOutcome) : TaskStore :=
  { store with
    editing := store.editing.erase workspaceId
    tasks :=
      match outcome with
      | .committed | .unknown => store.tasks
      | .uncommitted => restoreWorkspace store.tasks workspaceId snapshot }

def deleteTask (store : TaskStore) (task : GraphTask) (saved : Bool) : TaskStore :=
  let snapshot := tasksOf store.tasks task.workspaceId
  let tasks := store.tasks.erase task.id
  { store with
    tasks := if saved then tasks else restoreWorkspace tasks task.workspaceId snapshot }

/-- A refused operation leaves the store as it is. Edits of one workspace wait for each other;
creations and deletions do not take the lock, and may come between an edit and its save. -/
def step (store : TaskStore) : TaskOp → Option TaskStore
  | .createTask workspaceId id parent admitted =>
    if (store.created.lookup id.text).isSome then none
    else if !admitted then some store
    else
      match store.createTask workspaceId id parent with
      | .error _ => some store
      | .ok next => some next
  | .beginUpdate taskId parent admitted =>
    match store.tasks.get? taskId with
    | none => some store
    | some task =>
      if (store.editing.lookup task.workspaceId).isSome then none
      else if !admitted then some store
      else
        match store.stageUpdate taskId parent with
        | .error _ => some store
        | .ok next => some next
  | .finishUpdate workspaceId outcome =>
    (store.editing.lookup workspaceId).map fun snapshot =>
      store.finishUpdate workspaceId snapshot outcome
  | .deleteTask taskId admitted saved =>
    match store.tasks.get? taskId with
    | none => some store
    | some task =>
      if !admitted || taskHasDescendants store.tasks task.workspaceId task then some store
      else some (store.deleteTask task saved)

end TaskStore

end ClaudeHub.TaskGraph
