import ClaudeHub.Lib.DepthFirst
import ClaudeHub.Lib.Table
import ClaudeHub.Models.Enums

/-! # Task prerequisites

A task names the tasks that it waits for. The ids given for a task are searched depth
first with an explicit stack, and are accepted when all that they lead to is in the
workspace, does not lead back to the task and is not on a cycle.
-/

namespace ClaudeHub.TaskGraph

open Relation DepthFirst

structure DependencyTask where
  id : TaskId
  workspaceId : String
  status : WorkspaceTaskStatus
  dependsOnTaskIds : List TaskId
  deriving DecidableEq

abbrev DependencyTable := Table DependencyTask.id

inductive DependencyError
  | cycle
  | notFound (id : TaskId)
  | otherWorkspace (id : TaskId)
  deriving DecidableEq, Repr

/-- `list(dict.fromkeys(ids))` -/
def dictKeys : List TaskId → List TaskId
  | [] => []
  | id :: ids => id :: (dictKeys ids).filter fun other => other ≠ id

variable (tasks : DependencyTable) (workspaceId : String)

def prerequisites (id : TaskId) : Except DependencyError (List TaskId) :=
  match tasks.get? id with
  | none => .error (.notFound id)
  | some task =>
    if task.workspaceId ≠ workspaceId then .error (.otherWorkspace id)
    else .ok task.dependsOnTaskIds

/-- Every task is entered once, with an entry for its end and one for each prerequisite. -/
def searchTurns (dependencies : List TaskId) : Nat :=
  dependencies.length + (tasks.rows.map fun task => task.dependsOnTaskIds.length + 1).sum

/-- Validate the reachable tasks and keep the order of the ids; nothing where the loop does not
end. -/
def validateTaskDependencies (taskId : TaskId) (dependencyIds : List TaskId) :
    Option (Except DependencyError (List TaskId)) :=
  let dependencies := dictKeys dependencyIds
  (search (prerequisites tasks workspaceId) .cycle (searchTurns tasks dependencies) [taskId] []
    (dependencies.map fun item => (item, false))).map fun result =>
      result.map fun _ => dependencies

inductive DependencyBlocker
  | damaged (error : DependencyError)
  | waiting (id : TaskId) (status : WorkspaceTaskStatus)
  deriving DecidableEq, Repr

def taskDependencyBlockers (task : DependencyTask) : Option (List DependencyBlocker) :=
  if task.dependsOnTaskIds = [] then some []
  else
    (validateTaskDependencies tasks task.workspaceId task.id task.dependsOnTaskIds).map
      fun result =>
        match result with
        | .error e => [.damaged e]
        | .ok _ => task.dependsOnTaskIds.filterMap fun id =>
          (tasks.get? id).bind fun row =>
            if row.status ≠ .done then some (.waiting id row.status) else none

/-- `require_task_dependencies` does not raise. -/
def dependenciesDone (task : DependencyTask) : Bool :=
  taskDependencyBlockers tasks task = some []

def DependsOn (id dependency : TaskId) : Prop :=
  ∃ task, tasks.get? id = some task ∧ dependency ∈ task.dependsOnTaskIds

/-- All that the ids lead to exists and is in the workspace, does not lead to the task, and is not
on a cycle. -/
def Admissible (taskId : TaskId) (ids : List TaskId) : Prop :=
  ∀ id ∈ ids, ∀ node, ReflTransGen (DependsOn tasks) id node →
    (∃ task, tasks.get? node = some task ∧ task.workspaceId = workspaceId) ∧
      ¬ ReflTransGen (DependsOn tasks) node taskId ∧ ¬ TransGen (DependsOn tasks) node node

/-- The elements of a list, each once and in the order in which they first occur. -/
structure FirstOccurrences (ids kept : List TaskId) : Prop where
  mem : ∀ id, id ∈ kept ↔ id ∈ ids
  order : kept.Pairwise fun earlier later => ids.idxOf earlier < ids.idxOf later

variable {tasks : DependencyTable} {workspaceId : String} {taskId : TaskId} {ids : List TaskId}

theorem dictKeys_first (ids : List TaskId) : FirstOccurrences ids (dictKeys ids) := by
  induction ids with
  | nil => exact ⟨fun id => by simp [dictKeys], .nil⟩
  | cons id ids ih =>
    constructor
    · intro other
      by_cases hsame : other = id
      · simp [dictKeys, hsame]
      · simp [dictKeys, hsame, ih.mem]
    · unfold dictKeys
      refine List.pairwise_cons.mpr ⟨?_, ?_⟩
      · intro other hother
        have hne : other ≠ id := by simpa using (List.mem_filter.mp hother).2
        rw [List.idxOf_cons_self, List.idxOf_cons_ne _ hne.symm]
        omega
      · refine (ih.order.filter _).imp_of_mem ?_
        intro earlier later hearlier hlater hlt
        have hne : earlier ≠ id := by simpa using (List.mem_filter.mp hearlier).2
        have hne' : later ≠ id := by simpa using (List.mem_filter.mp hlater).2
        rw [List.idxOf_cons_ne _ hne.symm, List.idxOf_cons_ne _ hne'.symm]
        omega

theorem prerequisites_ok_iff {id : TaskId} {next : List TaskId} :
    prerequisites tasks workspaceId id = .ok next ↔
      ∃ task, tasks.get? id = some task ∧ task.workspaceId = workspaceId ∧
        task.dependsOnTaskIds = next := by
  unfold prerequisites
  cases tasks.get? id with
  | none => simp
  | some task =>
    by_cases hws : task.workspaceId = workspaceId
    · simp [hws]
    · simp [hws]

theorem leads_iff {id dependency : TaskId} :
    Leads (prerequisites tasks workspaceId) id dependency ↔
      ∃ task, tasks.get? id = some task ∧ task.workspaceId = workspaceId ∧
        dependency ∈ task.dependsOnTaskIds := by
  unfold Leads
  simp only [prerequisites_ok_iff]
  constructor
  · rintro ⟨next, ⟨task, hget, hws, rfl⟩, hmem⟩
    exact ⟨task, hget, hws, hmem⟩
  · rintro ⟨task, hget, hws, hmem⟩
    exact ⟨_, ⟨task, hget, hws, rfl⟩, hmem⟩

theorem followed {root node dependency : TaskId}
    (h : Sound (prerequisites tasks workspaceId) taskId ids) (hroot : root ∈ ids)
    (hreached : ReflTransGen (Leads (prerequisites tasks workspaceId)) root node)
    (hpath : ReflTransGen (DependsOn tasks) node dependency) :
    ReflTransGen (Leads (prerequisites tasks workspaceId)) node dependency := by
  induction hpath with
  | refl => exact .refl
  | tail _ hstep ih =>
    obtain ⟨next, hnext⟩ := (h root hroot _ (hreached.trans ih)).1
    obtain ⟨task, hget, hws, -⟩ := prerequisites_ok_iff.1 hnext
    obtain ⟨row, hrow, hmem⟩ := hstep
    obtain rfl := Option.some.inj (hget.symm.trans hrow)
    exact ih.tail (leads_iff.2 ⟨task, hget, hws, hmem⟩)

theorem dependsOn_of_leads {id dependency : TaskId}
    (h : Leads (prerequisites tasks workspaceId) id dependency) : DependsOn tasks id dependency := by
  obtain ⟨task, hget, -, hmem⟩ := leads_iff.1 h
  exact ⟨task, hget, hmem⟩

theorem sound_iff :
    Sound (prerequisites tasks workspaceId) taskId ids ↔
      Admissible tasks workspaceId taskId ids := by
  constructor
  · intro h root hroot node hreached
    have hfollowed := followed h hroot .refl hreached
    obtain ⟨⟨next, hnext⟩, hback, hcycle⟩ := h root hroot node hfollowed
    obtain ⟨task, hget, hws, -⟩ := prerequisites_ok_iff.1 hnext
    refine ⟨⟨task, hget, hws⟩, fun hpath => hback (followed h hroot hfollowed hpath), ?_⟩
    intro hpath
    obtain ⟨other, hstep, hrest⟩ := TransGen.head'_iff.mp hpath
    have hfirst := followed h hroot hfollowed (.single hstep)
    have hlast := followed h hroot (hfollowed.trans hfirst) hrest
    obtain ⟨row, hrow, hmem⟩ := hstep
    obtain rfl := Option.some.inj (hget.symm.trans hrow)
    exact hcycle (TransGen.head' (leads_iff.2 ⟨task, hget, hws, hmem⟩) hlast)
  · intro h root hroot node hreached
    have hpath : ReflTransGen (DependsOn tasks) root node :=
      ReflTransGen.mono (fun _ _ => dependsOn_of_leads) _ _ hreached
    obtain ⟨⟨task, hget, hws⟩, hback, hcycle⟩ := h root hroot node hpath
    refine ⟨⟨_, prerequisites_ok_iff.2 ⟨task, hget, hws, rfl⟩⟩, ?_, ?_⟩
    · exact fun hleads => hback (ReflTransGen.mono (fun _ _ => dependsOn_of_leads) _ _ hleads)
    · exact fun hleads => hcycle (TransGen.mono (fun _ _ => dependsOn_of_leads) _ _ hleads)

theorem work_le_turns (dependencies : List TaskId) :
    work (prerequisites tasks workspaceId) (tasks.rows.map DependencyTask.id) []
      (dependencies.map fun item => (item, false)) ≤ searchTurns tasks dependencies := by
  unfold work searchTurns
  rw [List.map_map, List.length_map]
  apply Nat.add_le_add_left
  apply List.sum_le_sum
  intro task hmem
  have hget : tasks.get? task.id = some task := Table.get?_eq_some.mpr ⟨hmem, rfl⟩
  simp only [Function.comp_apply, List.not_mem_nil, if_false, weight, prerequisites, hget]
  split
  next next hnext =>
    split at hnext
    · simp at hnext
    · rw [← Except.ok.inj hnext]
  next => omega

theorem validateTaskDependencies_iff (tasks : DependencyTable) (workspaceId : String)
    (taskId : TaskId) (dependencyIds : List TaskId) :
    ∃ outcome, validateTaskDependencies tasks workspaceId taskId dependencyIds = some outcome ∧
      ((∃ kept, outcome = .ok kept) ↔ Admissible tasks workspaceId taskId dependencyIds) ∧
      ∀ kept, outcome = .ok kept → FirstOccurrences dependencyIds kept := by
  have hnodes : ∀ {node next}, prerequisites tasks workspaceId node = .ok next →
      node ∈ tasks.rows.map DependencyTask.id := by
    intro node next hnext
    obtain ⟨task, hget, -, -⟩ := prerequisites_ok_iff.1 hnext
    obtain ⟨hmem, rfl⟩ := Table.get?_eq_some.mp hget
    exact List.mem_map_of_mem hmem
  obtain ⟨result, hresult, hsound⟩ :=
    @search_iff _ _ (prerequisites tasks workspaceId) .cycle taskId _ (dictKeys dependencyIds) _
      hnodes (searchTurns tasks (dictKeys dependencyIds)) (work_le_turns _)
  have hsame : Admissible tasks workspaceId taskId (dictKeys dependencyIds) ↔
      Admissible tasks workspaceId taskId dependencyIds := by
    simp only [Admissible, (dictKeys_first dependencyIds).mem]
  refine ⟨_, by rw [validateTaskDependencies, hresult]; rfl, ?_, ?_⟩
  · rw [← hsame, ← sound_iff, ← hsound]
    cases result with
    | error => simp [Except.map]
    | ok => simp [Except.map]
  · intro kept hkept
    cases result with
    | error => simp [Except.map] at hkept
    | ok =>
      rw [← Except.ok.inj hkept]
      exact dictKeys_first dependencyIds

theorem dependenciesDone_iff {task : DependencyTask} : dependenciesDone tasks task = true ↔
    Admissible tasks task.workspaceId task.id task.dependsOnTaskIds ∧
      ∀ id ∈ task.dependsOnTaskIds, ∃ row, tasks.get? id = some row ∧ row.status = .done := by
  unfold dependenciesDone taskDependencyBlockers
  split
  next hempty => simp [hempty, Admissible]
  next =>
    obtain ⟨outcome, houtcome, hiff, -⟩ :=
      validateTaskDependencies_iff tasks task.workspaceId task.id task.dependsOnTaskIds
    rw [houtcome, ← hiff]
    cases outcome with
    | error => simp
    | ok kept =>
      have hadmissible := hiff.mp ⟨kept, rfl⟩
      simp only [Option.map_some, Option.some.injEq, List.filterMap_eq_nil_iff,
        decide_eq_true_eq, Except.ok.injEq, exists_eq', true_and]
      refine forall_congr' fun id => forall_congr' fun hmem => ?_
      obtain ⟨row, hrow, -⟩ := (hadmissible id hmem id .refl).1
      simp [hrow]

end ClaudeHub.TaskGraph
