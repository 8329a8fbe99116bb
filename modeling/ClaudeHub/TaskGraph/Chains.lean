import Mathlib.Data.List.Perm.Subperm
import ClaudeHub.TaskGraph.Tree

/-! # Parent chains

The chain of a task is the list of ids from its root down to itself, found by
following parents. Materialized paths agree with chains when every path is the
slash-joined chain; then a path is under another exactly when its chain passes
through the other task.
-/

namespace ClaudeHub.TaskGraph

/-- Following parents from a task inside its workspace ends at a root; the ids, root first. -/
inductive ParentChain (tasks : GraphTable) (workspaceId : WorkspaceId) :
    TaskId → List TaskId → Prop
  | root {id : TaskId} {task : GraphTask} (hget : tasks.get? id = some task)
      (hworkspace : task.workspaceId = workspaceId) (hparent : task.parentTaskId = none) :
      ParentChain tasks workspaceId id [id]
  | child {id parent : TaskId} {task : GraphTask} {ids : List TaskId}
      (hget : tasks.get? id = some task) (hworkspace : task.workspaceId = workspaceId)
      (hparent : task.parentTaskId = some parent) (hchain : ParentChain tasks workspaceId parent ids) :
      ParentChain tasks workspaceId id (ids ++ [id])

/-- The parent chain of the first task reaches the second. -/
inductive Reaches (tasks : GraphTable) : TaskId → TaskId → Prop
  | self (id : TaskId) : Reaches tasks id id
  | parent {id parent target : TaskId} {task : GraphTask} (hget : tasks.get? id = some task)
      (hparent : task.parentTaskId = some parent) (hreaches : Reaches tasks parent target) :
      Reaches tasks id target

namespace ParentChain

variable {tasks tasks' : GraphTable} {workspaceId : WorkspaceId} {id : TaskId} {ids : List TaskId}

section

variable (h : ParentChain tasks workspaceId id ids)
include h

theorem ne_nil : ids ≠ [] := by
  cases h <;> simp

theorem last : ids.getLast? = some id := by
  cases h <;> simp

theorem self_mem : id ∈ ids :=
  List.mem_of_getLast? h.last

theorem unique {other : List TaskId} (h' : ParentChain tasks workspaceId id other) :
    ids = other := by
  induction h generalizing other with
  | root hget _ hparent =>
    cases h' with
    | root => rfl
    | child hget' _ hparent' =>
      cases hget.symm.trans hget'
      rw [hparent] at hparent'
      simp at hparent'
  | child hget _ hparent _ ih =>
    cases h' with
    | root hget' _ hparent' =>
      cases hget.symm.trans hget'
      rw [hparent] at hparent'
      simp at hparent'
    | child hget' _ hparent' hchain' =>
      cases hget.symm.trans hget'
      cases hparent.symm.trans hparent'
      rw [ih hchain']

theorem split {above : TaskId} (hmem : above ∈ ids) :
    ∃ task front back, tasks.get? above = some task ∧ task.workspaceId = workspaceId ∧
      ids = front ++ back ∧ ParentChain tasks workspaceId above front := by
  induction h with
  | @root id task hget hworkspace hparent =>
    obtain rfl := List.mem_singleton.mp hmem
    exact ⟨task, [above], [], hget, hworkspace, rfl, .root hget hworkspace hparent⟩
  | @child id parent task ids hget hworkspace hparent hchain ih =>
    rcases List.mem_append.mp hmem with hold | hlast
    · obtain ⟨found, front, back, hfound, hws, rfl, hfront⟩ := ih hold
      exact ⟨found, front, back ++ [id], hfound, hws, by simp, hfront⟩
    · obtain rfl := List.mem_singleton.mp hlast
      exact ⟨task, ids ++ [above], [], hget, hworkspace, by simp,
        .child hget hworkspace hparent hchain⟩

theorem nodup : ids.Nodup := by
  induction h with
  | root => simp
  | @child id parent task ids hget hworkspace hparent hchain ih =>
    refine List.nodup_append.mpr ⟨ih, by simp, ?_⟩
    rintro above habove last hlast rfl
    obtain rfl : above = id := by simpa using hlast
    obtain ⟨-, front, back, -, -, rfl, hfront⟩ := hchain.split habove
    have heq := hfront.unique (.child hget hworkspace hparent hchain)
    have hlen := congrArg List.length heq
    simp only [List.length_append, List.length_singleton] at hlen
    omega

theorem length_le : ids.length ≤ tasks.rows.length := by
  have hsub : ids ⊆ tasks.rows.map GraphTask.id := by
    intro above habove
    obtain ⟨task, -, -, hget, -⟩ := h.split habove
    obtain ⟨hmem, rfl⟩ := Table.get?_eq_some.mp hget
    exact List.mem_map_of_mem hmem
  simpa using (List.subperm_of_subset h.nodup hsub).length_le

theorem transfer
    (hsame : ∀ above ∈ ids, ∀ task, tasks.get? above = some task →
      ∃ task', tasks'.get? above = some task' ∧ task'.workspaceId = task.workspaceId ∧
        task'.parentTaskId = task.parentTaskId) : ParentChain tasks' workspaceId id ids := by
  induction h with
  | @root id task hget hworkspace hparent =>
    obtain ⟨task', hget', hws, hpar⟩ := hsame id (by simp) task hget
    exact .root hget' (hws.trans hworkspace) (hpar.trans hparent)
  | @child id parent task ids hget hworkspace hparent hchain ih =>
    obtain ⟨task', hget', hws, hpar⟩ := hsame id (by simp) task hget
    exact .child hget' (hws.trans hworkspace) (hpar.trans hparent)
      (ih fun above habove => hsame above (List.mem_append_left _ habove))

theorem reaches_iff {target : TaskId} : Reaches tasks id target ↔ target ∈ ids := by
  induction h with
  | root hget _ hparent =>
    constructor
    · intro hreaches
      cases hreaches with
      | self => simp
      | parent hget' hparent' =>
        cases hget.symm.trans hget'
        rw [hparent] at hparent'
        simp at hparent'
    · intro hmem
      obtain rfl := List.mem_singleton.mp hmem
      exact .self target
  | @child id parent task ids hget _ hparent _ ih =>
    rw [List.mem_append, List.mem_singleton]
    constructor
    · intro hreaches
      cases hreaches with
      | self => exact .inr rfl
      | parent hget' hparent' habove =>
        cases hget.symm.trans hget'
        cases hparent.symm.trans hparent'
        exact .inl (ih.mp habove)
    · rintro (hmem | rfl)
      · exact .parent hget hparent (ih.mpr hmem)
      · exact .self target

end

end ParentChain

/-- Each task of a workspace has a chain; its path is the joined chain and its root the
first id of it. -/
structure TreeOk (tasks : GraphTable) (workspaceId : WorkspaceId) : Prop where
  chains : ∀ task ∈ tasks.rows, task.workspaceId = workspaceId →
    ∃ ids, ParentChain tasks workspaceId task.id ids ∧ task.path = slashPath ids ∧
      ids.head? = some task.rootTaskId

def Slashless (tasks : GraphTable) : Prop := ∀ task ∈ tasks.rows, '/' ∉ task.id.toList

section Paths

variable {tasks : GraphTable} {workspaceId : WorkspaceId} {id other : TaskId}
  {ids more : List TaskId}

theorem toList_map_inj : Function.Injective (List.map String.toList) :=
  List.map_injective_iff.mpr fun _ _ h => String.toList_inj.mp h

section

variable (h : ParentChain tasks workspaceId id ids)
include h

theorem ParentChain.free (hclean : Slashless tasks) :
    Separated.Free '/' (ids.map String.toList) := by
  intro piece hpiece
  obtain ⟨above, habove, rfl⟩ := List.mem_map.mp hpiece
  obtain ⟨task, -, -, hget, -⟩ := h.split habove
  obtain ⟨hmem, rfl⟩ := Table.get?_eq_some.mp hget
  exact hclean task hmem

section

variable (h' : ParentChain tasks workspaceId other more)
include h'

theorem isUnder_slashPath_iff (hclean : Slashless tasks) :
    isUnder (slashPath more) (slashPath ids) = true ↔ ∃ rest, rest ≠ [] ∧ more = ids ++ rest := by
  unfold isUnder slashPath
  rw [List.isPrefixOf_iff_prefix]
  constructor
  · intro hprefix
    obtain ⟨rest, hne, heq⟩ := Separated.prefix_of_joinWith_prefix (h.free hclean)
      (h'.free hclean) (by simpa using h.ne_nil) hprefix
    obtain ⟨front, back, rfl, hfront, rfl⟩ := List.map_eq_append_iff.mp heq
    rw [toList_map_inj hfront]
    exact ⟨back, by simpa using hne, rfl⟩
  · rintro ⟨rest, hne, rfl⟩
    rw [List.map_append]
    exact Separated.joinWith_prefix_of_append (by simpa using h.ne_nil) (by simpa using hne)

theorem slashPath_inj (hclean : Slashless tasks) (heq : slashPath ids = slashPath more) :
    ids = more :=
  toList_map_inj (Separated.joinWith_inj (h.free hclean) (h'.free hclean)
    (by simpa using h.ne_nil) (by simpa using h'.ne_nil) heq)

theorem ParentChain.mem_iff_prefix : id ∈ more ↔ ∃ rest, more = ids ++ rest := by
  constructor
  · intro hmem
    obtain ⟨-, front, back, -, -, rfl, hfront⟩ := h'.split hmem
    exact ⟨back, by rw [hfront.unique h]⟩
  · rintro ⟨rest, rfl⟩
    exact List.mem_append_left _ h.self_mem

theorem isUnder_iff_mem (hclean : Slashless tasks) (hne : other ≠ id) :
    isUnder (slashPath more) (slashPath ids) = true ↔ id ∈ more := by
  rw [isUnder_slashPath_iff h h' hclean, h.mem_iff_prefix h']
  constructor
  · rintro ⟨rest, -, heq⟩
    exact ⟨rest, heq⟩
  · rintro ⟨rest, heq⟩
    refine ⟨rest, ?_, heq⟩
    rintro rfl
    rw [List.append_nil] at heq
    have hlast := h'.last
    rw [heq, h.last] at hlast
    exact hne (Option.some.inj hlast).symm

end

end

end Paths

section Queries

variable {tasks : GraphTable} {workspaceId : WorkspaceId} {root task : GraphTask}

/-- `tasks_in_subtree` returns the tasks whose parent chain reaches the root. -/
theorem TreeOk.mem_tasksInSubtree (h : TreeOk tasks workspaceId) (hclean : Slashless tasks)
    (hroot : root ∈ tasks.rows) (hroot' : root.workspaceId = workspaceId) :
    task ∈ tasksInSubtree tasks workspaceId root ↔
      task ∈ tasks.rows ∧ task.workspaceId = workspaceId ∧ Reaches tasks task.id root.id := by
  unfold tasksInSubtree
  rw [List.mem_filter]
  refine and_congr_right fun htask => ?_
  simp only [Bool.and_eq_true, Bool.or_eq_true, decide_eq_true_eq]
  refine and_congr_right fun hws => ?_
  obtain ⟨ids, hids, hpath, -⟩ := h.chains root hroot hroot'
  obtain ⟨more, hmore, hpath', -⟩ := h.chains task htask hws
  rw [hmore.reaches_iff, hpath, hpath']
  by_cases hid : task.id = root.id
  · simp only [hid, true_or, true_iff]
    exact hid ▸ hmore.self_mem
  · simp only [hid, false_or]
    exact isUnder_iff_mem hids hmore hclean hid

/-- `task_has_descendants` tells whether another task's parent chain reaches the task. -/
theorem TreeOk.taskHasDescendants_iff (h : TreeOk tasks workspaceId) (hclean : Slashless tasks)
    (hroot : root ∈ tasks.rows) (hroot' : root.workspaceId = workspaceId) :
    taskHasDescendants tasks workspaceId root = true ↔
      ∃ task ∈ tasks.rows, task.workspaceId = workspaceId ∧ task.id ≠ root.id ∧
        Reaches tasks task.id root.id := by
  unfold taskHasDescendants
  rw [List.any_eq_true]
  refine exists_congr fun task => and_congr_right fun htask => ?_
  simp only [Bool.and_eq_true, decide_eq_true_eq, and_assoc]
  refine and_congr_right fun hws => and_congr_right fun hid => ?_
  obtain ⟨ids, hids, hpath, -⟩ := h.chains root hroot hroot'
  obtain ⟨more, hmore, hpath', -⟩ := h.chains task htask hws
  rw [hmore.reaches_iff, hpath, hpath']
  exact isUnder_iff_mem hids hmore hclean hid

end Queries

end ClaudeHub.TaskGraph
