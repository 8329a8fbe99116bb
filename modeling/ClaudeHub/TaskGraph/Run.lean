import ClaudeHub.Lib.Runs
import ClaudeHub.TaskGraph.Moves

/-! # The task tree over whole runs

Creations, edits with their rollback and deletions in any order, in any number of
workspaces. Every workspace keeps a tree whose paths agree with its parents, so
that the queries by path answer about parents.
-/

namespace ClaudeHub.TaskGraph

open StepSystem

namespace TaskStore

/-- Every workspace is a tree, in memory and in the rollback state of its open edit, and
every id belongs to the workspace in which it was created. -/
structure Ok (store : TaskStore) : Prop where
  trees : ∀ workspaceId, TreeOk store.tasks workspaceId
  created : ∀ task ∈ store.tasks.rows, store.created.lookup task.id = some task.workspaceId
  clean : ∀ id workspaceId, store.created.lookup id = some workspaceId → '/' ∉ id.toList
  snapshots : ∀ workspaceId snapshot, store.editing.lookup workspaceId = some snapshot →
    TreeOk snapshot workspaceId ∧ ∀ task ∈ snapshot.rows,
      task.workspaceId = workspaceId ∧ store.created.lookup task.id = some workspaceId

variable {store next : TaskStore} {workspaceId : WorkspaceId}

theorem Ok.slashless (h : store.Ok) : Slashless store.tasks := fun task htask =>
  h.clean task.id task.workspaceId (h.created task htask)

theorem ok_init : Ok {} where
  trees := fun _ => ⟨by simp⟩
  created := by simp
  clean := by simp
  snapshots := by simp

theorem treeOk_tasksOf {tasks : GraphTable} (h : TreeOk tasks workspaceId) :
    TreeOk (tasksOf tasks workspaceId) workspaceId :=
  h.congr fun task hws => by simp [tasksOf, hws]

variable {snapshot : GraphTable}

theorem mem_restoreWorkspace {tasks : GraphTable} {task : GraphTask}
    (h : task ∈ (restoreWorkspace tasks workspaceId snapshot).rows) :
    task ∈ snapshot.rows ∨ (task ∈ tasks.rows ∧ task.workspaceId ≠ workspaceId) := by
  have hget := Table.get?_eq_some.mpr ⟨h, rfl⟩
  rw [restoreWorkspace, Table.get?_update] at hget
  rcases Option.or_eq_some_iff.mp hget with hsnap | ⟨-, hold⟩
  · exact .inl (Table.get?_eq_some.mp hsnap).1
  · right
    simpa using (Table.get?_eq_some.mp hold).1

theorem mem_restoreWorkspace_iff {tasks : GraphTable} {task : GraphTask}
    (hapart : ∀ row ∈ snapshot.rows, ∀ other ∈ tasks.rows, other.id = row.id →
        other.workspaceId = workspaceId) :
    task ∈ (restoreWorkspace tasks workspaceId snapshot).rows ↔
      task ∈ snapshot.rows ∨ (task ∈ tasks.rows ∧ task.workspaceId ≠ workspaceId) := by
  refine ⟨mem_restoreWorkspace, fun h => ?_⟩
  suffices hget : (restoreWorkspace tasks workspaceId snapshot).get? task.id = some task from
    (Table.get?_eq_some.mp hget).1
  rw [restoreWorkspace, Table.get?_update]
  rcases h with hmem | ⟨hmem, hws⟩
  · rw [Table.get?_eq_some.mpr ⟨hmem, rfl⟩]
    rfl
  · have hnone : snapshot.get? task.id = none :=
      Table.get?_eq_none.mpr fun row hrow heq => hws (hapart row hrow task hmem heq.symm)
    have hkept : (tasks.filter fun row => row.workspaceId ≠ workspaceId).get? task.id = some task :=
      Table.get?_eq_some.mpr ⟨by simpa using ⟨hmem, hws⟩, rfl⟩
    rw [hnone, hkept]
    rfl

theorem treeOk_restoreWorkspace {tasks : GraphTable}
    (htrees : ∀ other, other ≠ workspaceId → TreeOk tasks other)
    (hsnapshot : TreeOk snapshot workspaceId)
    (hsnap : ∀ row ∈ snapshot.rows, row.workspaceId = workspaceId)
    (hapart : ∀ row ∈ snapshot.rows, ∀ other ∈ tasks.rows, other.id = row.id →
        other.workspaceId = workspaceId)
    (other : WorkspaceId) :
    TreeOk (restoreWorkspace tasks workspaceId snapshot) other := by
  by_cases hother : other = workspaceId
  · subst hother
    refine hsnapshot.congr fun task hws => ?_
    rw [mem_restoreWorkspace_iff hapart]
    simp [hws]
  · refine (htrees other hother).congr fun task hws => ?_
    rw [mem_restoreWorkspace_iff hapart]
    constructor
    · rintro (hmem | ⟨hmem, -⟩)
      · exact absurd (hws.symm.trans (hsnap task hmem)) hother
      · exact hmem
    · exact fun hmem => .inr ⟨hmem, hws ▸ hother⟩

/-! ## Each operation -/

theorem Ok.createTask (h : store.Ok) {id : Uuid} {parent : Option TaskId}
    (hnew : store.created.lookup id.text = none)
    (hcreate : store.createTask workspaceId id parent = .ok next) : next.Ok := by
  obtain ⟨fields, hfields, rfl⟩ := Except.map_ok_iff.mp hcreate
  have hfresh : store.tasks.get? id.text = none := by
    refine Table.get?_eq_none.mpr fun task htask heq => ?_
    have := h.created task htask
    rw [show task.id = id.text from heq, hnew] at this
    simp at this
  refine ⟨fun other => ?_, fun task htask => ?_, fun other ws hlookup => ?_, ?_⟩
  · refine (h.trees other).insert hfresh rfl rfl rfl fun hws => ?_
    obtain rfl : workspaceId = other := hws
    exact resolveTaskTreeFields_ok (h.trees workspaceId) hfields
  · rw [Dict.lookup_set]
    rcases Table.mem_insert.mp htask with rfl | ⟨hold, hne⟩
    · simp
    · rw [if_neg hne]
      exact h.created task hold
  · rw [Dict.lookup_set] at hlookup
    split at hlookup
    · next heq => exact heq ▸ id.noSlash
    · exact h.clean other ws hlookup
  · intro ws snapshot hlookup
    obtain ⟨htree, hrows⟩ := h.snapshots ws snapshot hlookup
    refine ⟨htree, fun task htask => ?_⟩
    obtain ⟨hws, hcreated⟩ := hrows task htask
    refine ⟨hws, ?_⟩
    rw [Dict.lookup_set, if_neg]
    · exact hcreated
    · intro heq
      rw [heq, hnew] at hcreated
      simp at hcreated

theorem Ok.stage (h : store.Ok) {tasks : GraphTable} (htrees : ∀ other, TreeOk tasks other)
    (hrows : ∀ task ∈ tasks.rows, ∃ before ∈ store.tasks.rows, before.id = task.id ∧
      before.workspaceId = task.workspaceId) :
    Ok { store with
      tasks := tasks
      editing := store.editing.set workspaceId (tasksOf store.tasks workspaceId) } := by
  refine ⟨htrees, fun task htask => ?_, h.clean, fun ws snapshot hlookup => ?_⟩
  · obtain ⟨before, hbefore, hid, hws⟩ := hrows task htask
    rw [← hid, ← hws]
    exact h.created before hbefore
  · rw [Dict.lookup_set] at hlookup
    split at hlookup
    · next heq =>
        cases hlookup
        obtain rfl := heq
        refine ⟨treeOk_tasksOf (h.trees ws), fun task htask => ?_⟩
        obtain ⟨hmem, hws⟩ := Table.mem_filter.mp htask
        obtain rfl : task.workspaceId = ws := of_decide_eq_true hws
        exact ⟨rfl, h.created task hmem⟩
    · exact h.snapshots ws snapshot hlookup

theorem Ok.stageUpdate (h : store.Ok) {taskId : TaskId} {parent : Option TaskId}
    (hstage : store.stageUpdate taskId parent = .ok next) : next.Ok := by
  unfold TaskStore.stageUpdate at hstage
  split at hstage
  · simp at hstage
  · next task hget =>
      obtain ⟨tasks, htasks, rfl⟩ := Except.map_ok_iff.mp hstage
      have hmem := (Table.get?_eq_some.mp hget).1
      cases parent with
      | none =>
        cases htasks
        exact h.stage h.trees fun row hrow => ⟨row, hrow, rfl, rfl⟩
      | some =>
        obtain ⟨staged, hstaged, rfl⟩ := Except.map_ok_iff.mp htasks
        obtain ⟨old, above, hok⟩ :=
          reparentTask_ok (h.trees task.workspaceId) h.slashless hmem hstaged
        refine h.stage (fun other => ?_) fun row hrow => ?_
        · by_cases hother : other = task.workspaceId
          · subst hother
            exact hok.treeOk
          · exact hok.treeOk_other hother (h.trees other)
        · obtain ⟨before, hbefore, rfl⟩ := List.mem_map.mp hrow
          exact ⟨before, hbefore, (staged.apply_id before).symm,
            (staged.apply_workspaceId before).symm⟩

theorem Ok.apart (h : store.Ok)
    (hrows : ∀ task ∈ snapshot.rows, store.created.lookup task.id = some workspaceId) :
    ∀ row ∈ snapshot.rows, ∀ other ∈ store.tasks.rows, other.id = row.id →
      other.workspaceId = workspaceId := by
  intro row hrow other hother heq
  have hcreated := h.created other hother
  rw [heq, hrows row hrow] at hcreated
  exact (Option.some.inj hcreated).symm

theorem Ok.restored (h : store.Ok) {tasks : GraphTable}
    (hsub : ∀ task ∈ tasks.rows, task ∈ store.tasks.rows)
    (htrees : ∀ other, other ≠ workspaceId → TreeOk tasks other)
    (hsnapshot : TreeOk snapshot workspaceId ∧ ∀ task ∈ snapshot.rows,
        task.workspaceId = workspaceId ∧ store.created.lookup task.id = some workspaceId) :
    (∀ other, TreeOk (restoreWorkspace tasks workspaceId snapshot) other) ∧
      ∀ task ∈ (restoreWorkspace tasks workspaceId snapshot).rows,
        store.created.lookup task.id = some task.workspaceId := by
  obtain ⟨htree, hrows⟩ := hsnapshot
  have hapart := h.apart fun task htask => (hrows task htask).2
  refine ⟨treeOk_restoreWorkspace htrees htree (fun row hrow => (hrows row hrow).1)
    fun row hrow other hother => hapart row hrow other (hsub other hother), fun task htask => ?_⟩
  rcases mem_restoreWorkspace htask with hsnap | ⟨hold, -⟩
  · obtain ⟨hws, hcreated⟩ := hrows task hsnap
    rw [hws]
    exact hcreated
  · exact h.created task (hsub task hold)

theorem Ok.finishUpdate (h : store.Ok) (hlookup : store.editing.lookup workspaceId = some snapshot)
    (outcome : EditOutcome) :
    (store.finishUpdate workspaceId snapshot outcome).Ok := by
  have hediting : ∀ ws other, Dict.lookup (Table.erase store.editing workspaceId) ws = some other →
      store.editing.lookup ws = some other := by
    intro ws other hother
    rw [Dict.lookup_erase] at hother
    split at hother
    · simp at hother
    · exact hother
  have hsnapshots := fun ws other hother => h.snapshots ws other (hediting ws other hother)
  have hrestored := h.restored (fun _ htask => htask) (fun other _ => h.trees other)
    (h.snapshots workspaceId snapshot hlookup)
  cases outcome with
  | committed => exact ⟨h.trees, h.created, h.clean, hsnapshots⟩
  | unknown => exact ⟨h.trees, h.created, h.clean, hsnapshots⟩
  | uncommitted => exact ⟨hrestored.1, hrestored.2, h.clean, hsnapshots⟩

theorem Ok.deleteTask (h : store.Ok) {task : GraphTask} (hmem : task ∈ store.tasks.rows)
    (hleaf : taskHasDescendants store.tasks task.workspaceId task = false) (saved : Bool) :
    (store.deleteTask task saved).Ok := by
  have htrees : ∀ other, TreeOk (store.tasks.erase task.id) other := by
    intro ws
    refine (h.trees ws).erase fun other hother hws hne hreaches => ?_
    obtain ⟨ids, hchain, -, -⟩ := (h.trees ws).chains other hother hws
    obtain ⟨row, -, -, hget, hrow, -⟩ := hchain.split (hchain.reaches_iff.mp hreaches)
    cases (Table.get?_eq_some.mpr ⟨hmem, rfl⟩).symm.trans hget
    have htrue := ((h.trees task.workspaceId).taskHasDescendants_iff h.slashless hmem rfl).mpr
      ⟨other, hother, hws.trans hrow.symm, hne, hreaches⟩
    rw [hleaf] at htrue
    simp at htrue
  have hsub : ∀ row ∈ (store.tasks.erase task.id).rows, row ∈ store.tasks.rows :=
    fun row hrow => (Table.mem_erase.mp hrow).1
  cases saved with
  | true => exact ⟨htrees, fun row hrow => h.created row (hsub row hrow), h.clean, h.snapshots⟩
  | false =>
    have hsnapshot : TreeOk (tasksOf store.tasks task.workspaceId) task.workspaceId ∧
        ∀ row ∈ (tasksOf store.tasks task.workspaceId).rows,
          row.workspaceId = task.workspaceId ∧
            store.created.lookup row.id = some task.workspaceId := by
      refine ⟨treeOk_tasksOf (h.trees _), fun row hrow => ?_⟩
      obtain ⟨hold, hws⟩ := Table.mem_filter.mp hrow
      have hws : row.workspaceId = task.workspaceId := of_decide_eq_true hws
      exact ⟨hws, hws ▸ h.created row hold⟩
    have hrestored := h.restored hsub (fun other _ => htrees other) hsnapshot
    exact ⟨hrestored.1, hrestored.2, h.clean, h.snapshots⟩

theorem Ok.step {op : TaskOp} (h : store.Ok) (hstep : store.step op = some next) : next.Ok := by
  cases op with
  | createTask =>
    simp only [TaskStore.step] at hstep
    split at hstep
    · simp at hstep
    · next hnew =>
        split at hstep
        · cases hstep
          exact h
        · split at hstep
          · cases hstep
            exact h
          · next created hcreate =>
              cases hstep
              exact h.createTask (Option.not_isSome_iff_eq_none.mp hnew) hcreate
  | beginUpdate =>
    simp only [TaskStore.step] at hstep
    split at hstep
    · cases hstep
      exact h
    · split at hstep
      · simp at hstep
      · split at hstep
        · cases hstep
          exact h
        · split at hstep
          · cases hstep
            exact h
          · next staged hstage =>
              cases hstep
              exact h.stageUpdate hstage
  | finishUpdate workspaceId outcome =>
    obtain ⟨snapshot, hlookup, rfl⟩ := Option.map_eq_some_iff.mp hstep
    exact h.finishUpdate hlookup outcome
  | deleteTask taskId admitted saved =>
    simp only [TaskStore.step] at hstep
    split at hstep
    · cases hstep
      exact h
    · next task hget =>
        split at hstep
        · cases hstep
          exact h
        · next hallowed =>
            cases hstep
            refine h.deleteTask (Table.get?_eq_some.mp hget).1 ?_ saved
            simp only [Bool.or_eq_true, not_or, Bool.not_eq_true] at hallowed
            exact hallowed.2

/-- The two views of the tree agree, and a refused reparenting changes nothing. -/
structure Agrees (store : TaskStore) : Prop where
  /-- Following parents stays inside the workspace and ends at the root of the record; the
  path is the joined list of the ids on the way. -/
  chains : ∀ task ∈ store.tasks.rows, ∃ ids,
    ParentChain store.tasks task.workspaceId task.id ids ∧ task.path = slashPath ids ∧
      ids.head? = some task.rootTaskId
  subtree : ∀ root ∈ store.tasks.rows, ∀ task,
    task ∈ tasksInSubtree store.tasks root.workspaceId root ↔
      task ∈ store.tasks.rows ∧ Reaches store.tasks task.id root.id
  descendants : ∀ task ∈ store.tasks.rows,
    taskHasDescendants store.tasks task.workspaceId task = true ↔
      ∃ other ∈ store.tasks.rows, other.id ≠ task.id ∧ Reaches store.tasks other.id task.id
  rejected : ∀ taskId parent task error next, store.tasks.get? taskId = some task →
    reparentTask store.tasks task (truthy (some parent)) = .error error →
      store.step (.beginUpdate taskId (some parent) true) = some next → next = store

theorem Ok.workspaceId_of_reaches (h : store.Ok) {task root : GraphTask}
    (htask : task ∈ store.tasks.rows) (hroot : root ∈ store.tasks.rows)
    (hreaches : Reaches store.tasks task.id root.id) : task.workspaceId = root.workspaceId := by
  obtain ⟨ids, hchain, -, -⟩ := (h.trees task.workspaceId).chains task htask rfl
  obtain ⟨row, -, -, hget, hws, -⟩ := hchain.split (hchain.reaches_iff.mp hreaches)
  cases (Table.get?_eq_some.mpr ⟨hroot, rfl⟩).symm.trans hget
  exact hws.symm

theorem Ok.agrees (h : store.Ok) : store.Agrees where
  chains := fun task htask => (h.trees task.workspaceId).chains task htask rfl
  subtree := by
    intro root hroot task
    rw [(h.trees root.workspaceId).mem_tasksInSubtree h.slashless hroot rfl]
    constructor
    · rintro ⟨htask, -, hreaches⟩
      exact ⟨htask, hreaches⟩
    · rintro ⟨htask, hreaches⟩
      exact ⟨htask, h.workspaceId_of_reaches htask hroot hreaches, hreaches⟩
  descendants := by
    intro task htask
    rw [(h.trees task.workspaceId).taskHasDescendants_iff h.slashless htask rfl]
    constructor
    · rintro ⟨other, hother, -, hne, hreaches⟩
      exact ⟨other, hother, hne, hreaches⟩
    · rintro ⟨other, hother, hne, hreaches⟩
      exact ⟨other, hother, h.workspaceId_of_reaches hother htask hreaches, hne, hreaches⟩
  rejected := by
    intro taskId parent task error next hget hrejected hstep
    simp only [TaskStore.step, hget, TaskStore.stageUpdate, hrejected, Except.map] at hstep
    split at hstep
    · simp at hstep
    · simpa using hstep.symm

end TaskStore

/-- In every reachable store the task tree agrees with its materialized paths. -/
theorem task_tree_agrees {ops : List TaskOp} {finish : TaskStore}
    (hexec : exec TaskStore.step {} ops = some finish) : finish.Agrees :=
  TaskStore.Ok.agrees ((Run.of_exec hexec).invariant TaskStore.ok_init
    fun _ _ _ hok _ hstep => hok.step hstep)

private def rootId : Uuid := ⟨"root", by decide, by decide⟩

private def childId : Uuid := ⟨"child", by decide, by decide⟩

private def grandchildId : Uuid := ⟨"grandchild", by decide, by decide⟩

private def otherRootId : Uuid := ⟨"other", by decide, by decide⟩

/-- A child with a descendant moves below another root, and a second move is rolled back. -/
theorem task_tree_agrees_moved :
    ∃ finish, exec TaskStore.step {}
        [.createTask "w" rootId none true, .createTask "w" childId (some "root") true,
          .createTask "w" grandchildId (some "child") true, .createTask "w" otherRootId none true,
          .beginUpdate "child" (some "other") true, .finishUpdate "w" .committed,
          .deleteTask "other" true true, .beginUpdate "grandchild" (some "") true,
          .finishUpdate "w" .uncommitted] = some finish ∧ finish.Agrees := by
  obtain ⟨finish, hexec⟩ := Option.isSome_iff_exists.mp
    (by decide +kernel : (exec TaskStore.step {}
      [.createTask "w" rootId none true, .createTask "w" childId (some "root") true,
        .createTask "w" grandchildId (some "child") true, .createTask "w" otherRootId none true,
        .beginUpdate "child" (some "other") true, .finishUpdate "w" .committed,
        .deleteTask "other" true true, .beginUpdate "grandchild" (some "") true,
        .finishUpdate "w" .uncommitted]).isSome)
  exact ⟨finish, hexec, task_tree_agrees hexec⟩

end ClaudeHub.TaskGraph
