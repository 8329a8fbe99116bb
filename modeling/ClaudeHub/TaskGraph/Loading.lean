import ClaudeHub.Lib.Acyclic
import ClaudeHub.TaskGraph.Moves

/-! # Repairing the graph of a loaded workspace

The load resolves the tree fields of one task after the other on the tasks as the
earlier ones left them. A task whose parents lead to a link that is still broken is
made a root, though its own link may be good.
-/

namespace ClaudeHub.TaskGraph

def TreeError.fatal : TreeError → Bool
  | ownParent | cycle _ => true
  | unknownTask _ | otherWorkspace => false

def loadedFields (tasks : GraphTable) (workspaceId : WorkspaceId) (task : GraphTask) :
    Except TreeError TreeFields :=
  match resolveTaskTreeFields tasks workspaceId task.id task.parentTaskId with
  | .ok fields => .ok fields
  | .error e => if e.fatal then .error e else .ok ⟨none, task.id, task.id.toList⟩

def GraphTask.withFields (task : GraphTask) (fields : TreeFields) : GraphTask :=
  { task with
    parentTaskId := fields.parentTaskId
    rootTaskId := fields.rootTaskId
    path := fields.path }

/-- The loop body of `materialize_loaded_task_graph`. -/
def materializeTask (workspaceId : WorkspaceId) (tasks : GraphTable) (task : GraphTask) :
    Except TreeError GraphTable :=
  if task.workspaceId ≠ workspaceId then .ok tasks
  else
    (loadedFields tasks workspaceId task).map fun fields =>
      if task.parentTaskId ≠ fields.parentTaskId ∨ task.rootTaskId ≠ fields.rootTaskId ∨
          task.path ≠ fields.path then
        tasks.insert (task.withFields fields)
      else tasks

def materializeLoadedTaskGraph (tasks : GraphTable) (workspaceId : WorkspaceId) :
    Except TreeError GraphTable :=
  tasks.rows.foldlM (materializeTask workspaceId) tasks

def brokenParent (tasks : GraphTable) (workspaceId : WorkspaceId) (task : GraphTask) : Bool :=
  match task.parentTaskId with
  | none => false
  | some parent => (tasks.get? parent).all fun row => row.workspaceId ≠ workspaceId

def ParentLink (tasks : GraphTable) (workspaceId : WorkspaceId) (id parent : TaskId) : Prop :=
  ∃ task row, tasks.get? id = some task ∧ task.workspaceId = workspaceId ∧
    task.parentTaskId = some parent ∧ tasks.get? parent = some row ∧ row.workspaceId = workspaceId

/-- No task of the workspace is below itself. -/
def AcyclicParents (tasks : GraphTable) (workspaceId : WorkspaceId) : Prop :=
  ∀ id, ¬ Relation.TransGen (ParentLink tasks workspaceId) id id

def withoutBroken (tasks : GraphTable) (workspaceId : WorkspaceId) : GraphTable :=
  tasks.map (fun task =>
    if brokenParent tasks workspaceId task then { task with parentTaskId := none } else task)
    (fun task => by split <;> rfl)

def KeepsLink (tasks current : GraphTable) (workspaceId : WorkspaceId) (task : GraphTask) : Prop :=
  ∃ row, current.get? task.id = some row ∧ (row.parentTaskId = task.parentTaskId ∨
    row.parentTaskId = none ∧ brokenParent tasks workspaceId task = true)

structure Repairs (tasks result : GraphTable) (workspaceId : WorkspaceId) : Prop where
  tree : TreeOk result workspaceId
  again : materializeLoadedTaskGraph result workspaceId = .ok result
  kept : ∀ task ∈ tasks.rows, task.workspaceId = workspaceId →
    KeepsLink tasks result workspaceId task
  others : ∀ task ∈ tasks.rows, task.workspaceId ≠ workspaceId →
    result.get? task.id = some task

def LoadRepairs (tasks : GraphTable) (workspaceId : WorkspaceId) : Prop :=
  ∃ result, materializeLoadedTaskGraph tasks workspaceId = .ok result ∧
    Repairs tasks result workspaceId

def LoadsAlike (tasks : GraphTable) (workspaceId : WorkspaceId) : Prop :=
  (∀ order : GraphTable, order.rows.Perm tasks.rows → LoadRepairs order workspaceId) ∧
    ∀ order other : GraphTable, order.rows.Perm tasks.rows → other.rows.Perm tasks.rows →
      ∀ result result', materializeLoadedTaskGraph order workspaceId = .ok result →
        materializeLoadedTaskGraph other workspaceId = .ok result' →
          ∀ id, result.get? id = result'.get? id

/-- An empty parent id names no task of the workspace. -/
def BlankFree (tasks : GraphTable) (workspaceId : WorkspaceId) : Prop :=
  ∀ task ∈ tasks.rows, task.workspaceId = workspaceId → task.parentTaskId = some "" →
    brokenParent tasks workspaceId task = true

def BrokenFirst (tasks : GraphTable) (workspaceId : WorkspaceId) : Prop :=
  ∀ before task after, tasks.rows = before ++ task :: after → ∀ later ∈ after,
    later.workspaceId = workspaceId → brokenParent tasks workspaceId later = true →
      ¬ Relation.TransGen (ParentLink tasks workspaceId) task.id later.id

def BrokenChildless (tasks : GraphTable) (workspaceId : WorkspaceId) : Prop :=
  ∀ task ∈ tasks.rows, task.workspaceId = workspaceId →
    brokenParent tasks workspaceId task = true →
      ∀ child, ¬ ParentLink tasks workspaceId child task.id

variable {tasks tasks' : GraphTable} {workspaceId : WorkspaceId} {id : TaskId}
  {ids : List TaskId} {task : GraphTask}

/-! ## Chains of the links that are not broken -/

theorem brokenParent_iff : brokenParent tasks workspaceId task = true ↔
    ∃ parent, task.parentTaskId = some parent ∧
      ∀ row, tasks.get? parent = some row → row.workspaceId ≠ workspaceId := by
  unfold brokenParent
  cases hparent : task.parentTaskId with
  | none => simp
  | some parent =>
    cases hget : tasks.get? parent with
    | none => simp [hget]
    | some => simp [hget]

theorem get?_withoutBroken (id : TaskId) : (withoutBroken tasks workspaceId).get? id =
    (tasks.get? id).map fun task =>
      if brokenParent tasks workspaceId task then { task with parentTaskId := none }
      else task :=
  Table.get?_map tasks _ _ id

theorem ParentLink.unbroken {parent : TaskId} (h : ParentLink tasks workspaceId id parent)
    (hget : tasks.get? id = some task) : brokenParent tasks workspaceId task = false := by
  obtain ⟨found, row, hfound, -, hparent, hrow, hin⟩ := h
  cases hget.symm.trans hfound
  rw [Bool.eq_false_iff]
  intro hbroken
  obtain ⟨other, hother, hnone⟩ := brokenParent_iff.1 hbroken
  cases hparent.symm.trans hother
  exact hnone row hrow hin

theorem parentLink_iff {parent : TaskId} : ParentLink tasks workspaceId id parent ↔
    ∃ row, (withoutBroken tasks workspaceId).get? id = some row ∧
      row.workspaceId = workspaceId ∧ row.parentTaskId = some parent := by
  rw [get?_withoutBroken]
  constructor
  · intro hlink
    have hfound := hlink
    obtain ⟨task, -, hget, hws, hparent, -, -⟩ := hfound
    have hgood := hlink.unbroken hget
    exact ⟨task, by simp [hget, hgood], hws, hparent⟩
  · rintro ⟨row, hrow, hws, hparent⟩
    obtain ⟨task, hget, rfl⟩ := Option.map_eq_some_iff.mp hrow
    by_cases hbroken : brokenParent tasks workspaceId task = true
    · simp [hbroken] at hparent
    · simp only [hbroken] at hws hparent
      have hnot := mt brokenParent_iff.2 hbroken
      push Not at hnot
      obtain ⟨found, hfound, hin⟩ := hnot parent hparent
      exact ⟨task, found, hget, hws, hparent, hfound, hin⟩

/-- Every task of the workspace has a chain of links that are not broken. -/
def Grounded (tasks : GraphTable) (workspaceId : WorkspaceId) : Prop :=
  ∀ id row, tasks.get? id = some row → row.workspaceId = workspaceId →
    ∃ ids, ParentChain (withoutBroken tasks workspaceId) workspaceId id ids

theorem AcyclicParents.grounded (h : AcyclicParents tasks workspaceId) :
    Grounded tasks workspaceId := by
  have hnodes : ∀ {node parent}, ParentLink tasks workspaceId node parent →
      parent ∈ tasks.rows.map GraphTask.id := by
    rintro node parent ⟨-, above, -, -, -, habove, -⟩
    obtain ⟨hmem, rfl⟩ := Table.get?_eq_some.mp habove
    exact List.mem_map_of_mem hmem
  refine Acyclic.induction h hnodes ?_
  intro node ih row hget hws
  have hcut : (withoutBroken tasks workspaceId).get? node = _ := get?_withoutBroken node
  rw [hget, Option.map_some] at hcut
  cases hparent : (if brokenParent tasks workspaceId row then { row with parentTaskId := none }
      else row).parentTaskId with
  | none => exact ⟨_, .root hcut (by split <;> exact hws) hparent⟩
  | some parent =>
    have hlink : ParentLink tasks workspaceId node parent :=
      parentLink_iff.2 ⟨_, hcut, by split <;> exact hws, hparent⟩
    have habove := hlink
    obtain ⟨-, above, -, -, -, habove, hin⟩ := habove
    obtain ⟨ids, hids⟩ := ih parent hlink above habove hin
    exact ⟨_, .child hcut (by split <;> exact hws) hparent hids⟩

theorem ParentChain.whole_or_broken
    (h : ParentChain (withoutBroken tasks workspaceId) workspaceId id ids) :
    ParentChain tasks workspaceId id ids ∨
      ∃ top row, ids.head? = some top ∧ tasks.get? top = some row ∧
        row.workspaceId = workspaceId ∧ brokenParent tasks workspaceId row = true := by
  induction h with
  | @root id row hget hws hparent =>
    rw [get?_withoutBroken] at hget
    obtain ⟨task, hrow, rfl⟩ := Option.map_eq_some_iff.mp hget
    by_cases hbroken : brokenParent tasks workspaceId task = true
    · rw [if_pos hbroken] at hws
      exact .inr ⟨id, task, rfl, hrow, hws, hbroken⟩
    · rw [if_neg hbroken] at hws hparent
      exact .inl (.root hrow hws hparent)
  | @child id parent row ids hget hws hparent hchain ih =>
    obtain ⟨task, -, htask, hin, hlink, -, -⟩ := parentLink_iff.2 ⟨row, hget, hws, hparent⟩
    rcases ih with hwhole | ⟨top, above, hhead, htop, habove, hbroken⟩
    · exact .inl (.child htask hin hlink hwhole)
    · refine .inr ⟨top, above, ?_, htop, habove, hbroken⟩
      rw [List.head?_append, hhead]
      rfl

theorem ParentChain.unbroken (h : ParentChain tasks workspaceId id ids)
    (hget : tasks.get? id = some task) : brokenParent tasks workspaceId task = false := by
  rw [Bool.eq_false_iff]
  intro hbroken
  obtain ⟨parent, hparent, hnone⟩ := brokenParent_iff.1 hbroken
  cases h with
  | root hget' _ hparent' =>
    cases hget.symm.trans hget'
    simp [hparent] at hparent'
  | child hget' _ hparent' habove =>
    cases hget.symm.trans hget'
    cases hparent.symm.trans hparent'
    obtain ⟨row, -, -, hrow, hin, -⟩ := habove.split habove.self_mem
    exact hnone row hrow hin

theorem ParentChain.unbroken_of_mem (h : ParentChain tasks workspaceId id ids) {above : TaskId}
    (hmem : above ∈ ids) (hget : tasks.get? above = some task) :
    brokenParent tasks workspaceId task = false := by
  obtain ⟨-, front, -, -, -, -, hfront⟩ := h.split hmem
  exact hfront.unbroken hget

theorem ParentChain.cut (h : ParentChain tasks workspaceId id ids) :
    ParentChain (withoutBroken tasks workspaceId) workspaceId id ids := by
  induction h with
  | @root id task hget hws hparent =>
    have hgood : brokenParent tasks workspaceId task = false := by
      simp [brokenParent, hparent]
    exact .root (by rw [get?_withoutBroken, hget]; simp [hgood]) hws hparent
  | @child id parent task ids hget hws hparent hchain ih =>
    obtain ⟨above, -, -, habove, hin, -⟩ := hchain.split hchain.self_mem
    obtain ⟨row, hrow, hws, hlink⟩ :=
      parentLink_iff.1 ⟨task, above, hget, hws, hparent, habove, hin⟩
    exact .child hrow hws hlink ih

theorem ParentChain.below_head
    (h : ParentChain (withoutBroken tasks workspaceId) workspaceId id ids) {top : TaskId}
    (hhead : ids.head? = some top) (hne : top ≠ id) :
    Relation.TransGen (ParentLink tasks workspaceId) id top := by
  induction h with
  | root => exact absurd (Option.some.inj hhead).symm hne
  | @child id parent row ids hget hws hparent hchain ih =>
    have hlink := parentLink_iff.2 ⟨row, hget, hws, hparent⟩
    have habove : ids.head? = some top := by
      cases ids with
      | nil => exact absurd rfl hchain.ne_nil
      | cons => exact hhead
    by_cases htop : top = parent
    · subst htop
      exact .single hlink
    · exact .head hlink (ih habove htop)

theorem ParentChain.link_mem (h : ParentChain tasks workspaceId id ids) {parent : TaskId}
    (hlink : ParentLink tasks workspaceId id parent) : parent ∈ ids := by
  obtain ⟨task, row, hget, hws, hparent, -, -⟩ := hlink
  cases h with
  | root hget' _ hparent' =>
    cases hget.symm.trans hget'
    simp [hparent] at hparent'
  | child hget' _ hparent' habove =>
    cases hget.symm.trans hget'
    cases hparent.symm.trans hparent'
    exact List.mem_append_left _ habove.self_mem

theorem ParentChain.mem_of_below (h : ParentChain tasks workspaceId id ids) {above : TaskId}
    (hbelow : Relation.TransGen (ParentLink tasks workspaceId) id above) : above ∈ ids := by
  induction hbelow with
  | single hlink => exact h.link_mem hlink
  | tail _ hlink ih =>
    obtain ⟨-, front, back, -, -, rfl, hfront⟩ := h.split ih
    exact List.mem_append_left _ (hfront.link_mem hlink)

/-! ## What the walk up raises -/

/-- Walking up to a broken link raises, but nothing that stops the load: all that it has passed
is in the workspace, and the broken link leads to nothing there. -/
theorem walkParents_broken {child top : TaskId} {row : GraphTask}
    (h : ParentChain (withoutBroken tasks workspaceId) workspaceId id ids) {fuel : Nat}
    {seen : List TaskId} (hhead : ids.head? = some top) (htop : tasks.get? top = some row)
    (hbroken : brokenParent tasks workspaceId row = true)
    (hseen : ∀ node ∈ seen, ∃ task, tasks.get? node = some task ∧ task.workspaceId = workspaceId)
    (hfresh : ∀ node ∈ ids, node ∉ seen) (hfuel : ids.length < fuel) :
    ∃ e, walkParents tasks workspaceId child fuel seen (some id) = .error e ∧ e.fatal = false := by
  have hnodup := h.nodup
  induction h generalizing fuel seen with
  | @root id found hget hws hparent =>
    obtain rfl := Option.some.inj hhead
    rw [get?_withoutBroken, htop] at hget
    simp only [Option.map_some, hbroken, if_true, Option.some.injEq] at hget
    subst hget
    have hin : row.workspaceId = workspaceId := hws
    obtain ⟨parent, hlink, hnone⟩ := brokenParent_iff.1 hbroken
    have hnot := hfresh id (by simp)
    have hunseen : parent ∉ id :: seen := by
      intro hmem
      rcases List.mem_cons.mp hmem with rfl | hmem
      · exact hnone row htop hin
      · obtain ⟨task, htask, hin⟩ := hseen parent hmem
        exact hnone task htask hin
    obtain ⟨fuel, rfl⟩ : ∃ n, fuel = n + 2 := ⟨fuel - 2, by simp at hfuel; omega⟩
    cases hfound : tasks.get? parent with
    | none =>
      refine ⟨.unknownTask parent, ?_, rfl⟩
      simp [walkParents, hnot, htop, hin, hlink, hunseen, hfound]
    | some above =>
      refine ⟨.otherWorkspace, ?_, rfl⟩
      simp [walkParents, hnot, htop, hin, hlink, hunseen, hfound, hnone above hfound]
  | @child id parent found ids hget hws hparent hchain ih =>
    obtain ⟨task, -, htask, hin, hlink, -, -⟩ := parentLink_iff.2 ⟨found, hget, hws, hparent⟩
    cases fuel with
    | zero => omega
    | succ =>
      obtain ⟨hold, -, hapart⟩ := List.nodup_append.mp hnodup
      have hnot := hfresh id (by simp)
      simp only [walkParents, hnot, if_false, htask, hin, ne_eq, not_true_eq_false, hlink]
      apply ih
      · cases ids with
        | nil => exact absurd rfl hchain.ne_nil
        | cons => exact hhead
      · intro node hnode
        rcases List.mem_cons.mp hnode with rfl | hmem
        · exact ⟨task, htask, hin⟩
        · exact hseen node hmem
      · intro node hnode hmem
        rcases List.mem_cons.mp hmem with rfl | hmem
        · exact hapart _ hnode _ (by simp) rfl
        · exact hfresh node (List.mem_append_left _ hnode) hmem
      · simp only [List.length_append, List.length_singleton] at hfuel
        omega
      · exact hold

theorem resolveTaskTreeFields_chain {child parent : TaskId}
    (h : ParentChain tasks workspaceId parent ids) (hne : parent ≠ "") (hnot : child ∉ ids) :
    resolveTaskTreeFields tasks workspaceId child (some parent) =
      .ok ⟨some parent, ids.reverse.getLastD child, slashPath (ids ++ [child])⟩ := by
  have hvalid := (validateParentTask_iff h).mpr hnot
  have habove := h.ancestors_eq (Nat.lt_succ_of_le h.length_le)
  have htruthy : truthy (some parent) = some parent := by simp [truthy, hne]
  simp [resolveTaskTreeFields, htruthy, hvalid, habove, bind, Except.bind, pure, Except.pure]

theorem resolveTaskTreeFields_broken {child parent top : TaskId} {row : GraphTask}
    (h : ParentChain (withoutBroken tasks workspaceId) workspaceId parent ids)
    (hhead : ids.head? = some top) (htop : tasks.get? top = some row)
    (hbroken : brokenParent tasks workspaceId row = true) (hget : tasks.get? child = some task)
    (hws : task.workspaceId = workspaceId) (hne : parent ≠ "") (hnot : child ∉ ids) :
    ∃ e, resolveTaskTreeFields tasks workspaceId child (some parent) = .error e ∧
      e.fatal = false := by
  have hlength : ids.length < tasks.rows.length + 1 := by
    have hle := h.length_le
    simp only [withoutBroken, Table.map, List.length_map] at hle
    omega
  have hwalk := @walkParents_broken tasks workspaceId parent ids child top row h _ [child] hhead
    htop hbroken (fun node hnode => ⟨task, List.mem_singleton.mp hnode ▸ hget, hws⟩)
    (fun node hnode hmem => hnot (List.mem_singleton.mp hmem ▸ hnode)) hlength
  obtain ⟨e, hwalk, hfatal⟩ := hwalk
  have hself : parent ≠ child := fun heq => hnot (heq ▸ h.self_mem)
  have htruthy : truthy (some parent) = some parent := by simp [truthy, hne]
  obtain ⟨found, -, -, hfound, hin, -⟩ := h.split h.self_mem
  rw [get?_withoutBroken] at hfound
  obtain ⟨above, habove, rfl⟩ := Option.map_eq_some_iff.mp hfound
  have hin : above.workspaceId = workspaceId := by
    revert hin
    split <;> exact fun hin => hin
  refine ⟨e, ?_, hfatal⟩
  simp [resolveTaskTreeFields, htruthy, validateParentTask, hself, habove, hin, hwalk, bind,
    Except.bind]

theorem loadedFields_cases (hground : Grounded tasks workspaceId)
    (hget : tasks.get? task.id = some task) (hws : task.workspaceId = workspaceId)
    (hblank : task.parentTaskId = some "" → brokenParent tasks workspaceId task = true) :
    (∃ parent above, task.parentTaskId = some parent ∧
      ParentChain tasks workspaceId parent above ∧ task.id ∉ above ∧
      loadedFields tasks workspaceId task =
        .ok ⟨some parent, above.reverse.getLastD task.id, slashPath (above ++ [task.id])⟩) ∨
    ((task.parentTaskId = none ∨ ∀ ids, ¬ ParentChain tasks workspaceId task.id ids) ∧
      loadedFields tasks workspaceId task = .ok ⟨none, task.id, task.id.toList⟩) := by
  unfold loadedFields
  cases hparent : task.parentTaskId with
  | none => exact .inr ⟨.inl rfl, rfl⟩
  | some parent =>
    by_cases hbroken : brokenParent tasks workspaceId task = true
    · right
      obtain ⟨other, hother, hnone⟩ := brokenParent_iff.1 hbroken
      cases hparent.symm.trans hother
      refine ⟨.inr fun ids hchain => by simp [hchain.unbroken hget] at hbroken, ?_⟩
      · by_cases hempty : parent = ""
        · subst hempty
          rfl
        · have htruthy : truthy (some parent) = some parent := by simp [truthy, hempty]
          have hself : parent ≠ task.id := by
            rintro rfl
            exact hnone task hget hws
          cases hrow : tasks.get? parent with
          | none =>
            simp [resolveTaskTreeFields, htruthy, validateParentTask, hself, hrow,
              bind, Except.bind, TreeError.fatal]
          | some row =>
            simp [resolveTaskTreeFields, htruthy, validateParentTask, hself, hrow,
              hnone row hrow, bind, Except.bind, TreeError.fatal]
    · have hempty : parent ≠ "" := by
        rintro rfl
        exact hbroken (hblank hparent)
      have hcut : (withoutBroken tasks workspaceId).get? task.id = some task := by
        rw [get?_withoutBroken, hget, Option.map_some, if_neg hbroken]
      obtain ⟨ids, hids⟩ := hground task.id task hget hws
      have hnodup := hids.nodup
      cases hids with
      | root hget' _ hparent' =>
        cases hcut.symm.trans hget'
        simp [hparent] at hparent'
      | @child _ _ _ above hget' _ hparent' habove =>
        cases hcut.symm.trans hget'
        cases hparent.symm.trans hparent'
        have hnot : task.id ∉ above := by
          intro hmem
          exact (List.nodup_append.mp hnodup).2.2 _ hmem _ (by simp) rfl
        rcases habove.whole_or_broken with hwhole | ⟨top, row, hhead, htop, -, hrow⟩
        · left
          refine ⟨parent, above, rfl, hwhole, hnot, ?_⟩
          rw [resolveTaskTreeFields_chain hwhole hempty hnot]
        · right
          refine ⟨.inr fun ids hchain => ?_, ?_⟩
          · have hsame := hchain.cut.unique (.child hcut hws hparent habove)
            subst hsame
            have htopmem : top ∈ above ++ [task.id] :=
              List.mem_append_left _ (List.mem_of_head? hhead)
            simp [hchain.unbroken_of_mem htopmem htop] at hrow
          · obtain ⟨e, herror, hfatal⟩ := resolveTaskTreeFields_broken habove hhead htop hrow
              hget hws hempty hnot
            simp [herror, hfatal]

end ClaudeHub.TaskGraph
