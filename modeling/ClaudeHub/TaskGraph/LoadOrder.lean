import ClaudeHub.TaskGraph.Loading

/-! # Loading the tasks in any order

A load writes one task after the other. It gives every task its place, and gives it the
right one in the orders where the broken links come before what is below them; so it is
the same in every order when nothing is below a broken link.
-/

namespace ClaudeHub.TaskGraph

variable {tasks tasks' : GraphTable} {workspaceId : WorkspaceId} {id : TaskId}
  {ids : List TaskId} {task : GraphTask}

/-- The tasks of the one table with the workspaces of the other, whose links some tasks lack. -/
structure Loosens (tasks tasks' : GraphTable) : Prop where
  back : ∀ id row, tasks'.get? id = some row → ∃ old, tasks.get? id = some old ∧
    row.workspaceId = old.workspaceId ∧
      (row.parentTaskId = old.parentTaskId ∨ row.parentTaskId = none)
  forth : ∀ id old, tasks.get? id = some old → ∃ row, tasks'.get? id = some row ∧
    row.workspaceId = old.workspaceId

theorem Loosens.refl (tasks : GraphTable) : Loosens tasks tasks :=
  ⟨fun _ row hget => ⟨row, hget, rfl, .inl rfl⟩, fun _ old hget => ⟨old, hget, rfl⟩⟩

section

variable (h : Loosens tasks tasks')
include h

theorem Loosens.parentLink {parent : TaskId} (hlink : ParentLink tasks' workspaceId id parent) :
    ParentLink tasks workspaceId id parent := by
  obtain ⟨task, row, hget, hws, hparent, hrow, hin⟩ := hlink
  obtain ⟨old, hold, hsame, hkept | hnone⟩ := h.back id task hget
  · obtain ⟨above, habove, hsame', -⟩ := h.back parent row hrow
    exact ⟨old, above, hold, hsame.symm.trans hws, hkept.symm.trans hparent, habove,
      hsame'.symm.trans hin⟩
  · simp [hparent] at hnone

theorem Loosens.below {above : TaskId}
    (hbelow : Relation.TransGen (ParentLink tasks' workspaceId) id above) :
    Relation.TransGen (ParentLink tasks workspaceId) id above :=
  Relation.TransGen.mono (fun _ _ => h.parentLink) _ _ hbelow

theorem Loosens.grounded (hacyclic : AcyclicParents tasks workspaceId) :
    Grounded tasks' workspaceId := by
  apply AcyclicParents.grounded
  intro id hcycle
  exact hacyclic id (h.below hcycle)

theorem Loosens.brokenParent_eq {row old : GraphTask}
    (hparent : row.parentTaskId = old.parentTaskId) :
    brokenParent tasks' workspaceId row = brokenParent tasks workspaceId old := by
  rw [Bool.eq_iff_iff, brokenParent_iff, brokenParent_iff, hparent]
  refine exists_congr fun parent => and_congr_right fun _ => ?_
  constructor
  · intro hnone above habove
    obtain ⟨found, hfound, hsame⟩ := h.forth parent above habove
    exact hsame ▸ hnone found hfound
  · intro hnone found hfound
    obtain ⟨above, habove, hsame, -⟩ := h.back parent found hfound
    exact hsame ▸ hnone above habove

theorem Loosens.insert {row : GraphTask} (hget : tasks'.get? task.id = some task)
    (hid : row.id = task.id) (hws : row.workspaceId = task.workspaceId)
    (hparent : row.parentTaskId = task.parentTaskId ∨ row.parentTaskId = none) :
    Loosens tasks (tasks'.insert row) := by
  constructor
  · intro id found hfound
    rw [Table.get?_insert] at hfound
    split at hfound
    next hkey =>
      cases hfound
      obtain ⟨old, hold, hsame, hkept⟩ := h.back task.id task hget
      refine ⟨old, by rw [hkey, hid, hold], hws.trans hsame, ?_⟩
      rcases hparent with hparent | hparent
      · rw [hparent]
        exact hkept
      · exact .inr hparent
    next => exact h.back id found hfound
  · intro id old hold
    obtain ⟨found, hfound, hsame⟩ := h.forth id old hold
    rw [Table.get?_insert]
    split
    next hkey =>
      rw [hkey, hid] at hfound
      cases hget.symm.trans hfound
      exact ⟨row, rfl, hws.trans hsame⟩
    next => exact ⟨found, hfound, hsame⟩

end

theorem ParentChain.insert (h : ParentChain tasks workspaceId id ids) {row : GraphTask}
    (hget : tasks.get? task.id = some task) (hid : row.id = task.id)
    (hws : row.workspaceId = task.workspaceId)
    (hparent : (∃ ids, ParentChain tasks workspaceId task.id ids) →
      row.parentTaskId = task.parentTaskId) :
    ParentChain (tasks.insert row) workspaceId id ids := by
  refine h.transfer fun node hnode found hfound => ?_
  rw [Table.get?_insert]
  split
  next hkey =>
    rw [hkey, hid] at hfound
    cases hget.symm.trans hfound
    obtain ⟨-, front, -, -, -, -, hfront⟩ := h.split hnode
    rw [hkey, hid] at hfront
    exact ⟨row, rfl, hws, hparent ⟨front, hfront⟩⟩
  next => exact ⟨found, hfound, rfl, rfl⟩

theorem materializeTask_ok {fields : TreeFields} (hget : tasks.get? task.id = some task)
    (hws : task.workspaceId = workspaceId)
    (hfields : loadedFields tasks workspaceId task = .ok fields) :
    materializeTask workspaceId tasks task = .ok (tasks.insert (task.withFields fields)) := by
  simp only [materializeTask, hws, ne_eq, not_true_eq_false, if_false, hfields, Except.map]
  split
  · rfl
  next hsame =>
    push Not at hsame
    obtain ⟨hparent, hroot, hpath⟩ := hsame
    have heq : task.withFields fields = task := by
      unfold GraphTask.withFields
      rw [← hparent, ← hroot, ← hpath]
    rw [heq, Table.insert_eq_self hget]

theorem materializeTask_other {k : TaskId}
    (h : materializeTask workspaceId tasks task = .ok tasks') (hne : k ≠ task.id) :
    tasks'.get? k = tasks.get? k := by
  unfold materializeTask at h
  split at h
  · rw [Except.ok.inj h]
  · obtain ⟨fields, -, rfl⟩ := Except.map_ok_iff.mp h
    split
    · exact Table.get?_insert_ne _ hne
    · rfl

variable {todo : List GraphTask}

theorem materializeTasks_other {k : TaskId}
    (h : todo.foldlM (materializeTask workspaceId) tasks = .ok tasks')
    (hne : ∀ task ∈ todo, k ≠ task.id) : tasks'.get? k = tasks.get? k := by
  induction todo generalizing tasks with
  | nil =>
    obtain rfl := Except.pure_ok_iff.mp h
    rfl
  | cons task todo ih =>
    rw [List.foldlM_cons] at h
    obtain ⟨next, hnext, hrest⟩ := Except.bind_ok_iff.mp h
    rw [ih hrest fun other hother => hne other (List.mem_cons_of_mem _ hother)]
    exact materializeTask_other hnext (hne task List.mem_cons_self)

/-! ## The whole load -/

/-- The fields of a task are those of its chain. -/
def Placed (tasks : GraphTable) (workspaceId : WorkspaceId) (id : TaskId) : Prop :=
  ∃ row ids, tasks.get? id = some row ∧ ParentChain tasks workspaceId id ids ∧
    row.path = slashPath ids ∧ ids.head? = some row.rootTaskId

/-- The tasks after the load has come to the second list of them. -/
structure Loading (tasks current : GraphTable) (workspaceId : WorkspaceId)
    (done todo : List GraphTask) : Prop where
  loosens : Loosens tasks current
  pending : ∀ task ∈ todo, current.get? task.id = some task
  others : ∀ task ∈ done, task.workspaceId ≠ workspaceId → current.get? task.id = some task
  placed : ∀ task ∈ done, task.workspaceId = workspaceId → Placed current workspaceId task.id
  kept : BrokenFirst tasks workspaceId → ∀ task ∈ done, task.workspaceId = workspaceId →
    KeepsLink tasks current workspaceId task

/-- What the load does to one task of the workspace. -/
structure Loads (current next : GraphTable) (workspaceId : WorkspaceId) (task : GraphTask) :
    Prop where
  step : ∃ row, next = current.insert row ∧ row.id = task.id ∧
    row.workspaceId = task.workspaceId ∧
      (row.parentTaskId = task.parentTaskId ∨ row.parentTaskId = none ∧
        ∀ ids, ¬ ParentChain current workspaceId task.id ids)
  placed : Placed next workspaceId task.id

theorem materializeTask_cases (hground : Grounded tasks workspaceId)
    (hget : tasks.get? task.id = some task) (hws : task.workspaceId = workspaceId)
    (hblank : task.parentTaskId = some "" → brokenParent tasks workspaceId task = true) :
    ∃ next, materializeTask workspaceId tasks task = .ok next ∧
      Loads tasks next workspaceId task := by
  rcases loadedFields_cases hground hget hws hblank with
    ⟨parent, above, hparent, habove, hnot, hfields⟩ | ⟨hnone, hfields⟩
  · refine ⟨_, materializeTask_ok hget hws hfields, ⟨_, rfl, rfl, rfl, .inl hparent.symm⟩, ?_⟩
    have hself : (tasks.insert (task.withFields _)).get? task.id = some _ :=
      Table.get?_insert_self tasks (task.withFields
        ⟨some parent, above.reverse.getLastD task.id, slashPath (above ++ [task.id])⟩)
    refine ⟨_, above ++ [task.id], hself, .child hself hws rfl ?_, rfl, ?_⟩
    · exact habove.insert hget rfl rfl fun _ => hparent.symm
    · cases above with
      | nil => exact absurd rfl habove.ne_nil
      | cons => simp [GraphTask.withFields]
  · refine ⟨_, materializeTask_ok hget hws hfields, ⟨_, rfl, rfl, rfl, ?_⟩, ?_⟩
    · rcases hnone with hnone | hnone
      · exact .inl hnone.symm
      · exact .inr ⟨rfl, hnone⟩
    · have hself : (tasks.insert (task.withFields _)).get? task.id = some _ :=
        Table.get?_insert_self tasks (task.withFields ⟨none, task.id, task.id.toList⟩)
      exact ⟨_, [task.id], hself, .root hself hws rfl, rfl, rfl⟩

variable {current next : GraphTable}

theorem Loads.chain (h : Loads current next workspaceId task)
    (hget : current.get? task.id = some task) (hchain : ParentChain current workspaceId id ids) :
    ParentChain next workspaceId id ids := by
  obtain ⟨row, rfl, hid, hws, hparent⟩ := h.step
  apply hchain.insert hget hid hws
  rintro ⟨own, hown⟩
  rcases hparent with hparent | ⟨-, hnone⟩
  · exact hparent
  · exact absurd hown (hnone own)

theorem Loads.other (h : Loads current next workspaceId task) (hne : id ≠ task.id) :
    next.get? id = current.get? id := by
  obtain ⟨row, rfl, hid, -, -⟩ := h.step
  exact Table.get?_insert_ne _ (hid ▸ hne)

theorem Loads.loosens (h : Loads current next workspaceId task)
    (hget : current.get? task.id = some task) (hloosens : Loosens tasks current) :
    Loosens tasks next := by
  obtain ⟨row, rfl, hid, hws, hparent⟩ := h.step
  apply hloosens.insert hget hid hws
  rcases hparent with hparent | ⟨hnone, -⟩
  · exact .inl hparent
  · exact .inr hnone

variable {done : List GraphTask}

theorem Loading.broken_later (h : Loading tasks current workspaceId done (task :: todo))
    (hrows : tasks.rows = done ++ task :: todo) (hacyclic : AcyclicParents tasks workspaceId)
    (hws : task.workspaceId = workspaceId) (hgood : brokenParent tasks workspaceId task = false)
    (hnone : ∀ ids, ¬ ParentChain current workspaceId task.id ids) :
    ∃ later ∈ todo, later.workspaceId = workspaceId ∧ brokenParent tasks workspaceId later = true ∧
        Relation.TransGen (ParentLink tasks workspaceId) task.id later.id := by
  have hget := h.pending task List.mem_cons_self
  obtain ⟨ids, hids⟩ := h.loosens.grounded hacyclic task.id task hget hws
  rcases hids.whole_or_broken with hwhole | ⟨top, row, hhead, htop, hin, hbroken⟩
  · exact absurd hwhole (hnone ids)
  · obtain ⟨old, hold, hsame, hparent⟩ := h.loosens.back top row htop
    obtain ⟨hmem, rfl⟩ := Table.get?_eq_some.mp hold
    have hkept : row.parentTaskId = old.parentTaskId := by
      rcases hparent with hparent | hparent
      · exact hparent
      · simp [brokenParent, hparent] at hbroken
    have hold' : brokenParent tasks workspaceId old = true := by
      rw [← h.loosens.brokenParent_eq hkept]
      exact hbroken
    have hne : old.id ≠ task.id := by
      intro heq
      rw [heq] at htop
      cases hget.symm.trans htop
      rw [h.loosens.brokenParent_eq rfl, hgood] at hbroken
      simp at hbroken
    rw [hrows, List.mem_append, List.mem_cons] at hmem
    rcases hmem with hdone | rfl | hlater
    · obtain ⟨found, own, hfound, hown, -⟩ := h.placed old hdone (hsame.symm.trans hin)
      cases htop.symm.trans hfound
      simp [hown.unbroken htop] at hbroken
    · exact absurd rfl hne
    · exact ⟨old, hlater, hsame.symm.trans hin, hold', h.loosens.below (hids.below_head hhead hne)⟩

theorem Loading.step (h : Loading tasks current workspaceId done (task :: todo))
    (hrows : tasks.rows = done ++ task :: todo) (hacyclic : AcyclicParents tasks workspaceId)
    (hblank : BlankFree tasks workspaceId) :
    ∃ next, materializeTask workspaceId current task = .ok next ∧
      Loading tasks next workspaceId (done ++ [task]) todo := by
  have hget := h.pending task List.mem_cons_self
  have hnodup : (done.map GraphTask.id ++ task.id :: todo.map GraphTask.id).Nodup := by
    have hnodup := tasks.nodup
    rw [hrows, List.map_append, List.map_cons] at hnodup
    exact hnodup
  have hdone : ∀ other ∈ done, other.id ≠ task.id := fun other hother =>
    (List.nodup_append.mp hnodup).2.2 _ (List.mem_map_of_mem hother) _ List.mem_cons_self
  have htodo : ∀ other ∈ todo, other.id ≠ task.id := by
    intro other hother heq
    exact (List.nodup_cons.mp (List.nodup_append.mp hnodup).2.1).1
      (heq ▸ List.mem_map_of_mem hother)
  by_cases hws : task.workspaceId = workspaceId
  · have hmem : task ∈ tasks.rows := by simp [hrows]
    have hblank' : task.parentTaskId = some "" →
        brokenParent current workspaceId task = true := by
      intro hempty
      rw [h.loosens.brokenParent_eq rfl]
      exact hblank task hmem hws hempty
    obtain ⟨next, hnext, hloads⟩ :=
      materializeTask_cases (h.loosens.grounded hacyclic) hget hws hblank'
    refine ⟨next, hnext, ?_⟩
    constructor
    · exact hloads.loosens hget h.loosens
    · intro other hother
      rw [hloads.other (htodo other hother)]
      exact h.pending other (List.mem_cons_of_mem _ hother)
    · intro other hother hout
      rcases List.mem_append.mp hother with hother | hlast
      · rw [hloads.other (hdone other hother)]
        exact h.others other hother hout
      · obtain rfl := List.mem_singleton.mp hlast
        exact absurd hws hout
    · intro other hother hin
      rcases List.mem_append.mp hother with hother | hlast
      · obtain ⟨row, ids, hrow, hchain, hfields⟩ := h.placed other hother hin
        refine ⟨row, ids, ?_, hloads.chain hget hchain, hfields⟩
        rw [hloads.other (hdone other hother)]
        exact hrow
      · obtain rfl := List.mem_singleton.mp hlast
        exact hloads.placed
    · intro hfirst other hother hin
      rcases List.mem_append.mp hother with hother | hlast
      · obtain ⟨row, hrow, hkept⟩ := h.kept hfirst other hother hin
        refine ⟨row, ?_, hkept⟩
        rw [hloads.other (hdone other hother)]
        exact hrow
      · obtain rfl := List.mem_singleton.mp hlast
        obtain ⟨row, rfl, hid, -, hparent⟩ := hloads.step
        refine ⟨row, hid ▸ Table.get?_insert_self current row, ?_⟩
        rcases hparent with hparent | ⟨hnone, hchain⟩
        · exact .inl hparent
        · refine .inr ⟨hnone, ?_⟩
          by_contra hgood
          obtain ⟨later, hlater, hin', hbroken, hbelow⟩ :=
            h.broken_later hrows hacyclic hws (Bool.eq_false_iff.mpr hgood) hchain
          exact hfirst done other todo hrows later hlater hin' hbroken hbelow
  · refine ⟨current, by simp [materializeTask, hws], ?_⟩
    constructor
    · exact h.loosens
    · exact fun other hother => h.pending other (List.mem_cons_of_mem _ hother)
    · intro other hother hout
      rcases List.mem_append.mp hother with hother | hlast
      · exact h.others other hother hout
      · obtain rfl := List.mem_singleton.mp hlast
        exact hget
    · intro other hother hin
      rcases List.mem_append.mp hother with hother | hlast
      · exact h.placed other hother hin
      · obtain rfl := List.mem_singleton.mp hlast
        exact absurd hin hws
    · intro hfirst other hother hin
      rcases List.mem_append.mp hother with hother | hlast
      · exact h.kept hfirst other hother hin
      · obtain rfl := List.mem_singleton.mp hlast
        exact absurd hin hws

theorem loading (hacyclic : AcyclicParents tasks workspaceId) (hblank : BlankFree tasks workspaceId)
    (hrows : tasks.rows = done ++ todo) :
    ∃ current, done.foldlM (materializeTask workspaceId) tasks = .ok current ∧
      Loading tasks current workspaceId done todo := by
  induction done using List.reverseRecOn generalizing todo with
  | nil =>
    refine ⟨tasks, rfl, .refl tasks, fun task htask => ?_, by simp, by simp, by simp⟩
    exact Table.get?_eq_some.mpr ⟨hrows ▸ htask, rfl⟩
  | append_singleton done task ih =>
    rw [List.append_assoc, List.singleton_append] at hrows
    obtain ⟨current, hcurrent, hloading⟩ := ih hrows
    obtain ⟨next, hnext, hstep⟩ := hloading.step hrows hacyclic hblank
    refine ⟨next, ?_, hstep⟩
    rw [List.foldlM_append, Except.bind_ok_iff]
    refine ⟨current, hcurrent, ?_⟩
    rw [List.foldlM_cons, Except.bind_ok_iff]
    exact ⟨next, hnext, rfl⟩

/-! ## One order of the tasks -/

theorem TreeOk.materialize (h : TreeOk tasks workspaceId)
    (hblank : ∀ task ∈ tasks.rows, task.workspaceId = workspaceId → task.parentTaskId ≠ some "") :
    materializeLoadedTaskGraph tasks workspaceId = .ok tasks := by
  have hstep : ∀ task ∈ tasks.rows, materializeTask workspaceId tasks task = .ok tasks := by
    intro task htask
    by_cases hws : task.workspaceId = workspaceId
    · obtain ⟨ids, hchain, hpath, hroot⟩ := h.chains task htask hws
      have hget : tasks.get? task.id = some task := Table.get?_eq_some.mpr ⟨htask, rfl⟩
      have hfields : loadedFields tasks workspaceId task =
          .ok ⟨task.parentTaskId, task.rootTaskId, task.path⟩ := by
        have hnodup := hchain.nodup
        unfold loadedFields
        cases hchain with
        | root hget' _ hparent =>
          cases hget.symm.trans hget'
          rw [hparent, hpath, ← Option.some.inj hroot]
          rfl
        | @child _ parent _ above hget' _ hparent habove =>
          cases hget.symm.trans hget'
          have hne : parent ≠ "" := fun heq => hblank task htask hws (heq ▸ hparent)
          have hnot : task.id ∉ above := fun hmem =>
            (List.nodup_append.mp hnodup).2.2 _ hmem _ (by simp) rfl
          rw [hparent, resolveTaskTreeFields_chain habove hne hnot, hpath]
          cases above with
          | nil => exact absurd rfl habove.ne_nil
          | cons top =>
            have htop : top = task.rootTaskId := Option.some.inj hroot
            simp [htop]
      rw [materializeTask_ok hget hws hfields]
      exact congrArg Except.ok (Table.insert_eq_self hget)
    · simp [materializeTask, hws]
  suffices hall : ∀ todo, todo ⊆ tasks.rows →
      todo.foldlM (materializeTask workspaceId) tasks = .ok tasks from
    hall tasks.rows (List.Subset.refl _)
  intro todo hsub
  induction todo with
  | nil => rfl
  | cons task todo ih =>
    obtain ⟨hmem, hrest⟩ := List.cons_subset.mp hsub
    rw [List.foldlM_cons, hstep task hmem]
    exact ih hrest

theorem Loosens.blank_ne (h : Loosens tasks tasks') (hblank : BlankFree tasks workspaceId)
    (htree : TreeOk tasks' workspaceId) (hmem : task ∈ tasks'.rows)
    (hws : task.workspaceId = workspaceId) : task.parentTaskId ≠ some "" := by
  intro hempty
  have hget : tasks'.get? task.id = some task := Table.get?_eq_some.mpr ⟨hmem, rfl⟩
  obtain ⟨old, hold, hsame, hparent⟩ := h.back task.id task hget
  have hkept : task.parentTaskId = old.parentTaskId := by
    rcases hparent with hparent | hparent
    · exact hparent
    · simp [hempty] at hparent
  have hbroken := hblank old (Table.get?_eq_some.mp hold).1 (hsame.symm.trans hws)
    (hkept.symm.trans hempty)
  rw [← h.brokenParent_eq hkept] at hbroken
  obtain ⟨ids, hchain, -⟩ := htree.chains task hmem hws
  simp [hchain.unbroken hget] at hbroken

theorem Loading.tree (h : Loading tasks current workspaceId done []) (hrows : tasks.rows = done) :
    TreeOk current workspaceId := by
  constructor
  intro row hrow hws
  obtain ⟨old, hold, hsame, -⟩ := h.loosens.back row.id row (Table.get?_eq_some.mpr ⟨hrow, rfl⟩)
  obtain ⟨hmem, hid⟩ := Table.get?_eq_some.mp hold
  obtain ⟨found, ids, hfound, hchain, hpath, hroot⟩ :=
    h.placed old (hrows ▸ hmem) (hsame.symm.trans hws)
  rw [hid] at hfound hchain
  cases hfound.symm.trans (Table.get?_eq_some.mpr ⟨hrow, rfl⟩)
  exact ⟨ids, hchain, hpath, hroot⟩

theorem loadRepairs_of_first (hacyclic : AcyclicParents tasks workspaceId)
    (hblank : BlankFree tasks workspaceId) (hfirst : BrokenFirst tasks workspaceId) :
    LoadRepairs tasks workspaceId := by
  obtain ⟨result, hresult, hloading⟩ := loading hacyclic hblank (List.append_nil _).symm
  have htree := hloading.tree rfl
  refine ⟨result, hresult, htree, ?_, hloading.kept hfirst, hloading.others⟩
  exact htree.materialize fun task hmem hws => hloading.loosens.blank_ne hblank htree hmem hws

theorem blankFree_of_loadRepairs (h : LoadRepairs tasks workspaceId) :
    BlankFree tasks workspaceId := by
  obtain ⟨result, hresult, hrepairs⟩ := h
  intro task hmem hws hempty
  obtain ⟨row, hrow, hkept | ⟨-, hbroken⟩⟩ := hrepairs.kept task hmem hws
  · obtain ⟨done, todo, hrows⟩ := List.append_of_mem hmem
    have hnodup := tasks.nodup
    rw [hrows, List.map_append, List.map_cons] at hnodup
    unfold materializeLoadedTaskGraph at hresult
    rw [hrows, List.foldlM_append, Except.bind_ok_iff] at hresult
    obtain ⟨current, hcurrent, hrest⟩ := hresult
    rw [List.foldlM_cons, Except.bind_ok_iff] at hrest
    obtain ⟨next, hnext, hrest⟩ := hrest
    have hget : current.get? task.id = some task := by
      rw [materializeTasks_other hcurrent]
      · exact Table.get?_eq_some.mpr ⟨hmem, rfl⟩
      · exact fun other hother heq => (List.nodup_append.mp hnodup).2.2 _
          (List.mem_map_of_mem hother) _ List.mem_cons_self heq.symm
    have hfields : loadedFields current workspaceId task = .ok ⟨none, task.id, task.id.toList⟩ := by
      unfold loadedFields
      rw [hempty]
      rfl
    rw [materializeTask_ok hget hws hfields] at hnext
    have hlast : result.get? task.id = next.get? task.id :=
      materializeTasks_other hrest fun other hother heq =>
        (List.nodup_cons.mp (List.nodup_append.mp hnodup).2.1).1
          (heq ▸ List.mem_map_of_mem hother)
    cases hnext
    have hwritten : (current.insert (task.withFields ⟨none, task.id, task.id.toList⟩)).get?
        task.id = some _ := Table.get?_insert_self current (task.withFields _)
    rw [hlast, hwritten] at hrow
    cases hrow
    simp [GraphTask.withFields, hempty] at hkept
  · exact hbroken

theorem brokenFirst_of_loadRepairs (hacyclic : AcyclicParents tasks workspaceId)
    (h : LoadRepairs tasks workspaceId) : BrokenFirst tasks workspaceId := by
  have hblank := blankFree_of_loadRepairs h
  obtain ⟨result, hresult, hrepairs⟩ := h
  intro done task todo hrows later hlater hin hbroken hbelow
  have hnodup := tasks.nodup
  rw [hrows, List.map_append, List.map_cons] at hnodup
  obtain ⟨current, hcurrent, hloading⟩ := loading hacyclic hblank hrows
  unfold materializeLoadedTaskGraph at hresult
  rw [hrows, List.foldlM_append, hcurrent] at hresult
  -- What comes later leaves the earlier tasks, so their links are already those of the result.
  have hlinks : ∀ {child parent}, ParentLink tasks workspaceId child parent →
      ParentLink current workspaceId child parent := by
    rintro child parent hlink
    have hcut := hlink
    obtain ⟨row, above, hrow, hws, hparent, habove, hin'⟩ := hlink
    obtain ⟨hmem, rfl⟩ := Table.get?_eq_some.mp hrow
    obtain ⟨found, hfound, hsame⟩ := hloading.loosens.forth parent above habove
    have hgood := hcut.unbroken hrow
    rw [hrows, List.mem_append] at hmem
    rcases hmem with hdone | htodo
    · obtain ⟨kept, hkept, hsame' | ⟨-, hbad⟩⟩ :=
        hrepairs.kept row (by simp [hrows, hdone]) hws
      · have hearly : result.get? row.id = current.get? row.id :=
          materializeTasks_other hresult fun other hother heq =>
            (List.nodup_append.mp hnodup).2.2 _ (List.mem_map_of_mem hdone) _
              (List.mem_map_of_mem hother) heq
        rw [hearly] at hkept
        obtain ⟨old, hold, hws', -⟩ := hloading.loosens.back row.id kept hkept
        cases hrow.symm.trans hold
        exact ⟨kept, found, hkept, hws'.trans hws, hsame'.trans hparent, hfound,
          hsame.trans hin'⟩
      · simp [hgood] at hbad
    · exact ⟨row, found, hloading.pending row htodo, hws, hparent, hfound, hsame.trans hin'⟩
  have hbelow' : Relation.TransGen (ParentLink current workspaceId) task.id later.id :=
    Relation.TransGen.mono (fun _ _ => hlinks) _ _ hbelow
  obtain ⟨parent, hlink, -⟩ := Relation.TransGen.head'_iff.mp hbelow
  obtain ⟨row, above, hrow, hws, hparent, habove, hin'⟩ := hlink
  have hmem : task ∈ tasks.rows := by simp [hrows]
  obtain rfl := Option.some.inj (hrow.symm.trans (Table.get?_eq_some.mpr ⟨hmem, rfl⟩))
  have hget := hloading.pending row List.mem_cons_self
  obtain ⟨next, hnext, hloads⟩ := materializeTask_cases (hloading.loosens.grounded hacyclic) hget
    hws fun hempty => by
      rw [hloading.loosens.brokenParent_eq rfl]
      exact hblank row hmem hws hempty
  -- The task kept its link, so it had a chain, and the broken link was in it.
  have hrest : todo.foldlM (materializeTask workspaceId) next = .ok result := by
    rw [← hresult]
    simp only [bind, Except.bind, List.foldlM_cons, hnext]
  have hlast : result.get? row.id = next.get? row.id :=
    materializeTasks_other hrest fun other hother heq =>
      (List.nodup_cons.mp (List.nodup_append.mp hnodup).2.1).1 (heq ▸ List.mem_map_of_mem hother)
  obtain ⟨written, rfl, hid, hws', hstep⟩ := hloads.step
  have hwritten : (current.insert written).get? row.id = some written :=
    hid ▸ Table.get?_insert_self current written
  have hkept : written.parentTaskId = row.parentTaskId := by
    obtain ⟨kept, hkept, hsame | ⟨-, hbad⟩⟩ := hrepairs.kept row hmem hws
    · rw [hlast, hwritten] at hkept
      cases hkept
      exact hsame
    · have hgood := ParentLink.unbroken ⟨row, above, hrow, hws, hparent, habove, hin'⟩ hrow
      simp [hgood] at hbad
  obtain ⟨-, ids, -, hchain, -⟩ := hloads.placed
  have hcurrent' : ParentChain current workspaceId row.id ids := by
    refine hchain.transfer fun node _ found hfound => ?_
    rw [Table.get?_insert] at hfound
    split at hfound
    next hkey =>
      cases hfound
      exact ⟨row, by rw [hkey, hid, hget], hws'.symm, hkept.symm⟩
    next => exact ⟨found, hfound, rfl, rfl⟩
  have hlater' := hloading.pending later (List.mem_cons_of_mem _ hlater)
  have hgood := hcurrent'.unbroken_of_mem (hcurrent'.mem_of_below hbelow') hlater'
  rw [hloading.loosens.brokenParent_eq rfl, hbroken] at hgood
  simp at hgood

/-! ## Every order of the tasks -/

section Orders

variable {order : GraphTable} (h : order.rows.Perm tasks.rows)

include h

theorem get?_order (id : TaskId) : order.get? id = tasks.get? id := by
  cases hget : tasks.get? id with
  | none =>
    refine Table.get?_eq_none.mpr fun row hrow => ?_
    exact Table.get?_eq_none.mp hget row (h.mem_iff.mp hrow)
  | some =>
    obtain ⟨hmem, hid⟩ := Table.get?_eq_some.mp hget
    exact Table.get?_eq_some.mpr ⟨h.mem_iff.mpr hmem, hid⟩

theorem brokenParent_order (task : GraphTask) :
    brokenParent order workspaceId task = brokenParent tasks workspaceId task := by
  simp only [brokenParent, get?_order h]

theorem parentLink_order :
    ParentLink order workspaceId = ParentLink tasks workspaceId := by
  funext child parent
  simp only [ParentLink, get?_order h]

theorem acyclicParents_order (hacyclic : AcyclicParents tasks workspaceId) :
    AcyclicParents order workspaceId := by
  unfold AcyclicParents
  rw [parentLink_order h]
  exact hacyclic

theorem blankFree_order (hblank : BlankFree tasks workspaceId) : BlankFree order workspaceId := by
  intro task hmem hws hempty
  rw [brokenParent_order h]
  exact hblank task (h.mem_iff.mp hmem) hws hempty

theorem brokenFirst_order (hchildless : BrokenChildless tasks workspaceId) :
    BrokenFirst order workspaceId := by
  intro before task after hrows later hlater hws hbroken hbelow
  rw [parentLink_order h] at hbelow
  rw [brokenParent_order h] at hbroken
  have hmem : later ∈ tasks.rows := h.mem_iff.mp (by simp [hrows, hlater])
  obtain ⟨child, -, hlink⟩ := Relation.TransGen.tail'_iff.mp hbelow
  exact hchildless later hmem hws hbroken child hlink

end Orders

variable {result : GraphTable}

theorem Repairs.parent_eq (h : Repairs tasks result workspaceId) (hloosens : Loosens tasks result)
    (hmem : task ∈ tasks.rows) (hws : task.workspaceId = workspaceId) :
    ∃ row, result.get? task.id = some row ∧ row.id = task.id ∧
      row.workspaceId = task.workspaceId ∧ row.parentTaskId =
        if brokenParent tasks workspaceId task then none else task.parentTaskId := by
  obtain ⟨row, hrow, hkept⟩ := h.kept task hmem hws
  obtain ⟨old, hold, hsame, -⟩ := hloosens.back task.id row hrow
  cases hold.symm.trans (Table.get?_eq_some.mpr ⟨hmem, rfl⟩)
  refine ⟨row, hrow, Table.key_of_get? hrow, hsame, ?_⟩
  rcases hkept with hkept | ⟨hnone, hbroken⟩
  · have hrow' := (Table.get?_eq_some.mp hrow).1
    obtain ⟨ids, hchain, -⟩ := h.tree.chains row hrow' (hsame.trans hws)
    rw [Table.key_of_get? hrow] at hchain
    have hgood := hchain.unbroken hrow
    rw [hloosens.brokenParent_eq hkept] at hgood
    simp [hgood, hkept]
  · simp [hbroken, hnone]

theorem Repairs.unique {result' : GraphTable} (h : Repairs tasks result workspaceId)
    (h' : Repairs tasks result' workspaceId) (hloosens : Loosens tasks result)
    (hloosens' : Loosens tasks result') (id : TaskId) : result.get? id = result'.get? id := by
  have hchains : ∀ {node ids}, ParentChain result workspaceId node ids →
      ParentChain result' workspaceId node ids := by
    intro node ids hchain
    refine hchain.transfer fun above habove row hrow => ?_
    obtain ⟨found, -, -, hfound, hin, -⟩ := hchain.split habove
    cases hrow.symm.trans hfound
    obtain ⟨old, hold, hsame, -⟩ := hloosens.back above row hrow
    obtain ⟨hmem, rfl⟩ := Table.get?_eq_some.mp hold
    obtain ⟨row', hrow', -, hws', hparent'⟩ := h'.parent_eq hloosens' hmem (hsame.symm.trans hin)
    obtain ⟨other, hother, -, -, hparent⟩ := h.parent_eq hloosens hmem (hsame.symm.trans hin)
    cases hrow.symm.trans hother
    exact ⟨row', hrow', hws'.trans hsame.symm, hparent'.trans hparent.symm⟩
  cases hget : tasks.get? id with
  | none =>
    have hgone : ∀ {kept : GraphTable}, Loosens tasks kept → kept.get? id = none := by
      intro kept hkept
      cases hrow : kept.get? id with
      | none => rfl
      | some row =>
        obtain ⟨old, hold, -⟩ := hkept.back id row hrow
        simp [hget] at hold
    rw [hgone hloosens, hgone hloosens']
  | some task =>
    obtain ⟨hmem, rfl⟩ := Table.get?_eq_some.mp hget
    by_cases hws : task.workspaceId = workspaceId
    · obtain ⟨row, hrow, hid, hsame, hparent⟩ := h.parent_eq hloosens hmem hws
      obtain ⟨row', hrow', hid', hsame', hparent'⟩ := h'.parent_eq hloosens' hmem hws
      obtain ⟨ids, hchain, hpath, hroot⟩ :=
        h.tree.chains row (Table.get?_eq_some.mp hrow).1 (hsame.trans hws)
      obtain ⟨ids', hchain', hpath', hroot'⟩ :=
        h'.tree.chains row' (Table.get?_eq_some.mp hrow').1 (hsame'.trans hws)
      rw [hid] at hchain
      rw [hid'] at hchain'
      obtain rfl := (hchains hchain).unique hchain'
      rw [hrow, hrow']
      cases row
      cases row'
      simp_all
    · rw [h.others task hmem hws, h'.others task hmem hws]

theorem repairs_order (hacyclic : AcyclicParents tasks workspaceId)
    (hblank : BlankFree tasks workspaceId) (hchildless : BrokenChildless tasks workspaceId)
    {order : GraphTable} (h : order.rows.Perm tasks.rows)
    (hresult : materializeLoadedTaskGraph order workspaceId = .ok result) :
    Repairs tasks result workspaceId ∧ Loosens tasks result := by
  have hacyclic' := acyclicParents_order h hacyclic
  have hblank' := blankFree_order h hblank
  obtain ⟨current, hcurrent, hloading⟩ := loading hacyclic' hblank' (List.append_nil _).symm
  obtain ⟨found, hfound, hrepairs⟩ :=
    loadRepairs_of_first hacyclic' hblank' (brokenFirst_order h hchildless)
  cases hcurrent.symm.trans hresult
  cases hresult.symm.trans hfound
  constructor
  · constructor
    · exact hrepairs.tree
    · exact hrepairs.again
    · intro task hmem hws
      obtain ⟨row, hrow, hkept⟩ := hrepairs.kept task (h.mem_iff.mpr hmem) hws
      rw [brokenParent_order h] at hkept
      exact ⟨row, hrow, hkept⟩
    · exact fun task hmem => hrepairs.others task (h.mem_iff.mpr hmem)
  · constructor
    · intro id row hrow
      rw [← get?_order h]
      exact hloading.loosens.back id row hrow
    · intro id old hold
      rw [← get?_order h] at hold
      exact hloading.loosens.forth id old hold

theorem loadsAlike_of_childless (hacyclic : AcyclicParents tasks workspaceId)
    (hblank : BlankFree tasks workspaceId) (hchildless : BrokenChildless tasks workspaceId) :
    LoadsAlike tasks workspaceId := by
  constructor
  · intro order h
    exact loadRepairs_of_first (acyclicParents_order h hacyclic) (blankFree_order h hblank)
      (brokenFirst_order h hchildless)
  · intro order other h h' result result' hresult hresult'
    obtain ⟨hrepairs, hloosens⟩ := repairs_order hacyclic hblank hchildless h hresult
    obtain ⟨hrepairs', hloosens'⟩ := repairs_order hacyclic hblank hchildless h' hresult'
    exact hrepairs.unique hrepairs' hloosens hloosens'

theorem exists_order_cons (hmem : task ∈ tasks.rows) :
    ∃ (order : GraphTable) (after : List GraphTask),
      order.rows.Perm tasks.rows ∧ order.rows = task :: after := by
  obtain ⟨before, after, hrows⟩ := List.append_of_mem hmem
  have hperm : (task :: (before ++ after)).Perm tasks.rows :=
    hrows ▸ List.perm_middle.symm
  exact ⟨⟨task :: (before ++ after), (hperm.map GraphTask.id).nodup_iff.mpr tasks.nodup⟩,
    before ++ after, hperm, rfl⟩

theorem childless_of_loadsAlike (hacyclic : AcyclicParents tasks workspaceId)
    (h : LoadsAlike tasks workspaceId) : BrokenChildless tasks workspaceId := by
  intro task hmem hws hbroken child hlink
  have hchild := hlink
  obtain ⟨row, -, hrow, -⟩ := hchild
  obtain ⟨hrow', rfl⟩ := Table.get?_eq_some.mp hrow
  obtain ⟨order, after, hperm, horder⟩ := exists_order_cons hrow'
  have hafter : task ∈ after := by
    have htask := hperm.mem_iff.mpr hmem
    rw [horder, List.mem_cons] at htask
    rcases htask with rfl | hafter
    · simp [hlink.unbroken hrow] at hbroken
    · exact hafter
  have hfirst := brokenFirst_of_loadRepairs (acyclicParents_order hperm hacyclic) (h.1 order hperm)
  apply hfirst [] row after horder task hafter hws
  · rw [brokenParent_order hperm]
    exact hbroken
  · rw [parentLink_order hperm]
    exact .single hlink

/-- A load repairs the graph in every order alike exactly when no task with a broken link has a
child, and in one order exactly when each such task comes before what is below it. An empty id
must not name a task that is a parent. -/
theorem loads_alike_iff (tasks : GraphTable) (workspaceId : WorkspaceId)
    (hacyclic : AcyclicParents tasks workspaceId) :
    (LoadsAlike tasks workspaceId ↔
      BlankFree tasks workspaceId ∧ BrokenChildless tasks workspaceId) ∧
    (LoadRepairs tasks workspaceId ↔
      BlankFree tasks workspaceId ∧ BrokenFirst tasks workspaceId) := by
  constructor
  · constructor
    · intro h
      exact ⟨blankFree_of_loadRepairs (h.1 tasks (.refl _)), childless_of_loadsAlike hacyclic h⟩
    · exact fun h => loadsAlike_of_childless hacyclic h.1 h.2
  · constructor
    · exact fun h => ⟨blankFree_of_loadRepairs h, brokenFirst_of_loadRepairs hacyclic h⟩
    · exact fun h => loadRepairs_of_first hacyclic h.1 h.2

private def storedTask (id : TaskId) (parent : Option TaskId) : GraphTask :=
  ⟨id, "w1", parent, id, id.toList⟩

private theorem onlyLink {stored : GraphTable}
    (h : ∀ task ∈ stored.rows, ∀ row ∈ stored.rows, task.parentTaskId = some row.id →
      task.id = "c1" ∧ row.id = "p1") {child parent : TaskId}
    (hlink : ParentLink stored "w1" child parent) : child = "c1" ∧ parent = "p1" := by
  obtain ⟨task, row, hget, -, hparent, hrow, -⟩ := hlink
  obtain ⟨hmem, rfl⟩ := Table.get?_eq_some.mp hget
  obtain ⟨hmem', rfl⟩ := Table.get?_eq_some.mp hrow
  exact h task hmem row hmem' hparent

private theorem onlyLink_acyclic {stored : GraphTable}
    (h : ∀ task ∈ stored.rows, ∀ row ∈ stored.rows, task.parentTaskId = some row.id →
      task.id = "c1" ∧ row.id = "p1") : AcyclicParents stored "w1" := by
  intro id hcycle
  obtain ⟨_, hfirst, -⟩ := Relation.TransGen.head'_iff.mp hcycle
  obtain ⟨_, -, hlast⟩ := Relation.TransGen.tail'_iff.mp hcycle
  have hchild := (onlyLink h hfirst).1
  have hparent := (onlyLink h hlast).2
  simp [hchild] at hparent

private def keptGraph : GraphTable :=
  .ofList [storedTask "c1" (some "p1"), storedTask "p1" none, storedTask "o1" (some "gone")]

theorem loads_alike_kept : LoadsAlike keptGraph "w1" ∧ LoadRepairs keptGraph "w1" := by
  have hlinks : ∀ task ∈ keptGraph.rows, ∀ row ∈ keptGraph.rows,
      task.parentTaskId = some row.id → task.id = "c1" ∧ row.id = "p1" := by decide +kernel
  have hchildless : BrokenChildless keptGraph "w1" := by
    intro task hmem hws hbroken child hlink
    have hparent := (onlyLink hlinks hlink).2
    have hgood : ∀ task ∈ keptGraph.rows, task.id = "p1" →
        brokenParent keptGraph "w1" task = false := by decide +kernel
    simp [hgood task hmem hparent] at hbroken
  obtain ⟨halike, hrepairs⟩ := loads_alike_iff keptGraph "w1" (onlyLink_acyclic hlinks)
  have hblank : BlankFree keptGraph "w1" := by
    unfold BlankFree
    decide +kernel
  exact ⟨halike.mpr ⟨hblank, hchildless⟩, hrepairs.mpr ⟨hblank, brokenFirst_order (.refl _) hchildless⟩⟩

private def cutGraph : GraphTable :=
  .ofList [storedTask "c1" (some "p1"), storedTask "p1" (some "gone")]

/-- A child with a good parent is made a root because its parent comes later in the file. -/
theorem loads_cut_child :
    AcyclicParents cutGraph "w1" ∧ ¬ LoadsAlike cutGraph "w1" ∧
    (∃ task, cutGraph.get? "c1" = some task ∧ brokenParent cutGraph "w1" task = false ∧
      task.parentTaskId = some "p1") ∧
    ∃ result, materializeLoadedTaskGraph cutGraph "w1" = .ok result ∧
      (result.get? "c1").bind GraphTask.parentTaskId = none := by
  have hlinks : ∀ task ∈ cutGraph.rows, ∀ row ∈ cutGraph.rows,
      task.parentTaskId = some row.id → task.id = "c1" ∧ row.id = "p1" := by decide +kernel
  have hacyclic := onlyLink_acyclic hlinks
  refine ⟨hacyclic, ?_, by decide +kernel, by decide +kernel⟩
  intro h
  have hparent : (cutGraph.get? "p1").any fun task =>
      brokenParent cutGraph "w1" task && task.workspaceId = "w1" := by decide +kernel
  obtain ⟨task, hget, hbroken⟩ := (Option.any_eq_true _ _).mp hparent
  simp only [Bool.and_eq_true, decide_eq_true_eq] at hbroken
  obtain ⟨hmem, hid⟩ := Table.get?_eq_some.mp hget
  apply childless_of_loadsAlike hacyclic h task hmem hbroken.2 hbroken.1 "c1"
  rw [hid]
  exact ⟨storedTask "c1" (some "p1"), task, by decide +kernel, rfl, rfl, hget, hbroken.2⟩

end ClaudeHub.TaskGraph
