import ClaudeHub.TaskGraph.Chains

/-! # What each operation does to the chains

Walking up from a parent follows its chain, so validation refuses exactly the
parents below the task. Reparenting by path prefix then puts the new chain of the
task in front of the rest of every chain that passed through it.
-/

namespace ClaudeHub.TaskGraph

variable {tasks tasks' : GraphTable} {workspaceId : WorkspaceId} {id child taskId : TaskId}
  {ids above : List TaskId}

variable {fuel : Nat}

theorem ParentChain.not_seen (h : ParentChain tasks workspaceId id ids) {seen : List TaskId}
    (hwalk : walkParents tasks workspaceId child fuel seen (some id) = .ok ()) :
    ∀ node ∈ ids, node ∉ seen := by
  induction h generalizing fuel seen with
  | @root id task hget hworkspace hparent =>
    intro node hnode
    obtain rfl := List.mem_singleton.mp hnode
    cases fuel with
    | zero => simp [walkParents] at hwalk
    | succ =>
      intro hseen
      simp [walkParents, hseen] at hwalk
  | @child id parent task ids hget hworkspace hparent hchain ih =>
    cases fuel with
    | zero => simp [walkParents] at hwalk
    | succ =>
      by_cases hseen : id ∈ seen
      · simp [walkParents, hseen] at hwalk
      · simp only [walkParents, hseen, if_false, hget, hworkspace, ne_eq, not_true_eq_false,
          hparent] at hwalk
        intro node hnode
        rcases List.mem_append.mp hnode with hold | hlast
        · exact fun hmem => ih hwalk node hold (List.mem_cons_of_mem _ hmem)
        · obtain rfl := List.mem_singleton.mp hlast
          exact hseen

theorem ParentChain.walkParents_ok (h : ParentChain tasks workspaceId id ids) {seen : List TaskId}
    (hseen : ∀ node ∈ ids, node ∉ seen) (hfuel : ids.length < fuel) :
    walkParents tasks workspaceId child fuel seen (some id) = .ok () := by
  have hnodup := h.nodup
  induction h generalizing fuel seen with
  | @root id task hget hworkspace hparent =>
    obtain ⟨fuel, rfl⟩ := Nat.exists_eq_add_of_lt hfuel
    have hnot := hseen id (by simp)
    simp [walkParents, hnot, hget, hworkspace, hparent]
  | @child id parent task ids hget hworkspace hparent hchain ih =>
    cases fuel with
    | zero => omega
    | succ =>
      have hnot := hseen id (by simp)
      obtain ⟨hold, -, hapart⟩ := List.nodup_append.mp hnodup
      simp only [walkParents, hnot, if_false, hget, hworkspace, ne_eq, not_true_eq_false,
        hparent]
      refine ih ?_ ?_ hold
      · intro node hnode hmem
        rcases List.mem_cons.mp hmem with rfl | hmem
        · exact hapart _ hnode _ (by simp) rfl
        · exact hseen node (List.mem_append_left _ hnode) hmem
      · simp only [List.length_append, List.length_singleton] at hfuel
        omega

theorem validateParentTask_iff {parent : TaskId} (h : ParentChain tasks workspaceId parent ids) :
    validateParentTask tasks workspaceId child (some parent) = .ok () ↔ child ∉ ids := by
  obtain ⟨task, -, -, hget, hworkspace, -⟩ := h.split h.self_mem
  unfold validateParentTask
  by_cases hself : parent = child
  · simp only [hself, if_true]
    constructor
    · intro h
      simp at h
    · exact fun hnot => absurd (hself ▸ h.self_mem) hnot
  · simp only [hself, if_false, hget, hworkspace, ne_eq, not_true_eq_false]
    constructor
    · intro hwalk hmem
      exact h.not_seen hwalk child hmem (by simp)
    · intro hnot
      refine h.walkParents_ok (fun node hnode hmem => ?_) (Nat.lt_succ_of_le h.length_le)
      obtain rfl := List.mem_singleton.mp hmem
      exact hnot hnode

theorem ParentChain.ancestors_eq (h : ParentChain tasks workspaceId id ids)
    (hfuel : ids.length < fuel) : ancestors tasks fuel (some id) = .ok ids.reverse := by
  induction h generalizing fuel with
  | @root id task hget _ hparent =>
    cases fuel with
    | zero => omega
    | succ fuel =>
      cases fuel <;> simp [ancestors, hget, hparent, Except.map]
  | @child id parent task ids hget _ hparent _ ih =>
    cases fuel with
    | zero => omega
    | succ fuel =>
      simp only [List.length_append, List.length_singleton] at hfuel
      have : ancestors tasks fuel (some parent) = .ok ids.reverse := ih (by omega)
      simp [ancestors, hget, hparent, this, Except.map]

/-- The fields place the task at the end of a chain that goes through `above`. -/
structure FieldsOk (tasks : GraphTable) (workspaceId : WorkspaceId) (taskId : TaskId)
    (fields : TreeFields) (above : List TaskId) : Prop where
  path : fields.path = slashPath (above ++ [taskId])
  root : (above ++ [taskId]).head? = some fields.rootTaskId
  apart : taskId ∉ above
  parent : (fields.parentTaskId = none ∧ above = []) ∨
    ∃ parent, fields.parentTaskId = some parent ∧ ParentChain tasks workspaceId parent above

theorem resolveTaskTreeFields_ok (h : TreeOk tasks workspaceId) {parent : Option TaskId}
    {fields : TreeFields}
    (hok : resolveTaskTreeFields tasks workspaceId taskId parent = .ok fields) :
    ∃ above, FieldsOk tasks workspaceId taskId fields above := by
  unfold resolveTaskTreeFields at hok
  split at hok
  · cases hok
    exact ⟨[], rfl, rfl, by simp, .inl ⟨rfl, rfl⟩⟩
  · next parentId htruthy =>
      obtain ⟨⟨⟩, hvalid, hok⟩ := Except.bind_ok_iff.mp hok
      obtain ⟨found, hfound, hok⟩ := Except.bind_ok_iff.mp hok
      obtain rfl := Except.pure_ok_iff.mp hok
      have hrow : ∃ row, tasks.get? parentId = some row ∧ row.workspaceId = workspaceId := by
        unfold validateParentTask at hvalid
        simp only at hvalid
        split at hvalid
        · simp at hvalid
        · split at hvalid
          · simp at hvalid
          · next row hget =>
              split at hvalid
              · simp at hvalid
              · next hws => exact ⟨row, hget, by simpa using hws⟩
      obtain ⟨row, hget, hworkspace⟩ := hrow
      obtain ⟨hmem, rfl⟩ := Table.get?_eq_some.mp hget
      obtain ⟨ids, hids, -, -⟩ := h.chains row hmem hworkspace
      obtain rfl : ids.reverse = found := by
        have := hids.ancestors_eq (Nat.lt_succ_of_le hids.length_le)
        exact Except.ok.inj (this.symm.trans hfound)
      have hroot : (ids ++ [taskId]).head? = some (ids.reverse.getLastD taskId) := by
        cases ids with
        | nil => exact absurd rfl hids.ne_nil
        | cons => simp
      exact ⟨ids, by simp, hroot, (validateParentTask_iff hids).mp hvalid, .inr ⟨_, rfl, hids⟩⟩

theorem FieldsOk.chain {fields : TreeFields} (h : FieldsOk tasks workspaceId taskId fields above)
    {task : GraphTask} (hget : tasks'.get? taskId = some task)
    (hworkspace : task.workspaceId = workspaceId) (hparent : task.parentTaskId = fields.parentTaskId)
    (habove : ∀ parent, ParentChain tasks workspaceId parent above →
      ParentChain tasks' workspaceId parent above) :
    ParentChain tasks' workspaceId taskId (above ++ [taskId]) := by
  rcases h.parent with ⟨hnone, rfl⟩ | ⟨parent, hsome, hchain⟩
  · exact .root hget hworkspace (hparent.trans hnone)
  · exact .child hget hworkspace (hparent.trans hsome) (habove parent hchain)

theorem TreeOk.insert (h : TreeOk tasks workspaceId) {task : GraphTask} {fields : TreeFields}
    (hnew : tasks.get? task.id = none) (hparent : task.parentTaskId = fields.parentTaskId)
    (hroot : task.rootTaskId = fields.rootTaskId) (hpath : task.path = fields.path)
    (hfields : task.workspaceId = workspaceId →
      ∃ above, FieldsOk tasks workspaceId task.id fields above) :
    TreeOk (tasks.insert task) workspaceId := by
  have hkeep : ∀ {parent ids}, ParentChain tasks workspaceId parent ids →
      ParentChain (tasks.insert task) workspaceId parent ids := by
    intro parent ids hchain
    refine hchain.transfer fun node _ row hget => ⟨row, ?_, rfl, rfl⟩
    have hne : node ≠ task.id := by
      rintro rfl
      rw [hnew] at hget
      simp at hget
    rw [Table.get?_insert_ne _ hne]
    exact hget
  constructor
  intro row hrow hworkspace
  rcases Table.mem_insert.mp hrow with rfl | ⟨hold, -⟩
  · obtain ⟨above, hok⟩ := hfields hworkspace
    refine ⟨above ++ [row.id], ?_, hpath.trans hok.path, ?_⟩
    · exact hok.chain (Table.get?_insert_self tasks row) hworkspace hparent fun _ => hkeep
    · rw [hroot]
      exact hok.root
  · obtain ⟨ids, hchain, hpath, hhead⟩ := h.chains row hold hworkspace
    exact ⟨ids, hkeep hchain, hpath, hhead⟩

theorem TreeOk.erase (h : TreeOk tasks workspaceId) {task : GraphTask}
    (hleaf : ∀ other ∈ tasks.rows, other.workspaceId = workspaceId → other.id ≠ task.id →
      ¬ Reaches tasks other.id task.id) : TreeOk (tasks.erase task.id) workspaceId := by
  constructor
  intro row hrow hworkspace
  obtain ⟨hold, hne⟩ := Table.mem_erase.mp hrow
  obtain ⟨ids, hchain, hpath, hhead⟩ := h.chains row hold hworkspace
  refine ⟨ids, hchain.transfer fun node hnode found hget => ⟨found, ?_, rfl, rfl⟩, hpath, hhead⟩
  have hother : node ≠ task.id := by
    rintro rfl
    exact hleaf row hold hworkspace hne (hchain.reaches_iff.mpr hnode)
  rw [Table.get?_erase, if_neg hother]
  exact hget

theorem TreeOk.congr (h : TreeOk tasks workspaceId)
    (hrows : ∀ task, task.workspaceId = workspaceId →
      (task ∈ tasks'.rows ↔ task ∈ tasks.rows)) : TreeOk tasks' workspaceId := by
  constructor
  intro row hrow hworkspace
  obtain ⟨ids, hchain, hpath, hhead⟩ := h.chains row ((hrows row hworkspace).mp hrow) hworkspace
  refine ⟨ids, hchain.transfer fun node hnode found hget => ⟨found, ?_, rfl, rfl⟩, hpath, hhead⟩
  obtain ⟨member, -, -, hmember, hws, -⟩ := hchain.split hnode
  cases hget.symm.trans hmember
  obtain ⟨hmem, hid⟩ := Table.get?_eq_some.mp hget
  exact Table.get?_eq_some.mpr ⟨(hrows found hws).mpr hmem, hid⟩

/-! ## Reparenting -/

theorem slashPath_concat (hne : ids ≠ []) (rest : List TaskId) (hrest : rest ≠ []) :
    slashPath (ids ++ rest) = slashPath ids ++ '/' :: slashPath rest := by
  unfold slashPath
  rw [List.map_append]
  exact Separated.joinWith_append (by simpa using hne) (by simpa using hrest)

theorem ParentChain.oldPath_eq (h : ParentChain tasks workspaceId id ids) {path : List Char}
    (hpath : path = slashPath ids) : (if path = [] then id.toList else path) = slashPath ids := by
  subst hpath
  split
  · next hempty =>
      cases h with
      | root => rfl
      | child hget hworkspace hparent hchain =>
        rw [slashPath_concat hchain.ne_nil _ (by simp)] at hempty
        simp at hempty
  · rfl

/-- A reparenting staged for a task on a well-formed tree. -/
structure Restaged (tasks : GraphTable) (task : GraphTask) (staged : StagedReparent)
    (old above : List TaskId) : Prop where
  tree : TreeOk tasks task.workspaceId
  clean : Slashless tasks
  mem : task ∈ tasks.rows
  chain : ParentChain tasks task.workspaceId task.id old
  taskId : staged.taskId = task.id
  fields : FieldsOk tasks task.workspaceId task.id staged.fields above
  descendants : staged.descendants = (tasks.rows.filter fun other =>
      (other.id ≠ task.id && other.workspaceId = task.workspaceId) &&
        (other.path = slashPath old || isUnder other.path (slashPath old))).map fun other =>
    (other.id, staged.fields.path ++ other.path.drop (slashPath old).length)

theorem reparentTask_ok {task : GraphTask} {parent : Option TaskId} {staged : StagedReparent}
    (htree : TreeOk tasks task.workspaceId) (hclean : Slashless tasks) (hmem : task ∈ tasks.rows)
    (h : reparentTask tasks task parent = .ok staged) :
    ∃ old above, Restaged tasks task staged old above := by
  obtain ⟨fields, hfields, rfl⟩ := Except.map_ok_iff.mp h
  obtain ⟨above, hok⟩ := resolveTaskTreeFields_ok htree hfields
  obtain ⟨old, hchain, hpath, -⟩ := htree.chains task hmem rfl
  refine ⟨old, above, htree, hclean, hmem, hchain, rfl, hok, ?_⟩
  simp only [hchain.oldPath_eq hpath]

namespace Restaged

variable {task other : GraphTask} {staged : StagedReparent} {old : List TaskId}

theorem apply_other (h : Restaged tasks task staged old above) (hother : other ∈ tasks.rows)
    (hne : other.id ≠ task.id) :
    staged.apply other =
      if other.workspaceId = task.workspaceId ∧ isUnder other.path (slashPath old) = true then
        { other with
          path := staged.fields.path ++ other.path.drop (slashPath old).length
          rootTaskId := staged.fields.rootTaskId }
      else other := by
  have hsame : other.workspaceId = task.workspaceId → other.path ≠ slashPath old := by
    intro hws hpath
    obtain ⟨ids, hids, hpath', -⟩ := h.tree.chains other hother hws
    have heq := slashPath_inj hids h.chain h.clean (hpath'.symm.trans hpath)
    subst heq
    exact hne (Option.some.inj (hids.last.symm.trans h.chain.last))
  unfold StagedReparent.apply
  rw [h.taskId, if_neg hne, h.descendants]
  rw [Table.lookup_listed tasks _ _ hother]
  by_cases hws : other.workspaceId = task.workspaceId
  · have hpath := hsame hws
    by_cases hunder : isUnder other.path (slashPath old) = true
    · simp [hne, hws, hunder]
    · simp [hne, hws, hunder, hpath]
  · simp [hws]

theorem apply_other_parent (h : Restaged tasks task staged old above) (hother : other ∈ tasks.rows)
    (hne : other.id ≠ task.id) : (staged.apply other).parentTaskId = other.parentTaskId := by
  rw [h.apply_other hother hne]
  split <;> rfl

theorem get?_applyAll (staged : StagedReparent) (tasks : GraphTable) (id : TaskId) :
    (staged.applyAll tasks).get? id = (tasks.get? id).map staged.apply :=
  Table.get?_map tasks staged.apply staged.apply_id id

section

variable (h : Restaged tasks task staged old above)
include h

theorem chain_kept (hchain : ParentChain tasks workspaceId id ids) (hnot : task.id ∉ ids) :
    ParentChain (staged.applyAll tasks) workspaceId id ids := by
  refine hchain.transfer fun node hnode row hget => ⟨staged.apply row, ?_, ?_, ?_⟩
  · rw [get?_applyAll, hget]
    rfl
  · exact staged.apply_workspaceId row
  · obtain ⟨hmem, rfl⟩ := Table.get?_eq_some.mp hget
    exact h.apply_other_parent hmem fun heq => hnot (heq ▸ hnode)

theorem chain_task :
    ParentChain (staged.applyAll tasks) task.workspaceId task.id (above ++ [task.id]) := by
  have hget : (staged.applyAll tasks).get? task.id = some (staged.apply task) := by
    rw [get?_applyAll, Table.get?_eq_some.mpr ⟨h.mem, rfl⟩]
    rfl
  refine h.fields.chain hget (staged.apply_workspaceId task) ?_ ?_
  · simp [StagedReparent.apply, h.taskId]
  · exact fun parent hchain => h.chain_kept hchain h.fields.apart

theorem chain_moved (hchain : ParentChain tasks task.workspaceId id ids) (hmem : task.id ∈ ids) :
    ∃ rest, ids = old ++ rest ∧
      ParentChain (staged.applyAll tasks) task.workspaceId id (above ++ [task.id] ++ rest) := by
  induction hchain with
  | @root id row hget hworkspace hparent =>
    obtain rfl := List.mem_singleton.mp hmem
    have heq := (ParentChain.root hget hworkspace hparent).unique h.chain
    exact ⟨[], by simp [heq], by simpa using h.chain_task⟩
  | @child id parent row ids hget hworkspace hparent hchain ih =>
    by_cases hself : id = task.id
    · subst hself
      have heq := (ParentChain.child hget hworkspace hparent hchain).unique h.chain
      exact ⟨[], by simp [heq], by simpa using h.chain_task⟩
    · have habove : task.id ∈ ids := by
        rcases List.mem_append.mp hmem with hold | hlast
        · exact hold
        · exact absurd (List.mem_singleton.mp hlast).symm hself
      obtain ⟨rest, rfl, hnew⟩ := ih habove
      obtain ⟨hrow, hid⟩ := Table.get?_eq_some.mp hget
      refine ⟨rest ++ [id], by simp, ?_⟩
      rw [← List.append_assoc]
      refine @ParentChain.child _ _ _ _ (staged.apply row) _ ?_ ?_ ?_ hnew
      · rw [get?_applyAll, hget]
        rfl
      · exact (staged.apply_workspaceId row).trans hworkspace
      · rw [h.apply_other_parent hrow (hid ▸ hself)]
        exact hparent

theorem treeOk : TreeOk (staged.applyAll tasks) task.workspaceId := by
  constructor
  intro row hrow hworkspace
  obtain ⟨before, hbefore, rfl⟩ := List.mem_map.mp hrow
  rw [staged.apply_workspaceId] at hworkspace
  rw [staged.apply_id]
  obtain ⟨ids, hchain, hpath, hhead⟩ := h.tree.chains before hbefore hworkspace
  by_cases hself : before.id = task.id
  · obtain rfl := Table.eq_of_mem hbefore h.mem hself
    refine ⟨above ++ [before.id], h.chain_task, ?_, ?_⟩
    · simpa [StagedReparent.apply, h.taskId] using h.fields.path
    · simpa [StagedReparent.apply, h.taskId] using h.fields.root
  · rw [h.apply_other hbefore hself]
    have hunder := isUnder_iff_mem h.chain hchain h.clean hself
    by_cases hmem : task.id ∈ ids
    · obtain ⟨rest, rfl, hnew⟩ := h.chain_moved hchain hmem
      have hrest : rest ≠ [] := by
        rintro rfl
        rw [List.append_nil] at hchain
        exact hself (Option.some.inj (hchain.last.symm.trans h.chain.last))
      rw [if_pos ⟨hworkspace, by rw [hpath]; exact hunder.mpr hmem⟩]
      refine ⟨above ++ [task.id] ++ rest, hnew, ?_, ?_⟩
      · rw [hpath, slashPath_concat h.chain.ne_nil rest hrest, List.drop_left, h.fields.path,
          slashPath_concat (by simp) rest hrest]
      · have hroot := h.fields.root
        rw [List.head?_append, hroot]
        rfl
    · rw [if_neg (by rw [hpath]; exact fun hboth => hmem (hunder.mp hboth.2))]
      exact ⟨ids, h.chain_kept hchain hmem, hpath, hhead⟩

theorem treeOk_other (hother : workspaceId ≠ task.workspaceId) (htree : TreeOk tasks workspaceId) :
    TreeOk (staged.applyAll tasks) workspaceId := by
  have happly : ∀ row ∈ tasks.rows, row.workspaceId = workspaceId → staged.apply row = row := by
    intro row hrow hws
    have hne : row.id ≠ task.id := by
      intro heq
      obtain rfl := Table.eq_of_mem hrow h.mem heq
      exact hother hws.symm
    rw [h.apply_other hrow hne, if_neg]
    exact fun hboth => hother (hws.symm.trans hboth.1)
  refine htree.congr fun row hws => ?_
  constructor
  · intro hrow
    obtain ⟨before, hbefore, rfl⟩ := List.mem_map.mp hrow
    rw [staged.apply_workspaceId] at hws
    rw [happly before hbefore hws]
    exact hbefore
  · intro hrow
    exact List.mem_map.mpr ⟨row, hrow, happly row hrow hws⟩

end

end Restaged

end ClaudeHub.TaskGraph
