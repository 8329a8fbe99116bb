import ClaudeHub.Subagents.Effects

/-! # Where a running turn is

A turn that runs waits for its save, or has a task that has not written its status. A record
has one such turn at most, since a turn is only appended where none runs.
-/

namespace ClaudeHub

open StepSystem

namespace SubagentService

variable {service next : SubagentService} {id : SubagentId} {turnId : TurnId}

theorem Exclusive.of_records (h : service.Exclusive)
    (hrecords : ∀ record ∈ next.records.rows, ∃ before ∈ service.records.rows,
      record.runningTurns.length ≤ before.runningTurns.length) : next.Exclusive := by
  intro record hmem
  obtain ⟨before, hbefore, hlength⟩ := hrecords record hmem
  exact Nat.le_trans hlength (h before hbefore)

theorem Exclusive.of_same (h : service.Exclusive) (hrecords : next.records = service.records) :
    next.Exclusive := by
  intro record hmem
  rw [hrecords] at hmem
  exact h record hmem

theorem Exclusive.editTurns (h : service.Exclusive) {f : List SubagentTurn → List SubagentTurn}
    (hf : ∀ turns, ((f turns).filter fun turn => turn.status = .running).length ≤
      (turns.filter fun turn => turn.status = .running).length) :
    (service.editTurns id f).Exclusive := by
  apply h.of_records
  intro record hmem
  obtain ⟨before, hbefore, rfl⟩ := List.mem_map.mp hmem
  refine ⟨before, hbefore, ?_⟩
  split
  · simpa [Subagent.runningTurns] using hf before.turns
  · exact Nat.le_refl _

theorem Exclusive.appendTurn (h : service.Exclusive) {turn : SubagentTurn} {origin : TurnOrigin}
    (hnone : ∀ record, service.records.get? id = some record → record.runningTurns = []) :
    (service.appendTurn id turn origin).Exclusive := by
  intro record hmem
  obtain ⟨before, hbefore, rfl⟩ := List.mem_map.mp hmem
  split
  · next hid =>
      have hempty := hnone before (Table.get?_eq_some.mpr ⟨hbefore, hid⟩)
      have hlength : (before.turns.filter fun turn => turn.status = .running) = [] := by
        simpa [Subagent.runningTurns] using hempty
      simp only [Subagent.runningTurns, List.filter_append, hlength, List.nil_append,
        List.length_map]
      exact List.length_filter_le _ _
  · exact h before hbefore

theorem length_running_writeStatus {status : SubagentTurnStatus} (h : status ≠ .running)
    (turns : List SubagentTurn) :
    ((writeStatus turnId status turns).filter fun turn => turn.status = .running).length ≤
      (turns.filter fun turn => turn.status = .running).length := by
  unfold writeStatus
  rw [List.filter_map, List.length_map]
  apply List.Sublist.length_le
  apply List.monotone_filter_right
  intro turn hturn
  simp only [Function.comp] at hturn
  split at hturn
  · simp [h] at hturn
  · exact hturn

theorem exclusive_step {op : SubagentOp} (h : service.Exclusive)
    (hstep : service.step op = some next) : next.Exclusive := by
  cases effect_of_step hstep with
  | bookkeeping h' => exact h.of_same h'.records
  | closing h' => exact h.of_same h'.records
  | sent middle h' hrecord hnone =>
    apply (h.of_same h'.records).appendTurn
    intro record' hrecord'
    rw [h'.records, hrecord] at hrecord'
    cases hrecord'
    exact hnone
  | opened middle h' hturns =>
    have hnone : ∀ {record : Subagent}, record.turns = [] → record.runningTurns = [] := by
      intro record hempty
      simp [Subagent.runningTurns, hempty]
    apply Exclusive.appendTurn
    · intro record' hmem
      rcases Table.mem_insert.mp hmem with rfl | ⟨hold, -⟩
      · simp [hnone hturns]
      · exact h record' hold
    · intro record' hrecord'
      rw [Table.get?_insert_self] at hrecord'
      cases hrecord'
      exact hnone hturns
  | spawned _ _ _ h' => exact h.of_same h'.records
  | unsent _ h' =>
    refine Exclusive.of_same (Exclusive.editTurns (h.of_same rfl) ?_) h'.records
    intro turns
    exact (List.filter_sublist.filter _).length_le
  | discarded _ h' =>
    apply h.of_records
    intro record hmem
    rw [h'.records] at hmem
    exact ⟨record, (Table.mem_erase.mp hmem).1, Nat.le_refl _⟩
  | finished _ _ hstatus =>
    apply Exclusive.of_same (h.editTurns (length_running_writeStatus hstatus))
    rfl
  | ended _ _ h' => exact h.of_same h'.records
  | pruned =>
    apply h.of_records
    intro record hmem
    obtain ⟨before, hbefore, rfl⟩ := List.mem_map.mp hmem
    refine ⟨before, hbefore, ?_⟩
    split
    · exact Nat.le_of_eq (congrArg List.length (Subagent.runningTurns_trimTurns before))
    · exact Nat.le_refl _
  | closed _ _ =>
    apply h.of_records
    intro record hmem
    obtain ⟨before, hbefore, rfl⟩ := List.mem_map.mp hmem
    refine ⟨before, hbefore, ?_⟩
    split <;> exact Nat.le_refl _
  | neverBegan _ _ | begun _ _ | cancelReturned _ _ _ _ | cancelJoins _ _ _ | cancelJoined _ _
  | cancelAbandoned | stopping | stopJoined _ _ | stopped _ | stopAbandoned => exact h.of_same rfl

variable {k : SubagentId}

theorem running_editTurns {f : List SubagentTurn → List SubagentTurn} :
    (service.editTurns id f).Running k turnId ↔ ∃ record, service.records.get? k = some record ∧
      turnId ∈ (if k = id then { record with turns := f record.turns } else record).runningTurns := by
  unfold Running editTurns
  simp only [Table.get?_map]
  constructor
  · rintro ⟨edited, hedited, hmem⟩
    obtain ⟨record, hrecord, rfl⟩ := Option.map_eq_some_iff.mp hedited
    obtain rfl : record.id = k := Table.key_of_get? hrecord
    exact ⟨record, hrecord, hmem⟩
  · rintro ⟨record, hrecord, hmem⟩
    obtain rfl : record.id = k := Table.key_of_get? hrecord
    exact ⟨_, Option.map_eq_some_iff.mpr ⟨record, hrecord, rfl⟩, hmem⟩

theorem running_appendTurn {turn : SubagentTurn} {origin : TurnOrigin}
    (h : (service.appendTurn id turn origin).Running k turnId) :
    service.Running k turnId ∨ k = id ∧ turnId = turn.turnId := by
  have hedited : (service.editTurns id (· ++ [turn])).Running k turnId := h
  obtain ⟨record, hrecord, hmem⟩ := running_editTurns.1 hedited
  split at hmem
  · next hk =>
      obtain ⟨found, hfound, hstatus, hid⟩ := Subagent.mem_runningTurns.mp hmem
      rcases List.mem_append.mp hfound with hold | hnew
      · exact .inl ⟨record, hrecord, Subagent.mem_runningTurns.mpr ⟨found, hold, hstatus, hid⟩⟩
      · obtain rfl := List.mem_singleton.mp hnew
        exact .inr ⟨hk, hid.symm⟩
  · exact .inl ⟨record, hrecord, hmem⟩

theorem running_dropTurn {turn : TurnId}
    (h : (service.editTurns id (·.filter fun other => other.turnId ≠ turn)).Running k turnId) :
    service.Running k turnId ∧ ¬ (k = id ∧ turnId = turn) := by
  obtain ⟨record, hrecord, hmem⟩ := running_editTurns.1 h
  split at hmem
  · obtain ⟨found, hfound, hstatus, hid⟩ := Subagent.mem_runningTurns.mp hmem
    obtain ⟨hold, hne⟩ := List.mem_filter.mp hfound
    have hne : found.turnId ≠ turn := by simpa using hne
    refine ⟨⟨record, hrecord, Subagent.mem_runningTurns.mpr ⟨found, hold, hstatus, hid⟩⟩, ?_⟩
    rintro ⟨-, rfl⟩
    exact hne hid
  · next hk => exact ⟨⟨record, hrecord, hmem⟩, fun hboth => hk hboth.1⟩

theorem running_writeStatus {status : SubagentTurnStatus} (hstatus : status ≠ .running)
    {turn : TurnId} (h : (service.editTurns id (writeStatus turn status)).Running k turnId) :
    service.Running k turnId ∧ ¬ (k = id ∧ turnId = turn) := by
  obtain ⟨record, hrecord, hmem⟩ := running_editTurns.1 h
  split at hmem
  · obtain ⟨found, hfound, hrunning, hid⟩ := Subagent.mem_runningTurns.mp hmem
    obtain ⟨old, hold, rfl⟩ := List.mem_map.mp hfound
    split at hrunning
    · exact absurd hrunning hstatus
    · next hne =>
        rw [if_neg hne] at hid
        refine ⟨⟨record, hrecord, Subagent.mem_runningTurns.mpr ⟨old, hold, hrunning, hid⟩⟩, ?_⟩
        rintro ⟨-, rfl⟩
        exact hne hid
  · next hk => exact ⟨⟨record, hrecord, hmem⟩, fun hboth => hk hboth.1⟩

theorem running_discard (hrecords : next.records = service.records.erase id)
    (h : next.Running k turnId) : service.Running k turnId ∧ k ≠ id := by
  obtain ⟨record, hrecord, hmem⟩ := h
  rw [hrecords, Table.get?_erase] at hrecord
  obtain ⟨hk, hrecord⟩ := Option.ite_none_left_eq_some.mp hrecord
  exact ⟨⟨record, hrecord, hmem⟩, hk⟩

theorem running_newRecord {record : Subagent} (hturns : record.turns = [])
    (hrecords : next.records = service.records.insert record) (h : next.Running k turnId) :
    service.Running k turnId := by
  obtain ⟨found, hfound, hmem⟩ := h
  rw [hrecords, Table.get?_insert] at hfound
  split at hfound
  · cases hfound
    simp [Subagent.runningTurns, hturns] at hmem
  · exact ⟨found, hfound, hmem⟩

theorem running_prune {now : Time} (h : (service.prune now).Running k turnId) :
    service.Running k turnId := by
  obtain ⟨trimmed, htrimmed, hmem⟩ := h
  unfold prune at htrimmed
  rw [Table.get?_map] at htrimmed
  obtain ⟨record, hrecord, rfl⟩ := Option.map_eq_some_iff.mp htrimmed
  refine ⟨record, hrecord, ?_⟩
  split at hmem
  · rwa [Subagent.runningTurns_trimTurns] at hmem
  · exact hmem

theorem running_setClosed {row : Closing} {now : Time}
    (h : (service.setClosed row now).Running k turnId) : service.Running k turnId := by
  obtain ⟨closed, hclosed, hmem⟩ := h
  unfold setClosed at hclosed
  rw [Table.get?_map] at hclosed
  obtain ⟨record, hrecord, rfl⟩ := Option.map_eq_some_iff.mp hclosed
  refine ⟨record, hrecord, ?_⟩
  split at hmem <;> exact hmem

/-! ## The stage of every running turn -/

structure Staged (service : SubagentService) : Prop where
  running : ∀ id turnId, service.Running id turnId →
    (service.unsaved.get? turnId).map UnsavedTurn.subagentId = some id ∨
      ∃ stage, service.stageOf turnId = some (id, stage) ∧
        (stage = .spawned ∨ stage = .executing ∨ stage = .neverBegan)
  registered : ∀ id turnId stage, service.stageOf turnId = some (id, stage) →
    stage = .spawned ∨ stage = .executing → turnId ∈ service.tasks
  apart : ∀ turnId, (service.unsaved.get? turnId).isSome → service.stageOf turnId = none
  unsavedMinted : ∀ turnId, (service.unsaved.get? turnId).isSome → turnId ∈ service.minted
  stageMinted : ∀ turnId, (service.stageOf turnId).isSome → turnId ∈ service.minted
  recordMinted : ∀ id, (service.records.get? id).isSome → id ∈ service.minted

namespace Staged

theorem same (h : service.Staged) (hrecords : next.records = service.records)
    (hstageOf : ∀ turnId, next.stageOf turnId = service.stageOf turnId)
    (htasks : next.tasks = service.tasks) (hunsaved : next.unsaved = service.unsaved)
    (hminted : next.minted = service.minted) : next.Staged where
  running id turnId hrunning := by
    rw [hunsaved, hstageOf]
    exact h.running id turnId ((running_congr hrecords).mp hrunning)
  registered id turnId stage hstage hlive := by
    rw [htasks]
    exact h.registered id turnId stage (hstageOf turnId ▸ hstage) hlive
  apart turnId hwaits := by
    rw [hstageOf]
    exact h.apart turnId (hunsaved ▸ hwaits)
  unsavedMinted turnId hwaits := by
    rw [hminted]
    exact h.unsavedMinted turnId (hunsaved ▸ hwaits)
  stageMinted turnId hstage := by
    rw [hminted]
    exact h.stageMinted turnId (hstageOf turnId ▸ hstage)
  recordMinted id hrecord := by
    rw [hminted]
    exact h.recordMinted id (hrecords ▸ hrecord)

theorem aside (h : service.Staged) (h' : Aside service next) : next.Staged :=
  h.same h'.records h'.stageOf h'.tasks h'.unsaved h'.minted

theorem runningMinted (h : service.Staged) (hrunning : service.Running id turnId) :
    turnId ∈ service.minted := by
  rcases h.running id turnId hrunning with hunsaved | ⟨stage, hstage, -⟩
  · apply h.unsavedMinted
    obtain ⟨turn, hturn, -⟩ := Option.map_eq_some_iff.mp hunsaved
    simp [hturn]
  · apply h.stageMinted
    simp [hstage]

theorem appendTurn (h : service.Staged) {turn : SubagentTurn} {origin : TurnOrigin}
    (hfresh : turn.turnId ∉ service.minted) : (service.appendTurn id turn origin).Staged where
  running k turnId hrunning := by
    show ((service.unsaved.insert ⟨turn.turnId, id, origin⟩).get? turnId).map _ = _ ∨ _
    rw [Table.get?_insert]
    rcases running_appendTurn hrunning with hold | ⟨rfl, rfl⟩
    · have hne : turnId ≠ turn.turnId := fun heq => hfresh (heq ▸ h.runningMinted hold)
      rw [if_neg hne]
      exact h.running k turnId hold
    · exact .inl (by simp)
  registered := h.registered
  apart turnId hunsaved := by
    have hunsaved : ((service.unsaved.insert ⟨turn.turnId, id, origin⟩).get? turnId).isSome = true :=
      hunsaved
    rw [Table.get?_insert] at hunsaved
    show service.stageOf turnId = none
    split at hunsaved
    · next heq =>
        by_contra hsome
        have hminted := h.stageMinted turnId (Option.isSome_iff_ne_none.mpr hsome)
        rw [heq] at hminted
        exact hfresh hminted
    · exact h.apart turnId hunsaved
  unsavedMinted turnId hunsaved := by
    have hunsaved : ((service.unsaved.insert ⟨turn.turnId, id, origin⟩).get? turnId).isSome = true :=
      hunsaved
    rw [Table.get?_insert] at hunsaved
    show turnId ∈ turn.turnId :: service.minted
    split at hunsaved
    · next heq => exact heq ▸ List.mem_cons_self
    · exact List.mem_cons_of_mem _ (h.unsavedMinted turnId hunsaved)
  stageMinted turnId hstage := List.mem_cons_of_mem _ (h.stageMinted turnId hstage)
  recordMinted k hrecord := by
    apply List.mem_cons_of_mem
    apply h.recordMinted
    unfold SubagentService.appendTurn editTurns at hrecord
    rwa [Table.get?_map, Option.isSome_map] at hrecord

theorem setTask (h : service.Staged) {task : TurnTask} {stage : TurnTaskStage}
    (htask : service.turnTasks.get? task.turnId = some task)
    (hrecords : ∀ k, (next.records.get? k).isSome → (service.records.get? k).isSome)
    (hunsaved : next.unsaved = service.unsaved) (hminted : next.minted = service.minted)
    (hstages : next.turnTasks = service.turnTasks.insert { task with stage := stage })
    (htasks : ∀ turnId ∈ service.tasks, turnId ≠ task.turnId → turnId ∈ next.tasks)
    (hrunning : ∀ k turnId, next.Running k turnId → service.Running k turnId ∧
      (turnId = task.turnId → k = task.subagentId →
        stage = .spawned ∨ stage = .executing ∨ stage = .neverBegan))
    (hregistered : stage = .spawned ∨ stage = .executing → task.turnId ∈ next.tasks) :
    next.Staged := by
  have hstageOf : ∀ turnId, next.stageOf turnId =
      if turnId = task.turnId then some (task.subagentId, stage) else service.stageOf turnId := by
    intro turnId
    unfold stageOf
    rw [hstages, stageOf_insert]
    rfl
  constructor
  · intro k turnId hruns
    obtain ⟨hold, hlive⟩ := hrunning k turnId hruns
    rw [hunsaved, hstageOf]
    rcases h.running k turnId hold with hwaits | ⟨old, hstage, hkind⟩
    · exact .inl hwaits
    · right
      by_cases heq : turnId = task.turnId
      · rw [if_pos heq]
        rw [heq, stageOf_of_get? htask] at hstage
        obtain ⟨hid, -⟩ := Prod.mk.inj (Option.some.inj hstage)
        exact ⟨stage, by rw [hid], hlive heq hid.symm⟩
      · rw [if_neg heq]
        exact ⟨old, hstage, hkind⟩
  · intro k turnId found hfound hlive
    rw [hstageOf] at hfound
    split at hfound
    · next heq =>
        obtain ⟨-, rfl⟩ := Prod.mk.inj (Option.some.inj hfound)
        exact heq ▸ hregistered hlive
    · next hne => exact htasks turnId (h.registered k turnId found hfound hlive) hne
  · intro turnId hwaits
    rw [hunsaved] at hwaits
    have hnone := h.apart turnId hwaits
    rw [hstageOf, if_neg]
    · exact hnone
    · rintro rfl
      rw [stageOf_of_get? htask] at hnone
      cases hnone
  · intro turnId hwaits
    rw [hminted]
    exact h.unsavedMinted turnId (hunsaved ▸ hwaits)
  · intro turnId hsome
    rw [hminted]
    rw [hstageOf] at hsome
    apply h.stageMinted
    split at hsome
    · next heq => simp [heq, stageOf_of_get? htask]
    · exact hsome
  · intro k hsome
    rw [hminted]
    exact h.recordMinted k (hrecords k hsome)

theorem dropUnsaved (h : service.Staged) {turn : UnsavedTurn}
    (hunsaved : service.unsaved.get? turn.turnId = some turn)
    (hrecords : ∀ k, (next.records.get? k).isSome → (service.records.get? k).isSome)
    (hstages : ∀ turnId, next.stageOf turnId = service.stageOf turnId)
    (htasks : next.tasks = service.tasks) (hminted : next.minted = service.minted)
    (herased : next.unsaved = service.unsaved.erase turn.turnId)
    (hrunning : ∀ k turnId, next.Running k turnId →
      service.Running k turnId ∧ ¬ (k = turn.subagentId ∧ turnId = turn.turnId)) :
    next.Staged := by
  have hwaits : ∀ turnId, (next.unsaved.get? turnId).isSome →
      (service.unsaved.get? turnId).isSome := by
    intro turnId hsome
    rw [herased, Table.get?_erase] at hsome
    split at hsome
    · cases hsome
    · exact hsome
  constructor
  · intro k turnId hruns
    obtain ⟨hold, hother⟩ := hrunning k turnId hruns
    rw [herased, hstages, Table.get?_erase]
    rcases h.running k turnId hold with hwaiting | hstage
    · left
      rw [if_neg]
      · exact hwaiting
      · rintro rfl
        rw [hunsaved] at hwaiting
        exact hother ⟨(Option.some.inj hwaiting).symm, rfl⟩
    · exact .inr hstage
  · intro k turnId stage hstage hlive
    rw [htasks]
    exact h.registered k turnId stage (hstages turnId ▸ hstage) hlive
  · intro turnId hsome
    rw [hstages]
    exact h.apart turnId (hwaits turnId hsome)
  · intro turnId hsome
    rw [hminted]
    exact h.unsavedMinted turnId (hwaits turnId hsome)
  · intro turnId hsome
    rw [hminted]
    exact h.stageMinted turnId (hstages turnId ▸ hsome)
  · intro k hsome
    rw [hminted]
    exact h.recordMinted k (hrecords k hsome)

theorem stageOf_spawn (turn : UnsavedTurn) (turnId : TurnId) :
    (service.spawn turn).stageOf turnId =
      if turnId = turn.turnId then some (turn.subagentId, .spawned) else service.stageOf turnId :=
  stageOf_insert service { turnId := turn.turnId, subagentId := turn.subagentId } turnId

theorem spawn (h : service.Staged) {turn : UnsavedTurn}
    (hunsaved : service.unsaved.get? turn.turnId = some turn) :
    ({ service with unsaved := service.unsaved.erase turn.turnId }.spawn turn).Staged where
  running k turnId hrunning := by
    have hold : service.Running k turnId := hrunning
    show ((service.unsaved.erase turn.turnId).get? turnId).map _ = _ ∨ _
    rw [Table.get?_erase, stageOf_spawn]
    by_cases heq : turnId = turn.turnId
    · right
      rw [if_pos heq]
      rcases h.running k turnId hold with hwaits | ⟨stage, hstage, -⟩
      · rw [heq, hunsaved] at hwaits
        exact ⟨.spawned, by rw [← Option.some.inj hwaits], .inl rfl⟩
      · rw [heq, h.apart turn.turnId (by simp [hunsaved])] at hstage
        cases hstage
    · rw [if_neg heq, if_neg heq]
      exact h.running k turnId hold
  registered k turnId stage hstage hlive := by
    rw [stageOf_spawn] at hstage
    show turnId ∈ service.tasks ++ [turn.turnId]
    split at hstage
    · next heq => simp [heq]
    · exact List.mem_append_left _ (h.registered k turnId stage hstage hlive)
  apart turnId hsome := by
    have hsome : (((service.unsaved.erase turn.turnId).get? turnId).isSome) = true := hsome
    rw [Table.get?_erase] at hsome
    rw [stageOf_spawn]
    split at hsome
    · cases hsome
    · next hne =>
        rw [if_neg hne]
        exact h.apart turnId hsome
  unsavedMinted turnId hsome := by
    have hsome : (((service.unsaved.erase turn.turnId).get? turnId).isSome) = true := hsome
    rw [Table.get?_erase] at hsome
    split at hsome
    · cases hsome
    · exact h.unsavedMinted turnId hsome
  stageMinted turnId hsome := by
    rw [stageOf_spawn] at hsome
    split at hsome
    · next heq =>
        rw [heq]
        exact h.unsavedMinted turn.turnId (by simp [hunsaved])
    · exact h.stageMinted turnId hsome
  recordMinted := h.recordMinted

theorem records (h : service.Staged) (hstageOf : ∀ turnId, next.stageOf turnId = service.stageOf turnId)
    (htasks : next.tasks = service.tasks) (hunsaved : next.unsaved = service.unsaved)
    (hminted : ∀ used ∈ service.minted, used ∈ next.minted)
    (hrecords : ∀ k, (next.records.get? k).isSome → k ∈ next.minted)
    (hrunning : ∀ k turnId, next.Running k turnId → service.Running k turnId) : next.Staged := by
  constructor
  · intro k turnId hruns
    rw [hunsaved, hstageOf]
    exact h.running k turnId (hrunning k turnId hruns)
  · intro k turnId stage hstage hlive
    rw [htasks]
    exact h.registered k turnId stage (hstageOf turnId ▸ hstage) hlive
  · intro turnId hsome
    rw [hstageOf]
    exact h.apart turnId (hunsaved ▸ hsome)
  · intro turnId hsome
    exact hminted turnId (h.unsavedMinted turnId (hunsaved ▸ hsome))
  · intro turnId hsome
    exact hminted turnId (h.stageMinted turnId (hstageOf turnId ▸ hsome))
  · exact hrecords

theorem step (h : service.Staged) {op : SubagentOp} (hstep : service.step op = some next) :
    next.Staged := by
  cases effect_of_step hstep with
  | bookkeeping h' => exact h.aside h'.toAside
  | closing h' => exact h.aside h'
  | sent middle h' =>
    apply (h.aside h'.toAside).appendTurn
    rwa [h'.minted]
  | @opened middle record turn origin h' hturns _ hid hfresh hne =>
    apply Staged.appendTurn
    · refine h.records ?_ ?_ ?_ ?_ ?_ ?_
      · exact h'.stageOf
      · exact h'.tasks
      · exact h'.unsaved
      · intro used hused
        exact List.mem_cons_of_mem _ hused
      · intro k hsome
        have hsome : ((service.records.insert record).get? k).isSome = true := hsome
        rw [Table.get?_insert] at hsome
        split at hsome
        · next heq => exact heq ▸ List.mem_cons_self
        · exact List.mem_cons_of_mem _ (h.recordMinted k hsome)
      · exact fun k turnId => running_newRecord hturns rfl
    · simp only [List.mem_cons, not_or]
      exact ⟨fun heq => hne heq.symm, hfresh⟩
  | spawned hunsaved _ _ h' => exact (h.spawn hunsaved).aside h'.toAside
  | unsent hunsaved h' =>
    apply Staged.aside _ h'.toAside
    refine h.dropUnsaved hunsaved ?_ (fun _ => rfl) rfl rfl rfl ?_
    · intro k hsome
      unfold editTurns at hsome
      rwa [Table.get?_map, Option.isSome_map] at hsome
    · exact fun k turnId => running_dropTurn
  | @discarded _ turn hunsaved h' =>
    apply Staged.aside _ h'.toAside
    refine h.dropUnsaved hunsaved ?_ (fun _ => rfl) rfl rfl rfl ?_
    · intro k hsome
      have hsome : ((service.records.erase turn.subagentId).get? k).isSome = true := hsome
      rw [Table.get?_erase] at hsome
      split at hsome
      · cases hsome
      · exact hsome
    · intro k turnId hrunning
      obtain ⟨hold, hne⟩ := running_discard rfl hrunning
      exact ⟨hold, fun hboth => hne hboth.1⟩
  | neverBegan htask =>
    refine h.setTask htask (fun _ hsome => hsome) rfl rfl rfl (fun _ hmem _ => hmem) ?_ ?_
    · exact fun k turnId hrunning => ⟨hrunning, fun _ _ => .inr (.inr rfl)⟩
    · rintro (hlive | hlive) <;> cases hlive
  | begun htask hstage =>
    refine h.setTask htask (fun _ hsome => hsome) rfl rfl rfl (fun _ hmem _ => hmem) ?_ ?_
    · exact fun k turnId hrunning => ⟨hrunning, fun _ _ => .inr (.inl rfl)⟩
    · intro _
      exact h.registered _ _ _ (stageOf_of_get? htask) (.inl hstage)
  | finished htask hstage hstatus =>
    refine h.setTask htask ?_ rfl rfl rfl ?_ ?_ ?_
    · intro k hsome
      have hsome : (((service.editTurns _ _).records.get? k).isSome) = true := hsome
      unfold editTurns at hsome
      rwa [Table.get?_map, Option.isSome_map] at hsome
    · intro turnId hmem hne
      exact List.mem_filter.mpr ⟨hmem, by simpa using hne⟩
    · intro k turnId hrunning
      obtain ⟨hold, hother⟩ := running_writeStatus hstatus hrunning
      exact ⟨hold, fun hturn hk => absurd ⟨hk, hturn⟩ hother⟩
    · rintro (hlive | hlive) <;> cases hlive
  | ended htask hstage h' =>
    apply Staged.aside _ h'.toAside
    refine h.setTask htask (fun _ hsome => hsome) rfl rfl rfl (fun _ hmem _ => hmem) ?_ ?_
    · intro k turnId hrunning
      refine ⟨hrunning, ?_⟩
      rintro rfl rfl
      rcases h.running _ _ hrunning with hwaits | ⟨old, hold, hlive⟩
      · have hnone := h.apart _ (by
          obtain ⟨turn, hturn, -⟩ := Option.map_eq_some_iff.mp hwaits
          exact Option.isSome_iff_exists.mpr ⟨turn, hturn⟩)
        rw [stageOf_of_get? htask] at hnone
        cases hnone
      · rw [stageOf_of_get? htask, hstage] at hold
        obtain ⟨-, rfl⟩ := Prod.mk.inj (Option.some.inj hold)
        rcases hlive with hlive | hlive | hlive <;> cases hlive
    · rintro (hlive | hlive) <;> cases hlive
  | cancelReturned =>
    exact h.same rfl (Aside.requestCancel service []).stageOf rfl rfl rfl
  | @cancelJoins record turnId _ _ _ =>
    exact h.same rfl (Aside.requestCancel service (service.runningTasks record turnId)).stageOf
      rfl rfl rfl
  | stopping => exact h.same rfl (Aside.requestCancel service _).stageOf rfl rfl rfl
  | pruned =>
    refine h.records (fun _ => rfl) rfl rfl (fun _ hused => hused) ?_ (fun _ _ => running_prune)
    intro k hsome
    apply h.recordMinted
    unfold prune at hsome
    rwa [Table.get?_map, Option.isSome_map] at hsome
  | closed _ _ =>
    refine h.records (fun _ => rfl) rfl rfl (fun _ hused => hused) ?_ (fun _ _ => running_setClosed)
    intro k hsome
    apply h.recordMinted
    unfold setClosed at hsome
    rwa [Table.get?_map, Option.isSome_map] at hsome
  | cancelJoined _ _ | cancelAbandoned | stopJoined _ _ | stopped _ | stopAbandoned =>
    exact h.same rfl (fun _ => rfl) rfl rfl rfl

end Staged

end SubagentService

end ClaudeHub
