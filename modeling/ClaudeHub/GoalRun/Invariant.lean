import ClaudeHub.GoalRun.Shapes

/-! # The invariant of the Goal controller -/

namespace ClaudeHub

/-- No write moves a goal to another tab or changes when it was created. -/
structure GoalRun.SameGoal (goal next : GoalRun) : Prop where
  id : next.id = goal.id
  tabId : next.tabId = goal.tabId
  createdAt : next.createdAt = goal.createdAt

theorem GoalMove.sameGoal {event : GoalEvent} {goal next : GoalRun}
    (hmove : GoalMove event goal next) : goal.SameGoal next := by
  cases hmove with
  | counted _ _ _ _ hcounted => exact ⟨hcounted.id, hcounted.tabId, hcounted.createdAt⟩
  | recovered now hrecovered =>
    have h := GoalRun.recovered_spec hrecovered
    exact ⟨h.id, h.tabId, h.createdAt⟩
  | _ => exact ⟨rfl, rfl, rfl⟩

variable {writes : List GoalWrite}

theorem GoalPath.sameGoal {goal last : GoalRun} (hpath : GoalPath goal writes last) :
    goal.SameGoal last := by
  induction hpath with
  | nil => exact ⟨rfl, rfl, rfl⟩
  | cons hmove _ ih =>
    have h := hmove.sameGoal
    exact ⟨ih.id.trans h.id, ih.tabId.trans h.tabId, ih.createdAt.trans h.createdAt⟩

theorem GoalPath.wellFormed {goal last : GoalRun} (hpath : GoalPath goal writes last)
    (h : goal.WellFormed) : last.WellFormed :=
  hpath.invariant (fun _ _ _ _ hmove hgoal => hmove.wellFormed hgoal) h

theorem GoalMove.step_eq {event : GoalEvent} {goal next : GoalRun} {step : TurnId}
    (hmove : GoalMove event goal next) (h : next.pendingStepId = some step) :
    goal.pendingStepId = some step ∨ event = .prepared step := by
  cases hmove with
  | stopped => simp [GoalRun.stoppedTurn] at h
  | prepared step' =>
    obtain rfl : step' = step := by simpa using h
    exact .inr rfl
  | counted _ _ _ _ hcounted => simp [hcounted.pendingStepId] at h
  | recovered now hrecovered =>
    exact .inl ((GoalRun.recovered_spec hrecovered).pendingStepId ▸ h)
  | _ => exact .inl h

theorem preparedSteps_cons (write : GoalWrite) (writes : List GoalWrite) :
    preparedSteps (write :: writes) = preparedSteps [write] ++ preparedSteps writes := by
  cases write with
  | mk event => cases event <;> rfl

theorem mem_preparedSteps {step : TurnId} :
    step ∈ preparedSteps writes ↔ ∃ goal, ⟨.prepared step, goal⟩ ∈ writes := by
  induction writes with
  | nil => simp [preparedSteps]
  | cons write writes ih =>
    rw [preparedSteps_cons, List.mem_append, ih]
    cases write with
    | mk event => cases event <;> simp [preparedSteps, exists_or]

theorem GoalPath.step_eq {goal last : GoalRun} {step : TurnId} (hpath : GoalPath goal writes last)
    (h : last.pendingStepId = some step) :
    goal.pendingStepId = some step ∨ step ∈ preparedSteps writes := by
  induction hpath with
  | nil => exact .inl h
  | cons hmove _ ih =>
    rw [mem_preparedSteps]
    rcases ih h with hnext | hlater
    · rcases hmove.step_eq hnext with hgoal | rfl
      · exact .inl hgoal
      · exact .inr ⟨_, List.mem_cons_self⟩
    · obtain ⟨goal, hgoal⟩ := mem_preparedSteps.1 hlater
      exact .inr ⟨goal, List.mem_cons_of_mem _ hgoal⟩

theorem GoalMove.agrees {event : GoalEvent} {prepared goal next : GoalRun} {step : TurnId}
    (hmove : GoalMove event goal next) (hgoal : goal.WellFormed)
    (hstep : prepared.pendingStepId = some step) (hother : event ≠ .prepared step)
    (h : GoalRun.Agrees prepared goal) : GoalRun.Agrees prepared next := by
  have hidle : goal.dispatchState = .idle → goal.pendingStepId ≠ prepared.pendingStepId := by
    intro hidle hsame
    rw [(hgoal.idle hidle).1, hstep] at hsame
    contradiction
  cases hmove with
  | paused => exact ⟨h.dispatched, h.edited, h.objective, by simp⟩
  | resumed clientRequestId deferred message now hunfinished hactive =>
    refine ⟨h.dispatched, h.edited, h.objective, fun hsame _ hpending => ?_⟩
    rcases hactive with hactive | hidle'
    · exact h.input hsame hactive hpending
    · exact absurd hsame (hidle hidle')
  | steered => exact ⟨h.dispatched, h.edited, h.objective, by simp⟩
  | edited clientRequestId objective text revision now hunfinished hrevision =>
    refine ⟨h.dispatched, fun hsame => ?_, fun hsame hequal => ?_, h.input⟩
    · have := h.edited hsame
      dsimp only
      omega
    · have := h.edited hsame
      rcases hrevision with ⟨rfl, rfl⟩ | rfl
      · exact h.objective hsame hequal
      · dsimp only at hequal
        omega
  | finished _ _ status _ _ hterminal =>
    exact ⟨h.dispatched, h.edited, h.objective, fun _ hactive =>
      absurd hactive (terminal_ne_active hterminal)⟩
  | stopped =>
    have hnone : (none : Option TurnId) ≠ prepared.pendingStepId := by simp [hstep]
    exact ⟨fun hsame => absurd hsame hnone, fun hsame => absurd hsame hnone,
      fun hsame => absurd hsame hnone, fun hsame => absurd hsame hnone⟩
  | unreconciled => exact ⟨h.dispatched, h.edited, h.objective, by simp⟩
  | activated now hpaused hidle' =>
    exact ⟨h.dispatched, h.edited, h.objective, fun hsame => absurd hsame (hidle hidle')⟩
  | unconnected => exact ⟨h.dispatched, h.edited, h.objective, by simp⟩
  | prepared step' =>
    have hnew : some step' ≠ prepared.pendingStepId := by
      rw [hstep]
      rintro hsame
      exact hother (by rw [Option.some.inj hsame])
    exact ⟨fun hsame => absurd hsame hnew, fun hsame => absurd hsame hnew,
      fun hsame => absurd hsame hnew, fun hsame => absurd hsame hnew⟩
  | released => exact { h with }
  | interrupted => exact ⟨h.dispatched, h.edited, h.objective, by simp⟩
  | counted _ _ _ _ hcounted =>
    have hnone : next.pendingStepId ≠ prepared.pendingStepId := by
      simp [hcounted.pendingStepId, hstep]
    exact ⟨fun hsame => absurd hsame hnone, fun hsame => absurd hsame hnone,
      fun hsame => absurd hsame hnone, fun hsame => absurd hsame hnone⟩
  | accepted => exact ⟨h.dispatched, h.edited, h.objective, by simp⟩
  | uncertain => exact ⟨h.dispatched, h.edited, h.objective, by simp⟩
  | recovered now hrecovered =>
    have hrec := GoalRun.recovered_spec hrecovered
    refine ⟨?_, ?_, ?_, fun _ hactive => absurd hactive hrec.status_ne_active⟩
    · rw [hrec.pendingStepId, hrec.dispatchedObjectiveRevision]
      exact h.dispatched
    · rw [hrec.pendingStepId, hrec.objectiveRevision]
      exact h.edited
    · rw [hrec.pendingStepId, hrec.objectiveRevision, hrec.objective]
      exact h.objective

theorem GoalPath.agrees {prepared goal last : GoalRun} {step : TurnId}
    (hpath : GoalPath goal writes last) (hgoal : goal.WellFormed)
    (hstep : prepared.pendingStepId = some step) (hother : step ∉ preparedSteps writes)
    (h : GoalRun.Agrees prepared goal) : GoalRun.Agrees prepared last := by
  have hboth := hpath.invariant
    (P := fun goal => goal.WellFormed ∧ GoalRun.Agrees prepared goal)
    (fun event goal next hmem hmove hgoal => ⟨hmove.wellFormed hgoal.1,
      hmove.agrees hgoal.1 hstep
        (fun heq => hother (mem_preparedSteps.2 ⟨next, heq ▸ hmem⟩)) hgoal.2⟩) ⟨hgoal, h⟩
  exact hboth.2

theorem GoalRun.Agrees.self {goal : GoalRun} (h : goal.WellFormed) : GoalRun.Agrees goal goal :=
  ⟨fun _ => h.revision, fun _ => Nat.le_refl _, fun _ _ => rfl, fun _ _ _ => rfl⟩

namespace GoalHistory

variable (history : GoalHistory)

theorem carry_calls (goal : GoalRun) :
    (history.carry goal).calls = history.calls ∧ (history.carry goal).steps = history.steps ∧
      (history.carry goal).counted = history.counted ∧
      (history.carry goal).unknown = history.unknown := by
  unfold carry
  split <;> exact ⟨rfl, rfl, rfl, rfl⟩

theorem foldl_carry_calls (goals : List GoalRun) (history : GoalHistory) :
    (goals.foldl carry history).calls = history.calls ∧
      (goals.foldl carry history).steps = history.steps ∧
      (goals.foldl carry history).unknown = history.unknown := by
  induction goals generalizing history with
  | nil => exact ⟨rfl, rfl, rfl⟩
  | cons goal goals ih =>
    obtain ⟨hcalls, hsteps, -, hunknown⟩ := carry_calls history goal
    obtain ⟨h₁, h₂, h₃⟩ := ih (history.carry goal)
    exact ⟨h₁.trans hcalls, h₂.trans hsteps, h₃.trans hunknown⟩

theorem note_calls (write : GoalWrite) :
    (history.note write).calls = history.calls := by
  obtain ⟨event, goal⟩ := write
  cases event with
  | counted => exact (foldl_carry_calls _ history).1
  | _ => rfl

theorem note_steps (write : GoalWrite) :
    (history.note write).steps =
      history.steps ++ (preparedSteps [write]).map fun step => (step, write.goal.id) := by
  obtain ⟨event, goal⟩ := write
  cases event with
  | prepared => rfl
  | counted =>
    exact (foldl_carry_calls _ history).2.1.trans (by simp [preparedSteps])
  | _ => simp [note, preparedSteps]

theorem record_calls (result : Section) :
    (history.record result).calls = history.calls := by
  unfold record
  induction result.writes generalizing history with
  | nil => rfl
  | cons write writes ih => exact (ih _).trans (note_calls history write)

theorem foldl_note_steps {goal last : GoalRun} (hpath : GoalPath goal writes last)
    (history : GoalHistory) : (writes.foldl note history).steps =
      history.steps ++ (preparedSteps writes).map fun step => (step, goal.id) := by
  induction hpath generalizing history with
  | nil => simp [preparedSteps]
  | @cons _ next _ event writes hmove _ ih =>
    rw [List.foldl_cons, ih, note_steps, preparedSteps_cons ⟨event, next⟩ writes, List.map_append,
      List.append_assoc]
    dsimp only
    rw [hmove.sameGoal.id]

end GoalHistory

namespace GoalRunController

variable (controller : GoalRunController) (result : Section)

theorem follow_goals :
    (controller.follow result).store.goals = controller.store.goals.insert result.goal := by
  unfold follow
  cases result.next <;> rfl

theorem follow_transporting : (controller.follow result).transporting = controller.transporting := by
  unfold follow
  cases result.next <;> rfl

theorem follow_acceptances : (controller.follow result).acceptances = controller.acceptances := by
  unfold follow
  cases result.next <;> rfl

variable {controller result}

theorem mem_follow_goals {goal : GoalRun} :
    goal ∈ (controller.follow result).store.goals.rows ↔
      goal = result.goal ∨ (goal ∈ controller.store.goals.rows ∧ goal.id ≠ result.goal.id) := by
  rw [follow_goals]
  exact Table.mem_insert

theorem mem_follow_prepared {prepared : PreparedGoal}
    (h : prepared ∈ (controller.follow result).prepared) :
    prepared ∈ controller.prepared ∨
      (prepared.goal = result.goal ∧ ∃ override, result.next = .dispatches override) := by
  unfold follow at h
  cases hnext : result.next with
  | returns => exact .inl (by simpa [hnext] using h)
  | raises => exact .inl (by simpa [hnext] using h)
  | stops => exact .inl (by simpa [hnext] using h)
  | dispatches override =>
    simp only [hnext, List.mem_append, List.mem_singleton] at h
    rcases h with h | rfl
    · exact .inl h
    · exact .inr ⟨rfl, override, rfl⟩

theorem mem_follow_stopping {entry : GoalId × StoppingTurn}
    (h : entry ∈ (controller.follow result).stopping.rows) :
    entry ∈ controller.stopping.rows ∨
      (entry.1 = result.goal.id ∧ result.next = .stops entry.2.after) := by
  unfold follow at h
  cases hnext : result.next with
  | returns => exact .inl (by simpa [hnext] using h)
  | raises => exact .inl (by simpa [hnext] using h)
  | dispatches => exact .inl (by simpa [hnext] using h)
  | stops =>
    simp only [hnext] at h
    rcases Table.mem_insert.mp h with rfl | ⟨h, -⟩
    · exact .inr ⟨rfl, rfl⟩
    · exact .inl h

end GoalRunController

namespace GoalSystem

variable {system after base : GoalSystem}

/-- The ids that an operation brings are new: `uuid4` does not repeat itself, and a caller
does not reuse the id of another step. -/
def NewIds (system : GoalSystem) (op : GoalOp) : Prop :=
  (∀ step ∈ system.steps op, step ∉ system.history.steps.map Prod.fst) ∧
    match op with
    | .createAndStart _ _ goalId _ => system.controller.store.goals.get? goalId = none
    | _ => True

instance (system : GoalSystem) (op : GoalOp) : Decidable (system.NewIds op) := by
  unfold NewIds
  split <;> infer_instance

variable {prepared : GoalRun}

theorem Drops.snapshots (hdrops : system.Drops base) (h : prepared ∈ base.snapshots) :
    prepared ∈ system.snapshots := by
  simp only [GoalSystem.snapshots, hdrops.history, hdrops.transporting, List.mem_append,
    List.mem_map] at h ⊢
  rcases h with (⟨p, hp, rfl⟩ | h) | h
  · exact .inl (.inl ⟨p, hdrops.prepared p hp, rfl⟩)
  · exact .inl (.inr h)
  · exact .inr h

theorem Inv.weaken (hinv : system.Inv)
    (hgoals : base.controller.store.goals = system.controller.store.goals)
    (hsteps : base.history.steps = system.history.steps)
    (hsnapshots : ∀ prepared ∈ base.snapshots, prepared ∈ system.snapshots)
    (hstopping : ∀ entry ∈ base.controller.stopping.rows,
      ∃ old ∈ system.controller.stopping.rows,
        old.1 = entry.1 ∧ old.2.after = entry.2.after) : base.Inv where
  wellFormed := by rw [hgoals]; exact hinv.wellFormed
  owned := by rw [hgoals, hsteps]; exact hinv.owned
  stepsOnce := by rw [hsteps]; exact hinv.stepsOnce
  taken := fun prepared hp => hsteps ▸ hinv.taken prepared (hsnapshots prepared hp)
  agrees := fun prepared hp => by
    rw [hgoals]
    exact hinv.agrees prepared (hsnapshots prepared hp)
  parked := fun entry hentry => by
    obtain ⟨old, hold, hid, hafter⟩ := hstopping entry hentry
    rw [hgoals, ← hid, ← hafter]
    exact hinv.parked old hold

theorem Drops.inv (hdrops : system.Drops base) (h : system.Inv) : base.Inv :=
  h.weaken (by rw [hdrops.store]) (by rw [hdrops.history]) (fun _ hp => hdrops.snapshots hp)
    fun entry hentry => ⟨entry, hdrops.stopping entry hentry, rfl, rfl⟩

/-! ## The shapes keep the invariant -/

section

variable {goal : GoalRun} {result : Section} {ids : List TurnId} {op : GoalOp}

theorem mem_commit_snapshots (h : prepared ∈ (base.commit result).snapshots) :
    prepared ∈ base.snapshots ∨
      (prepared = result.goal ∧ ∃ override, result.next = .dispatches override) := by
  simp only [snapshots, commit, GoalHistory.record_calls, GoalRunController.follow_transporting,
    List.mem_append, List.mem_map] at h ⊢
  rcases h with (⟨p, hp, rfl⟩ | h) | h
  · rcases GoalRunController.mem_follow_prepared hp with hp | ⟨heq, hnext⟩
    · exact .inl (.inl (.inl ⟨p, hp, rfl⟩))
    · exact .inr ⟨heq, hnext⟩
  · exact .inl (.inl (.inr h))
  · exact .inl (.inr h)

theorem commit_steps (hsound : result.Sound ids op goal) : (base.commit result).history.steps =
    base.history.steps ++ (preparedSteps result.writes).map fun step => (step, goal.id) :=
  GoalHistory.foldl_note_steps hsound.path _

theorem mem_commit_goals {other : GoalRun} :
    other ∈ (base.commit result).controller.store.goals.rows ↔
      other = result.goal ∨
        (other ∈ base.controller.store.goals.rows ∧ other.id ≠ result.goal.id) :=
  GoalRunController.mem_follow_goals

theorem new_of_prepared (hsound : result.Sound ids op goal)
    (hnew : ∀ step ∈ ids, step ∉ base.history.steps.map Prod.fst) {step : TurnId}
    (hstep : step ∈ preparedSteps result.writes) :
    step ∉ base.history.steps.map Prod.fst := by
  rcases hsound.steps with hnone | ⟨step', hid, hone⟩
  · simp [hnone] at hstep
  · obtain rfl : step = step' := by simpa [hone] using hstep
    exact hnew step hid

theorem Inv.commit (hinv : base.Inv) (hgoal : goal ∈ base.controller.store.goals.rows)
    (hsound : result.Sound ids op goal)
    (hnew : ∀ step ∈ ids, step ∉ base.history.steps.map Prod.fst)
    (hparked : base.KeepsParked goal result) : (base.commit result).Inv := by
  have hwell := hinv.wellFormed goal hgoal
  have hsame := hsound.path.sameGoal
  have hlast : result.goal.WellFormed := hsound.path.wellFormed hwell
  have howned : ∀ step, result.goal.pendingStepId = some step →
      (step, result.goal.id) ∈ (base.commit result).history.steps := by
    intro step hstep
    rw [commit_steps hsound, List.mem_append, hsame.id]
    rcases hsound.path.step_eq hstep with hold | hprepared
    · exact .inl (hinv.owned goal hgoal step hold)
    · exact .inr (List.mem_map_of_mem hprepared)
  refine ⟨?_, ?_, ?_, ?_, ?_, ?_⟩
  · intro other hother
    rcases mem_commit_goals.1 hother with rfl | ⟨hother, -⟩
    · exact hlast
    · exact hinv.wellFormed other hother
  · intro other hother step hstep
    rcases mem_commit_goals.1 hother with rfl | ⟨hother, -⟩
    · exact howned step hstep
    · rw [commit_steps hsound]
      exact List.mem_append_left _ (hinv.owned other hother step hstep)
  · rw [commit_steps hsound, List.map_append, List.map_map]
    have hids : (Prod.fst ∘ fun step => (step, goal.id)) = (id : TurnId → TurnId) := rfl
    rw [hids, List.map_id]
    refine List.nodup_append.mpr ⟨hinv.stepsOnce, ?_, ?_⟩
    · rcases hsound.steps with hnone | ⟨step, -, hone⟩
      · simp [hnone]
      · simp [hone]
    · rintro step hold step' hstep' rfl
      exact new_of_prepared hsound hnew hstep' hold
  · intro prepared hp
    rcases mem_commit_snapshots hp with hp | ⟨rfl, override, hnext⟩
    · obtain ⟨step, hstep, hmem⟩ := hinv.taken prepared hp
      exact ⟨step, hstep, commit_steps hsound ▸ List.mem_append_left _ hmem⟩
    · obtain ⟨step, hstep, -⟩ := hlast.running (.inl (hsound.pending override hnext))
      exact ⟨step, hstep, howned step hstep⟩
  · intro prepared hp other hother hid
    rcases mem_commit_snapshots hp with hp | ⟨rfl, override, hnext⟩
    · rcases mem_commit_goals.1 hother with rfl | ⟨hother, -⟩
      · obtain ⟨step, hstep, hmem⟩ := hinv.taken prepared hp
        refine hsound.path.agrees hwell hstep (fun hprepared => ?_)
          (hinv.agrees prepared hp goal hgoal (hsame.id.symm.trans hid))
        exact new_of_prepared hsound hnew hprepared (List.mem_map_of_mem hmem)
      · exact hinv.agrees prepared hp other hother hid
    · rcases mem_commit_goals.1 hother with rfl | ⟨-, hne⟩
      · exact GoalRun.Agrees.self hlast
      · exact absurd hid hne
  · intro entry hentry
    rcases GoalRunController.mem_follow_stopping hentry with hold | ⟨hid, hnext⟩
    · obtain ⟨other, hother, hid, hactive, hpaused⟩ := hinv.parked entry hold
      by_cases hsameGoal : other.id = goal.id
      · obtain rfl : other = goal := Table.eq_of_mem hother hgoal hsameGoal
        have hstatus := hparked entry hold hid.symm hactive
        refine ⟨result.goal, mem_commit_goals.2 (.inl rfl), hsame.id.trans hid, ?_, ?_⟩
        · rw [hstatus]
          exact hactive
        · intro turnId hafter
          rw [hstatus]
          exact hpaused turnId hafter
      · exact ⟨other, mem_commit_goals.2 (.inr ⟨hother, by rwa [hsame.id]⟩), hid, hactive, hpaused⟩
    · obtain ⟨hactive, hpaused⟩ := hsound.parked _ hnext
      exact ⟨result.goal, mem_commit_goals.2 (.inl rfl), hid.symm, hactive, hpaused⟩

/-! ### A new goal -/

theorem newGoal_wellFormed (tabId : TabId) (request : GoalRunCreate) (goalId : GoalId)
    (now : Time) : (newGoal tabId request goalId now).WellFormed := by
  refine ⟨fun _ => ⟨rfl, rfl⟩, ?_, ?_, Nat.le_refl _, fun _ _ => rfl, ?_⟩
  · simp [newGoal]
  · simp [newGoal]
  · intro clientRequestId operation hlookup
    simp [newGoal, Dict.lookup] at hlookup

theorem Inv.create {store : GoalRunStore} (hinv : system.Inv)
    (hgoals : store.goals = system.controller.store.goals.insert goal)
    (hwell : goal.WellFormed) (hidle : goal.pendingStepId = none)
    (hfresh : system.controller.store.goals.get? goal.id = none) :
    ({ system with controller := { system.controller with store } } : GoalSystem).Inv where
  wellFormed := fun other hother => by
    rw [hgoals] at hother
    rcases Table.mem_insert.mp hother with rfl | ⟨hother, -⟩
    · exact hwell
    · exact hinv.wellFormed other hother
  owned := fun other hother step hstep => by
    rw [hgoals] at hother
    rcases Table.mem_insert.mp hother with rfl | ⟨hother, -⟩
    · simp [hidle] at hstep
    · exact hinv.owned other hother step hstep
  stepsOnce := hinv.stepsOnce
  taken := hinv.taken
  agrees := fun prepared hp other hother hid => by
    rw [hgoals] at hother
    rcases Table.mem_insert.mp hother with rfl | ⟨hother, -⟩
    · obtain ⟨step, hstep, -⟩ := hinv.taken prepared hp
      have hnone : other.pendingStepId ≠ prepared.pendingStepId := by simp [hidle, hstep]
      exact ⟨fun hsame => absurd hsame hnone, fun hsame => absurd hsame hnone,
        fun hsame => absurd hsame hnone, fun hsame => absurd hsame hnone⟩
    · exact hinv.agrees prepared hp other hother hid
  parked := fun entry hentry => by
    obtain ⟨other, hother, hid, hrest⟩ := hinv.parked entry hentry
    refine ⟨other, ?_, hid, hrest⟩
    rw [hgoals]
    exact Table.mem_insert.mpr (.inr ⟨hother, Table.get?_eq_none.mp hfresh other hother⟩)

/-! ### The transport -/

theorem mem_invoke_snapshots {prepared : PreparedGoal} {step : TurnId} {p : GoalRun}
    (hmem : prepared ∈ system.controller.prepared)
    (h : p ∈ ((system.dropPrepared prepared).invoke prepared.goal step).snapshots) :
    p ∈ system.snapshots := by
  have hprepared : prepared.goal ∈ system.snapshots :=
    List.mem_append_left _ (List.mem_append_left _ (List.mem_map_of_mem hmem))
  simp only [snapshots, invoke, dropPrepared, List.mem_append, List.mem_map, List.map_append,
    List.map_cons, List.map_nil, List.mem_singleton] at h
  rcases h with (⟨q, hq, rfl⟩ | h | rfl) | ⟨call, hcall, rfl⟩ | rfl
  · exact List.mem_append_left _
      (List.mem_append_left _ (List.mem_map_of_mem (List.mem_of_mem_erase hq)))
  · exact snapshots_transporting h
  · exact hprepared
  · exact List.mem_append_right _ (List.mem_map_of_mem hcall)
  · exact hprepared

theorem Inv.invoke {prepared : PreparedGoal} {step : TurnId} (hinv : system.Inv)
    (hmem : prepared ∈ system.controller.prepared) :
    ((system.dropPrepared prepared).invoke prepared.goal step).Inv :=
  hinv.weaken rfl rfl (fun _ hp => mem_invoke_snapshots hmem hp)
    fun entry hentry => ⟨entry, hentry, rfl, rfl⟩

theorem ended_history (system : GoalSystem) (prepared : GoalRun) (accepted : Bool)
    (result : Section) :
    (system.ended prepared accepted result).history.steps = (system.commit result).history.steps ∧
      (system.ended prepared accepted result).history.calls =
        (system.commit result).history.calls ∧
      (system.ended prepared accepted result).history.counted =
        (system.commit result).history.counted := by
  have hcarry := fun history : GoalHistory => GoalHistory.carry_calls history prepared
  cases accepted with
  | false => by_cases hlost : result.goal.awaits prepared <;> simp [ended, commit, hlost]
  | true => by_cases hlost : result.goal.awaits prepared <;> simp [ended, commit, hlost, hcarry]

theorem Inv.ended {accepted : Bool} (hinv : system.Inv)
    (hgoal : goal ∈ system.controller.store.goals.rows) (hsound : result.Sound [] op goal)
    (hparked : system.KeepsParked goal result) : (system.ended prepared accepted result).Inv := by
  have hcommit := hinv.commit hgoal hsound (by simp) hparked
  obtain ⟨hsteps, hcalls, -⟩ := ended_history system prepared accepted result
  refine hcommit.weaken rfl hsteps (fun p hp => ?_) fun entry hentry => ?_
  · simp only [snapshots, hcalls, List.mem_append] at hp ⊢
    rcases hp with (hp | hp) | hp
    · exact .inl (.inl hp)
    · exact .inl (.inr (List.mem_of_mem_erase hp))
    · exact .inr hp
  · obtain ⟨old, hold, rfl⟩ := List.mem_map.mp hentry
    refine ⟨old, hold, ?_⟩
    split <;> exact ⟨rfl, rfl⟩

/-! ### Restart -/

/-- Every goal after a restart is the one before it, or what `recover` made of it. -/
theorem mem_restart_goals {now : Time} {failing : Option GoalId} {next : GoalRun}
    (h : next ∈ (system.restart now failing).controller.store.goals.rows) :
    ∃ goal ∈ system.controller.store.goals.rows,
      next = goal ∨ GoalMove .recovered goal next := by
  obtain ⟨goal, hgoal, rfl⟩ := List.mem_map.mp h
  refine ⟨goal, hgoal, ?_⟩
  split
  · cases hrecovered : goal.recovered now with
    | none => exact .inl rfl
    | some => exact .inr (.recovered now hrecovered)
  · exact .inl rfl

theorem Inv.restart (hinv : system.Inv) (now : Time) (failing : Option GoalId) :
    (system.restart now failing).Inv := by
  refine ⟨fun next hnext => ?_, fun next hnext step hstep => ?_, hinv.stepsOnce, fun p hp => ?_,
    fun p hp next hnext hid => ?_, fun entry hentry => ?_⟩
  · obtain ⟨goal, hgoal, rfl | hmove⟩ := mem_restart_goals hnext
    · exact hinv.wellFormed next hgoal
    · exact hmove.wellFormed (hinv.wellFormed goal hgoal)
  · obtain ⟨goal, hgoal, rfl | hmove⟩ := mem_restart_goals hnext
    · exact hinv.owned next hgoal step hstep
    · rcases hmove.step_eq hstep with hold | hnew
      · exact hmove.sameGoal.id ▸ hinv.owned goal hgoal step hold
      · contradiction
  · exact hinv.taken p (List.mem_append_right _ hp)
  · have hsnapshot : p ∈ system.snapshots := List.mem_append_right _ hp
    obtain ⟨goal, hgoal, rfl | hmove⟩ := mem_restart_goals hnext
    · exact hinv.agrees p hsnapshot next hgoal hid
    · obtain ⟨step, hstep, -⟩ := hinv.taken p hsnapshot
      exact hmove.agrees (hinv.wellFormed goal hgoal) hstep (by simp)
        (hinv.agrees p hsnapshot goal hgoal (hmove.sameGoal.id.symm.trans hid))
  · simp [GoalSystem.restart, GoalRunController.recover] at hentry

theorem Ending.keepsParked {op : GoalOp} {accepted : Bool}
    (hending : Ending prepared goal op accepted result) : base.KeepsParked goal result := by
  intro _ _ _ hactive
  cases hending with
  | returned => exact GoalRun.dispatchAccepted_parked hactive
  | raised => exact GoalRun.dispatchFailed_parked hactive

theorem Inv.step {op : GoalOp} (hinv : system.Inv) (hnew : system.NewIds op)
    (h : system.step op = some after) : after.Inv := by
  cases shape hinv h with
  | drops hdrops => exact hdrops.inv hinv
  | wrote hdrops hgoal hsound hparked =>
    exact (hdrops.inv hinv).commit (hdrops.store ▸ hgoal) hsound
      (hdrops.history ▸ hnew.1) hparked
  | created hop hgoal hgoals hfree hsound =>
    subst hop
    subst hgoal
    have hcreate := hinv.create hgoals (newGoal_wellFormed _ _ _ _) rfl hnew.2
    refine hcreate.commit ?_ hsound hnew.1 fun entry hentry hid => ?_
    · rw [hgoals]
      exact Table.mem_insert.mpr (.inl rfl)
    · obtain ⟨other, hother, hotherId, -⟩ := hinv.parked entry hentry
      exact absurd (hotherId.trans hid) (Table.get?_eq_none.mp hnew.2 other hother)
  | invoked hmem => exact hinv.invoke hmem
  | ended hmem hgoal hid hending hsound => exact hinv.ended hgoal hsound hending.keepsParked
  | restarted now failing => exact hinv.restart now failing

def initial (callbacks : Callbacks) : GoalSystem := { controller := { callbacks } }

theorem initial_inv (callbacks : Callbacks) : (initial callbacks).Inv := by
  constructor <;> simp [initial, snapshots]

end

end GoalSystem

end ClaudeHub
