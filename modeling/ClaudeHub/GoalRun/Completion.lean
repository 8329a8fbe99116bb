import ClaudeHub.GoalRun.Invariant

/-! # A completed turn is judged by the objective it was given

A turn's signal completes or blocks a goal only if the objective is still the one of the
dispatch, and every prompt that was handed over for the turn carried it. The completion of
any other turn charges nothing, and changes the status only where a resume waits for an
ordinary Chat turn to end.
-/

namespace ClaudeHub

open StepSystem

namespace GoalRun

/-- The status is kept or parked, and the objective and the accounting are kept. -/
structure Kept (goal next : GoalRun) : Prop where
  objective : next.objective = goal.objective
  objectiveRevision : next.objectiveRevision = goal.objectiveRevision
  turnsCompleted : next.turnsCompleted = goal.turnsCompleted
  tokenUsage : next.tokenUsage = goal.tokenUsage
  usageQuality : next.usageQuality = goal.usageQuality
  status : next.status = goal.status ∨ next.status = .paused

theorem Kept.refl (goal : GoalRun) : goal.Kept goal := ⟨rfl, rfl, rfl, rfl, rfl, .inl rfl⟩

theorem Kept.trans {goal next last : GoalRun} (h : goal.Kept next) (h' : next.Kept last) :
    goal.Kept last where
  objective := h'.objective.trans h.objective
  objectiveRevision := h'.objectiveRevision.trans h.objectiveRevision
  turnsCompleted := h'.turnsCompleted.trans h.turnsCompleted
  tokenUsage := h'.tokenUsage.trans h.tokenUsage
  usageQuality := h'.usageQuality.trans h.usageQuality
  status := by
    rcases h'.status with hsame | hpaused
    · rw [hsame]
      exact h.status
    · exact .inr hpaused

/-- What a signal may do: it completes or blocks a goal only if its objective was not
edited since the dispatch. -/
def Judged (goal next : GoalRun) : Prop :=
  next.status = .complete ∨ next.status = .blocked →
    goal.dispatchedObjectiveRevision = goal.objectiveRevision ∧
      next.objectiveRevision = goal.objectiveRevision ∧ next.objective = goal.objective

section

variable {callbacks : Callbacks} {goal next : GoalRun} {moment : Moment} {event : GoalEvent}
  {now : Time} {saved : Bool} {rest : GoalRun → Section}

theorem put_kept (hnext : goal.Kept { next with updatedAt := now })
    (hrest : ∀ goal, (rest goal).goal = goal) :
    goal.Kept (goal.put next event now saved rest).goal := by
  cases saved with
  | false => exact Kept.refl goal
  | true =>
    show goal.Kept (rest { next with updatedAt := now }).goal
    rw [hrest]
    exact hnext

theorem prepareDispatch_kept {stepId : Option TurnId} {override : Bool}
    (hrest : ∀ goal, (rest goal).goal = goal) :
    goal.Kept (goal.prepareDispatch callbacks stepId override moment rest).goal := by
  unfold prepareDispatch
  split
  · rw [hrest]
    exact Kept.refl goal
  split
  · rw [hrest]
    exact Kept.refl goal
  split
  · exact put_kept ⟨rfl, rfl, rfl, rfl, rfl, .inr rfl⟩ hrest
  · exact put_kept ⟨rfl, rfl, rfl, rfl, rfl, .inl rfl⟩ hrest

theorem releaseDeferredLocked_kept (turns : List TurnId) (hrest : ∀ goal, (rest goal).goal = goal) :
    goal.Kept (goal.releaseDeferredLocked callbacks { goal with completedTurnIds := turns } moment
      rest).goal := by
  unfold releaseDeferredLocked
  split
  · cases moment.saves.turn with
    | false => exact Kept.refl goal
    | true =>
      have hreleased : goal.Kept { goal with
          completedTurnIds := turns
          resumeAfterTurn := false
          statusMessage := none
          updatedAt := moment.now } := ⟨rfl, rfl, rfl, rfl, rfl, .inl rfl⟩
      exact hreleased.trans (prepareDispatch_kept hrest)
  · rw [hrest]
    exact Kept.refl goal

theorem put_judged {tokens : Option Nat} (hactive : goal.status = .active)
    (hcounted : goal.Counted tokens next)
    (hrevision : next.status = .complete ∨ next.status = .blocked →
      goal.dispatchedObjectiveRevision = goal.objectiveRevision)
    (hrest : ∀ goal : GoalRun, goal.Kept (rest goal).goal) :
    goal.Judged (goal.put next event now saved rest).goal := by
  intro hverdict
  cases saved with
  | false => simp [put, raises, hactive] at hverdict
  | true =>
    have hkept := hrest { next with updatedAt := now }
    have hstatus : (rest { next with updatedAt := now }).goal.status = next.status := by
      rcases hkept.status with hsame | hpaused
      · exact hsame
      · have hpaused' : (goal.put next event now true rest).goal.status = .paused := hpaused
        simp [hpaused'] at hverdict
    exact ⟨hrevision (hstatus ▸ hverdict), hkept.objectiveRevision.trans hcounted.objectiveRevision,
      hkept.objective.trans hcounted.objective⟩

theorem concludeTurn_judged {tokens : Option Nat} {turnId : TurnId} {report : TurnReport}
    (hactive : goal.status = .active) (hcounted : goal.Counted tokens next)
    (hstatus : next.status = .active) (hrest : ∀ goal, (rest goal).goal = goal) :
    goal.Judged
      (goal.concludeTurn callbacks next turnId tokens report moment rest).goal := by
  have hends : ∀ goal : GoalRun, goal.Kept (rest goal).goal := fun goal => by
    rw [hrest]
    exact Kept.refl goal
  have hagain : ∀ next, goal.Counted tokens next → next.status = .active →
      goal.Judged (goal.put next (.counted turnId tokens) moment.now moment.saves.turn
        fun goal => goal.prepareDispatch callbacks none false moment rest).goal :=
    fun next hnext hactive' => put_judged hactive hnext (by simp [hactive']) fun goal =>
      prepareDispatch_kept hrest
  unfold concludeTurn
  cases report.signal with
  | none =>
    dsimp only
    split
    · exact hagain next hcounted hstatus
    · exact put_judged hactive (hcounted.update _ _ _ _ _ _ _ _) (by simp) hends
  | some signal =>
    dsimp only
    have hread := hcounted.readReply turnId report.checkpoint signal moment.now
    have hreadStatus : (next.readReply turnId report.checkpoint signal moment.now).status =
        .active := by
      rw [← hstatus]
      cases report.checkpoint <;> rfl
    generalize next.readReply turnId report.checkpoint signal moment.now = read at *
    split
    · exact hagain read hread hreadStatus
    · rename_i hrevision
      rw [not_not, hread.dispatchedObjectiveRevision, hread.objectiveRevision] at hrevision
      cases signal.state with
      | complete =>
        exact put_judged hactive (hread.update _ _ _ _ _ _ _ _) (fun _ => hrevision) hends
      | blocked =>
        exact put_judged hactive (hread.update _ _ _ _ _ _ _ _) (fun _ => hrevision) hends
      | needsInput =>
        exact put_judged hactive (hread.update _ _ _ _ _ _ _ _) (fun _ => hrevision) hends
      | continues =>
        dsimp only
        split
        · exact put_judged hactive (hread.update _ _ _ _ _ _ _ _) (by simp) hends
        · exact hagain read hread hreadStatus

/-- What the completion of a turn does to a goal: nothing; or it ends the wait of a deferred
resume; or the turn is the current one of an active goal. -/
theorem onTurnCompleted_cases (callbacks : Callbacks) (goal : GoalRun) (turnId : TurnId)
    (report : TurnReport) (moment : Moment) :
    (goal.onTurnCompleted callbacks turnId report moment).goal = goal ∨
      (goal.status = .active ∧ goal.resumeAfterTurn = true ∧ goal.dispatchState = .idle ∧
        goal.Kept (goal.onTurnCompleted callbacks turnId report moment).goal) ∨
      (goal.status = .active ∧
        (goal.dispatchState = .pending ∨ goal.dispatchState = .dispatched) ∧
        goal.currentTurnId = some turnId ∧
        goal.Judged (goal.onTurnCompleted callbacks turnId report moment).goal) := by
  have hrest : ∀ goal : GoalRun, (goal.dispatchIfPending false).goal = goal := fun _ => rfl
  unfold onTurnCompleted onTurnCompletedLocked
  split
  · exact .inl rfl
  split
  · exact .inl rfl
  rename_i hactive
  rw [not_not] at hactive
  split
  · rename_i hdeferred
    refine .inr (.inl ⟨hactive, hdeferred.1, hdeferred.2, ?_⟩)
    split
    · exact put_kept ⟨rfl, rfl, rfl, rfl, rfl, .inr rfl⟩ hrest
    · exact releaseDeferredLocked_kept _ hrest
  split
  · exact .inl rfl
  rename_i hcurrent
  rw [not_or, not_and_or, not_not, not_not, not_not] at hcurrent
  obtain ⟨hrunning, hturn⟩ := hcurrent
  refine .inr (.inr ⟨hactive, hrunning, hturn, ?_⟩)
  cases report.usage with
  | none => simp [Judged, raises, hactive]
  | some usage =>
    have hcounted : goal.Counted usage.totalTokens (goal.countTurn turnId usage) :=
      countTurn_counted
    have hends : ∀ goal : GoalRun, goal.Kept (goal.dispatchIfPending false).goal := Kept.refl
    dsimp only
    split
    · exact put_judged hactive (hcounted.update _ _ _ _ _ _ _ _) (by simp) hends
    split
    · exact put_judged hactive (hcounted.update _ _ _ _ _ _ _ _) (by simp) hends
    · exact concludeTurn_judged hactive hcounted hactive hrest

end

end GoalRun

namespace GoalSystem

variable {callbacks : Callbacks} {ops : List GoalOp} {system after : GoalSystem} {turnId : TurnId}

theorem turnCompleted_spec {tabId : TabId} {report : TurnReport} {moment : Moment}
    (h : system.step (.turnCompleted tabId turnId report moment) = some after) :
    ∀ goal ∈ system.controller.store.goals.rows, ∀ next ∈ after.controller.store.goals.rows,
      next.id = goal.id →
        next = goal ∨
          next = (goal.onTurnCompleted system.controller.callbacks turnId report moment).goal := by
  intro goal hgoal next hnext hid
  simp only [step] at h
  split at h
  · cases h
    exact .inl (Table.eq_of_mem hnext hgoal hid)
  · obtain ⟨current, hget, rfl⟩ := perform_some h
    obtain ⟨hmem, -⟩ := get?_mem hget
    rcases mem_commit_goals.mp hnext with rfl | ⟨hold, -⟩
    · have hsound : (current.onTurnCompleted system.controller.callbacks turnId report
          moment).Sound [moment.uuid] (.turnCompleted tabId turnId report moment) current :=
        GoalRun.onTurnCompleted_sound (by simp)
      obtain rfl := Table.eq_of_mem hmem hgoal (hsound.path.sameGoal.id.symm.trans hid)
      exact .inr rfl
    · exact .inl (Table.eq_of_mem hold hgoal hid)

theorem Inv.prompt_current {goal : GoalRun} (hinv : system.Inv)
    (hgoal : goal ∈ system.controller.store.goals.rows) (hstep : goal.pendingStepId = some turnId)
    (hrevision : goal.dispatchedObjectiveRevision = goal.objectiveRevision) {call : GoalCall}
    (hcall : call ∈ system.history.callsFor goal.id turnId) :
    call.goal.objectiveRevision = goal.objectiveRevision ∧ occursIn goal.objective call.prompt := by
  obtain ⟨hmem, hmatch⟩ := List.mem_filter.mp hcall
  obtain ⟨hid, hsame⟩ : call.goal.id = goal.id ∧ call.goal.pendingStepId = some turnId := by
    simpa using hmatch
  have hagrees := hinv.agrees call.goal
    (List.mem_append_right _ (List.mem_map_of_mem hmem)) goal hgoal hid.symm
  have hsteps : goal.pendingStepId = call.goal.pendingStepId := hstep.trans hsame.symm
  have hequal : call.goal.objectiveRevision = goal.objectiveRevision := by
    have hlower := hagrees.dispatched hsteps
    have hupper := hagrees.edited hsteps
    omega
  refine ⟨hequal, ?_⟩
  rw [← hagrees.objective hsteps hequal]
  exact objective_occursIn_prompt call.goal

theorem Inv.handed {goal : GoalRun} (hinv : system.Inv)
    (hgoal : goal ∈ system.controller.store.goals.rows) (hstep : goal.pendingStepId = some turnId)
    (hhanded : turnId ∈ system.history.steps.map Prod.fst →
        ∃ call ∈ system.history.calls, call.goal.pendingStepId = some turnId) :
    ∃ call, call ∈ system.history.callsFor goal.id turnId := by
  have howned := hinv.owned goal hgoal turnId hstep
  obtain ⟨call, hcall, hsame⟩ := hhanded (List.mem_map_of_mem howned)
  obtain ⟨step, hstep', htaken⟩ :=
    hinv.taken call.goal (List.mem_append_right _ (List.mem_map_of_mem hcall))
  obtain rfl : turnId = step := Option.some.inj (hsame.symm.trans hstep')
  have hid := congrArg Prod.snd (List.inj_on_of_nodup_map hinv.stepsOnce htaken howned rfl)
  exact ⟨call, List.mem_filter.mpr ⟨hcall, by simpa using ⟨hid, hsame⟩⟩⟩

/-- Where the ids are new and the transport reports no turn that it was not handed: a completed turn
completes or blocks a goal only if the prompts handed over for it carried the objective that the
goal still has. -/
theorem completed_turn_judged {tabId : TabId} {turnId : TurnId} {report : TurnReport}
    {moment : Moment} {goal next : GoalRun}
    (hrun : Run GoalSystem.step NewIds (initial callbacks) ops system)
    (hhanded : turnId ∈ system.history.steps.map Prod.fst →
      ∃ call ∈ system.history.calls, call.goal.pendingStepId = some turnId)
    (hstep : system.step (.turnCompleted tabId turnId report moment) = some after)
    (hgoal : goal ∈ system.controller.store.goals.rows)
    (hnext : next ∈ after.controller.store.goals.rows) (hid : next.id = goal.id) :
    (next.status ≠ goal.status → next.status = .complete ∨ next.status = .blocked →
      (∃ call, call ∈ system.history.callsFor goal.id turnId) ∧
        ∀ call ∈ system.history.callsFor goal.id turnId,
          call.goal.objectiveRevision = next.objectiveRevision ∧
            occursIn next.objective call.prompt) ∧
    (goal.currentTurnId ≠ some turnId →
      next.turnsCompleted = goal.turnsCompleted ∧ next.tokenUsage = goal.tokenUsage ∧
        next.usageQuality = goal.usageQuality ∧
        (next.status = goal.status ∨
          (goal.status = .active ∧ goal.resumeAfterTurn = true ∧ goal.dispatchState = .idle ∧
            next.status = .paused))) := by
  have hinv := hrun.invariant (initial_inv callbacks) fun s op t hs hnew h => hs.step hnew h
  rcases turnCompleted_spec hstep goal hgoal next hnext hid with rfl | rfl
  · exact ⟨fun hchange => absurd rfl hchange, fun _ => ⟨rfl, rfl, rfl, .inl rfl⟩⟩
  rcases GoalRun.onTurnCompleted_cases system.controller.callbacks goal turnId report moment with
    hsame | ⟨hactive, hdeferred, hidle, hkept⟩ | ⟨hactive, hrunning, hturn, hjudged⟩
  · rw [hsame]
    exact ⟨fun hchange => absurd rfl hchange, fun _ => ⟨rfl, rfl, rfl, .inl rfl⟩⟩
  · refine ⟨fun hchange hverdict => ?_, fun _ => ⟨hkept.turnsCompleted, hkept.tokenUsage,
      hkept.usageQuality, ?_⟩⟩
    · have hpaused := hkept.status.resolve_left hchange
      simp [hpaused] at hverdict
    · rcases hkept.status with hstatus | hpaused
      · exact .inl hstatus
      · exact .inr ⟨hactive, hdeferred, hidle, hpaused⟩
  · refine ⟨fun _ hverdict => ?_, fun hother => absurd hturn hother⟩
    obtain ⟨hrevision, hsameRevision, hsameObjective⟩ := hjudged hverdict
    obtain ⟨step, hpending, hcurrent⟩ := (hinv.wellFormed goal hgoal).running hrunning
    obtain rfl : step = turnId := Option.some.inj (hcurrent.symm.trans hturn)
    refine ⟨hinv.handed hgoal hpending hhanded, fun call hcall => ?_⟩
    rw [hsameRevision, hsameObjective]
    exact hinv.prompt_current hgoal hpending hrevision hcall

/-! ### A turn that completes its goal, and an ordinary turn that parks one -/

private def judgedRequest : GoalRunCreate := { objective := "ship it", clientRequestId := "create" }

private def judgedStep : GoalRun :=
  { newGoal "tab" judgedRequest "goal" 1 with
    pendingStepId := some "step"
    currentTurnId := some "step"
    dispatchState := .pending }

private def judgedTurn : List GoalOp :=
  [.createAndStart "tab" judgedRequest "goal" ⟨1, "step", {}⟩,
    .dispatch ⟨judgedStep, false⟩ ⟨2, "unused", {}⟩,
    .transportReturned judgedStep ⟨3, "unused", {}⟩]

private def judgedSignal : GoalOp :=
  .turnCompleted "tab" "step" { status := "completed", signal := some { state := .complete } }
    ⟨4, "next", {}⟩

theorem completed_turn_judged_complete :
    ∃ system : GoalSystem, ∃ goal next : GoalRun, next.status = .complete ∧
      goal ∈ system.controller.store.goals.rows ∧
      (∃ call, call ∈ system.history.callsFor goal.id "step") ∧
      ∀ call ∈ system.history.callsFor goal.id "step",
        call.goal.objectiveRevision = next.objectiveRevision ∧
          occursIn next.objective call.prompt := by
  have h : ((execOk GoalSystem.step NewIds (initial {}) judgedTurn).bind fun system =>
      (system.step judgedSignal).map fun after =>
        (system.controller.store.goals.rows.map fun goal => (goal.id, goal.status),
          after.controller.store.goals.rows.map fun goal => (goal.id, goal.status),
          system.history.calls.map fun call => call.goal.pendingStepId)) =
      some ([("goal", .active)], [("goal", .complete)], [some "step"]) := by
    decide +kernel
  obtain ⟨system, hexec, hrest⟩ := Option.bind_eq_some_iff.mp h
  obtain ⟨after, hstep, hviews⟩ := Option.map_eq_some_iff.mp hrest
  simp only [Prod.mk.injEq, List.map_eq_singleton_iff] at hviews
  obtain ⟨⟨goal, hgoals, hgoal⟩, ⟨next, hnexts, hnext⟩, ⟨call, hcalls, hcall⟩⟩ := hviews
  obtain ⟨hgoalId, hgoalStatus⟩ := hgoal
  obtain ⟨hnextId, hnextStatus⟩ := hnext
  have hmem : goal ∈ system.controller.store.goals.rows := by simp [hgoals]
  have hjudged := (completed_turn_judged (Run.of_execOk hexec)
    (fun _ => ⟨call, by simp [hcalls], hcall⟩) hstep hmem (by simp [hnexts])
    (hnextId.trans hgoalId.symm)).1 (by simp [hgoalStatus, hnextStatus]) (.inl hnextStatus)
  exact ⟨system, goal, next, hnextStatus, hmem, hjudged⟩

private def waitingResume : List GoalOp :=
  [.createAndStart "tab" judgedRequest "goal" ⟨1, "step", {}⟩,
    .pause "goal" "pause" ⟨2, "unused", {}⟩, .cancelReturned "goal" ⟨3, "unused", {}⟩,
    .resume "goal" { clientRequestId := "resume", afterCurrentTurn := true } ⟨4, "later", {}⟩]

private def failedChat : GoalOp :=
  .turnCompleted "tab" "chat" { status := "failed" } ⟨5, "next", {}⟩

/-- The goal has no current turn, and an ordinary turn that fails pauses it. -/
theorem other_turn_parks_goal :
    ∃ system after : GoalSystem, ∃ goal next : GoalRun,
      Run GoalSystem.step NewIds (initial {}) waitingResume system ∧
      system.step failedChat = some after ∧ goal ∈ system.controller.store.goals.rows ∧
      next ∈ after.controller.store.goals.rows ∧ next.id = goal.id ∧
      goal.currentTurnId ≠ some "chat" ∧ next.status ≠ goal.status := by
  have h : ((execOk GoalSystem.step NewIds (initial {}) waitingResume).bind fun system =>
      (system.step failedChat).map fun after =>
        (system.controller.store.goals.rows.map fun goal =>
            (goal.id, goal.status, goal.currentTurnId),
          after.controller.store.goals.rows.map fun goal => (goal.id, goal.status))) =
      some ([("goal", .active, none)], [("goal", .paused)]) := by
    decide +kernel
  obtain ⟨system, hexec, hrest⟩ := Option.bind_eq_some_iff.mp h
  obtain ⟨after, hstep, hviews⟩ := Option.map_eq_some_iff.mp hrest
  simp only [Prod.mk.injEq, List.map_eq_singleton_iff] at hviews
  obtain ⟨⟨goal, hgoals, hgoalId, hgoalStatus, hgoalTurn⟩, ⟨next, hnexts, hnextId, hnextStatus⟩⟩ :=
    hviews
  exact ⟨system, after, goal, next, Run.of_execOk hexec, hstep, by simp [hgoals],
    by simp [hnexts], hnextId.trans hgoalId.symm, by simp [hgoalTurn],
    by simp [hgoalStatus, hnextStatus]⟩

end GoalSystem

end ClaudeHub
