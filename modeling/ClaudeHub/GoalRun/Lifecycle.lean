import ClaudeHub.GoalRun.Invariant
import Mathlib.Algebra.GroupWithZero.Nat

/-! # The lifecycle of the goals of a tab

A tab has at most one unfinished goal, a terminal goal stays terminal, and each turn is
charged once. `current_for_tab` looks for the newest goal by its creation time, so it finds
the unfinished goal as long as the clock moves on between the creates of a tab.
-/

namespace ClaudeHub

open StepSystem

variable {next : GoalRun}

theorem GoalMove.terminal {event : GoalEvent} {goal : GoalRun} (hmove : GoalMove event goal next)
    (h : goal.status.terminal = true) :
    next.status.terminal = true := by
  cases hmove with
  | paused _ _ _ hunfinished => simp [h] at hunfinished
  | resumed _ _ _ _ hunfinished => simp [h] at hunfinished
  | steered _ _ _ _ hunfinished => simp [h] at hunfinished
  | finished _ _ _ _ _ hterminal => exact hterminal
  | activated _ hpaused => simp [hpaused, GoalRunStatus.terminal] at h
  | unconnected _ _ hactive => exact absurd hactive (terminal_ne_active h)
  | interrupted _ _ _ _ hactive => exact absurd hactive (terminal_ne_active h)
  | counted _ hactive => exact absurd hactive (terminal_ne_active h)
  | uncertain =>
    rw [if_neg (terminal_ne_active h)]
    exact h
  | recovered now hrecovered =>
    rw [(GoalRun.recovered_spec hrecovered).status, if_neg (terminal_ne_active h)]
    exact h
  | _ => exact h

variable {writes : List GoalWrite} {last : GoalRun}

theorem GoalPath.terminal {goal : GoalRun} (hpath : GoalPath goal writes last)
    (h : goal.status.terminal = true) :
    last.status.terminal = true :=
  hpath.invariant (fun _ _ _ _ hmove hgoal => hmove.terminal hgoal) h

theorem GoalPath.unfinished {goal : GoalRun} (hpath : GoalPath goal writes last)
    (h : last.unfinished) : goal.unfinished := by
  by_contra hterminal
  have hlast := hpath.terminal (by simpa [GoalRun.unfinished] using hterminal)
  rw [GoalRun.unfinished, hlast] at h
  contradiction

/-! ## The accounts -/

def GoalHistory.turnsOf (history : GoalHistory) (goalId : GoalId) : List CountedTurn :=
  history.counted.filter fun turn => turn.goalId = goalId

/-- The account of a goal is the sum of the turns counted for it, none of them twice, and
its step is not one of them. -/
structure GoalRun.Charged (history : GoalHistory) (goal : GoalRun) : Prop where
  turns : goal.turnsCompleted = (history.turnsOf goal.id).length
  tokens : goal.tokenUsage.getD 0 =
    ((history.turnsOf goal.id).map fun turn => turn.tokens.getD 0).sum
  once : ((history.turnsOf goal.id).map CountedTurn.turnId).Nodup
  prepared : ∀ turn ∈ history.turnsOf goal.id, (turn.turnId, goal.id) ∈ history.steps
  ended : ∀ turn ∈ history.turnsOf goal.id, goal.pendingStepId ≠ some turn.turnId

namespace GoalHistory

theorem note_turnsOf (history : GoalHistory) (event : GoalEvent) (goal : GoalRun) :
    ((∀ turn tokens, event ≠ .counted turn tokens) →
      (history.note ⟨event, goal⟩).counted = history.counted) ∧
    ∀ turn tokens, event = .counted turn tokens →
      (history.note ⟨event, goal⟩).counted = history.counted ++ [⟨goal.id, turn, tokens⟩] := by
  cases event with
  | counted turn tokens =>
    refine ⟨fun h => absurd rfl (h turn tokens), ?_⟩
    rintro turn' tokens' heq
    obtain ⟨rfl, rfl⟩ := GoalEvent.counted.inj heq
    rfl
  | _ => exact ⟨fun _ => rfl, by simp⟩

end GoalHistory

theorem GoalRun.Charged.keep {history after : GoalHistory} {goal : GoalRun}
    (h : goal.Charged history) (hid : next.id = goal.id)
    (hcounted : after.counted = history.counted)
    (hsteps : ∀ entry ∈ history.steps, entry ∈ after.steps)
    (hturns : next.turnsCompleted = goal.turnsCompleted)
    (htokens : next.tokenUsage = goal.tokenUsage)
    (hstep : ∀ turn ∈ history.turnsOf goal.id, next.pendingStepId ≠ some turn.turnId) :
    next.Charged after := by
  have hof : after.turnsOf next.id = history.turnsOf goal.id := by
    rw [GoalHistory.turnsOf, GoalHistory.turnsOf, hcounted, hid]
  refine ⟨?_, ?_, ?_, ?_, ?_⟩
  · rw [hof, hturns]
    exact h.turns
  · rw [hof, htokens]
    exact h.tokens
  · rw [hof]
    exact h.once
  · rw [hof, hid]
    exact fun turn hturn => hsteps _ (h.prepared turn hturn)
  · rw [hof]
    exact hstep

theorem GoalRun.Charged.count {history after : GoalHistory} {goal : GoalRun} {turn : TurnId}
    {tokens : Option Nat} (h : goal.Charged history) (hcounted : goal.Counted tokens next)
    (hstep : goal.pendingStepId = some turn) (howned : (turn, goal.id) ∈ history.steps)
    (hafter : after.counted = history.counted ++ [⟨goal.id, turn, tokens⟩])
    (hsteps : after.steps = history.steps) : next.Charged after := by
  have hof : after.turnsOf next.id = history.turnsOf goal.id ++ [⟨goal.id, turn, tokens⟩] := by
    simp [GoalHistory.turnsOf, hafter, hcounted.id]
  refine ⟨?_, ?_, ?_, ?_, ?_⟩
  · rw [hof, hcounted.turnsCompleted, h.turns]
    simp
  · rw [hof, hcounted.tokenUsage, h.tokens]
    simp
  · rw [hof, List.map_append, List.nodup_append]
    refine ⟨h.once, by simp, ?_⟩
    rintro other hother other' hother' rfl
    obtain ⟨entry, hentry, rfl⟩ := List.mem_map.mp hother
    have hsame : entry.turnId = turn := by simpa using hother'
    exact h.ended entry hentry (hsame ▸ hstep)
  · rw [hof, hsteps, hcounted.id]
    intro entry hentry
    rcases List.mem_append.mp hentry with hentry | hentry
    · exact h.prepared entry hentry
    · obtain rfl := List.mem_singleton.mp hentry
      exact howned
  · intro entry _
    simp [hcounted.pendingStepId]

theorem GoalMove.charged {event : GoalEvent} {goal : GoalRun} {history : GoalHistory}
    (hmove : GoalMove event goal next) (hwell : goal.WellFormed)
    (howned : ∀ step, goal.pendingStepId = some step → (step, goal.id) ∈ history.steps)
    (hnew : ∀ step, event = .prepared step → step ∉ history.steps.map Prod.fst)
    (h : goal.Charged history) : next.Charged (history.note ⟨event, next⟩) := by
  have hsteps : ∀ entry ∈ history.steps, entry ∈ (history.note ⟨event, next⟩).steps := by
    intro entry hentry
    rw [GoalHistory.note_steps]
    exact List.mem_append_left _ hentry
  have hnote := GoalHistory.note_turnsOf history event next
  cases hmove with
  | counted tokens hactive hrunning hturn hcounted =>
    obtain ⟨step, hstep, hcurrent⟩ := hwell.running hrunning
    cases hcurrent.symm.trans hturn
    have hafter := hnote.2 _ _ rfl
    rw [hcounted.id] at hafter
    refine h.count hcounted hstep (howned _ hstep) hafter ?_
    rw [GoalHistory.note_steps]
    simp [preparedSteps]
  | prepared step =>
    refine h.keep rfl (hnote.1 (by simp)) hsteps rfl rfl fun turn hturn hsame => ?_
    obtain rfl : step = turn.turnId := Option.some.inj hsame
    exact hnew _ rfl (List.mem_map_of_mem (h.prepared turn hturn))
  | stopped =>
    exact h.keep rfl (hnote.1 (by simp)) hsteps rfl rfl fun _ _ => by simp [GoalRun.stoppedTurn]
  | recovered now hrecovered =>
    have hrec := GoalRun.recovered_spec hrecovered
    exact h.keep hrec.id (hnote.1 (by simp)) hsteps hrec.turnsCompleted hrec.tokenUsage
      (hrec.pendingStepId ▸ h.ended)
  | _ => exact h.keep rfl (hnote.1 (by simp)) hsteps rfl rfl h.ended

theorem GoalPath.charged {goal : GoalRun} {history : GoalHistory}
    (hpath : GoalPath goal writes last) (hwell : goal.WellFormed)
    (howned : ∀ step, goal.pendingStepId = some step → (step, goal.id) ∈ history.steps)
    (hnew : ∀ step ∈ preparedSteps writes, step ∉ history.steps.map Prod.fst)
    (honce : (preparedSteps writes).Nodup) (h : goal.Charged history) :
    last.Charged (writes.foldl GoalHistory.note history) := by
  induction hpath generalizing history with
  | nil => exact h
  | @cons goal next _ event writes hmove _ ih =>
    rw [preparedSteps_cons] at hnew honce
    have hhead : ∀ step, event = .prepared step → step ∈ preparedSteps [⟨event, next⟩] := by
      rintro step rfl
      exact List.mem_singleton.mpr rfl
    have hsteps := GoalHistory.note_steps history ⟨event, next⟩
    refine ih (hmove.wellFormed hwell) (fun step hstep => ?_) (fun step hstep => ?_)
      (List.nodup_append.mp honce).2.1
      (hmove.charged hwell howned
        (fun step heq => hnew step (List.mem_append_left _ (hhead step heq))) h)
    · rw [hsteps, List.mem_append, hmove.sameGoal.id]
      rcases hmove.step_eq hstep with hold | rfl
      · exact .inl (howned step hold)
      · exact .inr (List.mem_singleton.mpr rfl)
    · rw [hsteps, List.map_append, List.mem_append, List.map_map]
      rintro (hold | hprepared)
      · exact hnew step (List.mem_append_right _ hstep) hold
      · obtain ⟨step', hstep', rfl⟩ := List.mem_map.mp hprepared
        exact (List.nodup_append.mp honce).2.2 _ hstep' _ hstep rfl

theorem foldl_note_counted {goal : GoalRun} (hpath : GoalPath goal writes last)
    (history : GoalHistory) :
    ∃ extra, (writes.foldl GoalHistory.note history).counted = history.counted ++ extra ∧
      ∀ turn ∈ extra, turn.goalId = goal.id := by
  induction hpath generalizing history with
  | nil => exact ⟨[], by simp⟩
  | @cons goal next _ event writes hmove _ ih =>
    obtain ⟨extra, hextra, hids⟩ := ih (history.note ⟨event, next⟩)
    have hnote := GoalHistory.note_turnsOf history event next
    have hid := hmove.sameGoal.id
    by_cases hcounted : ∃ turn tokens, event = .counted turn tokens
    · obtain ⟨turn, tokens, heq⟩ := hcounted
      refine ⟨⟨next.id, turn, tokens⟩ :: extra, ?_, ?_⟩
      · rw [List.foldl_cons, hextra, hnote.2 turn tokens heq]
        simp
      · intro entry hentry
        rcases List.mem_cons.mp hentry with rfl | hentry
        · exact hid
        · exact (hids entry hentry).trans hid
    · refine ⟨extra, ?_, fun entry hentry => (hids entry hentry).trans hid⟩
      rw [List.foldl_cons, hextra, hnote.1 fun turn tokens heq => hcounted ⟨turn, tokens, heq⟩]

namespace GoalSystem

variable {system after base : GoalSystem} {goal : GoalRun} {result : Section}
  {ids : List TurnId} {op : GoalOp}

/-- What holds of the goals of a tab and of their accounts in every reachable state. -/
structure Lifecycle (system : GoalSystem) : Prop where
  sole : ∀ goal ∈ system.controller.store.goals.rows,
    ∀ other ∈ system.controller.store.goals.rows, goal.tabId = other.tabId →
      goal.unfinished → other.unfinished → goal = other
  charged : ∀ goal ∈ system.controller.store.goals.rows, goal.Charged system.history
  stored : ∀ turn ∈ system.history.counted,
    ∃ goal ∈ system.controller.store.goals.rows, goal.id = turn.goalId

def Newest (system : GoalSystem) : Prop :=
  ∀ goal ∈ system.controller.store.goals.rows, goal.unfinished →
    ∀ other ∈ system.controller.store.goals.rows, other.tabId = goal.tabId → other ≠ goal →
      other.createdAt < goal.createdAt

def LaterClock (system : GoalSystem) : GoalOp → Prop
  | .createAndStart tabId _ _ moment =>
    ∀ goal ∈ system.controller.store.goals.rows, goal.tabId = tabId →
      goal.createdAt < moment.now
  | _ => True

theorem Drops.lifecycle (hdrops : system.Drops base) (h : system.Lifecycle) : base.Lifecycle where
  sole := by rw [hdrops.store]; exact h.sole
  charged := by rw [hdrops.store, hdrops.history]; exact h.charged
  stored := by rw [hdrops.store, hdrops.history]; exact h.stored

theorem Drops.newest (hdrops : system.Drops base) (h : system.Newest) : base.Newest := by
  unfold Newest
  rw [hdrops.store]
  exact h

theorem commit_turnsOf (hsound : result.Sound ids op goal) {id : GoalId} (hid : id ≠ goal.id) :
    (base.commit result).history.turnsOf id = base.history.turnsOf id := by
  obtain ⟨extra, hextra, hids⟩ := foldl_note_counted hsound.path base.history
  have hcounted : (base.commit result).history.counted = base.history.counted ++ extra := hextra
  have hnone : extra.filter (fun turn => decide (turn.goalId = id)) = [] := by
    rw [List.filter_eq_nil_iff]
    intro entry hentry
    simpa [hids entry hentry] using hid.symm
  rw [GoalHistory.turnsOf, hcounted, List.filter_append, hnone, List.append_nil]
  rfl

theorem Lifecycle.commit (hlife : base.Lifecycle) (hinv : base.Inv)
    (hgoal : goal ∈ base.controller.store.goals.rows) (hsound : result.Sound ids op goal)
    (hnew : ∀ step ∈ ids, step ∉ base.history.steps.map Prod.fst) :
    (base.commit result).Lifecycle := by
  have hsame := hsound.path.sameGoal
  have hunfinished : result.goal.unfinished → goal.unfinished := hsound.path.unfinished
  refine ⟨?_, ?_, ?_⟩
  · intro g hg other hother htab hopen hopen'
    rcases mem_commit_goals.mp hg with rfl | ⟨hg, hne⟩ <;>
      rcases mem_commit_goals.mp hother with rfl | ⟨hother, hne'⟩
    · rfl
    · have heq := hlife.sole goal hgoal other hother (hsame.tabId ▸ htab) (hunfinished hopen) hopen'
      exact absurd (heq ▸ hsame.id.symm) hne'
    · have heq := hlife.sole g hg goal hgoal (hsame.tabId ▸ htab) hopen (hunfinished hopen')
      exact absurd (heq ▸ hsame.id.symm) hne
    · exact hlife.sole g hg other hother htab hopen hopen'
  · intro g hg
    rcases mem_commit_goals.mp hg with rfl | ⟨hg, hne⟩
    · refine hsound.path.charged (hinv.wellFormed goal hgoal) (hinv.owned goal hgoal)
        (fun step => new_of_prepared hsound hnew) ?_ (hlife.charged goal hgoal)
      rcases hsound.steps with hnone | ⟨step, -, hone⟩
      · simp [hnone]
      · simp [hone]
    · have hof := @commit_turnsOf base goal result ids op hsound g.id (hsame.id ▸ hne)
      obtain ⟨h₁, h₂, h₃, h₄, h₅⟩ := hlife.charged g hg
      refine ⟨hof ▸ h₁, hof ▸ h₂, hof ▸ h₃, ?_, hof ▸ h₅⟩
      rw [hof, commit_steps hsound]
      exact fun entry hentry => List.mem_append_left _ (h₄ entry hentry)
  · intro entry hentry
    obtain ⟨extra, hextra, hids⟩ := foldl_note_counted hsound.path base.history
    have hcounted : (base.commit result).history.counted = base.history.counted ++ extra := hextra
    rw [hcounted] at hentry
    have hstored : ∃ g ∈ base.controller.store.goals.rows, g.id = entry.goalId := by
      rcases List.mem_append.mp hentry with hold | hextra
      · exact hlife.stored entry hold
      · exact ⟨goal, hgoal, (hids entry hextra).symm⟩
    obtain ⟨g, hg, hid⟩ := hstored
    by_cases heq : g.id = result.goal.id
    · exact ⟨result.goal, mem_commit_goals.mpr (.inl rfl), heq.symm.trans hid⟩
    · exact ⟨g, mem_commit_goals.mpr (.inr ⟨hg, heq⟩), hid⟩

theorem Newest.commit (hnewest : base.Newest)
    (hgoal : goal ∈ base.controller.store.goals.rows) (hsound : result.Sound ids op goal) :
    (base.commit result).Newest := by
  have hsame := hsound.path.sameGoal
  intro g hg hopen other hother htab hne
  rcases mem_commit_goals.mp hg with rfl | ⟨hg, hneId⟩ <;>
    rcases mem_commit_goals.mp hother with rfl | ⟨hother, hneId'⟩
  · exact absurd rfl hne
  · rw [hsame.createdAt]
    refine hnewest goal hgoal (hsound.path.unfinished hopen) other hother (hsame.tabId ▸ htab) ?_
    rintro rfl
    exact hneId' hsame.id.symm
  · rw [hsame.createdAt]
    refine hnewest g hg hopen goal hgoal (hsame.tabId ▸ htab) ?_
    rintro rfl
    exact hneId hsame.id.symm
  · exact hnewest g hg hopen other hother htab hne

theorem Lifecycle.same (hlife : system.Lifecycle)
    (hgoals : after.controller.store.goals = system.controller.store.goals)
    (hcounted : after.history.counted = system.history.counted)
    (hsteps : after.history.steps = system.history.steps) : after.Lifecycle where
  sole := by rw [hgoals]; exact hlife.sole
  charged := fun goal hgoal => by
    rw [hgoals] at hgoal
    have h := hlife.charged goal hgoal
    exact h.keep rfl hcounted (by simp [hsteps]) rfl rfl h.ended
  stored := by rw [hgoals, hcounted]; exact hlife.stored

theorem Newest.same (hnewest : system.Newest)
    (hgoals : after.controller.store.goals = system.controller.store.goals) : after.Newest := by
  unfold Newest
  rw [hgoals]
  exact hnewest

variable {now : Time}

theorem Lifecycle.create {store : GoalRunStore} {tabId : TabId} {request : GoalRunCreate}
    {goalId : GoalId} (hlife : system.Lifecycle)
    (hgoals : store.goals =
        system.controller.store.goals.insert (newGoal tabId request goalId now))
    (hfree : ∀ existing ∈ system.controller.store.goals.rows, existing.tabId = tabId →
        existing.status.terminal = true ∧ existing.dispatchState = .idle)
    (hfresh : system.controller.store.goals.get? goalId = none) :
    ({ system with controller := { system.controller with store } } : GoalSystem).Lifecycle := by
  have hterminal : ∀ existing ∈ system.controller.store.goals.rows, existing.tabId = tabId →
      ¬ existing.unfinished := fun existing hmem htab => by
    simp [GoalRun.unfinished, (hfree existing hmem htab).1]
  refine ⟨?_, ?_, ?_⟩
  · intro g hg other hother htab hopen hopen'
    rw [hgoals] at hg hother
    rcases Table.mem_insert.mp hg with rfl | ⟨hg, -⟩ <;>
      rcases Table.mem_insert.mp hother with rfl | ⟨hother, -⟩
    · rfl
    · exact absurd hopen' (hterminal other hother htab.symm)
    · exact absurd hopen (hterminal g hg htab)
    · exact hlife.sole g hg other hother htab hopen hopen'
  · intro g hg
    rw [hgoals] at hg
    rcases Table.mem_insert.mp hg with rfl | ⟨hg, -⟩
    · have hnone : system.history.turnsOf goalId = [] := by
        rw [GoalHistory.turnsOf, List.filter_eq_nil_iff]
        intro entry hentry
        obtain ⟨g, hg, hid⟩ := hlife.stored entry hentry
        simpa [hid] using Table.get?_eq_none.mp hfresh g hg
      constructor <;> simp [newGoal, hnone]
    · exact hlife.charged g hg
  · intro entry hentry
    obtain ⟨g, hg, hid⟩ := hlife.stored entry hentry
    refine ⟨g, ?_, hid⟩
    rw [hgoals]
    exact Table.mem_insert.mpr (.inr ⟨hg, Table.get?_eq_none.mp hfresh g hg⟩)

theorem Newest.create {store : GoalRunStore} {tabId : TabId} {request : GoalRunCreate}
    {goalId : GoalId} (hnewest : system.Newest)
    (hgoals : store.goals =
        system.controller.store.goals.insert (newGoal tabId request goalId now))
    (hfree : ∀ existing ∈ system.controller.store.goals.rows, existing.tabId = tabId →
        existing.status.terminal = true ∧ existing.dispatchState = .idle)
    (hlater : ∀ existing ∈ system.controller.store.goals.rows, existing.tabId = tabId →
        existing.createdAt < now) :
    ({ system with controller := { system.controller with store } } : GoalSystem).Newest := by
  intro g hg hopen other hother htab hne
  rw [hgoals] at hg hother
  rcases Table.mem_insert.mp hg with rfl | ⟨hg, -⟩ <;>
    rcases Table.mem_insert.mp hother with rfl | ⟨hother, -⟩
  · exact absurd rfl hne
  · exact hlater other hother htab
  · simp [GoalRun.unfinished, (hfree g hg htab.symm).1] at hopen
  · exact hnewest g hg hopen other hother htab hne

theorem restart_kept {failing : Option GoalId} {next : GoalRun}
    (h : next ∈ (system.restart now failing).controller.store.goals.rows) :
    ∃ goal ∈ system.controller.store.goals.rows, goal.SameGoal next ∧
      (next.unfinished → goal.unfinished) := by
  obtain ⟨goal, hgoal, rfl | hmove⟩ := mem_restart_goals h
  · exact ⟨next, hgoal, ⟨rfl, rfl, rfl⟩, fun h => h⟩
  · exact ⟨goal, hgoal, hmove.sameGoal, (GoalPath.cons hmove (.nil next)).unfinished⟩

theorem Lifecycle.restart (hlife : system.Lifecycle) (hinv : system.Inv) (now : Time)
    (failing : Option GoalId) : (system.restart now failing).Lifecycle := by
  refine ⟨?_, ?_, ?_⟩
  · intro next hnext other hother htab hopen hopen'
    obtain ⟨goal, hgoal, hsame, hkeep⟩ := restart_kept hnext
    obtain ⟨goal', hgoal', hsame', hkeep'⟩ := restart_kept hother
    have heq := hlife.sole goal hgoal goal' hgoal'
      (hsame.tabId.symm.trans (htab.trans hsame'.tabId)) (hkeep hopen) (hkeep' hopen')
    exact Table.eq_of_mem hnext hother (hsame.id.trans ((congrArg GoalRun.id heq).trans hsame'.id.symm))
  · intro next hnext
    obtain ⟨goal, hgoal, rfl | hmove⟩ := mem_restart_goals hnext
    · have h := hlife.charged next hgoal
      exact h.keep rfl rfl (fun _ hentry => hentry) rfl rfl h.ended
    · have h := hmove.charged (hinv.wellFormed goal hgoal) (hinv.owned goal hgoal) (by simp)
        (hlife.charged goal hgoal)
      exact h.keep rfl rfl (fun _ hentry => hentry) rfl rfl h.ended
  · intro entry hentry
    obtain ⟨goal, hgoal, hid⟩ := hlife.stored entry hentry
    refine ⟨_, List.mem_map_of_mem hgoal, ?_⟩
    split
    · cases hrecovered : goal.recovered now with
      | none => exact hid
      | some => exact (GoalRun.recovered_spec hrecovered).id.trans hid
    · exact hid

theorem Newest.restart (hnewest : system.Newest) (now : Time) (failing : Option GoalId) :
    (system.restart now failing).Newest := by
  intro next hnext hopen other hother htab hne
  obtain ⟨goal, hgoal, hsame, hkeep⟩ := restart_kept hnext
  obtain ⟨goal', hgoal', hsame', -⟩ := restart_kept hother
  rw [hsame.createdAt, hsame'.createdAt]
  refine hnewest goal hgoal (hkeep hopen) goal' hgoal'
    (hsame'.tabId.symm.trans (htab.trans hsame.tabId)) ?_
  rintro rfl
  exact hne (Table.eq_of_mem hother hnext (hsame'.id.trans hsame.id.symm))

theorem Lifecycle.step {op : GoalOp} (hlife : system.Lifecycle) (hinv : system.Inv)
    (hnew : system.NewIds op) (h : system.step op = some after) : after.Lifecycle := by
  cases shape hinv h with
  | drops hdrops => exact hdrops.lifecycle hlife
  | wrote hdrops hgoal hsound =>
    exact (hdrops.lifecycle hlife).commit (hdrops.inv hinv) (hdrops.store ▸ hgoal) hsound
      (hdrops.history ▸ hnew.1)
  | created hop hgoal hgoals hfree hsound =>
    subst hop
    subst hgoal
    have hcreate := hinv.create hgoals (newGoal_wellFormed _ _ _ _) rfl hnew.2
    refine (hlife.create hgoals hfree hnew.2).commit hcreate ?_ hsound hnew.1
    rw [hgoals]
    exact Table.mem_insert.mpr (.inl rfl)
  | invoked => exact hlife.same rfl rfl rfl
  | ended hmem hgoal hid hending hsound =>
    obtain ⟨hsteps, -, hcounted⟩ := ended_history system _ _ _
    exact (hlife.commit hinv hgoal hsound (by simp)).same rfl hcounted hsteps
  | restarted now failing => exact hlife.restart hinv now failing

theorem Newest.step {op : GoalOp} (hnewest : system.Newest) (hinv : system.Inv)
    (hlater : system.LaterClock op) (h : system.step op = some after) : after.Newest := by
  cases shape hinv h with
  | drops hdrops => exact hdrops.newest hnewest
  | wrote hdrops hgoal hsound =>
    exact (hdrops.newest hnewest).commit (hdrops.store ▸ hgoal) hsound
  | created hop hgoal hgoals hfree hsound =>
    subst hop
    subst hgoal
    refine (hnewest.create hgoals hfree hlater).commit ?_ hsound
    rw [hgoals]
    exact Table.mem_insert.mpr (.inl rfl)
  | invoked => exact hnewest.same rfl
  | ended hmem hgoal hid hending hsound => exact (hnewest.commit hgoal hsound).same rfl
  | restarted now failing => exact hnewest.restart now failing

theorem terminal_step {op : GoalOp} (hinv : system.Inv) (hnew : system.NewIds op)
    (h : system.step op = some after) (hgoal : goal ∈ system.controller.store.goals.rows)
    (hterminal : goal.status.terminal = true) :
    ∃ next ∈ after.controller.store.goals.rows, next.id = goal.id ∧
      next.status.terminal = true := by
  have hcommit : ∀ {base : GoalSystem} {g : GoalRun} {result : Section} {ids : List TurnId}
      {op : GoalOp}, goal ∈ base.controller.store.goals.rows →
      g ∈ base.controller.store.goals.rows → result.Sound ids op g →
      ∃ next ∈ (base.commit result).controller.store.goals.rows, next.id = goal.id ∧
        next.status.terminal = true := by
    intro base g result ids op hmem hg hsound
    have hsame := hsound.path.sameGoal
    by_cases heq : goal.id = g.id
    · obtain rfl := Table.eq_of_mem hmem hg heq
      exact ⟨result.goal, mem_commit_goals.mpr (.inl rfl), hsame.id, hsound.path.terminal hterminal⟩
    · exact ⟨goal, mem_commit_goals.mpr (.inr ⟨hmem, hsame.id ▸ heq⟩), rfl, hterminal⟩
  cases shape hinv h with
  | drops hdrops => exact ⟨goal, hdrops.store ▸ hgoal, rfl, hterminal⟩
  | wrote hdrops hg hsound => exact hcommit (hdrops.store ▸ hgoal) (hdrops.store ▸ hg) hsound
  | created hop hg hgoals hfree hsound =>
    subst hop
    subst hg
    have hother : goal.id ≠ _ := Table.get?_eq_none.mp hnew.2 goal hgoal
    refine hcommit ?_ ?_ hsound
    · rw [hgoals]
      exact Table.mem_insert.mpr (.inr ⟨hgoal, hother⟩)
    · rw [hgoals]
      exact Table.mem_insert.mpr (.inl rfl)
  | invoked => exact ⟨goal, hgoal, rfl, hterminal⟩
  | ended hmem hg hid hending hsound => exact hcommit hgoal hg hsound
  | restarted now =>
    refine ⟨_, List.mem_map_of_mem hgoal, ?_⟩
    split
    · cases hrecovered : goal.recovered now with
      | none => exact ⟨rfl, hterminal⟩
      | some =>
        exact ⟨(GoalRun.recovered_spec hrecovered).id,
          (GoalMove.recovered now hrecovered).terminal hterminal⟩
    · exact ⟨rfl, hterminal⟩

theorem Newest.current (hnewest : system.Newest)
    (hgoal : goal ∈ system.controller.store.goals.rows) (hopen : goal.unfinished) :
    system.controller.store.currentForTab goal.tabId = some goal := by
  have hmem : goal ∈ system.controller.store.forTab goal.tabId :=
    GoalRunStore.mem_forTab.mpr ⟨hgoal, rfl⟩
  unfold GoalRunStore.currentForTab
  cases hmax : (system.controller.store.forTab goal.tabId).argmax GoalRun.createdAt with
  | none => simp [List.argmax_eq_none.mp hmax] at hmem
  | some current =>
    obtain ⟨hcurrent, htab⟩ := GoalRunStore.mem_forTab.mp (List.argmax_mem hmax)
    have heq : current = goal := by
      by_contra hne
      have hlt := hnewest goal hgoal hopen current hcurrent htab hne
      have hle : goal.createdAt ≤ current.createdAt := List.le_of_mem_argmax hmem hmax
      exact absurd hlt (not_lt.mpr hle)
    subst heq
    dsimp only
    rw [if_neg]
    rintro ⟨hcancelled, -⟩
    simp [GoalRun.unfinished, hcancelled, GoalRunStatus.terminal] at hopen

instance (system : GoalSystem) : (op : GoalOp) → Decidable (system.LaterClock op)
  | .createAndStart tabId _ _ moment =>
    inferInstanceAs (Decidable (∀ goal ∈ system.controller.store.goals.rows,
      goal.tabId = tabId → goal.createdAt < moment.now))
  | .pause .. | .resume .. | .steer .. | .updateObjective .. | .complete .. | .clear ..
  | .cancelReturned .. | .cancelRaised .. | .turnCompleted .. | .releaseDeferredResume ..
  | .dispatchNext .. | .dispatch .. | .abandon .. | .transportReturned ..
  | .transportRaised .. | .restart .. => instDecidableTrue

theorem initial_lifecycle (callbacks : Callbacks) : (initial callbacks).Lifecycle := by
  constructor <;> simp [initial]

theorem run_lifecycle {ops : List GoalOp} (hinv : system.Inv) (hlife : system.Lifecycle)
    (hrun : Run GoalSystem.step NewIds system ops after) : after.Inv ∧ after.Lifecycle :=
  hrun.invariant (P := fun system => system.Inv ∧ system.Lifecycle) ⟨hinv, hlife⟩
    fun _ _ _ hs hok hstep => ⟨hs.1.step hok hstep, hs.2.step hs.1 hok hstep⟩

theorem run_terminal {ops : List GoalOp} (hinv : system.Inv)
    (hrun : Run GoalSystem.step NewIds system ops after)
    (hgoal : goal ∈ system.controller.store.goals.rows)
    (hterminal : goal.status.terminal = true) :
    ∃ next ∈ after.controller.store.goals.rows, next.id = goal.id ∧
      next.status.terminal = true := by
  induction hrun generalizing goal with
  | nil => exact ⟨goal, hgoal, rfl, hterminal⟩
  | cons hok hstep _ ih =>
    obtain ⟨middle, hmiddle, hid, hstill⟩ := terminal_step hinv hok hstep hgoal hterminal
    obtain ⟨next, hnext, hid', hlast⟩ := ih (hinv.step hok hstep) hmiddle hstill
    exact ⟨next, hnext, hid'.trans hid, hlast⟩

/-- Where the ids are new, a tab has at most one unfinished goal, a terminal goal never becomes
unfinished, and a goal is charged once for each of its counted turns. -/
theorem lifecycle_safe {callbacks : Callbacks} {ops : List GoalOp}
    (hrun : Run GoalSystem.step NewIds (initial callbacks) ops system) :
    (∀ goal ∈ system.controller.store.goals.rows,
        ∀ other ∈ system.controller.store.goals.rows, goal.tabId = other.tabId →
          goal.unfinished → other.unfinished → goal = other) ∧
      (∀ goal ∈ system.controller.store.goals.rows, goal.status.terminal = true →
        ∀ later after, Run GoalSystem.step NewIds system later after →
          ∀ next ∈ after.controller.store.goals.rows, next.id = goal.id →
            next.status.terminal = true) ∧
      (∀ goal ∈ system.controller.store.goals.rows, goal.Charged system.history) ∧
      (Run GoalSystem.step (fun system op => system.NewIds op ∧ system.LaterClock op)
          (initial callbacks) ops system →
        ∀ goal ∈ system.controller.store.goals.rows, goal.unfinished →
          system.controller.store.currentForTab goal.tabId = some goal) := by
  obtain ⟨hinv, hlife⟩ := run_lifecycle (initial_inv callbacks) (initial_lifecycle callbacks) hrun
  refine ⟨hlife.sole, ?_, hlife.charged, ?_⟩
  · intro goal hgoal hterminal later after hlater next hnext hid
    obtain ⟨same, hsame, hsameId, hstill⟩ := run_terminal hinv hlater hgoal hterminal
    obtain rfl := Table.eq_of_mem hnext hsame (hid.trans hsameId.symm)
    exact hstill
  · intro hclocked goal hgoal hopen
    have hinitial : (initial callbacks).Newest := by simp [Newest, initial]
    have h := hclocked.invariant (P := fun system => system.Inv ∧ system.Newest)
      ⟨initial_inv callbacks, hinitial⟩ fun _ _ _ hs hok hstep =>
        ⟨hs.1.step hok.1 hstep, hs.2.step hs.1 hok.2 hstep⟩
    exact h.2.current hgoal hopen

/-! ### A second goal on a tab, created before and after the clock is set back -/

private def goalRequest (text : String) : GoalRunCreate :=
  { objective := text, clientRequestId := text }

/-- The first goal is completed by the user and its turn is stopped; then the tab gets a
second goal. -/
private def twoGoals (second : Time) : List GoalOp :=
  [.createAndStart "tab" (goalRequest "first") "first" ⟨5, "step-1", {}⟩,
    .complete "first" "complete" ⟨6, "unused", {}⟩,
    .cancelReturned "first" ⟨7, "unused", {}⟩,
    .createAndStart "tab" (goalRequest "second") "second" ⟨second, "step-2", {}⟩]

theorem lifecycle_safe_two_goals :
    ∃ system : GoalSystem, ∃ goal : GoalRun, goal.id = "second" ∧ goal.unfinished ∧
      system.controller.store.currentForTab "tab" = some goal := by
  have h : ((execOk GoalSystem.step (fun system op => system.NewIds op ∧ system.LaterClock op)
      (initial {}) (twoGoals 8)).map fun system =>
        system.controller.store.goals.rows.map fun goal =>
          (goal.id, goal.tabId, goal.status)) =
      some [("first", "tab", .complete), ("second", "tab", .active)] := by
    decide +kernel
  obtain ⟨system, hexec, hgoals⟩ := Option.map_eq_some_iff.mp h
  have hsecond : ("second", "tab", GoalRunStatus.active) ∈
      system.controller.store.goals.rows.map fun goal => (goal.id, goal.tabId, goal.status) := by
    simp [hgoals]
  obtain ⟨goal, hgoal, heq⟩ := List.mem_map.mp hsecond
  simp only [Prod.mk.injEq] at heq
  obtain ⟨hid, htab, hactive⟩ := heq
  have hopen : goal.unfinished := by simp [GoalRun.unfinished, hactive, GoalRunStatus.terminal]
  have hrun := Run.of_execOk hexec
  refine ⟨system, goal, hid, hopen, ?_⟩
  rw [← htab]
  exact (lifecycle_safe (hrun.mono fun _ _ hok => hok.1)).2.2.2 hrun goal hgoal hopen

/-- The clock is set back between the two creates, and `current_for_tab` returns the goal
that is complete. -/
theorem current_goal_hidden :
    ∃ system : GoalSystem, ∃ goal ∈ system.controller.store.goals.rows,
      Run GoalSystem.step NewIds (initial {}) (twoGoals 3) system ∧ goal.unfinished ∧
        system.controller.store.currentForTab goal.tabId ≠ some goal := by
  have h : ((execOk GoalSystem.step NewIds (initial {}) (twoGoals 3)).map fun system =>
        (system.controller.store.goals.rows.map fun goal => (goal.id, goal.tabId, goal.status),
          (system.controller.store.currentForTab "tab").map GoalRun.id)) =
      some ([("first", "tab", .complete), ("second", "tab", .active)], some "first") := by
    decide +kernel
  obtain ⟨system, hexec, hviews⟩ := Option.map_eq_some_iff.mp h
  obtain ⟨hgoals, hcurrent⟩ := Prod.mk.inj hviews
  have hsecond : ("second", "tab", GoalRunStatus.active) ∈
      system.controller.store.goals.rows.map fun goal => (goal.id, goal.tabId, goal.status) := by
    simp [hgoals]
  obtain ⟨goal, hgoal, heq⟩ := List.mem_map.mp hsecond
  simp only [Prod.mk.injEq] at heq
  obtain ⟨hid, htab, hactive⟩ := heq
  refine ⟨system, goal, hgoal, Run.of_execOk hexec,
    by simp [GoalRun.unfinished, hactive, GoalRunStatus.terminal], fun hsame => ?_⟩
  rw [htab] at hsame
  simp [hsame, hid] at hcurrent

end GoalSystem

end ClaudeHub
