import Mathlib.Data.List.Infix
import ClaudeHub.Subagents.Joins

/-! # Nothing runs behind a close, a cancel or a stop

A record never has two running turns. Closing, cancelling and stopping leave none running as
long as no send is overtaken between the append of its turn and the first step of its task.
-/

namespace ClaudeHub

open StepSystem

namespace SubagentService

variable {service next : SubagentService} {id : SubagentId} {turnId : TurnId}

/-- The task is done. -/
def Over (stage : TurnTaskStage) : Prop := stage = .ended ∨ stage = .neverBegan

/-- A stop joins every task that there is, and none is spawned once it has begun. -/
structure Stopping (service : SubagentService) : Prop where
  joining : ∀ tasks, StopStage.joining tasks ∈ service.stops → service.shuttingDown = true ∧
    ∀ turnId id stage, service.stageOf turnId = some (id, stage) → Over stage ∨ turnId ∈ tasks
  ended : StopStage.saving ∈ service.stops ∨ service.stopped = true → service.shuttingDown = true ∧
    ∀ turnId id stage, service.stageOf turnId = some (id, stage) → Over stage
  startedLate : service.startedLate = []

namespace Stopping

theorem carry (h : service.Stopping)
    (hstages : ∀ turnId id stage, next.stageOf turnId = some (id, stage) →
      ∃ before, service.stageOf turnId = some (id, before) ∧ (Over before → Over stage))
    (hstops : ∀ stop ∈ next.stops, stop ∈ service.stops)
    (hdown : next.shuttingDown = service.shuttingDown) (hstopped : next.stopped = service.stopped)
    (hlate : next.startedLate = service.startedLate) : next.Stopping where
  joining tasks hmem := by
    obtain ⟨hdowned, htasks⟩ := h.joining tasks (hstops _ hmem)
    refine ⟨hdown.trans hdowned, fun turnId id stage hstage => ?_⟩
    obtain ⟨before, hbefore, hover⟩ := hstages turnId id stage hstage
    exact (htasks turnId id before hbefore).imp_left hover
  ended hmem := by
    rw [hstopped] at hmem
    obtain ⟨hdowned, hall⟩ := h.ended (hmem.imp_left (hstops _))
    refine ⟨hdown.trans hdowned, fun turnId id stage hstage => ?_⟩
    obtain ⟨before, hbefore, hover⟩ := hstages turnId id stage hstage
    exact hover (hall turnId id before hbefore)
  startedLate := hlate.trans h.startedLate

theorem aside (h : service.Stopping) (h' : Aside service next) : next.Stopping := by
  refine h.carry ?_ ?_ h'.shuttingDown h'.stopped h'.startedLate
  · intro turnId id stage hstage
    exact ⟨stage, h'.stageOf turnId ▸ hstage, fun hover => hover⟩
  · intro stop hmem
    rwa [h'.stops] at hmem

theorem setTask (h : service.Stopping) {task : TurnTask} {stage : TurnTaskStage}
    (htask : service.turnTasks.get? task.turnId = some task) (hnot : ¬ Over task.stage)
    (hstages : ∀ turnId, next.stageOf turnId = (service.setTask task stage).stageOf turnId)
    (hstops : next.stops = service.stops) (hdown : next.shuttingDown = service.shuttingDown)
    (hstopped : next.stopped = service.stopped) (hlate : next.startedLate = service.startedLate) :
    next.Stopping := by
  refine h.carry ?_ (fun _ hmem => hstops ▸ hmem) hdown hstopped hlate
  intro turnId id found hfound
  rw [hstages] at hfound
  have hinserted : (if turnId = task.turnId then some (task.subagentId, stage)
      else service.stageOf turnId) = some (id, found) :=
    (stageOf_insert service { task with stage := stage } turnId).symm.trans hfound
  split at hinserted
  · next heq =>
      obtain ⟨rfl, -⟩ := Prod.mk.inj (Option.some.inj hinserted)
      exact ⟨task.stage, heq ▸ stageOf_of_get? htask, fun hover => absurd hover hnot⟩
  · exact ⟨found, hinserted, fun hover => hover⟩

theorem same (h : service.Stopping)
    (hstages : ∀ turnId, next.stageOf turnId = service.stageOf turnId)
    (hstops : ∀ stop ∈ next.stops, stop ∈ service.stops)
    (hdown : next.shuttingDown = service.shuttingDown) (hstopped : next.stopped = service.stopped)
    (hlate : next.startedLate = service.startedLate) : next.Stopping := by
  refine h.carry ?_ hstops hdown hstopped hlate
  intro turnId id stage hstage
  exact ⟨stage, hstages turnId ▸ hstage, fun hover => hover⟩

theorem step (h : service.Stopping) {op : SubagentOp} (hunraced : service.Unraced op)
    (hstep : service.step op = some next) : next.Stopping := by
  cases effect_of_step hstep with
  | bookkeeping h' => exact h.aside h'.toAside
  | closing h' => exact h.aside h'
  | sent middle h' _ _ _ _ _ =>
    exact (h.aside h'.toAside).same (fun _ => rfl) (fun _ hmem => hmem) rfl rfl rfl
  | opened middle h' _ _ _ _ _ =>
    exact (h.aside h'.toAside).same (fun _ => rfl) (fun _ hmem => hmem) rfl rfl rfl
  | @spawned _ turn hunsaved hop horigin h' =>
    have hrunning : service.shuttingDown = false := by
      rcases horigin with hsent | hcreated
      · have hboth := hunraced.2
        rw [hop] at hboth
        exact hboth (by simp [hunsaved, hsent])
      · exact hcreated
    have hidle : service.stopped = false := by
      by_contra hstopped
      obtain ⟨hdown, -⟩ := h.ended (.inr (by simpa using hstopped))
      rw [hrunning] at hdown
      cases hdown
    have hnever : ∀ stop, stop ∉ service.stops := by
      intro stop hmem
      have hdown : service.shuttingDown = true := by
        cases stop with
        | joining tasks => exact (h.joining tasks hmem).1
        | saving => exact (h.ended (.inl hmem)).1
      rw [hrunning] at hdown
      cases hdown
    apply Stopping.aside _ h'.toAside
    constructor
    · exact fun tasks hmem => absurd hmem (hnever _)
    · rintro (hmem | hstopped)
      · exact absurd hmem (hnever _)
      · have hstopped : service.stopped = true := hstopped
        rw [hidle] at hstopped
        cases hstopped
    · have hstillIdle : SubagentService.stopped
          { service with unsaved := service.unsaved.erase turn.turnId } = false := hidle
      simp [spawn, hidle, h.startedLate]
  | unsent _ h' =>
    apply Stopping.aside _ h'.toAside
    exact h.same (fun _ => rfl) (fun _ hmem => hmem) rfl rfl rfl
  | discarded _ h' =>
    apply Stopping.aside _ h'.toAside
    exact h.same (fun _ => rfl) (fun _ hmem => hmem) rfl rfl rfl
  | neverBegan htask hstage =>
    exact h.setTask htask (by simp [hstage, Over]) (fun _ => rfl) rfl rfl rfl rfl
  | @begun task htask hstage =>
    refine h.setTask htask (by simp [hstage, Over]) (fun _ => rfl) rfl rfl rfl ?_
    have hidle : service.stopped = false := by
      by_contra hstopped
      obtain ⟨-, hall⟩ := h.ended (.inr (by simpa using hstopped))
      have hover := hall _ _ _ (stageOf_of_get? htask)
      simp [hstage, Over] at hover
    simp [hidle]
  | finished htask hstage _ =>
    exact h.setTask htask (by simp [hstage, Over]) (fun _ => rfl) rfl rfl rfl rfl
  | ended htask hstage h' =>
    apply Stopping.aside _ h'.toAside
    exact h.setTask htask (by simp [hstage, Over]) (fun _ => rfl) rfl rfl rfl rfl
  | cancelReturned _ _ _ _ =>
    exact h.same (Aside.requestCancel service []).stageOf (fun _ hmem => hmem) rfl rfl rfl
  | @cancelJoins record named _ _ _ =>
    exact h.same (Aside.requestCancel service (service.runningTasks record named)).stageOf
      (fun _ hmem => hmem) rfl rfl rfl
  | stopping =>
    have hasked := Aside.requestCancel service
      ((service.turnTasks.rows.filter fun task => !task.done).map TurnTask.turnId)
    constructor
    · intro tasks hmem
      refine ⟨rfl, fun turnId id stage hstage => ?_⟩
      have hbefore : service.stageOf turnId = some (id, stage) :=
        (hasked.stageOf turnId).symm.trans hstage
      rcases List.mem_append.mp hmem with hold | hnew
      · exact (h.joining tasks hold).2 turnId id stage hbefore
      · cases List.mem_singleton.mp hnew
        obtain ⟨task, htask, hpair⟩ := Option.map_eq_some_iff.mp hbefore
        obtain ⟨-, rfl⟩ := Prod.mk.inj hpair
        by_cases hdone : task.done = true
        · left
          simpa [TurnTask.done, Over] using hdone
        · right
          have hid : task.turnId = turnId := Table.key_of_get? htask
          exact List.mem_map.mpr ⟨task, List.mem_filter.mpr
            ⟨(Table.get?_eq_some.mp htask).1, by simpa using hdone⟩, hid⟩
    · intro hmem
      refine ⟨rfl, fun turnId id stage hstage => ?_⟩
      have hbefore : service.stageOf turnId = some (id, stage) :=
        (hasked.stageOf turnId).symm.trans hstage
      refine (h.ended (hmem.imp_left fun hsaving => ?_)).2 turnId id stage hbefore
      rcases List.mem_append.mp hsaving with hold | hnew
      · exact hold
      · cases List.mem_singleton.mp hnew
    · exact h.startedLate
  | @stopJoined index tasks hstop hjoined =>
    obtain ⟨hdown, htasks⟩ := h.joining tasks (List.mem_of_getElem? hstop)
    have hall : ∀ turnId id stage, service.stageOf turnId = some (id, stage) → Over stage := by
      intro turnId id stage hstage
      rcases htasks turnId id stage hstage with hover | hmem
      · exact hover
      · exact done_of_joined hjoined hmem hstage
    constructor
    · intro others hmem
      refine ⟨hdown, fun turnId id stage hstage => .inl (hall turnId id stage hstage)⟩
    · exact fun _ => ⟨hdown, hall⟩
    · exact h.startedLate
  | stopped hstop =>
    obtain ⟨hdown, hall⟩ := h.ended (.inl (List.mem_of_getElem? hstop))
    constructor
    · exact fun tasks _ => ⟨hdown, fun turnId id stage hstage => .inl (hall turnId id stage hstage)⟩
    · exact fun _ => ⟨hdown, hall⟩
    · exact h.startedLate
  | stopAbandoned =>
    exact h.same (fun _ => rfl) (fun _ hmem => List.eraseIdx_subset hmem) rfl rfl rfl
  | pruned | closed _ _ | cancelJoined _ _ | cancelAbandoned =>
    exact h.same (fun _ => rfl) (fun _ hmem => hmem) rfl rfl rfl

end Stopping

variable (records : Table Subagent.id)

theorem runningTurns_loaded {record : Subagent} (hmem : record ∈ (loaded records).records.rows) :
    record.runningTurns = [] := by
  obtain ⟨stored, -, rfl⟩ := List.mem_map.mp hmem
  apply List.eq_nil_iff_forall_not_mem.mpr
  intro turnId hturn
  obtain ⟨turn, hfound, hstatus, -⟩ := Subagent.mem_runningTurns.mp hturn
  obtain ⟨old, -, rfl⟩ := List.mem_map.mp hfound
  split at hstatus
  · cases hstatus
  · next hold => exact hold hstatus

theorem not_running_loaded : ¬ (loaded records).Running id turnId := by
  rintro ⟨record, hrecord, hmem⟩
  rw [runningTurns_loaded records (Table.get?_eq_some.mp hrecord).1] at hmem
  cases hmem

theorem staged_loaded : (loaded records).Staged where
  running _ _ hrunning := absurd hrunning (not_running_loaded records)
  registered _ _ _ hstage := by cases hstage
  apart _ _ := rfl
  unsavedMinted _ hwaits := by cases hwaits
  stageMinted _ hstage := by cases hstage
  recordMinted id hsome := by
    obtain ⟨record, hrecord⟩ := Option.isSome_iff_exists.mp hsome
    unfold loaded at hrecord
    rw [Table.get?_map] at hrecord
    obtain ⟨stored, hstored, -⟩ := Option.map_eq_some_iff.mp hrecord
    obtain ⟨hmem, rfl⟩ := Table.get?_eq_some.mp hstored
    exact List.mem_flatMap.mpr ⟨stored, hmem, List.mem_cons_self⟩

theorem joined_loaded : (loaded records).Joined where
  closing _ hrow := by cases hrow
  closed _ _ _ := not_running_loaded records
  unsaved _ hturn := by cases hturn
  cancels _ hcall := by cases hcall
  cancelled _ _ hentry := by cases hentry
  spawnedClosed := rfl

theorem stopping_loaded : (loaded records).Stopping where
  joining _ hmem := by cases hmem
  ended hmem := by rcases hmem with hmem | hmem <;> cases hmem
  startedLate := rfl

end SubagentService

/-- In every run no record ever has two running turns. Where closes and cancels meet no turn that
waits for its save or its task, and no sent turn is saved during a stop, a closed or cancelled
record is quiet, and so is the service after a stop. -/
theorem subagents_exclusive_and_quiet {records : Table Subagent.id} {ops : List SubagentOp}
    {service : SubagentService}
    (hrun : Run SubagentService.step (fun _ _ => True) (.loaded records) ops service) :
    service.Exclusive ∧
      (Run SubagentService.step SubagentService.Unraced (.loaded records) ops service →
        service.Quiet) := by
  constructor
  · refine hrun.invariant ?_ fun _ _ _ h _ hstep => SubagentService.exclusive_step h hstep
    intro record hmem
    rw [SubagentService.runningTurns_loaded records hmem]
    exact Nat.zero_le 1
  · intro hunraced
    have hall := hunraced.invariant
      (P := fun service => service.Staged ∧ service.Joined ∧ service.Stopping)
      ⟨SubagentService.staged_loaded records, SubagentService.joined_loaded records,
        SubagentService.stopping_loaded records⟩
      fun _ _ _ h hok hstep =>
        ⟨h.1.step hstep, h.2.1.step h.1 hok hstep, h.2.2.step hok hstep⟩
    obtain ⟨-, hjoined, hstopping⟩ := hall
    exact ⟨hjoined.closed, hjoined.spawnedClosed, fun id turnId hentry =>
      (hjoined.cancelled id turnId hentry).2, hstopping.startedLate⟩

private def keptSubagents : Table Subagent.id :=
  Table.empty.insert { id := "helper", keep := true }

private def followUp : List SubagentOp :=
  [.send "helper" {}, .enterSend 0 "turn"]

/-- The turn is saved and run, cancelled, and its record closed, before the service stops. -/
theorem subagents_exclusive_and_quiet_cancelled : ∃ service,
    Run SubagentService.step (fun _ _ => True) (.loaded keptSubagents)
      (followUp ++ [.saved "turn" true, .beginTurn "turn", .cancel "helper" none,
        .finishTurn "turn" .cancelled, .endTurn "turn" false, .joinCancel 0,
        .close "helper" "closed by caller", .proceedClose "helper" (.goOn 1), .endClose 0 false,
        .stop, .proceedStop 0, .proceedStop 0]) service ∧
      service.isClosed "helper" = true ∧ service.cancelled = [("helper", "turn")] ∧
      service.stopped = true ∧ service.Exclusive ∧ service.Quiet := by
  have hexec : ((execOk SubagentService.step SubagentService.Unraced (.loaded keptSubagents)
      (followUp ++ [.saved "turn" true, .beginTurn "turn", .cancel "helper" none,
        .finishTurn "turn" .cancelled, .endTurn "turn" false, .joinCancel 0,
        .close "helper" "closed by caller", .proceedClose "helper" (.goOn 1), .endClose 0 false,
        .stop, .proceedStop 0, .proceedStop 0])).map fun service =>
          (service.isClosed "helper", service.cancelled, service.stopped)) =
      some (true, [("helper", "turn")], true) := by decide +kernel
  obtain ⟨service, hrun, hends⟩ := Option.map_eq_some_iff.mp hexec
  obtain ⟨hclosed, hrest⟩ := Prod.mk.inj hends
  obtain ⟨hcancelled, hstopped⟩ := Prod.mk.inj hrest
  have hunraced := Run.of_execOk hrun
  have hall : Run SubagentService.step (fun _ _ => True) (.loaded keptSubagents) _ service :=
    hunraced.mono fun _ _ _ => trivial
  obtain ⟨hexclusive, hquiet⟩ := subagents_exclusive_and_quiet hall
  exact ⟨service, hall, hclosed, hcancelled, hstopped, hexclusive, hquiet hunraced⟩

/-- A cancel and a close come while the follow-up is being saved. Both find no task; the closed
flag is set, and then the turn is spawned and runs for the closed record. -/
theorem send_overtaken_by_close :
    ¬ ∀ (records : Table Subagent.id) (ops : List SubagentOp) (service : SubagentService),
      Run SubagentService.step (fun _ _ => True) (.loaded records) ops service →
      service.Quiet := by
  intro h
  have hexec : ((exec SubagentService.step (.loaded keptSubagents)
      (followUp ++ [.cancel "helper" none, .close "helper" "closed by caller",
        .proceedClose "helper" (.goOn 1), .saved "turn" true, .beginTurn "turn",
        .endClose 0 false])).map fun service =>
          (service.isClosed "helper", service.cancelled, service.spawnedClosed)) =
      some (true, [("helper", "turn")], ["turn"]) := by decide +kernel
  obtain ⟨service, hrun, hends⟩ := Option.map_eq_some_iff.mp hexec
  have hspawned := (h keptSubagents _ service (Run.of_exec hrun)).spawned
  rw [(Prod.mk.inj (Prod.mk.inj hends).2).2] at hspawned
  cases hspawned

/-- In every run each turn that is recorded as running still waits for its save, or has one task,
which a stop finds registered until it has ended or was cancelled before it began. -/
theorem running_turns_have_tasks {records : Table Subagent.id} {ops : List SubagentOp}
    {service : SubagentService}
    (hrun : Run SubagentService.step (fun _ _ => True) (.loaded records) ops service)
    (id : SubagentId) (turnId : TurnId) (hrunning : service.Running id turnId) :
    ((service.unsaved.get? turnId).map UnsavedTurn.subagentId = some id ∧
        service.stageOf turnId = none) ∨
      ∃ stage, service.stageOf turnId = some (id, stage) ∧
        (stage = .neverBegan ∨
          ((stage = .spawned ∨ stage = .executing) ∧ turnId ∈ service.tasks)) := by
  have hstaged := hrun.invariant (SubagentService.staged_loaded records)
    fun _ _ _ h _ hstep => h.step hstep
  rcases hstaged.running id turnId hrunning with hwaits | ⟨stage, hstage, hlive⟩
  · refine .inl ⟨hwaits, hstaged.apart turnId ?_⟩
    obtain ⟨unsaved, hunsaved, -⟩ := Option.map_eq_some_iff.mp hwaits
    simp [hunsaved]
  · refine .inr ⟨stage, hstage, ?_⟩
    rcases hlive with hspawned | hexecuting | hnever
    · exact .inr ⟨.inl hspawned, hstaged.registered id turnId stage hstage (.inl hspawned)⟩
    · exact .inr ⟨.inr hexecuting, hstaged.registered id turnId stage hstage (.inr hexecuting)⟩
    · exact .inl hnever

theorem running_turns_have_tasks_saved : ∃ service,
    Run SubagentService.step (fun _ _ => True) (.loaded keptSubagents)
      (followUp ++ [.saved "turn" true, .beginTurn "turn"]) service ∧
      service.Running "helper" "turn" ∧ ∃ stage, service.stageOf "turn" = some ("helper", stage) := by
  have hexec : ((exec SubagentService.step (.loaded keptSubagents)
      (followUp ++ [.saved "turn" true, .beginTurn "turn"])).map fun service =>
        ((service.records.get? "helper").any fun record => decide ("turn" ∈ record.runningTurns),
          (service.stageOf "turn").isSome)) = some (true, true) := by decide +kernel
  obtain ⟨service, hrun, hends⟩ := Option.map_eq_some_iff.mp hexec
  obtain ⟨hrecord, hstage⟩ := Prod.mk.inj hends
  obtain ⟨record, hget, hmem⟩ := (Option.any_eq_true _ _).mp hrecord
  have hrunning : service.Running "helper" "turn" := ⟨record, hget, of_decide_eq_true hmem⟩
  have hall := Run.of_exec hrun
  refine ⟨service, hall, hrunning, ?_⟩
  rcases running_turns_have_tasks hall "helper" "turn" hrunning with ⟨-, hnone⟩ | ⟨stage, hat, -⟩
  · simp [hnone] at hstage
  · exact ⟨stage, hat⟩

end ClaudeHub
