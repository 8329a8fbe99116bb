import ClaudeHub.Subagents.Run

/-! # What a step does to the turns

Most steps leave the turns, their tasks and the joins alone. The others append a turn, spawn
its task, take it from one stage to the next, join it, or set a flag.
-/

namespace ClaudeHub

open StepSystem

theorem Subagent.mem_runningTurns {record : Subagent} {turnId : TurnId} :
    turnId ∈ record.runningTurns ↔
      ∃ turn ∈ record.turns, turn.status = .running ∧ turn.turnId = turnId := by
  simp [runningTurns, and_assoc]

theorem Subagent.runningTurns_trimTurns (record : Subagent) :
    record.trimTurns.runningTurns = record.runningTurns := by
  unfold trimTurns
  split
  · rfl
  · unfold runningTurns
    simp only [List.filter_map, List.filter_filter]
    have hkept : ∀ entry : SubagentTurn × Nat,
        (((fun turn : SubagentTurn => decide (turn.status = .running)) ∘ Prod.fst) entry
          && decide (entry.2 = 0 ∨ record.turns.length - turnsKept ≤ entry.2
            ∨ entry.1.status = .running)) =
        ((fun turn : SubagentTurn => decide (turn.status = .running)) ∘ Prod.fst) entry := by
      rintro ⟨turn, index⟩
      by_cases h : turn.status = .running <;> simp [h]
    rw [List.filter_congr fun entry _ => hkept entry, ← List.filter_map, List.zipIdx_map_fst]

namespace SubagentService

variable {service next : SubagentService} {id : SubagentId} {turnId : TurnId}

def stageOf (service : SubagentService) (turnId : TurnId) : Option (SubagentId × TurnTaskStage) :=
  (service.turnTasks.get? turnId).map fun task => (task.subagentId, task.stage)

theorem stageOf_of_get? {task : TurnTask} (h : service.turnTasks.get? turnId = some task) :
    service.stageOf turnId = some (task.subagentId, task.stage) := by
  simp [stageOf, h]

theorem stageOf_insert (service : SubagentService) (task : TurnTask) (turnId : TurnId) :
    ((service.turnTasks.insert task).get? turnId).map (fun task => (task.subagentId, task.stage)) =
      if turnId = task.turnId then some (task.subagentId, task.stage)
      else service.stageOf turnId := by
  rw [Table.get?_insert]
  split <;> rfl

theorem running_congr (h : next.records = service.records) :
    next.Running id turnId ↔ service.Running id turnId := by
  unfold Running
  rw [h]

/-! ## Steps aside of the turns -/

/-- What a step leaves that only touches closes, answers and requests. -/
structure Aside (service next : SubagentService) : Prop where
  records : next.records = service.records
  stageOf : ∀ turnId, next.stageOf turnId = service.stageOf turnId
  tasks : next.tasks = service.tasks
  unsaved : next.unsaved = service.unsaved
  cancels : next.cancels = service.cancels
  stops : next.stops = service.stops
  shuttingDown : next.shuttingDown = service.shuttingDown
  minted : next.minted = service.minted
  cancelled : next.cancelled = service.cancelled
  spawnedClosed : next.spawnedClosed = service.spawnedClosed
  stopped : next.stopped = service.stopped
  startedLate : next.startedLate = service.startedLate

namespace Aside

theorem refl (service : SubagentService) : Aside service service :=
  ⟨rfl, fun _ => rfl, rfl, rfl, rfl, rfl, rfl, rfl, rfl, rfl, rfl, rfl⟩

theorem trans {middle : SubagentService} (h : Aside service middle) (h' : Aside middle next) :
    Aside service next where
  records := h'.records.trans h.records
  stageOf turnId := (h'.stageOf turnId).trans (h.stageOf turnId)
  tasks := h'.tasks.trans h.tasks
  unsaved := h'.unsaved.trans h.unsaved
  cancels := h'.cancels.trans h.cancels
  stops := h'.stops.trans h.stops
  shuttingDown := h'.shuttingDown.trans h.shuttingDown
  minted := h'.minted.trans h.minted
  cancelled := h'.cancelled.trans h.cancelled
  spawnedClosed := h'.spawnedClosed.trans h.spawnedClosed
  stopped := h'.stopped.trans h.stopped
  startedLate := h'.startedLate.trans h.startedLate

theorem isClosed (h : Aside service next) (id : SubagentId) : next.isClosed id = service.isClosed id := by
  unfold SubagentService.isClosed
  rw [h.records]

theorem running (h : Aside service next) : next.Running id turnId ↔ service.Running id turnId :=
  running_congr h.records

theorem answer (service : SubagentService) (answer : SubagentAnswer) :
    Aside service (service.answer answer) := by
  constructor <;> intros <;> rfl

theorem requestCancel (service : SubagentService) (tasks : List TurnId) :
    Aside service (service.requestCancel tasks) where
  records := rfl
  stageOf turnId := by
    simp only [SubagentService.stageOf, SubagentService.requestCancel, Table.get?_map,
      Option.map_map]
    congr 1
    funext task
    simp only [Function.comp]
    split <;> rfl
  tasks := rfl
  unsaved := rfl
  cancels := rfl
  stops := rfl
  shuttingDown := rfl
  minted := rfl
  cancelled := rfl
  spawnedClosed := rfl
  stopped := rfl
  startedLate := rfl

theorem setStage (service : SubagentService) (row : Closing) (stage : CloseStage) :
    Aside service (service.setStage row stage) := by
  constructor <;> intros <;> rfl

theorem closeReturned (service : SubagentService) (id : SubagentId) (caller : Option SubagentId)
    (result : Bool) : Aside service (service.closeReturned id caller result) := by
  unfold SubagentService.closeReturned
  split
  · exact answer service _
  · split
    · exact refl service
    · split
      · exact setStage service _ _
      · exact refl service

theorem release (service : SubagentService) (id : SubagentId) :
    Aside service { service with closing := service.closing.erase id } := by
  constructor <;> intros <;> rfl

theorem closeFailed (service : SubagentService) (row : Closing) :
    Aside service (service.closeFailed row) :=
  (release service row.subagentId).trans (closeReturned _ _ _ _)

theorem archiveOwnTab (service : SubagentService) (row : Closing) (record : Subagent) :
    Aside service (service.archiveOwnTab row record) := by
  unfold SubagentService.archiveOwnTab
  split
  · exact setStage service _ _
  · split <;> exact setStage service _ _

theorem enterClose (service : SubagentService) (id : SubagentId) (reason : String)
    (caller : Option SubagentId) : Aside service (service.enterClose id reason caller) := by
  unfold SubagentService.enterClose
  split
  · exact refl service
  next record hrecord =>
  split
  · exact closeReturned service _ _ _
  split
  · exact closeReturned service _ _ _
  simp only
  split
  · exact ((requestCancel service _).trans (setStage _ _ _)).trans (archiveOwnTab _ _ _)
  · exact (requestCancel service _).trans (setStage _ _ _)

theorem afterChild (service : SubagentService) (row : Closing) (child : SubagentId)
    (rest : List SubagentId) : Aside service (service.afterChild row child rest) := by
  unfold SubagentService.afterChild
  split
  · exact setStage service _ _
  · exact closeFailed service row

theorem unwindCaller (service : SubagentService) (caller : Option SubagentId) :
    Aside service (service.unwindCaller caller) := by
  unfold SubagentService.unwindCaller
  split
  · exact refl service
  · split
    · exact setStage service _ _
    · exact refl service

theorem proceedClose {answer : CloseAnswer} (hstep : service.proceedClose id answer = some next) :
    Aside service next ∨ ∃ row now, service.closing.get? id = some row ∧ row.stage = .children []
      ∧ next = service.setClosed row now := by
  unfold SubagentService.proceedClose at hstep
  split at hstep
  case h_2 => cases hstep
  next row record hrow hrecord =>
  split at hstep
  · obtain ⟨-, hnext⟩ := Option.ite_none_right_eq_some.mp hstep
    cases hnext
    exact .inl (archiveOwnTab service _ _)
  · cases hstep
    exact .inl (setStage service _ _)
  · cases hstep
    exact .inl (closeFailed service _)
  · next now hstage =>
      cases hstep
      exact .inr ⟨row, now, hrow, hstage, rfl⟩
  · cases hstep
    exact .inl ((setStage service _ _).trans (enterClose _ _ _ _))
  · cases hstep
    exact .inl (setStage service _ _)
  · cases hstep
    refine .inl ?_
    split
    · exact setStage service _ _
    · exact afterChild service _ _ _
  · obtain ⟨-, hnext⟩ := Option.ite_none_left_eq_some.mp hstep
    cases hnext
    exact .inl (afterChild service _ _ _)
  · cases hstep

theorem abandonClose (hstep : service.abandonClose id = some next) : Aside service next := by
  unfold SubagentService.abandonClose at hstep
  split at hstep
  · cases hstep
  next row _ =>
  split at hstep
  all_goals first
    | exact Option.some.inj hstep ▸ (release service id).trans (unwindCaller _ _)
    | cases hstep

end Aside

structure Bookkeeping (service next : SubagentService) : Prop extends Aside service next where
  closing : next.closing = service.closing

theorem Bookkeeping.answer (service : SubagentService) (answer : SubagentAnswer) :
    Bookkeeping service (service.answer answer) :=
  ⟨Aside.answer service answer, rfl⟩

end SubagentService

def SubagentOp.closes : SubagentOp → Bool
  | .close _ _ | .startClose _ | .proceedClose _ _ | .abandonClose _ | .endClose _ _ => true
  | _ => false

namespace SubagentService

section

variable {service next : SubagentService} {op : SubagentOp}

/-- What a step does. -/
inductive Effect (service : SubagentService) (op : SubagentOp) : SubagentService → Prop
  | bookkeeping {next : SubagentService} (h : Bookkeeping service next) : Effect service op next
  | sent (middle : SubagentService) {record : Subagent} {turn : SubagentTurn}
      (h : Bookkeeping service middle) (hrecord : service.records.get? record.id = some record)
      (hnone : record.runningTurns = []) (hopen : record.closed = false)
      (hclosing : service.isClosing record.id = false) (hfresh : turn.turnId ∉ service.minted) :
      Effect service op (middle.appendTurn record.id turn .sent)
  | opened (middle : SubagentService) {record : Subagent} {turn : SubagentTurn}
      {origin : TurnOrigin} (h : Bookkeeping service middle) (hturns : record.turns = [])
      (hopen : record.closed = false) (hid : record.id ∉ service.minted)
      (hfresh : turn.turnId ∉ service.minted) (hne : record.id ≠ turn.turnId) :
      Effect service op ({ middle with
        records := service.records.insert record
        minted := record.id :: service.minted }.appendTurn record.id turn origin)
  | spawned {next : SubagentService} {turn : UnsavedTurn}
      (hunsaved : service.unsaved.get? turn.turnId = some turn)
      (hop : op = .saved turn.turnId true)
      (horigin : turn.origin = .sent ∨ service.shuttingDown = false)
      (h : Bookkeeping
        ({ service with unsaved := service.unsaved.erase turn.turnId }.spawn turn) next) :
      Effect service op next
  | unsent {next : SubagentService} {turn : UnsavedTurn}
      (hunsaved : service.unsaved.get? turn.turnId = some turn)
      (h : Bookkeeping ({ service with unsaved := service.unsaved.erase turn.turnId }.editTurns
        turn.subagentId (·.filter fun other => other.turnId ≠ turn.turnId)) next) :
      Effect service op next
  | discarded {next : SubagentService} {turn : UnsavedTurn}
      (hunsaved : service.unsaved.get? turn.turnId = some turn)
      (h : Bookkeeping { service with
        unsaved := service.unsaved.erase turn.turnId
        records := service.records.erase turn.subagentId } next) : Effect service op next
  | neverBegan {task : TurnTask} (htask : service.turnTasks.get? task.turnId = some task)
      (hstage : task.stage = .spawned) : Effect service op (service.setTask task .neverBegan)
  | begun {task : TurnTask} (htask : service.turnTasks.get? task.turnId = some task)
      (hstage : task.stage = .spawned) :
      Effect service op { service.setTask task .executing with
        startedLate := service.startedLate ++ if service.stopped then [task.turnId] else [] }
  | finished {task : TurnTask} {status : SubagentTurnStatus}
      (htask : service.turnTasks.get? task.turnId = some task) (hstage : task.stage = .executing)
      (hstatus : status ≠ .running) :
      Effect service op ({ service.editTurns task.subagentId (writeStatus task.turnId status) with
        tasks := service.tasks.filter fun other => other ≠ task.turnId }.setTask task .saving)
  | ended {next : SubagentService} {task : TurnTask}
      (htask : service.turnTasks.get? task.turnId = some task) (hstage : task.stage = .saving)
      (h : Bookkeeping (service.setTask task .ended) next) : Effect service op next
  | cancelReturned {record : Subagent} {turnId : Option TurnId}
      (hop : op = .cancel record.id turnId) (hpublished : record.id ∈ service.published)
      (hrecord : service.records.get? record.id = some record)
      (hnone : service.runningTasks record turnId = []) :
      Effect service op ((service.requestCancel []).cancelReturned record.id
        (record.foundBy turnId))
  | cancelJoins {record : Subagent} {turnId : Option TurnId}
      (hop : op = .cancel record.id turnId) (hpublished : record.id ∈ service.published)
      (hrecord : service.records.get? record.id = some record) :
      Effect service op { service.requestCancel (service.runningTasks record turnId) with
        cancels := service.cancels
          ++ [⟨record.id, record.foundBy turnId, service.runningTasks record turnId⟩] }
  | cancelJoined {index : Nat} {call : SubagentCancel}
      (hcall : service.cancels[index]? = some call) (hjoined : service.joined call.tasks = true) :
      Effect service op ({ service with
        cancels := service.cancels.eraseIdx index }.cancelReturned call.subagentId call.found)
  | cancelAbandoned {index : Nat} :
      Effect service op { service with cancels := service.cancels.eraseIdx index }
  | closing {next : SubagentService} (h : Aside service next) (hop : op.closes = true) :
      Effect service op next
  | closed {row : Closing} {now : Time}
      (hrow : service.closing.get? row.subagentId = some row) (hstage : row.stage = .children []) :
      Effect service op (service.setClosed row now)
  | pruned {now : Time} : Effect service op (service.prune now)
  | stopping : Effect service op service.stop
  | stopJoined {index : Nat} {tasks : List TurnId}
      (hstop : service.stops[index]? = some (.joining tasks))
      (hjoined : service.joined tasks = true) :
      Effect service op { service with stops := service.stops.set index .saving }
  | stopped {index : Nat} (hstop : service.stops[index]? = some .saving) :
      Effect service op { service with stops := service.stops.eraseIdx index, stopped := true }
  | stopAbandoned {index : Nat} :
      Effect service op { service with stops := service.stops.eraseIdx index }

/-! ## Every step has its effect -/

variable {index : Nat}

theorem effect_enterCreate (hstep : service.enterCreate index = some next) :
    Bookkeeping service next := by
  unfold enterCreate at hstep
  split at hstep
  · cases hstep
  · cases hstep
  · obtain ⟨-, hnext⟩ := Option.ite_none_left_eq_some.mp hstep
    simp only at hnext
    split at hnext
    · cases hnext
      exact ⟨by constructor <;> intros <;> rfl, rfl⟩
    · split at hnext
      · cases hnext
        exact ⟨by constructor <;> intros <;> rfl, rfl⟩
      · cases hnext
        exact ⟨by constructor <;> intros <;> rfl, rfl⟩

variable {turnId : TurnId}

theorem effect_openTab {tabId : Option TabId} {id : SubagentId} {now : Time}
    (hstep : service.openTab index tabId id turnId now = some next) :
    Effect service op next := by
  unfold openTab at hstep
  split at hstep
  · cases hstep
  · cases hstep
  next request hcreate =>
  simp only at hstep
  split at hstep
  · cases hstep
    exact .bookkeeping ⟨by constructor <;> intros <;> rfl, rfl⟩
  · split at hstep
    · cases hstep
      exact .bookkeeping ⟨by constructor <;> intros <;> rfl, rfl⟩
    · obtain ⟨hfresh, hnext⟩ := Option.ite_none_left_eq_some.mp hstep
      simp only [not_or] at hfresh
      cases hnext
      exact .opened { service with creates := service.creates.eraseIdx index }
        ⟨by constructor <;> intros <;> rfl, rfl⟩ rfl rfl hfresh.1 hfresh.2.1 hfresh.2.2

/-- `send` appends a turn only where none runs. -/
theorem runningTurns_of_sendAnswer {record : Subagent} {request : SubagentTurnCreate}
    (h : service.sendAnswer record request = none) :
    record.closed = false ∧ service.isClosing record.id = false ∧ record.runningTurns = [] := by
  unfold sendAnswer at h
  split at h
  · cases h
  · split at h
    · cases h
    next hclosed =>
    split at h
    · cases h
    split at h
    · cases h
    next hrunning =>
    obtain ⟨hopen, hclosing⟩ := Bool.or_eq_false_iff.mp (Bool.not_eq_true _ ▸ hclosed)
    refine ⟨hopen, hclosing, ?_⟩
    simpa [Subagent.runningTurns] using hrunning

theorem effect_enterSend (hstep : service.enterSend index turnId = some next) :
    Effect service op next := by
  unfold enterSend at hstep
  split at hstep
  · cases hstep
  next call hcall =>
  obtain ⟨-, hentered⟩ := Option.ite_none_left_eq_some.mp hstep
  simp only at hentered
  split at hentered
  · cases hentered
    exact .bookkeeping ⟨by constructor <;> intros <;> rfl, rfl⟩
  next record hget =>
  split at hentered
  · cases hentered
    exact .bookkeeping ⟨by constructor <;> intros <;> rfl, rfl⟩
  next hanswer =>
  obtain ⟨hfresh, hnext⟩ := Option.ite_none_left_eq_some.mp hentered
  cases hnext
  obtain ⟨hopen, hclosing, hnone⟩ := runningTurns_of_sendAnswer hanswer
  have hrecord : service.records.get? call.subagentId = some record := by
    unfold get at hget
    exact (Option.ite_none_right_eq_some.mp hget).2
  have hid : record.id = call.subagentId := Table.key_of_get? hrecord
  exact .sent { service with sends := service.sends.eraseIdx index }
    ⟨by constructor <;> intros <;> rfl, rfl⟩ (hid ▸ hrecord) hnone hopen hclosing hfresh

theorem effect_saved {ok : Bool} (hstep : service.saved turnId ok = some next)
    (hop : op = .saved turnId ok) : Effect service op next := by
  unfold saved at hstep
  split at hstep
  · cases hstep
  next turn hunsaved =>
  have hid : turn.turnId = turnId := Table.key_of_get? hunsaved
  subst hid
  simp only at hstep
  split at hstep
  · next horigin =>
      cases hstep
      exact .spawned hunsaved hop (.inl horigin) (Bookkeeping.answer _ _)
  · cases hstep
    exact .unsent hunsaved (Bookkeeping.answer _ _)
  · cases hstep
    exact .discarded hunsaved (Bookkeeping.answer _ _)
  · split at hstep
    · cases hstep
      exact .discarded hunsaved (Bookkeeping.answer _ _)
    · next hrunning =>
        cases hstep
        exact .spawned hunsaved hop (.inr (by simpa using hrunning))
          ⟨by constructor <;> intros <;> rfl, rfl⟩

theorem effect_beginTurn (hstep : service.beginTurn turnId = some next) :
    Effect service op next := by
  unfold beginTurn at hstep
  split at hstep
  · cases hstep
  next task htask =>
  have hid : task.turnId = turnId := Table.key_of_get? htask
  subst hid
  obtain ⟨hstage, hbegun⟩ := Option.ite_none_left_eq_some.mp hstep
  have hstage : task.stage = .spawned := not_not.mp hstage
  split at hbegun
  · cases hbegun
    exact .neverBegan htask hstage
  · cases hbegun
    exact .begun htask hstage

theorem effect_finishTurn {outcome : TurnOutcome}
    (hstep : service.finishTurn turnId outcome = some next) : Effect service op next := by
  unfold finishTurn at hstep
  split at hstep
  · cases hstep
  next task htask =>
  have hid : task.turnId = turnId := Table.key_of_get? htask
  subst hid
  obtain ⟨hstage, hnext⟩ := Option.ite_none_left_eq_some.mp hstep
  cases hnext
  have hstatus : turnStatus service.shuttingDown outcome ≠ .running := by
    cases outcome <;> simp only [turnStatus]
    case cancelled => split <;> decide
    all_goals decide
  exact .finished htask (not_not.mp hstage) hstatus

theorem effect_endTurn {cancelled : Bool} (hstep : service.endTurn turnId cancelled = some next) :
    Effect service op next := by
  unfold endTurn at hstep
  split at hstep
  · cases hstep
  next task htask =>
  have hid : task.turnId = turnId := Table.key_of_get? htask
  subst hid
  obtain ⟨hstage, hended⟩ := Option.ite_none_left_eq_some.mp hstep
  have hstage : task.stage = .saving := not_not.mp hstage
  simp only at hended
  split at hended
  · cases hended
    exact .ended htask hstage ⟨Aside.refl _, rfl⟩
  · split at hended
    · cases hended
      exact .ended htask hstage ⟨Aside.refl _, rfl⟩
    · cases hended
      exact .ended htask hstage ⟨by constructor <;> intros <;> rfl, rfl⟩

theorem effect_cancel {id : SubagentId} {turnId : Option TurnId} (hop : op = .cancel id turnId) :
    Effect service op (service.cancel id turnId) := by
  unfold cancel
  split
  · exact .bookkeeping (Bookkeeping.answer _ _)
  next record hget =>
  obtain ⟨hpublished, hrecord⟩ := Option.ite_none_right_eq_some.mp hget
  have hid : record.id = id := Table.key_of_get? hrecord
  subst hid
  split
  · exact .bookkeeping (Bookkeeping.answer _ _)
  simp only
  split
  · next hnone =>
      rw [hnone]
      exact .cancelReturned hop hpublished hrecord hnone
  · exact .cancelJoins hop hpublished hrecord

theorem effect_closes (hop : op.closes = true) (hstep : service.step op = some next) :
    Effect service op next := by
  cases op with
  | close =>
    cases hstep
    split
    · exact .closing (Aside.enterClose service _ _ _) rfl
    · exact .closing (Aside.answer service _) rfl
  | startClose index =>
    obtain ⟨⟨id, reason⟩, -, rfl⟩ := Option.map_eq_some_iff.mp hstep
    have hdropped : Aside service
        { service with pendingCloses := service.pendingCloses.eraseIdx index } := by
      constructor <;> intros <;> rfl
    exact .closing (hdropped.trans (Aside.enterClose _ _ _ _)) rfl
  | proceedClose id =>
    rcases Aside.proceedClose hstep with h | ⟨row, now, hrow, hstage, rfl⟩
    · exact .closing h rfl
    · have hid : row.subagentId = id := Table.key_of_get? hrow
      exact .closed (hid ▸ hrow) hstage
  | abandonClose => exact .closing (Aside.abandonClose hstep) rfl
  | endClose index cancelled =>
    have hstep : service.endClose index cancelled = some next := hstep
    unfold endClose at hstep
    split at hstep
    · cases hstep
    next id caller _ =>
    cases hstep
    have hdropped : Aside service
        { service with finalSaves := service.finalSaves.eraseIdx index } := by
      constructor <;> intros <;> rfl
    refine .closing (hdropped.trans ?_) rfl
    split
    · exact Aside.unwindCaller _ _
    · exact Aside.closeReturned _ _ _ _
  | _ => cases hop

theorem effect_of_step (hstep : service.step op = some next) : Effect service op next := by
  by_cases hop : op.closes = true
  · exact effect_closes hop hstep
  cases op with
  | close _ _ | startClose _ | proceedClose _ _ | abandonClose _ | endClose _ _ => exact absurd rfl hop
  | create =>
    cases hstep
    unfold startCreate
    split
    · exact .bookkeeping (Bookkeeping.answer _ _)
    · exact .bookkeeping ⟨by constructor <;> intros <;> rfl, rfl⟩
  | enterCreate => exact .bookkeeping (effect_enterCreate hstep)
  | openTab => exact effect_openTab hstep
  | send =>
    cases hstep
    unfold startSend
    split
    · exact .bookkeeping (Bookkeeping.answer _ _)
    · exact .bookkeeping ⟨by constructor <;> intros <;> rfl, rfl⟩
  | enterSend => exact effect_enterSend hstep
  | saved => exact effect_saved hstep rfl
  | beginTurn => exact effect_beginTurn hstep
  | finishTurn => exact effect_finishTurn hstep
  | endTurn => exact effect_endTurn hstep
  | cancel =>
    cases hstep
    exact effect_cancel rfl
  | joinCancel index =>
    have hstep : service.joinCancel index = some next := hstep
    unfold joinCancel at hstep
    split at hstep
    · cases hstep
    next call hcall =>
    obtain ⟨hjoined, hnext⟩ := Option.ite_none_right_eq_some.mp hstep
    cases hnext
    exact .cancelJoined hcall hjoined
  | abandonCancel =>
    cases hstep
    exact .cancelAbandoned
  | retireTab =>
    cases hstep
    unfold retireTab
    simp only
    split
    · exact .bookkeeping ⟨Aside.refl _, rfl⟩
    · exact .bookkeeping ⟨by constructor <;> intros <;> rfl, rfl⟩
  | prune =>
    cases hstep
    exact .pruned
  | stop =>
    cases hstep
    exact .stopping
  | proceedStop index =>
    have hstep : service.proceedStop index = some next := hstep
    unfold proceedStop at hstep
    split at hstep
    · cases hstep
    · next hstop =>
        obtain ⟨hjoined, hnext⟩ := Option.ite_none_right_eq_some.mp hstep
        cases hnext
        exact .stopJoined hstop hjoined
    · next hstop =>
        cases hstep
        exact .stopped hstop
  | abandonStop =>
    cases hstep
    exact .stopAbandoned
  | abandonCreate _ | abandonSend _ | abandonPendingClose _ | editTab _ | deleteTab _ =>
    cases hstep
    exact .bookkeeping ⟨by constructor <;> intros <;> rfl, rfl⟩

end

end SubagentService

end ClaudeHub
