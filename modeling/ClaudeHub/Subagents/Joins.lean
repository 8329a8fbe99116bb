import ClaudeHub.Subagents.Stages

/-! # What a close, a cancel and a stop join

A close that has claimed its record, or a cancel, has found every turn that runs, as long as
none was waiting for its save or for its task. Once the tasks that it has found are joined, no
turn of the record runs. A stop that finds every task leaves none.
-/

namespace ClaudeHub

open StepSystem

namespace SubagentService

variable {service next : SubagentService} {id : SubagentId} {turnId : TurnId}

/-- The task of a turn has taken its first step, and the status is not written. -/
def Executing (service : SubagentService) (turnId : TurnId) : Prop :=
  (service.stageOf turnId).map Prod.snd = some .executing

theorem executing_iff : service.Executing turnId ↔
    (service.turnTasks.get? turnId).map TurnTask.stage = some .executing := by
  unfold Executing stageOf
  rw [Option.map_map]
  rfl

theorem done_of_joined {tasks : List TurnId} {stage : TurnTaskStage}
    (hjoined : service.joined tasks = true) (hmem : turnId ∈ tasks)
    (hstage : service.stageOf turnId = some (id, stage)) : stage = .ended ∨ stage = .neverBegan := by
  have hdone := List.all_eq_true.mp hjoined turnId hmem
  obtain ⟨task, htask, hpair⟩ := Option.map_eq_some_iff.mp hstage
  obtain ⟨-, rfl⟩ := Prod.mk.inj hpair
  simpa [htask, TurnTask.done] using hdone

theorem not_executing_of_joined {tasks : List TurnId} (hjoined : service.joined tasks = true)
    (hmem : turnId ∈ tasks) : ¬ service.Executing turnId := by
  intro hexecuting
  obtain ⟨⟨id, stage⟩, hstage, hstages⟩ := Option.map_eq_some_iff.mp hexecuting
  have hexec : stage = .executing := hstages
  rcases done_of_joined hjoined hmem hstage with h | h
  · rw [hexec] at h
    cases h
  · rw [hexec] at h
    cases h

/-- What a claimed close has found, by its stage. -/
def RowOk (service : SubagentService) (id : SubagentId) : CloseStage → Prop
  | .joining tasks => ∀ turnId, service.Running id turnId →
      turnId ∈ tasks ∧ service.Executing turnId
  | _ => ∀ turnId, ¬ service.Running id turnId

/-- Whoever joins tasks has found every turn that runs. -/
structure Joined (service : SubagentService) : Prop where
  closing : ∀ row ∈ service.closing.rows,
    row.subagentId ∈ service.minted ∧ service.RowOk row.subagentId row.stage
  closed : ∀ id turnId, service.isClosed id = true → ¬ service.Running id turnId
  unsaved : ∀ turn ∈ service.unsaved.rows, service.isClosed turn.subagentId = false ∧
    ∀ row ∈ service.closing.rows, row.subagentId ≠ turn.subagentId
  cancels : ∀ call ∈ service.cancels, ∀ turnId ∈ call.found, turnId ∈ service.minted ∧
    (service.Running call.subagentId turnId → turnId ∈ call.tasks ∧ service.Executing turnId)
  cancelled : ∀ id turnId, (id, turnId) ∈ service.cancelled →
    turnId ∈ service.minted ∧ ¬ service.Running id turnId
  spawnedClosed : service.spawnedClosed = []

/-- A turn that runs ran before or is new in a record that no close has claimed, and a task
goes on as long as its turn runs. -/
structure Carries (service next : SubagentService) : Prop where
  running : ∀ id turnId, next.Running id turnId → service.Running id turnId ∨
    turnId ∉ service.minted ∧ service.isClosed id = false
      ∧ ∀ row ∈ service.closing.rows, row.subagentId ≠ id
  executing : ∀ id turnId, next.Running id turnId → service.Running id turnId →
    service.Executing turnId → next.Executing turnId
  minted : ∀ used ∈ service.minted, used ∈ next.minted

theorem Carries.rowOk (h : Carries service next) {row : Closing} (hrow : row ∈ service.closing.rows)
    (hok : service.RowOk row.subagentId row.stage) : next.RowOk row.subagentId row.stage := by
  have hold : ∀ turnId, next.Running row.subagentId turnId →
      service.Running row.subagentId turnId := by
    intro turnId hrunning
    rcases h.running _ _ hrunning with hbefore | ⟨-, -, hfree⟩
    · exact hbefore
    · exact absurd rfl (hfree row hrow)
  cases hstage : row.stage with
  | joining =>
    rw [hstage] at hok
    intro turnId hrunning
    obtain ⟨hmem, hexecuting⟩ := hok turnId (hold turnId hrunning)
    exact ⟨hmem, h.executing _ _ hrunning (hold turnId hrunning) hexecuting⟩
  | _ =>
    rw [hstage] at hok
    exact fun turnId hrunning => hok turnId (hold turnId hrunning)

theorem Carries.running_minted (h : Carries service next) (hminted : turnId ∈ service.minted)
    (hrunning : next.Running id turnId) : service.Running id turnId := by
  rcases h.running _ _ hrunning with hbefore | ⟨hnew, -⟩
  · exact hbefore
  · exact absurd hminted hnew

theorem Joined.carry (h : service.Joined) (h' : Carries service next)
    (hclosing : ∀ row ∈ next.closing.rows, row ∈ service.closing.rows)
    (hclosed : ∀ id, next.isClosed id = true → service.isClosed id = true)
    (hunsaved : ∀ turn ∈ next.unsaved.rows, turn ∈ service.unsaved.rows ∨
      service.isClosed turn.subagentId = false
        ∧ ∀ row ∈ service.closing.rows, row.subagentId ≠ turn.subagentId)
    (hcancels : ∀ call ∈ next.cancels, call ∈ service.cancels)
    (hcancelled : next.cancelled = service.cancelled)
    (hspawned : next.spawnedClosed = service.spawnedClosed) : next.Joined where
  closing row hrow := by
    obtain ⟨hminted, hok⟩ := h.closing row (hclosing row hrow)
    exact ⟨h'.minted _ hminted, h'.rowOk (hclosing row hrow) hok⟩
  closed id turnId hid hrunning := by
    rcases h'.running id turnId hrunning with hbefore | ⟨-, hopen, -⟩
    · exact h.closed id turnId (hclosed id hid) hbefore
    · rw [hclosed id hid] at hopen
      cases hopen
  unsaved turn hturn := by
    have hfree : service.isClosed turn.subagentId = false ∧
        ∀ row ∈ service.closing.rows, row.subagentId ≠ turn.subagentId := by
      rcases hunsaved turn hturn with hold | hnew
      · exact h.unsaved turn hold
      · exact hnew
    refine ⟨?_, fun row hrow => hfree.2 row (hclosing row hrow)⟩
    by_contra hclosedNow
    have hbefore := hclosed turn.subagentId (by simpa using hclosedNow)
    rw [hfree.1] at hbefore
    cases hbefore
  cancels call hcall turnId hfound := by
    obtain ⟨hminted, hruns⟩ := h.cancels call (hcancels call hcall) turnId hfound
    refine ⟨h'.minted _ hminted, fun hrunning => ?_⟩
    have hbefore := h'.running_minted hminted hrunning
    obtain ⟨hmem, hexecuting⟩ := hruns hbefore
    exact ⟨hmem, h'.executing _ _ hrunning hbefore hexecuting⟩
  cancelled id turnId hentry := by
    rw [hcancelled] at hentry
    obtain ⟨hminted, hquiet⟩ := h.cancelled id turnId hentry
    exact ⟨h'.minted _ hminted, fun hrunning => hquiet (h'.running_minted hminted hrunning)⟩
  spawnedClosed := hspawned.trans h.spawnedClosed

theorem Aside.carries (h : Aside service next) : Carries service next where
  running id turnId hrunning := .inl (h.running.mp hrunning)
  executing id turnId _ _ hexecuting := by
    unfold Executing
    rw [h.stageOf]
    exact hexecuting
  minted used hused := by
    rw [h.minted]
    exact hused

theorem Joined.aside (h : service.Joined) (h' : Aside service next)
    (hclosing : ∀ row ∈ next.closing.rows, row ∈ service.closing.rows) : next.Joined := by
  refine h.carry h'.carries hclosing ?_ ?_ ?_ h'.cancelled h'.spawnedClosed
  · intro id hid
    rwa [h'.isClosed] at hid
  · intro turn hturn
    rw [h'.unsaved] at hturn
    exact .inl hturn
  · intro call hcall
    rwa [h'.cancels] at hcall

theorem found_of_underWay (hstaged : service.Staged) {record : Subagent} {named : Option TurnId}
    (hrecord : service.records.get? record.id = some record)
    (hunderWay : service.UnderWay record.id named) (hfound : turnId ∈ record.foundBy named) :
    turnId ∈ service.minted ∧ turnId ∈ service.runningTasks record named
      ∧ service.Executing turnId := by
  have hexecuting : service.Executing turnId :=
    executing_iff.2 (hunderWay record hrecord turnId hfound)
  obtain ⟨⟨k, stage⟩, hstage, hexec⟩ := Option.map_eq_some_iff.mp hexecuting
  obtain rfl : stage = .executing := hexec
  have htask := hstaged.registered k turnId _ hstage (.inr rfl)
  exact ⟨hstaged.stageMinted turnId (by simp [hstage]),
    List.mem_filter.mpr ⟨hfound, by simpa using htask⟩, hexecuting⟩

/-! ## Closing -/

namespace Joined

variable {row : Closing}

section

variable (h : service.Joined)
include h

theorem setStage {stage : CloseStage} (hminted : row.subagentId ∈ service.minted)
    (hok : service.RowOk row.subagentId stage)
    (hfree : ∀ turn ∈ service.unsaved.rows, turn.subagentId ≠ row.subagentId) :
    (service.setStage row stage).Joined where
  closing other hother := by
    rcases Table.mem_insert.mp hother with rfl | ⟨hold, -⟩
    · exact ⟨hminted, hok⟩
    · exact h.closing other hold
  closed := h.closed
  unsaved turn hturn := by
    refine ⟨(h.unsaved turn hturn).1, fun other hother => ?_⟩
    rcases Table.mem_insert.mp hother with rfl | ⟨hold, -⟩
    · exact fun heq => hfree turn hturn heq.symm
    · exact (h.unsaved turn hturn).2 other hold
  cancels := h.cancels
  cancelled := h.cancelled
  spawnedClosed := h.spawnedClosed

theorem restage {stage : CloseStage} (hrow : row ∈ service.closing.rows)
    (hok : service.RowOk row.subagentId stage) : (service.setStage row stage).Joined :=
  h.setStage (h.closing row hrow).1 hok
    fun turn hturn heq => (h.unsaved turn hturn).2 row hrow heq.symm

theorem release (id : SubagentId) :
    ({ service with closing := service.closing.erase id } : SubagentService).Joined :=
  h.aside (Aside.release service id) fun _ hrow => (Table.mem_erase.mp hrow).1

theorem closeReturned (id : SubagentId) (caller : Option SubagentId) (result : Bool) :
    (service.closeReturned id caller result).Joined := by
  unfold SubagentService.closeReturned
  split
  · exact h.aside (Aside.answer service _) fun _ hrow => hrow
  next parent =>
  split
  · exact h
  next row hrow =>
  have hmem : row ∈ service.closing.rows := (Table.get?_eq_some.mp hrow).1
  split
  · next hstage =>
      have hok := (h.closing row hmem).2
      rw [hstage] at hok
      exact h.restage hmem hok
  · exact h

theorem closeFailed (row : Closing) : (service.closeFailed row).Joined :=
  (h.release row.subagentId).closeReturned _ _ _

theorem unwindCaller (caller : Option SubagentId) : (service.unwindCaller caller).Joined := by
  unfold SubagentService.unwindCaller
  split
  · exact h
  next row hrow =>
  obtain ⟨parent, -, hparent⟩ := Option.bind_eq_some_iff.mp hrow
  have hmem : row ∈ service.closing.rows := (Table.get?_eq_some.mp hparent).1
  split
  · next hstage =>
      have hok := (h.closing row hmem).2
      rw [hstage] at hok
      exact h.restage hmem hok
  · exact h

theorem requestCancel (tasks : List TurnId) : (service.requestCancel tasks).Joined :=
  h.aside (Aside.requestCancel service tasks) fun _ hrow => hrow

theorem archiveOwnTab (record : Subagent) (hminted : row.subagentId ∈ service.minted)
    (hfree : ∀ turn ∈ service.unsaved.rows, turn.subagentId ≠ row.subagentId)
    (hquiet : ∀ turnId, ¬ service.Running row.subagentId turnId) :
    (service.archiveOwnTab row record).Joined := by
  unfold SubagentService.archiveOwnTab
  split
  · exact h.setStage hminted hquiet hfree
  · split <;> exact h.setStage hminted hquiet hfree

theorem enterClose (hstaged : service.Staged) (reason : String) (caller : Option SubagentId)
    (hclaim : service.isClosed id = false → service.isClosing id = false →
      (∀ turn ∈ service.unsaved.rows, turn.subagentId ≠ id) ∧ service.UnderWay id none) :
    (service.enterClose id reason caller).Joined := by
  unfold SubagentService.enterClose
  split
  · exact h
  next record hrecord =>
  split
  · exact h.closeReturned _ _ _
  next hopen =>
  split
  · exact h.closeReturned _ _ _
  next hclosing =>
  have hisOpen : service.isClosed id = false := by
    simpa [SubagentService.isClosed, hrecord] using hopen
  obtain ⟨hfree, hunderWay⟩ := hclaim hisOpen (by simpa using hclosing)
  have hminted : id ∈ service.minted := hstaged.recordMinted id (by simp [hrecord])
  have hfound : ∀ turnId, service.Running id turnId →
      turnId ∈ service.runningTasks record none ∧ service.Executing turnId := by
    rintro turnId ⟨other, hother, hmem⟩
    cases hrecord.symm.trans hother
    obtain rfl : record.id = id := Table.key_of_get? hrecord
    exact (found_of_underWay hstaged hrecord hunderWay (by simpa [Subagent.foundBy] using hmem)).2
  have hasked := Aside.requestCancel service (service.runningTasks record none)
  have hclaimed : ((service.requestCancel (service.runningTasks record none)).setStage
      ⟨id, reason, caller, .joining (service.runningTasks record none)⟩
      (.joining (service.runningTasks record none))).Joined := by
    apply (h.requestCancel _).setStage
    · exact hminted
    · intro turnId hrunning
      obtain ⟨hmem, hexecuting⟩ := hfound turnId (hasked.running.mp hrunning)
      refine ⟨hmem, ?_⟩
      unfold Executing
      rwa [hasked.stageOf]
    · exact hfree
  simp only
  split
  · next hnone =>
      apply hclaimed.archiveOwnTab
      · exact hminted
      · exact hfree
      · intro turnId hrunning
        have hmem := (hfound turnId (hasked.running.mp hrunning)).1
        rw [hnone] at hmem
        cases hmem
  · exact hclaimed

theorem afterChild (hrow : row ∈ service.closing.rows) (child : SubagentId) (rest : List SubagentId)
    (hquiet : ∀ turnId, ¬ service.Running row.subagentId turnId) :
    (service.afterChild row child rest).Joined := by
  unfold SubagentService.afterChild
  split
  · exact h.restage hrow hquiet
  · exact h.closeFailed row

theorem quiet_of_joined {tasks : List TurnId} (hrow : row ∈ service.closing.rows)
    (hstage : row.stage = .joining tasks) (hjoined : service.joined tasks = true)
    (turnId : TurnId) :
    ¬ service.Running row.subagentId turnId := by
  intro hrunning
  have hok := (h.closing row hrow).2
  rw [hstage] at hok
  obtain ⟨hmem, hexecuting⟩ := hok turnId hrunning
  exact not_executing_of_joined hjoined hmem hexecuting

theorem setClosed (hrow : row ∈ service.closing.rows)
    (hquiet : ∀ turnId, ¬ service.Running row.subagentId turnId) (now : Time) :
    (service.setClosed row now).Joined := by
  have hisClosed : ∀ k, (service.setClosed row now).isClosed k = true →
      service.isClosed k = true ∨ k = row.subagentId := by
    intro k hk
    unfold SubagentService.setClosed isClosed at hk
    simp only [Table.get?_map] at hk
    cases hget : service.records.get? k with
    | none => simp [hget] at hk
    | some record =>
      have hid : record.id = k := Table.key_of_get? hget
      by_cases heq : k = row.subagentId
      · exact .inr heq
      · left
        simpa [hget, hid, heq, isClosed] using hk
  have hclosing : ∀ other ∈ (service.setClosed row now).closing.rows,
      other ∈ service.closing.rows ∧ other.subagentId ≠ row.subagentId :=
    fun other hother => Table.mem_erase.mp hother
  have hcarries : Carries service (service.setClosed row now) :=
    ⟨fun _ _ hrunning => .inl (running_setClosed hrunning), fun _ _ _ _ hexecuting => hexecuting,
      fun _ hused => hused⟩
  constructor
  · intro other hother
    obtain ⟨hold, -⟩ := hclosing other hother
    obtain ⟨hminted, hok⟩ := h.closing other hold
    exact ⟨hminted, hcarries.rowOk hold hok⟩
  · intro k turnId hk hrunning
    rcases hisClosed k hk with hbefore | rfl
    · exact h.closed k turnId hbefore (running_setClosed hrunning)
    · exact hquiet turnId (running_setClosed hrunning)
  · intro turn hturn
    obtain ⟨hopen, hfree⟩ := h.unsaved turn hturn
    refine ⟨?_, fun other hother => hfree other (hclosing other hother).1⟩
    by_contra hclosedNow
    rcases hisClosed turn.subagentId (by simpa using hclosedNow) with hbefore | heq
    · rw [hopen] at hbefore
      cases hbefore
    · exact hfree row hrow heq.symm
  · intro call hcall turnId hfound
    obtain ⟨hminted, hruns⟩ := h.cancels call hcall turnId hfound
    exact ⟨hminted, fun hrunning => hruns (running_setClosed hrunning)⟩
  · intro k turnId hentry
    obtain ⟨hminted, hquietEntry⟩ := h.cancelled k turnId hentry
    exact ⟨hminted, fun hrunning => hquietEntry (running_setClosed hrunning)⟩
  · exact h.spawnedClosed

theorem proceedClose (hstaged : service.Staged) {answer : CloseAnswer}
    (hunraced : service.Unraced (.proceedClose id answer))
    (hstep : service.proceedClose id answer = some next) : next.Joined := by
  unfold SubagentService.proceedClose at hstep
  split at hstep
  case h_2 => cases hstep
  next row record hget hrecord =>
  have hrow : row ∈ service.closing.rows := (Table.get?_eq_some.mp hget).1
  have hok := (h.closing row hrow).2
  split at hstep
  · next tasks _ hstage =>
      obtain ⟨hjoined, hnext⟩ := Option.ite_none_right_eq_some.mp hstep
      cases hnext
      apply h.archiveOwnTab record (h.closing row hrow).1
      · exact fun turn hturn heq => (h.unsaved turn hturn).2 row hrow heq.symm
      · exact h.quiet_of_joined hrow hstage hjoined
  · next hstage =>
      cases hstep
      rw [hstage] at hok
      exact h.restage hrow hok
  · cases hstep
    exact h.closeFailed row
  · next now hstage =>
      cases hstep
      rw [hstage] at hok
      exact h.setClosed hrow hok now
  · next child rest now hstage =>
      cases hstep
      rw [hstage] at hok
      have hinside : (service.setStage row (.inChild child rest)).Joined := h.restage hrow hok
      apply hinside.enterClose (hstaged.aside (Aside.setStage service _ _))
      intro hopen hfreed
      have hid : row.subagentId = id := Table.key_of_get? hget
      have hclosing : service.isClosing child = false := by
        have hinserted : (((service.closing.insert { row with stage := .inChild child rest }).get?
          child).isSome) = false := hfreed
        rw [Table.get?_insert] at hinserted
        split at hinserted
        · cases hinserted
        · exact hinserted
      have hisOpen : service.isClosed child = false := hopen
      have hclaims : service.claims (.proceedClose id (.goOn now)) = some child := by
        simp [claims, hget, hstage, hisOpen, hclosing]
      exact hunraced.1 child hclaims
  · next hstage =>
      cases hstep
      rw [hstage] at hok
      exact h.restage hrow hok
  · next child rest _ hstage =>
      cases hstep
      rw [hstage] at hok
      split
      · exact h.restage hrow hok
      · exact h.afterChild hrow child rest hok
  · next child rest _ hstage =>
      obtain ⟨-, hnext⟩ := Option.ite_none_left_eq_some.mp hstep
      cases hnext
      rw [hstage] at hok
      exact h.afterChild hrow child rest hok
  · cases hstep

theorem closes (hstaged : service.Staged) {op : SubagentOp} (hop : op.closes = true)
    (hunraced : service.Unraced op) (hstep : service.step op = some next) : next.Joined := by
  cases op with
  | close id =>
    cases hstep
    split
    · next hpublished =>
        apply h.enterClose hstaged
        intro hopen hfree
        exact hunraced.1 id (by simp [claims, hpublished, hopen, hfree])
    · exact h.aside (Aside.answer service _) fun _ hrow => hrow
  | startClose index =>
    obtain ⟨⟨id, reason⟩, hpending, rfl⟩ := Option.map_eq_some_iff.mp hstep
    have hdropped : Aside service
        { service with pendingCloses := service.pendingCloses.eraseIdx index } := by
      constructor <;> intros <;> rfl
    apply (h.aside hdropped fun _ hrow => hrow).enterClose (hstaged.aside hdropped)
    intro hopen hfree
    have hisOpen : service.isClosed id = false := hopen
    have hisFree : service.isClosing id = false := hfree
    exact hunraced.1 id (by simp [claims, hpending, hisOpen, hisFree])
  | proceedClose => exact h.proceedClose hstaged hunraced hstep
  | abandonClose id =>
    have hstep : service.abandonClose id = some next := hstep
    unfold SubagentService.abandonClose at hstep
    split at hstep
    · cases hstep
    next row _ =>
    split at hstep
    all_goals first
      | exact Option.some.inj hstep ▸ (h.release id).unwindCaller row.caller
      | cases hstep
  | endClose index cancelled =>
    have hstep : service.endClose index cancelled = some next := hstep
    unfold SubagentService.endClose at hstep
    split at hstep
    · cases hstep
    next id caller _ =>
    cases hstep
    have hdropped : Aside service
        { service with finalSaves := service.finalSaves.eraseIdx index } := by
      constructor <;> intros <;> rfl
    have hended := h.aside hdropped fun _ hrow => hrow
    split
    · exact hended.unwindCaller caller
    · exact hended.closeReturned _ _ _
  | _ => cases hop

end

theorem isClosed_of_records {f : Subagent → Subagent} (hkey : ∀ record, (f record).id = record.id)
    (hrecords : next.records = service.records.map f hkey)
    (hclosed : ∀ record, (f record).closed = record.closed) (k : SubagentId) :
    next.isClosed k = service.isClosed k := by
  unfold SubagentService.isClosed
  rw [hrecords, Table.get?_map]
  cases service.records.get? k with
  | none => rfl
  | some => simp [hclosed]

theorem isClosed_editTurns (f : List SubagentTurn → List SubagentTurn) (k : SubagentId) :
    (service.editTurns id f).isClosed k = service.isClosed k := by
  refine isClosed_of_records (fun record => ?_) rfl (fun record => ?_) k <;> split <;> rfl

theorem isClosed_prune (now : Time) (k : SubagentId) :
    (service.prune now).isClosed k = service.isClosed k := by
  refine isClosed_of_records (fun record => ?_) rfl (fun record => ?_) k
  all_goals
    split
    · unfold Subagent.trimTurns
      split <;> rfl
    · rfl

theorem appendTurn (h : service.Joined) {turn : SubagentTurn} {origin : TurnOrigin}
    (hfresh : turn.turnId ∉ service.minted) (hopen : service.isClosed id = false)
    (hfree : ∀ row ∈ service.closing.rows, row.subagentId ≠ id) :
    (service.appendTurn id turn origin).Joined := by
  refine h.carry ⟨?_, fun _ _ _ _ hexecuting => hexecuting, ?_⟩ (fun _ hrow => hrow) ?_ ?_
    (fun _ hcall => hcall) rfl rfl
  · intro k turnId hrunning
    rcases running_appendTurn hrunning with hold | ⟨rfl, rfl⟩
    · exact .inl hold
    · exact .inr ⟨hfresh, hopen, hfree⟩
  · exact fun used hused => List.mem_cons_of_mem _ hused
  · intro k hk
    rwa [← isClosed_editTurns (· ++ [turn]) k]
  · intro other hother
    rcases Table.mem_insert.mp hother with rfl | ⟨hold, -⟩
    · exact .inr ⟨hopen, hfree⟩
    · exact .inl hold

theorem retask (h : service.Joined)
    (hrunning : ∀ k turnId, next.Running k turnId → service.Running k turnId)
    (hexecuting : ∀ k turnId, next.Running k turnId → service.Executing turnId →
      next.Executing turnId)
    (hclosed : ∀ k, next.isClosed k = true → service.isClosed k = true)
    (hunsaved : ∀ turn ∈ next.unsaved.rows, turn ∈ service.unsaved.rows)
    (hminted : next.minted = service.minted) (hclosing : next.closing = service.closing)
    (hcancels : next.cancels = service.cancels) (hcancelled : next.cancelled = service.cancelled)
    (hspawned : next.spawnedClosed = service.spawnedClosed) : next.Joined := by
  refine h.carry ⟨fun k turnId hruns => .inl (hrunning k turnId hruns),
    fun k turnId hruns _ hexec => hexecuting k turnId hruns hexec, ?_⟩ ?_ hclosed
    (fun turn hturn => .inl (hunsaved turn hturn)) ?_ hcancelled hspawned
  · intro used hused
    rwa [hminted]
  · intro row hrow
    rwa [hclosing] at hrow
  · intro call hcall
    rwa [hcancels] at hcall

theorem executing_setTask {task : TurnTask} {stage : TurnTaskStage}
    (htask : service.turnTasks.get? task.turnId = some task) (hstage : task.stage ≠ .executing)
    (hexecuting : service.Executing turnId) : (service.setTask task stage).Executing turnId := by
  have hne : turnId ≠ task.turnId := by
    rintro rfl
    rw [executing_iff, htask] at hexecuting
    exact hstage (Option.some.inj hexecuting)
  have hkept : (service.setTask task stage).stageOf turnId = service.stageOf turnId :=
    (stageOf_insert service { task with stage := stage } turnId).trans (if_neg hne)
  unfold Executing
  rw [hkept]
  exact hexecuting

theorem step (h : service.Joined) (hstaged : service.Staged) {op : SubagentOp}
    (hunraced : service.Unraced op) (hstep : service.step op = some next) : next.Joined := by
  cases effect_of_step hstep with
  | bookkeeping h' =>
    apply h.aside h'.toAside
    intro row hrow
    rwa [h'.closing] at hrow
  | closing h' hop => exact h.closes hstaged hop hunraced hstep
  | @sent middle record turn h' hrecord _ hopen hclosing hfresh =>
    have hmiddle : middle.Joined := by
      apply h.aside h'.toAside
      intro row hrow
      rwa [h'.closing] at hrow
    apply hmiddle.appendTurn
    · rwa [h'.minted]
    · rw [h'.isClosed]
      simpa [SubagentService.isClosed, hrecord] using hopen
    · intro row hrow heq
      rw [h'.closing] at hrow
      have hclaimed : service.closing.get? record.id = some row :=
        Table.get?_eq_some.mpr ⟨hrow, heq⟩
      simp [isClosing, hclaimed] at hclosing
  | @opened middle record turn origin h' hturns hopen hid hfresh hne =>
    have hnone : service.records.get? record.id = none := by
      by_contra hsome
      exact hid (hstaged.recordMinted record.id (Option.isSome_iff_ne_none.mpr hsome))
    have hrecords : ({ middle with
        records := service.records.insert record
        minted := record.id :: service.minted } : SubagentService).Joined := by
      refine h.carry ⟨fun k turnId hruns => .inl (running_newRecord hturns rfl hruns), ?_, ?_⟩
        ?_ ?_ ?_ ?_ h'.cancelled h'.spawnedClosed
      · intro k turnId _ _ hexecuting
        have hstage : middle.stageOf turnId = service.stageOf turnId := h'.stageOf turnId
        show (middle.stageOf turnId).map Prod.snd = _
        rw [hstage]
        exact hexecuting
      · exact fun used hused => List.mem_cons_of_mem _ hused
      · intro row hrow
        have hrow : row ∈ middle.closing.rows := hrow
        rwa [h'.closing] at hrow
      · intro k hk
        have hk : (((service.records.insert record).get? k).map Subagent.closed).getD false = true :=
          hk
        rw [Table.get?_insert] at hk
        split at hk
        · simp [hopen] at hk
        · exact hk
      · intro other hother
        have hother : other ∈ middle.unsaved.rows := hother
        rw [h'.unsaved] at hother
        exact .inl hother
      · intro call hcall
        have hcall : call ∈ middle.cancels := hcall
        rwa [h'.cancels] at hcall
    apply hrecords.appendTurn
    · simp only [List.mem_cons, not_or]
      exact ⟨fun heq => hne heq.symm, hfresh⟩
    · show (((service.records.insert record).get? record.id).map Subagent.closed).getD false = false
      rw [Table.get?_insert_self]
      exact hopen
    · intro row hrow heq
      have hrow : row ∈ middle.closing.rows := hrow
      rw [h'.closing] at hrow
      exact hid (heq ▸ (h.closing row hrow).1)
  | @spawned _ turn hunsaved _ _ h' =>
    have hspawned : ({ service with
        unsaved := service.unsaved.erase turn.turnId }.spawn turn : SubagentService).Joined := by
      have hopen : service.isClosed turn.subagentId = false :=
        (h.unsaved turn (Table.get?_eq_some.mp hunsaved).1).1
      refine h.retask (fun _ _ hruns => hruns) ?_ (fun _ hk => hk) ?_ rfl rfl rfl rfl ?_
      · intro k turnId _ hexecuting
        unfold Executing
        rw [Staged.stageOf_spawn, if_neg]
        · exact hexecuting
        · rintro rfl
          have hnone := hstaged.apart turn.turnId (by simp [hunsaved])
          rw [Executing, hnone] at hexecuting
          cases hexecuting
      · exact fun other hother => (Table.mem_erase.mp hother).1
      · have hstillOpen : SubagentService.isClosed
            { service with unsaved := service.unsaved.erase turn.turnId } turn.subagentId = false :=
          hopen
        simp [spawn, hstillOpen]
    apply hspawned.aside h'.toAside
    intro row hrow
    rwa [h'.closing] at hrow
  | @unsent _ turn hunsaved h' =>
    have hdropped : ({ service with unsaved := service.unsaved.erase turn.turnId }.editTurns
        turn.subagentId (·.filter fun other => other.turnId ≠ turn.turnId)
        : SubagentService).Joined := by
      refine h.retask (fun _ _ hruns => (running_dropTurn hruns).1)
        (fun _ _ _ hexecuting => hexecuting) ?_ ?_ rfl rfl rfl rfl rfl
      · intro k hk
        rwa [isClosed_editTurns] at hk
      · exact fun other hother => (Table.mem_erase.mp hother).1
    apply hdropped.aside h'.toAside
    intro row hrow
    rwa [h'.closing] at hrow
  | @discarded _ turn hunsaved h' =>
    have hdiscarded : ({ service with
        unsaved := service.unsaved.erase turn.turnId
        records := service.records.erase turn.subagentId } : SubagentService).Joined := by
      refine h.retask (fun _ _ hruns => (running_discard rfl hruns).1)
        (fun _ _ _ hexecuting => hexecuting) ?_ ?_ rfl rfl rfl rfl rfl
      · intro k hk
        have hk : (((service.records.erase turn.subagentId).get? k).map
          Subagent.closed).getD false = true := hk
        rw [Table.get?_erase] at hk
        split at hk
        · cases hk
        · exact hk
      · exact fun other hother => (Table.mem_erase.mp hother).1
    apply hdiscarded.aside h'.toAside
    intro row hrow
    rwa [h'.closing] at hrow
  | neverBegan htask hstage =>
    exact h.retask (fun _ _ hruns => hruns)
      (fun _ _ _ => executing_setTask htask (by simp [hstage])) (fun _ hk => hk)
      (fun _ hturn => hturn) rfl rfl rfl rfl rfl
  | begun htask hstage =>
    exact h.retask (fun _ _ hruns => hruns)
      (fun _ _ _ => executing_setTask htask (by simp [hstage])) (fun _ hk => hk)
      (fun _ hturn => hturn) rfl rfl rfl rfl rfl
  | @finished task status htask hstage hstatus =>
    refine h.retask (fun _ _ hruns => (running_writeStatus hstatus hruns).1) ?_ ?_
      (fun _ hturn => hturn) rfl rfl rfl rfl rfl
    · intro k turnId hruns hexecuting
      obtain ⟨hold, hother⟩ := running_writeStatus hstatus hruns
      have hne : turnId ≠ task.turnId := by
        rintro rfl
        rcases hstaged.running k _ hold with hwaits | ⟨stage, hfound, -⟩
        · obtain ⟨turn, hturn, -⟩ := Option.map_eq_some_iff.mp hwaits
          have hnone := hstaged.apart task.turnId (Option.isSome_iff_exists.mpr ⟨turn, hturn⟩)
          rw [Executing, hnone] at hexecuting
          cases hexecuting
        · rw [stageOf_of_get? htask] at hfound
          exact hother ⟨(Prod.mk.inj (Option.some.inj hfound)).1.symm, rfl⟩
      unfold Executing stageOf
      show (((service.turnTasks.insert { task with stage := .saving }).get? turnId).map
        fun task => (task.subagentId, task.stage)).map Prod.snd = _
      rw [stageOf_insert, if_neg hne]
      exact hexecuting
    · intro k hk
      rwa [← isClosed_editTurns (writeStatus task.turnId status) k]
  | ended htask hstage h' =>
    apply Joined.aside _ h'.toAside
    · intro row hrow
      rwa [h'.closing] at hrow
    · exact h.retask (fun _ _ hruns => hruns)
        (fun _ _ _ => executing_setTask htask (by simp [hstage])) (fun _ hk => hk)
        (fun _ hturn => hturn) rfl rfl rfl rfl rfl
  | @cancelReturned record named hop hpublished hrecord hnone =>
    have hunderWay : service.UnderWay record.id named := by
      have hboth := hunraced.2
      rw [hop] at hboth
      exact hboth hpublished
    have hfound : record.foundBy named = [] := by
      apply List.eq_nil_iff_forall_not_mem.mpr
      intro turnId hmem
      have htask := (found_of_underWay hstaged hrecord hunderWay hmem).2.1
      rw [hnone] at htask
      cases htask
    have hasked := h.requestCancel []
    rw [hfound]
    refine hasked.retask (fun _ _ hruns => hruns) (fun _ _ _ hexecuting => hexecuting)
      (fun _ hk => hk) (fun _ hturn => hturn) rfl rfl rfl ?_ rfl
    simp [SubagentService.cancelReturned]
  | @cancelJoins record named hop hpublished hrecord =>
    have hunderWay : service.UnderWay record.id named := by
      have hboth := hunraced.2
      rw [hop] at hboth
      exact hboth hpublished
    have hasked := h.requestCancel (service.runningTasks record named)
    have hkept := Aside.requestCancel service (service.runningTasks record named)
    refine { hasked with cancels := ?_ }
    intro call hcall turnId hmem
    rcases List.mem_append.mp hcall with hold | hnew
    · exact hasked.cancels call hold turnId hmem
    · obtain rfl := List.mem_singleton.mp hnew
      obtain ⟨hminted, htask, hexecuting⟩ := found_of_underWay hstaged hrecord hunderWay hmem
      refine ⟨hminted, fun _ => ⟨htask, ?_⟩⟩
      show ((service.requestCancel _).stageOf turnId).map Prod.snd = _
      rw [hkept.stageOf]
      exact hexecuting
  | @cancelJoined index call hcall hjoined =>
    have hmem : call ∈ service.cancels := List.mem_of_getElem? hcall
    refine { h with cancels := ?_, cancelled := ?_ }
    · intro other hother
      exact h.cancels other (List.eraseIdx_subset hother)
    · intro k turnId hentry
      rcases List.mem_append.mp hentry with hold | hnew
      · exact h.cancelled k turnId hold
      · obtain ⟨found, hfound, hpair⟩ := List.mem_map.mp hnew
        obtain ⟨rfl, rfl⟩ := Prod.mk.inj hpair
        obtain ⟨hminted, hruns⟩ := h.cancels call hmem found hfound
        refine ⟨hminted, fun hrunning => ?_⟩
        obtain ⟨htask, hexecuting⟩ := hruns hrunning
        exact not_executing_of_joined hjoined htask hexecuting
  | cancelAbandoned =>
    refine { h with cancels := ?_ }
    intro other hother
    exact h.cancels other (List.eraseIdx_subset hother)
  | closed hrow hstage =>
    have hmem := (Table.get?_eq_some.mp hrow).1
    have hok := (h.closing _ hmem).2
    rw [hstage] at hok
    exact h.setClosed hmem hok _
  | pruned =>
    refine h.retask (fun _ _ => running_prune) (fun _ _ _ hexecuting => hexecuting) ?_
      (fun _ hturn => hturn) rfl rfl rfl rfl rfl
    intro k hk
    rwa [isClosed_prune] at hk
  | stopping =>
    have hasked := h.requestCancel
      ((service.turnTasks.rows.filter fun task => !task.done).map TurnTask.turnId)
    exact hasked.retask (fun _ _ hruns => hruns) (fun _ _ _ hexecuting => hexecuting)
      (fun _ hk => hk) (fun _ hturn => hturn) rfl rfl rfl rfl rfl
  | stopJoined _ _ | stopped _ | stopAbandoned =>
    exact h.retask (fun _ _ hruns => hruns) (fun _ _ _ hexecuting => hexecuting)
      (fun _ hk => hk) (fun _ hturn => hturn) rfl rfl rfl rfl rfl

end Joined

end SubagentService

end ClaudeHub
