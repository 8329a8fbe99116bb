import ClaudeHub.Lib.Runs
import ClaudeHub.Scheduling.Schedule

/-! # Edits and fires of one set of schedules

A fire takes the lock of its schedule, stamps the stored object, waits for its side effect and
writes the outcome on the object that it stamped. An edit may come during the wait, and puts
an edited copy in the place of the object. The schedules here are not Chat turns; those live in
the same store and write other objects.
-/

namespace ClaudeHub

open StepSystem

inductive ScheduleOp
  | create (id : ScheduleId) (payload : ScheduledTaskCreate) (now : Time)
  | update (id : ScheduleId) (payload : ScheduledTaskUpdate) (now : Time)
  | delete (id : ScheduleId)
  /-- A fire that gets the lock and passes its checks, up to its side effect. -/
  | fire (id : ScheduleId) (now : Time) (manual : Bool)
  | finish (id : ScheduleId) (error : Option String) (now : Time)
  | save
  deriving DecidableEq

structure ScheduleStore where
  scheduledTasks : References ScheduleId ScheduledTask := .empty
  /-- The fires that wait for their side effect, with the object each of them holds. -/
  firing : Dict ScheduleId Nat := Table.empty
  file : List ScheduledTask := []
  deriving DecidableEq

namespace ScheduleStore

variable (nextCronRun : String → Time → Option Time)

def saveScheduledTasks (store : ScheduleStore) : ScheduleStore :=
  { store with file := store.scheduledTasks.values }

/-- `create_scheduled_task`, with a new id -/
def createScheduledTask (store : ScheduleStore) (id : ScheduleId) (payload : ScheduledTaskCreate)
    (now : Time) : Option ScheduleStore :=
  if store.scheduledTasks.place? id = none ∧ store.firing.lookup id = none ∧
      payload.kind ≠ .chatTurn then
    let task := ScheduledTask.created nextCronRun id payload now
    some ({ store with
      scheduledTasks := store.scheduledTasks.rebind id task } : ScheduleStore).saveScheduledTasks
  else none

def updateScheduledTask (store : ScheduleStore) (id : ScheduleId) (payload : ScheduledTaskUpdate)
    (now : Time) : Option ScheduleStore :=
  (store.scheduledTasks.get? id).map fun task =>
    let merged := task.updated nextCronRun payload now
    ({ store with
      scheduledTasks := store.scheduledTasks.rebind id merged } : ScheduleStore).saveScheduledTasks

def deleteScheduledTask (store : ScheduleStore) (id : ScheduleId) : Option ScheduleStore :=
  if (store.scheduledTasks.place? id).isSome then
    some ({ store with
      scheduledTasks := store.scheduledTasks.unbind id } : ScheduleStore).saveScheduledTasks
  else none

/-- `_fire_scheduled_task`, up to the side effect -/
def fireScheduledTask (store : ScheduleStore) (id : ScheduleId) (now : Time) (manual : Bool) :
    Option ScheduleStore :=
  match store.scheduledTasks.place? id, store.scheduledTasks.get? id with
  | some place, some task =>
    if store.firing.lookup id = none ∧ task.fires now manual then
      some ({ store with
        scheduledTasks := store.scheduledTasks.modify place fun task =>
          task.stamped nextCronRun now
        firing := store.firing.set id place } : ScheduleStore).saveScheduledTasks
    else none
  | _, _ => none

/-- `_fire_scheduled_task`, after the side effect -/
def finishFire (store : ScheduleStore) (id : ScheduleId) (error : Option String) (now : Time) :
    Option ScheduleStore :=
  (store.firing.lookup id).map fun place =>
    ({ store with
      scheduledTasks := store.scheduledTasks.modify place fun task => task.concluded error now
      firing := Table.erase store.firing id } : ScheduleStore).saveScheduledTasks

def step (store : ScheduleStore) : ScheduleOp → Option ScheduleStore
  | .create id payload now => store.createScheduledTask nextCronRun id payload now
  | .update id payload now => store.updateScheduledTask nextCronRun id payload now
  | .delete id => store.deleteScheduledTask id
  | .fire id now manual => store.fireScheduledTask nextCronRun id now manual
  | .finish id error now => store.finishFire id error now
  | .save => some store.saveScheduledTasks

end ScheduleStore

abbrev ScheduleLedger := Dict ScheduleId ScheduledTask

namespace ScheduleLedger

variable (nextCronRun : String → Time → Option Time)

def rewrite (ledger : ScheduleLedger) (id : ScheduleId) (f : ScheduledTask → ScheduledTask) :
    ScheduleLedger :=
  match ledger.lookup id with
  | none => ledger
  | some task => ledger.set id (f task)

def record (ledger : ScheduleLedger) : ScheduleOp → ScheduleLedger
  | .create id payload now => ledger.set id (.created nextCronRun id payload now)
  | .update id payload now => ledger.rewrite id fun task => task.updated nextCronRun payload now
  | .delete id => Table.erase ledger id
  | .fire id now _ => ledger.rewrite id fun task => task.stamped nextCronRun now
  | .finish id error now => ledger.rewrite id fun task => task.concluded error now
  | .save => ledger

theorem lookup_rewrite (ledger : ScheduleLedger) (id j : ScheduleId)
    (f : ScheduledTask → ScheduledTask) :
    (ledger.rewrite id f).lookup j
      = if j = id then (ledger.lookup j).map f else ledger.lookup j := by
  unfold rewrite
  by_cases hid : j = id
  · subst hid
    cases h : ledger.lookup j with
    | none => simp [h]
    | some => simp [Dict.lookup_set]
  · cases h : ledger.lookup id with
    | none => simp [hid]
    | some => simp [Dict.lookup_set, hid]

end ScheduleLedger

def ScheduledTask.apartFromOutcome (task : ScheduledTask) : ScheduledTask :=
  { task with lastStatus := none, lastError := none, updatedAt := 0 }

/-- The same schedule; the two may say different times of their last change. -/
def ScheduledTask.Carries (task expected : ScheduledTask) : Prop :=
  task.apartFromOutcome = expected.apartFromOutcome ∧ task.lastStatus = expected.lastStatus ∧
    task.lastError = expected.lastError

namespace ScheduledTask

variable {nextCronRun : String → Time → Option Time} {task expected : ScheduledTask}

theorem apart_updated (h : task.apartFromOutcome = expected.apartFromOutcome)
    (payload : ScheduledTaskUpdate) (now : Time) :
    (task.updated nextCronRun payload now).apartFromOutcome
      = (expected.updated nextCronRun payload now).apartFromOutcome := by
  have hsame : ∀ task : ScheduledTask, (task.updated nextCronRun payload now).apartFromOutcome
      = (task.apartFromOutcome.updated nextCronRun payload now).apartFromOutcome := by
    intro task
    unfold updated apartFromOutcome
    simp only
    split <;> split <;> rfl
  rw [hsame task, hsame expected, h]

theorem apart_stamped (h : task.apartFromOutcome = expected.apartFromOutcome) (now : Time) :
    (task.stamped nextCronRun now).apartFromOutcome
      = (expected.stamped nextCronRun now).apartFromOutcome := by
  have hsame : ∀ task : ScheduledTask, (task.stamped nextCronRun now).apartFromOutcome
      = (task.apartFromOutcome.stamped nextCronRun now).apartFromOutcome := by
    intro task
    unfold stamped apartFromOutcome
    simp only
    split <;> rfl
  rw [hsame task, hsame expected, h]

end ScheduledTask

/-! ## Runs -/

namespace ScheduleStore

variable {nextCronRun : String → Time → Option Time} {store next : ScheduleStore}
  {ledger : ScheduleLedger} {id : ScheduleId}

/-- The store says what the ledger says, but for the outcomes of fires. -/
structure Agrees (store : ScheduleStore) (ledger : ScheduleLedger) : Prop where
  same : ∀ id, (store.scheduledTasks.get? id).map ScheduledTask.apartFromOutcome
    = (ledger.lookup id).map ScheduledTask.apartFromOutcome
  held : ∀ id place, store.firing.lookup id = some place →
    place < store.scheduledTasks.cells.length ∧
      ∀ j, store.scheduledTasks.place? j = some place → j = id

theorem agrees_empty : Agrees {} Table.empty where
  same _ := rfl
  held _ _ h := nomatch h

theorem Agrees.rebind (h : store.Agrees ledger) {task : ScheduledTask} {edited : ScheduleLedger}
    (hsame : ∀ j, (if j = id then some task else store.scheduledTasks.get? j).map
        ScheduledTask.apartFromOutcome
      = (edited.lookup j).map ScheduledTask.apartFromOutcome) :
    ({ store with scheduledTasks := store.scheduledTasks.rebind id task } :
      ScheduleStore).saveScheduledTasks.Agrees edited := by
  constructor
  · intro j
    show ((store.scheduledTasks.rebind id _).get? j).map _ = _
    rw [References.get?_rebind]
    exact hsame j
  · intro j place hplace
    obtain ⟨hlt, howner⟩ := h.held j place hplace
    refine ⟨?_, fun k hk => ?_⟩
    · show place < (store.scheduledTasks.cells ++ [_]).length
      rw [List.length_append]
      omega
    · replace hk : (store.scheduledTasks.rebind id _).place? k = some place := hk
      rw [References.place?_rebind] at hk
      split at hk
      · cases hk
        exact absurd hlt (Nat.lt_irrefl _)
      · exact howner k hk

variable {now : Time}

theorem Agrees.create {payload : ScheduledTaskCreate} (h : store.Agrees ledger)
    (hstep : store.createScheduledTask nextCronRun id payload now = some next) :
    next.Agrees (ledger.set id (.created nextCronRun id payload now)) := by
  obtain ⟨⟨-, hidle, -⟩, rfl⟩ := by simpa [createScheduledTask] using hstep
  refine h.rebind fun j => ?_
  rw [Dict.lookup_set]
  split
  · rfl
  · exact h.same j

theorem Agrees.update {payload : ScheduledTaskUpdate} (h : store.Agrees ledger)
    (hstep : store.updateScheduledTask nextCronRun id payload now = some next) :
    next.Agrees (ledger.rewrite id fun task => task.updated nextCronRun payload now) := by
  obtain ⟨task, htask, rfl⟩ := Option.map_eq_some_iff.mp hstep
  refine h.rebind fun j => ?_
  have hsame := h.same j
  rw [ScheduleLedger.lookup_rewrite]
  split
  · next heq =>
      subst heq
      rw [htask] at hsame
      obtain ⟨expected, hexpected, heq⟩ := Option.map_eq_some_iff.mp hsame.symm
      rw [hexpected]
      exact congrArg some (ScheduledTask.apart_updated heq.symm payload now)
  · exact hsame

theorem Agrees.delete (h : store.Agrees ledger)
    (hstep : store.deleteScheduledTask id = some next) :
    next.Agrees (Table.erase ledger id) := by
  obtain ⟨-, rfl⟩ := by simpa [deleteScheduledTask] using hstep
  constructor
  · intro j
    have hsame := h.same j
    show ((store.scheduledTasks.unbind id).get? j).map _ = _
    rw [References.get?_unbind, Dict.lookup_erase]
    split
    · rfl
    · exact hsame
  · intro j place hplace
    obtain ⟨hlt, howner⟩ := h.held j place hplace
    refine ⟨hlt, fun k hk => ?_⟩
    replace hk : (store.scheduledTasks.unbind id).place? k = some place := hk
    rw [References.place?_unbind] at hk
    split at hk
    · cases hk
    · exact howner k hk

theorem fire_cases {manual : Bool}
    (hstep : store.fireScheduledTask nextCronRun id now manual = some next) :
    ∃ place, store.scheduledTasks.place? id = some place ∧
      next = ({ store with
        scheduledTasks := store.scheduledTasks.modify place fun task =>
          task.stamped nextCronRun now
        firing := store.firing.set id place } : ScheduleStore).saveScheduledTasks := by
  unfold fireScheduledTask at hstep
  split at hstep
  · next place task hplace htask =>
      split at hstep
      · exact ⟨place, hplace, (Option.some.inj hstep).symm⟩
      · cases hstep
  · cases hstep

theorem Agrees.fire {manual : Bool} (h : store.Agrees ledger)
    (hstep : store.fireScheduledTask nextCronRun id now manual = some next) :
    next.Agrees (ledger.rewrite id fun task => task.stamped nextCronRun now) := by
  obtain ⟨place, hplace, rfl⟩ := fire_cases hstep
  constructor
  · intro j
    have hsame := h.same j
    show ((store.scheduledTasks.modify place _).get? j).map _ = _
    rw [References.get?_modify, ScheduleLedger.lookup_rewrite]
    by_cases hj : j = id
    · subst hj
      rw [if_pos hplace, if_pos rfl]
      cases htask : store.scheduledTasks.get? j with
      | none =>
        rw [htask] at hsame
        rw [Option.map_eq_none_iff.mp hsame.symm]
      | some =>
        rw [htask] at hsame
        obtain ⟨expected, hexpected, heq⟩ := Option.map_eq_some_iff.mp hsame.symm
        rw [hexpected]
        exact congrArg some (ScheduledTask.apart_stamped heq.symm now)
    · have hother : store.scheduledTasks.place? j ≠ some place := fun hsome =>
        hj (References.place?_inj hsome hplace)
      rw [if_neg hother, if_neg hj]
      exact hsame
  · intro j held hheld
    replace hheld : (store.firing.set id place).lookup j = some held := hheld
    rw [Dict.lookup_set] at hheld
    show held < (store.scheduledTasks.cells.modify place _).length ∧ _
    rw [List.length_modify]
    split at hheld
    · next heq =>
        cases hheld
        refine ⟨References.place?_lt hplace, fun k hk => ?_⟩
        rw [heq]
        exact References.place?_inj hk hplace
    · exact h.held j held hheld

theorem Agrees.finish {error : Option String} (h : store.Agrees ledger)
    (hstep : store.finishFire id error now = some next) :
    next.Agrees (ledger.rewrite id fun task => task.concluded error now) := by
  obtain ⟨place, hplace, rfl⟩ := Option.map_eq_some_iff.mp hstep
  constructor
  · intro j
    have hsame := h.same j
    have hstored : ((store.scheduledTasks.modify place fun task => task.concluded error now).get?
        j).map ScheduledTask.apartFromOutcome
        = (store.scheduledTasks.get? j).map ScheduledTask.apartFromOutcome := by
      rw [References.get?_modify]
      split
      · rw [Option.map_map]
        rfl
      · rfl
    have hmeant : ((ledger.rewrite id fun task => task.concluded error now).lookup j).map
        ScheduledTask.apartFromOutcome
        = (ledger.lookup j).map ScheduledTask.apartFromOutcome := by
      rw [ScheduleLedger.lookup_rewrite]
      split
      · rw [Option.map_map]
        rfl
      · rfl
    exact hstored.trans (hsame.trans hmeant.symm)
  · intro j held hheld
    replace hheld : Dict.lookup (Table.erase store.firing id) j = some held := hheld
    rw [Dict.lookup_erase] at hheld
    show held < (store.scheduledTasks.cells.modify place _).length ∧ _
    rw [List.length_modify]
    split at hheld
    · cases hheld
    · exact h.held j held hheld

theorem Agrees.step {op : ScheduleOp} (h : store.Agrees ledger)
    (hstep : store.step nextCronRun op = some next) : next.Agrees (ledger.record nextCronRun op) := by
  cases op with
  | create => exact h.create hstep
  | update => exact h.update hstep
  | delete => exact h.delete hstep
  | fire => exact h.fire hstep
  | finish => exact h.finish hstep
  | save =>
    cases hstep
    exact ⟨h.same, h.held⟩

theorem Agrees.run {ops : List ScheduleOp} {ok : ScheduleStore → ScheduleOp → Prop}
    (h : store.Agrees ledger)
    (hrun : Run (ScheduleStore.step nextCronRun) ok store ops next) :
    next.Agrees (ops.foldl (ScheduleLedger.record nextCronRun) ledger) := by
  induction hrun generalizing ledger with
  | nil => exact h
  | cons _ hstep _ ih => exact ih (h.step hstep)

/-- No edit comes while a fire of its schedule waits for its side effect. -/
def Unedited (store : ScheduleStore) : ScheduleOp → Prop
  | .update id _ _ => store.firing.lookup id = none
  | _ => True

instance (store : ScheduleStore) (op : ScheduleOp) : Decidable (store.Unedited op) := by
  unfold Unedited
  split <;> infer_instance

/-- Every waiting fire holds the stored object, or one whose schedule was deleted. -/
def Current (store : ScheduleStore) : Prop :=
  ∀ id place, store.firing.lookup id = some place → (store.scheduledTasks.place? id).isSome →
    store.scheduledTasks.place? id = some place

theorem Current.rebind (h : store.Current) (hidle : store.firing.lookup id = none)
    (task : ScheduledTask) :
    ({ store with
      scheduledTasks := store.scheduledTasks.rebind id task } : ScheduleStore).Current := by
  intro j place hplace hsome
  have hne : j ≠ id := by
    rintro rfl
    rw [hidle] at hplace
    cases hplace
  have hsame : (store.scheduledTasks.rebind id task).place? j = store.scheduledTasks.place? j := by
    rw [References.place?_rebind, if_neg hne]
  replace hsome : ((store.scheduledTasks.rebind id task).place? j).isSome := hsome
  rw [hsame] at hsome
  exact hsame.trans (h j place hplace hsome)

theorem Current.step {op : ScheduleOp} (h : store.Current) (hok : store.Unedited op)
    (hstep : store.step nextCronRun op = some next) : next.Current := by
  intro j place hplace hsome
  cases op with
  | create =>
    obtain ⟨⟨-, hidle, -⟩, rfl⟩ := by
      simpa [ScheduleStore.step, createScheduledTask] using hstep
    exact h.rebind hidle _ j place hplace hsome
  | update =>
    obtain ⟨task, -, rfl⟩ := Option.map_eq_some_iff.mp hstep
    exact h.rebind hok _ j place hplace hsome
  | delete id =>
    obtain ⟨-, rfl⟩ := by simpa [ScheduleStore.step, deleteScheduledTask] using hstep
    have hunbound : (store.scheduledTasks.unbind id).place? j
        = if j = id then none else store.scheduledTasks.place? j :=
      References.place?_unbind _ _ _
    replace hsome : ((store.scheduledTasks.unbind id).place? j).isSome := hsome
    show (store.scheduledTasks.unbind id).place? j = some place
    rw [hunbound] at hsome ⊢
    split at hsome
    · cases hsome
    · next hne =>
        rw [if_neg hne]
        exact h j place hplace hsome
  | fire id =>
    obtain ⟨stored, hstored, rfl⟩ := fire_cases hstep
    replace hplace : (store.firing.set id stored).lookup j = some place := hplace
    rw [Dict.lookup_set] at hplace
    split at hplace
    · next heq =>
        rw [heq, ← Option.some.inj hplace]
        exact hstored
    · exact h j place hplace hsome
  | finish id =>
    obtain ⟨held, -, rfl⟩ := Option.map_eq_some_iff.mp hstep
    replace hplace : Dict.lookup (Table.erase store.firing id) j = some place := hplace
    rw [Dict.lookup_erase] at hplace
    split at hplace
    · cases hplace
    · exact h j place hplace hsome
  | save =>
    cases hstep
    exact h j place hplace hsome

end ScheduleStore

open ScheduleStore

/-- When a fire is over, its schedule, stored and saved, is what every edit and every fire made
of it exactly when the fire held the stored object, as it does where no edit came during a
fire, or the object that took its place says the same outcome already. -/
theorem fire_outcome_kept_iff (nextCronRun : String → Time → Option Time)
    {ops : List ScheduleOp} {store next : ScheduleStore} {id : ScheduleId}
    {error : Option String} {now : Time} {task : ScheduledTask}
    (hrun : Run (ScheduleStore.step nextCronRun) (fun _ _ => True) {} ops store)
    (hfinish : store.step nextCronRun (.finish id error now) = some next)
    (hstored : store.scheduledTasks.get? id = some task) :
    ((∃ kept expected, next.scheduledTasks.get? id = some kept ∧ kept ∈ next.file ∧
        Dict.lookup ((ops ++ [ScheduleOp.finish id error now]).foldl
          (ScheduleLedger.record nextCronRun) Table.empty) id = some expected ∧ kept.Carries expected) ↔
      store.firing.lookup id = store.scheduledTasks.place? id ∨
        (task.lastStatus = some (if error.isSome then "error" else "ok") ∧
          task.lastError = error)) ∧
    (Run (ScheduleStore.step nextCronRun) Unedited {} ops store →
      store.firing.lookup id = store.scheduledTasks.place? id) := by
  obtain ⟨place, hplace, rfl⟩ := Option.map_eq_some_iff.mp hfinish
  have hsame := (agrees_empty.run hrun).same id
  rw [hstored] at hsame
  obtain ⟨before, hbefore, hapart⟩ := Option.map_eq_some_iff.mp hsame.symm
  have hmeant : Dict.lookup ((ops ++ [ScheduleOp.finish id error now]).foldl
      (ScheduleLedger.record nextCronRun) Table.empty) id = some (before.concluded error now) := by
    rw [List.foldl_append]
    show Dict.lookup (ScheduleLedger.rewrite _ id _) id = _
    rw [ScheduleLedger.lookup_rewrite, if_pos rfl, hbefore]
    rfl
  have hkept : (store.scheduledTasks.modify place fun task => task.concluded error now).get? id
      = if store.scheduledTasks.place? id = some place then some (task.concluded error now)
        else some task := by
    rw [References.get?_modify, hstored]
    rfl
  constructor
  · rw [hplace]
    constructor
    · rintro ⟨kept, expected, hget, -, hexpected, -, hstatus, herror⟩
      by_cases hcurrent : store.scheduledTasks.place? id = some place
      · exact .inl hcurrent.symm
      · cases hmeant.symm.trans hexpected
        rw [if_neg hcurrent] at hkept
        cases hkept.symm.trans hget
        exact .inr ⟨hstatus, herror⟩
    · intro hor
      have hgets : ∃ kept, (store.scheduledTasks.modify place fun task =>
          task.concluded error now).get? id = some kept ∧
          kept.Carries (before.concluded error now) := by
        by_cases hcurrent : store.scheduledTasks.place? id = some place
        · rw [if_pos hcurrent] at hkept
          exact ⟨_, hkept, hapart.symm, rfl, rfl⟩
        · obtain ⟨hstatus, herror⟩ := hor.resolve_left fun heq => hcurrent heq.symm
          rw [if_neg hcurrent] at hkept
          exact ⟨_, hkept, hapart.symm, hstatus, herror⟩
      obtain ⟨kept, hget, hcarries⟩ := hgets
      exact ⟨kept, _, hget, References.mem_values.mpr ⟨id, hget⟩, hmeant, hcarries⟩
  · intro hunedited
    have hcurrent : store.Current :=
      hunedited.invariant (fun _ _ h => nomatch h) fun _ _ _ h hok hstep => h.step hok hstep
    have hsome : (store.scheduledTasks.place? id).isSome := by
      rw [← References.get?_isSome, hstored]
      rfl
    rw [hplace, hcurrent id place hplace hsome]

private def minutely : ScheduledTaskCreate where
  name := "ping"
  kind := .tabMessage
  intervalSeconds := some 60
  tabId := some "tab"
  message := some "ping"

private def minutelyFire : List ScheduleOp :=
  [.create "minutely" minutely 0, .fire "minutely" 60000000 false]

theorem fire_outcome_kept_iff_unedited :
    ∃ store next, exec (ScheduleStore.step fun _ _ => none) {} minutelyFire = some store ∧
      store.step (fun _ _ => none) (.finish "minutely" (some "no tab") 61000000) = some next ∧
      ∃ kept expected, next.scheduledTasks.get? "minutely" = some kept ∧ kept ∈ next.file ∧
        Dict.lookup ((minutelyFire ++ [ScheduleOp.finish "minutely" (some "no tab") 61000000]).foldl
          (ScheduleLedger.record fun _ _ => none) Table.empty) "minutely" = some expected ∧
        kept.Carries expected := by
  have hsome : ((execOk (ScheduleStore.step fun _ _ => none) Unedited {} minutelyFire).any
      fun store => (store.step (fun _ _ => none)
        (.finish "minutely" (some "no tab") 61000000)).isSome &&
          (store.scheduledTasks.get? "minutely").isSome) = true := by decide +kernel
  obtain ⟨store, hexec, hboth⟩ := (Option.any_eq_true _ _).mp hsome
  obtain ⟨hnext, htask⟩ := Bool.and_eq_true_iff.mp hboth
  obtain ⟨next, hnext⟩ := Option.isSome_iff_exists.mp hnext
  obtain ⟨task, htask⟩ := Option.isSome_iff_exists.mp htask
  have hrun := Run.of_execOk hexec
  have hkept := fire_outcome_kept_iff (fun _ _ => none) (Run.of_exec hrun.exec_eq) hnext htask
  exact ⟨store, next, hrun.exec_eq, hnext, hkept.1.mpr (.inl (hkept.2 hrun))⟩

/-- The schedule is renamed while the fire waits; the fire fails, and the stored schedule does
not say so. -/
theorem outcome_lost_to_edit :
    ∃ next, exec (ScheduleStore.step fun _ _ => none) {}
        (minutelyFire ++ [.update "minutely" { name := some "renamed" } 60500000,
          .finish "minutely" (some "no tab") 61000000]) = some next ∧
      (next.scheduledTasks.get? "minutely").map
          (fun task => (task.name, task.lastStatus, task.lastError))
        = some ("renamed", none, none) :=
  exists_exec_of_any (by decide +kernel)

end ClaudeHub
