import ClaudeHub.Lib.Runs
import ClaudeHub.Subagents.Service
import Mathlib.Data.List.Sort

/-! # Saves of the subagent records

A save takes its snapshot once it holds the lock, and a write that runs then is never abandoned. A
save that a later write has covered returns at once. What each save and each content of the file are
compared by is the number of the step in which they were called or taken.
-/

namespace ClaudeHub

open StepSystem

/-- `_CLOSED_RETENTION`, in microseconds -/
def closedRetention : Time := 7 * 24 * 60 * 60 * 1000000

def closedRetentionMax : Nat := 500

/-- `_prune`: turns are trimmed, and closed records that are old or too many dropped. -/
def pruneSubagents (now : Time) (records : List Subagent) : List Subagent :=
  let trimmed := records.map Subagent.trimTurns
  let closed := (trimmed.filter Subagent.closed).insertionSort fun a b =>
    b.closedSince ≤ a.closedSince
  let dropped := (closed.zipIdx.filter fun (record, index) =>
    closedRetentionMax ≤ index ∨ record.closedSince + closedRetention < now).map fun entry =>
      entry.1.id
  trimmed.filter fun record => record.id ∉ dropped

/-- What one write is about: the records when they were taken, and one not yet published. -/
structure SubagentSnapshot where
  takenAt : Nat
  records : List Subagent
  pending : Option Subagent
  deriving DecidableEq

def SubagentSnapshot.written (snapshot : SubagentSnapshot) : List Subagent :=
  match snapshot.pending with
  | none => snapshot.records
  | some pending =>
    if snapshot.records.any fun record => record.id = pending.id then
      snapshot.records.map fun record => if record.id = pending.id then pending else record
    else snapshot.records ++ [pending]

theorem SubagentSnapshot.pending_mem_written {snapshot : SubagentSnapshot} {record : Subagent}
    (h : snapshot.pending = some record) : record ∈ snapshot.written := by
  rw [written, h]
  dsimp only
  split
  · next hany =>
      obtain ⟨old, hold, hid⟩ := List.any_eq_true.mp hany
      exact List.mem_map.mpr ⟨old, hold, if_pos (of_decide_eq_true hid)⟩
  · exact List.mem_append_right _ (List.mem_singleton_self _)

/-- A call of `_save` -/
structure SubagentSave where
  id : Nat
  generation : Nat
  calledAt : Nat
  pending : Option Subagent
  deriving DecidableEq

inductive WriteOutcome
  | done
  | failed (replaced : Bool)
  deriving DecidableEq, Repr

structure SubagentWrite where
  call : SubagentSave
  snapshot : SubagentSnapshot
  covered : Nat
  cancelled : Bool := false
  outcome : Option WriteOutcome := none
  deriving DecidableEq

structure ReturnedSave where
  call : SubagentSave
  content : Option SubagentSnapshot
  deriving DecidableEq

structure SubagentSaves where
  history : List (List Subagent)
  records : List Subagent
  saveRequested : Nat := 0
  saveWritten : Nat := 0
  waiting : List SubagentSave := []
  writing : Option SubagentWrite := none
  /-- What the file has held since the service was started, the newest last. -/
  contents : List SubagentSnapshot := []
  returned : List ReturnedSave := []
  deriving DecidableEq

namespace SubagentSaves

def start (records : List Subagent) : SubagentSaves where
  history := [records]
  records := records

def clock (saves : SubagentSaves) : Nat := saves.history.length

def returnSave (saves : SubagentSaves) (call : SubagentSave) : SubagentSaves :=
  { saves with returned := saves.returned ++ [⟨call, saves.contents.getLast?⟩] }

/-- A call of `_save`, up to where it waits for the lock -/
def call (saves : SubagentSaves) (id : Nat) (pending : Option Subagent) : SubagentSaves :=
  { saves with
    saveRequested := saves.saveRequested + 1
    waiting := saves.waiting ++ [⟨id, saves.saveRequested + 1, saves.clock, pending⟩] }

/-- A save that waits takes the free lock: it returns when it is covered, or its write begins. -/
def enter (saves : SubagentSaves) (index : Nat) (now : Time) : Option SubagentSaves :=
  match saves.waiting[index]?, saves.writing with
  | some call, none =>
    let entered := { saves with waiting := saves.waiting.eraseIdx index }
    if call.pending = none ∧ call.generation ≤ saves.saveWritten then
      some (entered.returnSave call)
    else
      let records := pruneSubagents now saves.records
      some { entered with
        records := records
        writing := some
          { call := call
            snapshot := ⟨saves.clock, records, call.pending⟩
            covered := saves.saveRequested } }
  | _, _ => none

/-- A save is cancelled: while it waits it raises, while it holds the lock it goes on. -/
def cancelWaiting (saves : SubagentSaves) (index : Nat) : Option SubagentSaves :=
  if index < saves.waiting.length then
    some { saves with waiting := saves.waiting.eraseIdx index }
  else none

def cancelWriting (saves : SubagentSaves) : Option SubagentSaves :=
  saves.writing.map fun write => { saves with writing := some { write with cancelled := true } }

/-- `_write_state` returns or raises in its thread. -/
def finishWrite (saves : SubagentSaves) (outcome : WriteOutcome) : Option SubagentSaves :=
  match saves.writing with
  | none => none
  | some write =>
    if write.outcome.isSome then none
    else some { saves with
      writing := some { write with outcome := some outcome }
      contents :=
        if outcome = .failed false then saves.contents
        else saves.contents ++ [write.snapshot] }

/-- The save goes on after its write: it returns, or raises what it was cancelled by or what the
write has raised, and the lock is free. -/
def resume (saves : SubagentSaves) : Option SubagentSaves :=
  match saves.writing with
  | none => none
  | some write =>
    match write.outcome with
    | none => none
    | some outcome =>
      let released := { saves with writing := none }
      if write.cancelled ∨ outcome ≠ .done then some released
      else if write.call.pending = none then
        some ({ released with
          saveWritten := max saves.saveWritten write.covered }.returnSave write.call)
      else some (released.returnSave write.call)

inductive Action
  | change (records : List Subagent)
  | call (id : Nat) (pending : Option Subagent)
  | enter (index : Nat) (now : Time)
  | cancelWaiting (index : Nat)
  | cancelWriting
  | finishWrite (outcome : WriteOutcome)
  | resume
  deriving DecidableEq

def act (saves : SubagentSaves) : Action → Option SubagentSaves
  | .change records => some { saves with records := records }
  | .call id pending => some (saves.call id pending)
  | .enter index now => saves.enter index now
  | .cancelWaiting index => saves.cancelWaiting index
  | .cancelWriting => saves.cancelWriting
  | .finishWrite outcome => saves.finishWrite outcome
  | .resume => saves.resume

def step (saves : SubagentSaves) (action : Action) : Option SubagentSaves :=
  (saves.act action).map fun next => { next with history := next.history ++ [next.records] }

/-! ## The invariant -/

/-- A save was called no later than the newest content of the file was taken. -/
def Covered (saves : SubagentSaves) (call : SubagentSave) : Prop :=
  ∃ content, saves.contents.getLast? = some content ∧ call.calledAt ≤ content.takenAt

/-- What is known of the save that holds the lock. -/
structure HoldsWrite (saves : SubagentSaves) (write : SubagentWrite) : Prop where
  taken : saves.history[write.snapshot.takenAt]? = some write.snapshot.records
  pending : write.snapshot.pending = write.call.pending
  called : write.call.calledAt ≤ write.snapshot.takenAt
  newest : ∀ content ∈ saves.contents, content.takenAt ≤ write.snapshot.takenAt
  covered : write.covered ≤ saves.saveRequested
  covers : ∀ call ∈ saves.waiting, call.generation ≤ write.covered →
    call.calledAt ≤ write.snapshot.takenAt
  done : write.outcome = some .done → saves.contents.getLast? = some write.snapshot

structure Holds (saves : SubagentSaves) : Prop where
  called : ∀ call ∈ saves.waiting, call.calledAt ≤ saves.clock
  requested : ∀ call ∈ saves.waiting, call.generation ≤ saves.saveRequested
  bounded : saves.saveWritten ≤ saves.saveRequested
  covers : ∀ call ∈ saves.waiting, call.generation ≤ saves.saveWritten → saves.Covered call
  write : ∀ write ∈ saves.writing, saves.HoldsWrite write
  taken : ∀ content ∈ saves.contents, saves.history[content.takenAt]? = some content.records
  ordered : (saves.contents.map SubagentSnapshot.takenAt).Pairwise (· ≤ ·)
  returned : ∀ save ∈ saves.returned, ∃ content ∈ saves.contents, save.content = some content ∧
    save.call.calledAt ≤ content.takenAt ∧ ∀ pending ∈ save.call.pending, pending ∈ content.written

variable {saves next : SubagentSaves}

theorem holds_start (records : List Subagent) : Holds (start records) where
  called := fun _ h => absurd h List.not_mem_nil
  requested := fun _ h => absurd h List.not_mem_nil
  bounded := Nat.le_refl 0
  covers := fun _ h => absurd h List.not_mem_nil
  write := fun _ h => absurd h (Option.not_mem_none _)
  taken := fun _ h => absurd h List.not_mem_nil
  ordered := List.Pairwise.nil
  returned := fun _ h => absurd h List.not_mem_nil

theorem history_append {history : List (List Subagent)} {records : List Subagent} {time : Nat}
    (h : history[time]? = some records) (more : List (List Subagent)) :
    (history ++ more)[time]? = some records := by
  obtain ⟨hlt, hget⟩ := List.getElem?_eq_some_iff.mp h
  rw [List.getElem?_append_left hlt, h]

theorem Holds.tick (h : Holds saves) (records : List Subagent) :
    Holds { saves with records := records, history := saves.history ++ [records] } where
  called := by
    intro call hcall
    have hle := h.called call hcall
    rw [clock] at hle ⊢
    rw [List.length_append]
    exact Nat.le_add_right_of_le hle
  requested := h.requested
  bounded := h.bounded
  covers := h.covers
  write := by
    intro write hwrite
    have hold := h.write write hwrite
    exact { hold with taken := history_append hold.taken _ }
  taken := fun content hcontent => history_append (h.taken content hcontent) _
  ordered := h.ordered
  returned := h.returned

theorem Holds.dropWaiting (h : Holds saves) (index : Nat) :
    Holds { saves with waiting := saves.waiting.eraseIdx index } where
  called := fun call hcall => h.called call (List.mem_of_mem_eraseIdx hcall)
  requested := fun call hcall => h.requested call (List.mem_of_mem_eraseIdx hcall)
  bounded := h.bounded
  covers := fun call hcall => h.covers call (List.mem_of_mem_eraseIdx hcall)
  write := by
    intro write hwrite
    have hold := h.write write hwrite
    exact
      { hold with covers := fun call hcall => hold.covers call (List.mem_of_mem_eraseIdx hcall) }
  taken := h.taken
  ordered := h.ordered
  returned := h.returned

theorem Holds.call (h : Holds saves) (id : Nat) (pending : Option Subagent) :
    Holds (saves.call id pending) where
  called := by
    intro call hcall
    rcases List.mem_append.mp hcall with hold | hnew
    · exact h.called call hold
    · rw [List.mem_singleton.mp hnew]
      exact Nat.le_refl _
  requested := by
    intro call hcall
    rcases List.mem_append.mp hcall with hold | hnew
    · exact Nat.le_succ_of_le (h.requested call hold)
    · rw [List.mem_singleton.mp hnew]
      exact Nat.le_refl _
  bounded := Nat.le_succ_of_le h.bounded
  covers := by
    intro call hcall hle
    rcases List.mem_append.mp hcall with hold | hnew
    · exact h.covers call hold hle
    · rw [List.mem_singleton.mp hnew] at hle
      have hbounded := h.bounded
      have hnot : ¬ saves.saveRequested + 1 ≤ saves.saveWritten := by omega
      exact absurd hle hnot
  write := by
    intro write hwrite
    have hold := h.write write hwrite
    refine { hold with covered := Nat.le_succ_of_le hold.covered, covers := ?_ }
    intro call hcall hle
    rcases List.mem_append.mp hcall with hwaits | hnew
    · exact hold.covers call hwaits hle
    · rw [List.mem_singleton.mp hnew] at hle
      have hcovered := hold.covered
      have hnot : ¬ saves.saveRequested + 1 ≤ write.covered := by omega
      exact absurd hle hnot
  taken := h.taken
  ordered := h.ordered
  returned := h.returned

theorem Holds.returnSave (h : Holds saves) {call : SubagentSave} (hcovered : saves.Covered call)
    (hpending : ∀ pending ∈ call.pending, ∀ content, saves.contents.getLast? = some content →
      pending ∈ content.written) : Holds (saves.returnSave call) where
  called := h.called
  requested := h.requested
  bounded := h.bounded
  covers := h.covers
  write := fun write hwrite =>
    have hold := h.write write hwrite
    { hold with }
  taken := h.taken
  ordered := h.ordered
  returned := by
    intro save hsave
    rcases List.mem_append.mp hsave with hold | hnew
    · exact h.returned save hold
    · obtain ⟨content, hlast, hcalled⟩ := hcovered
      rw [List.mem_singleton.mp hnew]
      exact ⟨content, List.mem_of_getLast? hlast, hlast, hcalled,
        fun pending hmem => hpending pending hmem content hlast⟩

theorem Holds.beginWrite (h : Holds saves) {call : SubagentSave}
    (hcall : call ∈ saves.waiting) (index : Nat) (records : List Subagent) :
    Holds { saves with
      waiting := saves.waiting.eraseIdx index
      records := records
      history := saves.history ++ [records]
      writing := some
        { call := call
          snapshot := ⟨saves.clock, records, call.pending⟩
          covered := saves.saveRequested } } := by
  have hdropped := (h.dropWaiting index).tick records
  refine { hdropped with write := ?_ }
  intro write hwrite
  cases hwrite
  refine ⟨?_, rfl, h.called call hcall, ?_, Nat.le_refl _, ?_, fun hdone => nomatch hdone⟩
  · exact List.getElem?_concat_length
  · intro content hcontent
    obtain ⟨hlt, -⟩ := List.getElem?_eq_some_iff.mp (h.taken content hcontent)
    exact Nat.le_of_lt hlt
  · intro other hother _
    exact h.called other (List.mem_of_mem_eraseIdx hother)

theorem Holds.finishWrite (h : Holds saves) {outcome : WriteOutcome}
    (hstep : saves.finishWrite outcome = some next) : Holds next := by
  rw [SubagentSaves.finishWrite] at hstep
  split at hstep
  · exact nomatch hstep
  · next write hwriting =>
      have hold := h.write write hwriting
      split at hstep
      · exact nomatch hstep
      · cases hstep
        by_cases hfailed : outcome = .failed false
        · rw [if_pos hfailed]
          refine { h with write := ?_ }
          intro other hother
          cases hother
          refine { hold with done := ?_ }
          intro hdone
          rw [hfailed] at hdone
          exact nomatch hdone
        · rw [if_neg hfailed]
          have hlast : (saves.contents ++ [write.snapshot]).getLast? = some write.snapshot :=
            List.getLast?_concat
          refine ⟨h.called, h.requested, h.bounded, ?_, ?_, ?_, ?_, ?_⟩
          · intro call hcall hle
            obtain ⟨content, hcontent, hcalled⟩ := h.covers call hcall hle
            have hnewest := hold.newest content (List.mem_of_getLast? hcontent)
            exact ⟨write.snapshot, hlast, hcalled.trans hnewest⟩
          · intro other hother
            cases hother
            refine { hold with newest := ?_, done := fun _ => hlast }
            intro content hcontent
            rcases List.mem_append.mp hcontent with hbefore | hnew
            · exact hold.newest content hbefore
            · rw [List.mem_singleton.mp hnew]
          · intro content hcontent
            rcases List.mem_append.mp hcontent with hbefore | hnew
            · exact h.taken content hbefore
            · rw [List.mem_singleton.mp hnew]
              exact hold.taken
          · rw [List.map_append, List.map_singleton, List.pairwise_append]
            refine ⟨h.ordered, List.pairwise_singleton _ _, ?_⟩
            intro time htime last hlast
            obtain ⟨content, hcontent, rfl⟩ := List.mem_map.mp htime
            rw [List.mem_singleton.mp hlast]
            exact hold.newest content hcontent
          · intro save hsave
            obtain ⟨content, hcontent, hrest⟩ := h.returned save hsave
            exact ⟨content, List.mem_append_left _ hcontent, hrest⟩

theorem Holds.release (h : Holds saves) : Holds { saves with writing := none } :=
  { h with write := fun _ hnone => absurd hnone (Option.not_mem_none _) }

theorem Holds.resume (h : Holds saves) (hstep : saves.resume = some next) : Holds next := by
  rw [SubagentSaves.resume] at hstep
  split at hstep
  · exact nomatch hstep
  · next write hwriting =>
      have hold := h.write write hwriting
      split at hstep
      · exact nomatch hstep
      · next outcome houtcome =>
          dsimp only at hstep
          split at hstep
          · cases hstep
            exact h.release
          · next hclean =>
              rw [not_or, not_not] at hclean
              have hlast := hold.done (by rw [houtcome, hclean.2])
              have hcovered : ∀ written : Nat, Covered { saves with
                  saveWritten := written, writing := none } write.call :=
                fun _ => ⟨write.snapshot, hlast, hold.called⟩
              split at hstep
              · next hpending =>
                  cases hstep
                  refine Holds.returnSave ?_ (hcovered _) ?_
                  · refine ⟨h.called, h.requested, max_le h.bounded hold.covered, ?_,
                      fun _ hnone => absurd hnone (Option.not_mem_none _), h.taken, h.ordered,
                      h.returned⟩
                    intro call hcall hle
                    by_cases hbefore : call.generation ≤ saves.saveWritten
                    · exact h.covers call hcall hbefore
                    · have hnow : call.generation ≤ write.covered := by
                        dsimp only at hle
                        omega
                      exact ⟨write.snapshot, hlast, hold.covers call hcall hnow⟩
                  · intro pending hmem
                    rw [hpending] at hmem
                    exact nomatch hmem
              · cases hstep
                refine Holds.returnSave h.release (hcovered saves.saveWritten) ?_
                intro pending hmem content hcontent
                have hsame : write.snapshot = content := Option.some.inj (hlast.symm.trans hcontent)
                rw [← hsame]
                exact SubagentSnapshot.pending_mem_written (hold.pending.trans hmem)

theorem holds_step {action : Action} (h : Holds saves) (hstep : saves.step action = some next) :
    Holds next := by
  obtain ⟨acted, hact, rfl⟩ := Option.map_eq_some_iff.mp hstep
  cases action with
  | change records =>
    cases hact
    exact h.tick records
  | call id pending =>
    cases hact
    exact (h.call id pending).tick _
  | enter index =>
    rw [act, enter] at hact
    split at hact
    · next call hcall _ =>
        have hmem := List.mem_of_getElem? hcall
        dsimp only at hact
        split at hact
        · next hskip =>
            cases hact
            refine Holds.tick ((h.dropWaiting index).returnSave (h.covers call hmem hskip.2) ?_) _
            intro pending hpending
            rw [hskip.1] at hpending
            exact nomatch hpending
        · cases hact
          exact h.beginWrite hmem index _
    · exact nomatch hact
  | cancelWaiting index =>
    rw [act, cancelWaiting] at hact
    split at hact
    · cases hact
      exact (h.dropWaiting index).tick _
    · exact nomatch hact
  | cancelWriting =>
    obtain ⟨write, hwriting, rfl⟩ := Option.map_eq_some_iff.mp hact
    have hold := h.write write hwriting
    refine @Holds.tick { saves with writing := some { write with cancelled := true } } ?_ _
    refine { h with write := ?_ }
    intro other hother
    cases hother
    exact { hold with }
  | finishWrite => exact (h.finishWrite hact).tick _
  | resume => exact (h.resume hact).tick _

theorem holds_run {actions : List Action} (h : Holds saves)
    (hrun : Run step (fun _ _ => True) saves actions next) : Holds next :=
  hrun.invariant h fun _ _ _ hs _ hstep => holds_step hs hstep

end SubagentSaves

open SubagentSaves

/-- Every save that has returned found in the file a snapshot that was taken no earlier than its call
and holds its pending record, and what the file has held are snapshots of the records in the order
in which they were taken. -/
theorem subagent_saves_monotone {records : List Subagent} {actions : List Action}
    {saves : SubagentSaves} (hrun : Run step (fun _ _ => True) (start records) actions saves) :
    (∀ save ∈ saves.returned, ∃ content ∈ saves.contents, save.content = some content ∧
      save.call.calledAt ≤ content.takenAt ∧
        ∀ pending ∈ save.call.pending, pending ∈ content.written) ∧
    (saves.contents.map SubagentSnapshot.takenAt).Pairwise (· ≤ ·) ∧
    ∀ content ∈ saves.contents, saves.history[content.takenAt]? = some content.records := by
  have h := holds_run (holds_start records) hrun
  exact ⟨h.returned, h.ordered, h.taken⟩

/-- Two saves with one write, and one of a record that is not yet published, whose first caller is
cancelled while it waits. -/
private def threeSaves : List Action :=
  [.call 1 none, .change [{ id := "sa-1" }], .call 2 none, .enter 0 0, .finishWrite .done, .resume,
    .enter 0 0, .call 3 (some { id := "sa-2" }), .cancelWaiting 0, .call 4 (some { id := "sa-2" }),
    .enter 0 0, .finishWrite .done, .resume]

theorem subagent_saves_monotone_three : ∃ saves,
    exec step (start []) threeSaves = some saves ∧ saves.returned.length = 3 ∧
      (saves.contents.map SubagentSnapshot.takenAt).Pairwise (· ≤ ·) := by
  obtain ⟨saves, hexec, hreturned⟩ := @exists_exec_of_any _ _
    (fun saves : SubagentSaves => saves.returned.length = 3) _ step (start []) threeSaves
    (by decide +kernel)
  exact ⟨saves, hexec, hreturned, (subagent_saves_monotone (Run.of_exec hexec)).2.1⟩

end ClaudeHub
