import ClaudeHub.AgentStream.Background
import ClaudeHub.AgentStream.Transcript

/-! # What tailing a transcript stores

While the process runs, what is stored and what is still on its way are the events of the
lines read so far. A restart reads from the saved cursor, so nothing is lost, and nothing is
stored twice where the cursor covers what was stored before the crash.
-/

namespace ClaudeHub

open Merging StepSystem

def LineEnd (complete : List UInt8) : Prop := complete = [] ∨ ∃ line, complete = line ++ [newline]

theorem prefix_completeLines (data : List UInt8) : completeLines data <+: data :=
  List.rdropWhile_prefix _ _

theorem lineEnd_completeLines (data : List UInt8) : LineEnd (completeLines data) := by
  by_cases hnil : completeLines data = []
  · exact .inl hnil
  · have hlast := List.rdropWhile_last_not _ data hnil
    have hend : (completeLines data).getLast hnil = newline := by
      simpa [completeLines] using hlast
    have hsplit := List.dropLast_append_getLast hnil
    rw [hend] at hsplit
    exact .inr ⟨(completeLines data).dropLast, hsplit.symm⟩

theorem LineEnd.completeLines_append {front : List UInt8} (h : LineEnd front)
    (back : List UInt8) : completeLines (front ++ back) = front ++ completeLines back := by
  have hfront : front.reverse.dropWhile (fun byte => decide (byte ≠ newline)) = front.reverse := by
    rcases h with rfl | ⟨line, rfl⟩
    · rfl
    · simp
  unfold completeLines List.rdropWhile
  rw [List.reverse_append, List.dropWhile_append]
  split
  · next hempty =>
      rw [hfront, List.reverse_reverse, List.isEmpty_iff.mp hempty, List.reverse_nil,
        List.append_nil]
  · rw [List.reverse_append, List.reverse_reverse]

theorem LineEnd.append {front back : List UInt8} (hfront : LineEnd front) (hback : LineEnd back) :
    LineEnd (front ++ back) := by
  rcases hback with rfl | ⟨line, rfl⟩
  · rwa [List.append_nil]
  · exact .inr ⟨front ++ line, by simp⟩

namespace TranscriptSource

variable {σ ρ : Type} (source : TranscriptSource σ ρ)

@[simp] theorem records_nil : source.records [] = [] := by
  simp [records, record]

theorem records_append {front : List UInt8} (h : LineEnd front) (back : List UInt8) :
    source.records (front ++ back) = source.records front ++ source.records back := by
  rcases h with rfl | ⟨line, rfl⟩
  · simp
  · have hsplit : ∀ rest, (line ++ newline :: rest).splitOn newline
        = line.splitOn newline ++ rest.splitOn newline := fun rest => by
      rw [List.splitOn_eq_splitOnP, List.splitOn_eq_splitOnP, List.splitOn_eq_splitOnP]
      exact List.splitOnP_append_cons line rest (by simp)
    have hnil : (([] : List UInt8).splitOn newline).filterMap source.record = [] :=
      source.records_nil
    simp only [records, List.append_assoc, List.singleton_append, hsplit, List.filterMap_append,
      hnil, List.append_nil]

/-- What normalizing each line once, in order, gives; a line on which the adapter raises gives
nothing. -/
inductive Normalizes : List ρ → List StreamEvent → Prop
  | nil : Normalizes [] []
  | snoc {lines : List ρ} {events : List StreamEvent} (h : Normalizes lines events) (line : ρ)
      (adapter : σ) (ctxEpoch : Nat) :
      Normalizes (lines ++ [line])
        (events ++ (source.normalizeLine adapter ctxEpoch line).1.getD [])

/-- The events as they are published, from an epoch on. -/
def stampAll (runEpoch : Nat) : List StreamEvent → List StreamEvent
  | [] => []
  | event :: events =>
    source.stampEvent (nextEpoch runEpoch event) event
      :: stampAll (nextEpoch runEpoch event) events

end TranscriptSource

def epochAfter (runEpoch : Nat) (events : List StreamEvent) : Nat := events.foldl nextEpoch runEpoch

theorem TranscriptSource.stampAll_append {σ ρ : Type} (source : TranscriptSource σ ρ)
    (runEpoch : Nat) (events more : List StreamEvent) :
    source.stampAll runEpoch (events ++ more)
      = source.stampAll runEpoch events ++ source.stampAll (epochAfter runEpoch events) more := by
  induction events generalizing runEpoch with
  | nil => rfl
  | cons event events ih =>
    simp only [List.cons_append, TranscriptSource.stampAll, ih]
    rfl

theorem TranscriptSource.length_stampAll {σ ρ : Type} (source : TranscriptSource σ ρ)
    (runEpoch : Nat) (events : List StreamEvent) :
    (source.stampAll runEpoch events).length = events.length := by
  induction events generalizing runEpoch with
  | nil => rfl
  | cons event events ih => rw [stampAll, List.length_cons, List.length_cons, ih]

namespace TailRun

variable {σ ρ : Type}

/-- Nothing in the transcript is left to read and publish. -/
def CaughtUp (source : TranscriptSource σ ρ) (run : TailRun σ ρ) : Prop :=
  ∃ process, run.process = some process ∧ process.phase = .idle ∧
    (source.readNewLines run.file process.offset).1 = []

/-- What is stored begins what publishing the events of the lines in order gives, and is all of
it once the tailer has caught up. -/
structure ExactlyOnce (source : TranscriptSource σ ρ) (run : TailRun σ ρ) : Prop where
  ordered : ∃ lines events rest, lines <+: source.records (completeLines run.file) ∧
    source.Normalizes lines events ∧ MergesDeltas (source.stampAll 0 events) (run.store ++ rest)
  complete : run.CaughtUp source → ∃ events,
    source.Normalizes (source.records (completeLines run.file)) events ∧
      MergesDeltas (source.stampAll 0 events) run.store

/-- No append fails, and no crash comes when more is stored than the saved cursor covers. -/
def StepSafe (run : TailRun σ ρ) : TailOp σ → Prop
  | .append ok => ok = true
  | .crash => run.store.length = run.covered
  | _ => True

instance (run : TailRun σ ρ) (op : TailOp σ) : Decidable (run.StepSafe op) := by
  unfold StepSafe
  split <;> infer_instance

/-- The lines before `upTo` are read; some of them are left, and the others were normalized. -/
def ReadUpTo (source : TranscriptSource σ ρ) (file : List UInt8) (upTo : Nat) (left : List ρ)
    (events : List StreamEvent) : Prop :=
  upTo ≤ file.length ∧ LineEnd (file.take upTo) ∧
    ∃ done, source.records (file.take upTo) = done ++ left ∧ source.Normalizes done events

/-- Where the process stands, when `raw` are the events published so far. -/
def Standing (source : TranscriptSource σ ρ) (file : List UInt8) (raw : List StreamEvent)
    (process : TailProcess σ ρ) : TailPhase ρ → Prop
  | .idle => process.publication.Quiet ∧ process.unsettled = [] ∧
      ReadUpTo source file process.offset [] raw
  | .publishing lines events _ newOffset => ReadUpTo source file newOffset lines (raw ++ events)
  | .flushing id newOffset => process.publication.Closing id ∧
      ReadUpTo source file (newOffset.getD process.offset) [] raw

/-- A process that found `base` in the store, written for the events `before`. -/
structure Tails (source : TranscriptSource σ ρ) (run : TailRun σ ρ) (process : TailProcess σ ρ)
    (base before raw : List StreamEvent) : Prop where
  published : source.stampAll 0 raw = before ++ process.publication.called
  epoch : epochAfter 0 raw = process.runEpoch
  stored : run.store = base ++ process.publication.emitted.take process.settled
  settled : process.settled ≤ process.publication.emitted.length
  merged : MergesDeltas before base
  consistent : process.publication.Consistent Eq
  unused : ∀ id, process.flushes ≤ id → process.publication.IsNew id
  standing : Standing source run.file raw process process.phase

/-- What the saved cursor stands for. -/
structure Covers (source : TranscriptSource σ ρ) (run : TailRun σ ρ) (raw : List StreamEvent) :
    Prop where
  read : ReadUpTo source run.file ((run.cursor.map TailCursor.offset).getD 0) [] raw
  epoch : epochAfter 0 raw = (run.cursor.map TailCursor.runEpoch).getD 0
  covered : run.covered ≤ run.store.length
  merged : MergesDeltas (source.stampAll 0 raw) (run.store.take run.covered)

structure Tailed (source : TranscriptSource σ ρ) (run : TailRun σ ρ) : Prop where
  cursor : ∃ raw, Covers source run raw
  down : run.process = none → run.store.length = run.covered
  up : ∀ process, run.process = some process →
    ∃ base before raw, Tails source run process base before raw

theorem tailed_init (source : TranscriptSource σ ρ) : Tailed source {} where
  cursor := ⟨[], ⟨Nat.zero_le _, .inl rfl, [], by simp, .nil⟩, rfl, Nat.le_refl _, .refl _⟩
  down _ := rfl
  up _ h := nomatch h

section

variable {source : TranscriptSource σ ρ} {run run' : TailRun σ ρ} {process : TailProcess σ ρ}
  {base before raw : List StreamEvent}

variable {file : List UInt8} {upTo : Nat} {left : List ρ} {events : List StreamEvent}

theorem ReadUpTo.grow (h : ReadUpTo source file upTo left events) (bytes : List UInt8) :
    ReadUpTo source (file ++ bytes) upTo left events := by
  obtain ⟨hle, hrest⟩ := h
  refine ⟨?_, ?_⟩
  · rw [List.length_append]
    omega
  · rwa [List.take_append_of_le_length hle]

variable {offset : Nat}

theorem take_readNewLines (source : TranscriptSource σ ρ) (file : List UInt8) :
    file.take (source.readNewLines file offset).2
      = file.take offset ++ completeLines (file.drop offset) := by
  show file.take (offset + _) = _
  rw [List.take_add]
  congr 1
  exact (List.prefix_iff_eq_take.mp (prefix_completeLines _)).symm

theorem ReadUpTo.readNewLines (h : ReadUpTo source file offset [] events) :
    ReadUpTo source file (source.readNewLines file offset).2
      (source.readNewLines file offset).1 events := by
  obtain ⟨hle, hend, done, hdone, hnormalizes⟩ := h
  have hnew := (prefix_completeLines (file.drop offset)).length_le
  rw [List.length_drop] at hnew
  refine ⟨?_, ?_, done, ?_, hnormalizes⟩
  · show offset + _ ≤ _
    omega
  · rw [take_readNewLines source file]
    exact hend.append (lineEnd_completeLines _)
  · rw [take_readNewLines source file, source.records_append hend, hdone, List.append_nil]
    rfl

theorem ReadUpTo.completeLines_eq (h : ReadUpTo source file upTo left events) :
    completeLines file = file.take upTo ++ completeLines (file.drop upTo) := by
  rw [← h.2.1.completeLines_append, List.take_append_drop]

theorem ReadUpTo.ordered (h : ReadUpTo source file upTo left events) :
    ∃ done, done <+: source.records (completeLines file) ∧ source.Normalizes done events := by
  have hcomplete := h.completeLines_eq
  obtain ⟨-, hend, done, hdone, hnormalizes⟩ := h
  refine ⟨done, ?_, hnormalizes⟩
  rw [hcomplete, source.records_append hend, hdone, List.append_assoc]
  exact List.prefix_append _ _

theorem ReadUpTo.complete (h : ReadUpTo source file offset [] events)
    (hnone : (source.readNewLines file offset).1 = []) :
    source.Normalizes (source.records (completeLines file)) events := by
  have hcomplete := h.completeLines_eq
  obtain ⟨-, hend, done, hdone, hnormalizes⟩ := h
  have hnothing : source.records (completeLines (file.drop offset)) = [] := hnone
  rw [hcomplete, source.records_append hend, hdone, hnothing, List.append_nil, List.append_nil]
  exact hnormalizes

theorem ReadUpTo.normalize {line : ρ} (h : ReadUpTo source file upTo (line :: left) events)
    (adapter : σ) (ctxEpoch : Nat) :
    ReadUpTo source file upTo left
      (events ++ (source.normalizeLine adapter ctxEpoch line).1.getD []) := by
  obtain ⟨hle, hend, done, hdone, hnormalizes⟩ := h
  refine ⟨hle, hend, done ++ [line], ?_, hnormalizes.snoc line adapter ctxEpoch⟩
  rw [hdone, List.append_assoc, List.singleton_append]

/-! ## Steps of the process -/

theorem Standing.grow {phase : TailPhase ρ} (h : Standing source run.file raw process phase)
    (bytes : List UInt8) : Standing source (run.file ++ bytes) raw process phase := by
  cases phase with
  | idle => exact ⟨h.1, h.2.1, h.2.2.grow bytes⟩
  | publishing => exact ReadUpTo.grow h bytes
  | flushing => exact ⟨h.1, h.2.grow bytes⟩

theorem Tails.withPublication {publication : Publication} {next : TailProcess σ ρ}
    (h : Tails source run process base before raw)
    (hcalled : publication.called = process.publication.called)
    (hemitted : process.publication.emitted <+: publication.emitted)
    (hconsistent : publication.Consistent Eq) (hpublication : next.publication = publication)
    (hepoch : next.runEpoch = process.runEpoch) (hsettled : next.settled = process.settled)
    (hunused : ∀ id, next.flushes ≤ id → publication.IsNew id)
    (hstanding : Standing source run.file raw next next.phase) :
    Tails source { run with process := some next } next base before raw := by
  obtain ⟨more, hmore⟩ := hemitted
  subst hpublication
  refine ⟨?_, h.epoch.trans hepoch.symm, ?_, ?_, h.merged, hconsistent, hunused, hstanding⟩
  · rw [hcalled]
    exact h.published
  · rw [hsettled, ← hmore, List.take_append_of_le_length h.settled]
    exact h.stored
  · have hle := h.settled
    rw [hsettled, ← hmore, List.length_append]
    omega

theorem grows_eq : Publication.Grows Eq := by
  rintro xs ys e rfl
  rfl

theorem awaited_of_published (h : process.published = true) (event : StreamEvent) (now : Time) :
    process.publication.Awaited (.publish event now) := by
  intro _ caller hcaller
  obtain ⟨hqueue, -⟩ := Bool.and_eq_true_iff.mp h
  have hone := List.all_eq_true.mp hqueue caller hcaller
  cases caller with
  | publish => cases hone
  | handle => cases hone
  | background => rfl
  | awaited => rfl

section

variable (h : Tails source run process base before raw)
include h

theorem Tails.publish {lines : List ρ} {event : StreamEvent} {ctxEpoch newOffset : Nat} {now : Time}
    (hphase : process.phase = .publishing lines (event :: events) ctxEpoch newOffset)
    (hpublished : process.published = true) : let next := { process.stamp source event now with
      phase := .publishing lines events ctxEpoch newOffset }
    Tails source { run with process := some next } next base before (raw ++ [event]) := by
  have hstanding := h.standing
  rw [hphase] at hstanding
  have hepoch : epochAfter 0 (raw ++ [event]) = nextEpoch process.runEpoch event := by
    rw [← h.epoch, epochAfter, List.foldl_append]
    rfl
  let stamped := source.stampEvent (nextEpoch process.runEpoch event) event
  have hconsistent := h.consistent.publish grows_eq
    (Publication.takesDelta_of_awaited h.consistent
      (awaited_of_published hpublished stamped now)) now
  have hemitted : process.publication.emitted <+:
      (process.publication.publish stamped now).emitted :=
    Publication.emitted_publish (List.prefix_refl _)
  obtain ⟨more, hmore⟩ := hemitted
  refine ⟨?_, hepoch, ?_, ?_, h.merged, hconsistent, ?_, ?_⟩
  · show _ = before ++ (process.publication.publish _ now).called
    rw [Publication.called_publish, source.stampAll_append, h.published, h.epoch,
      List.append_assoc]
    rfl
  · show run.store = base ++ (process.publication.publish _ now).emitted.take process.settled
    rw [← hmore, List.take_append_of_le_length h.settled]
    exact h.stored
  · show process.settled ≤ (process.publication.publish _ now).emitted.length
    have hle := h.settled
    rw [← hmore, List.length_append]
    omega
  · exact fun id hid => (h.unused id hid).publish _ now
  · show ReadUpTo source run.file newOffset lines (raw ++ [event] ++ events)
    rw [List.append_assoc]
    exact hstanding

theorem Tails.awaitFlush {upTo : Option Nat} {now : Time}
    (hread : ReadUpTo source run.file (upTo.getD process.offset) [] raw) :
    Tails source { run with process := some (process.awaitFlush upTo now) }
      (process.awaitFlush upTo now) base before raw := by
  have hnew : process.publication.IsNew process.flushes := h.unused _ (Nat.le_refl _)
  have hentering : process.publication.Entering Eq (.awaited process.flushes) :=
    h.consistent.entering rfl
  refine h.withPublication (Publication.called_flushAsync _ _ now)
    (Publication.emitted_flushAsync (List.prefix_refl _)) (hentering.flushAsync now) rfl rfl rfl
    (fun id hid => ?_) ⟨Publication.closing_flushAsync hnew now, hread⟩
  have hlt : process.flushes < id := hid
  have hcaller : FlushCaller.awaited process.flushes ≠ .awaited id := by
    simp
    omega
  obtain ⟨hqueue, hreturned⟩ := h.unused id (Nat.le_of_lt hlt)
  exact Publication.isNew_flushAsync hcaller hqueue hreturned

theorem Tails.background {op : PublicationOp} {publication : Publication}
    (hop : Publication.isBackground op = true)
    (hstep : process.publication.step op = some publication) :
    Tails source { run with process := some { process with publication := publication } }
      { process with publication := publication } base before raw := by
  have hconsistent : publication.Consistent Eq :=
    h.consistent.step grows_eq (fun event now heq => by subst heq; cases hop) hstep
  refine h.withPublication (Publication.called_step hop hstep)
    (Publication.emitted_step hop (List.prefix_refl _) hstep) hconsistent rfl rfl rfl
    (fun id hid => (h.unused id hid).step hop hstep) ?_
  have hstanding := h.standing
  show Standing source run.file raw { process with publication := publication } process.phase
  cases hphase : process.phase with
  | idle =>
    rw [hphase] at hstanding
    obtain ⟨hquiet, hsettled, hread⟩ := hstanding
    obtain ⟨hstill, hemitted⟩ := hquiet.step hop hstep
    refine ⟨hstill, ?_, hread⟩
    show publication.emitted.drop process.settled = []
    rw [hemitted]
    exact hsettled
  | publishing =>
    rw [hphase] at hstanding
    exact hstanding
  | flushing =>
    rw [hphase] at hstanding
    have hnotPublish : Publication.isPublish op = false := by
      cases op with
      | publish => cases hop
      | _ => rfl
    exact ⟨hstanding.1.step hnotPublish hstep, hstanding.2⟩

theorem Tails.append {event : StreamEvent} {rest : List StreamEvent}
    (hnext : process.unsettled = event :: rest) :
    let next := { process with settled := process.settled + 1 }
    Tails source { run with store := run.store ++ [event], process := some next } next base before
      raw := by
  have hdrop : process.publication.emitted.drop process.settled = event :: rest := hnext
  have hlt : process.settled < process.publication.emitted.length := by
    have hlength := congrArg List.length hdrop
    rw [List.length_drop, List.length_cons] at hlength
    omega
  have htake : process.publication.emitted.take (process.settled + 1)
      = process.publication.emitted.take process.settled ++ [event] := by
    rw [List.take_add, hdrop]
    rfl
  refine ⟨h.published, h.epoch, ?_, hlt, h.merged, h.consistent, h.unused, ?_⟩
  · show run.store ++ [event] = base ++ process.publication.emitted.take (process.settled + 1)
    rw [htake, h.stored, List.append_assoc]
  · have hstanding := h.standing
    show Standing source run.file raw { process with settled := process.settled + 1 } process.phase
    cases hphase : process.phase with
    | idle =>
      rw [hphase, Standing, hnext] at hstanding
      exact nomatch hstanding.2.1
    | publishing =>
      rw [hphase] at hstanding
      exact hstanding
    | flushing =>
      rw [hphase] at hstanding
      exact hstanding

theorem Tails.settles (hquiet : process.publication.Quiet) (hsettled : process.unsettled = []) :
    MergesDeltas (source.stampAll 0 raw) run.store := by
  obtain ⟨hsame, hmerges⟩ := hquiet.emitted h.consistent
  have htake : process.publication.emitted.take process.settled = process.publication.emitted := by
    have hsplit := List.take_append_drop process.settled process.publication.emitted
    have hnil : process.publication.emitted.drop process.settled = [] := hsettled
    rwa [hnil, List.append_nil] at hsplit
  rw [h.published, h.stored, htake, hsame]
  exact (h.merged.append_right _).trans (hmerges.append_left _)

end

/-! ## Steps of the run -/

theorem Tailed.withProcess {store : List StreamEvent} {next : TailProcess σ ρ}
    (h : Tailed source run) (hstore : run.store <+: store)
    (hnext : Tails source { run with store := store, process := some next } next base before raw) :
    Tailed source { run with store := store, process := some next } where
  cursor := by
    obtain ⟨raw, hcovers⟩ := h.cursor
    obtain ⟨more, rfl⟩ := hstore
    refine ⟨raw, hcovers.read, hcovers.epoch, ?_, ?_⟩
    · have hle := hcovers.covered
      show run.covered ≤ (run.store ++ more).length
      rw [List.length_append]
      omega
    · show MergesDeltas _ ((run.store ++ more).take run.covered)
      rw [List.take_append_of_le_length hcovers.covered]
      exact hcovers.merged
  down hnone := nomatch hnone
  up process hprocess := by
    cases hprocess
    exact ⟨base, before, raw, hnext⟩

theorem Tails.finish {id : Nat} {upTo : Option Nat}
    (h : Tails source run process base before raw) (htailed : Tailed source run)
    (hphase : process.phase = .flushing id upTo)
    (hreturned : id ∈ process.publication.returned) (hsettled : process.unsettled = [])
    (ok : Bool) :
    let next := { process with offset := upTo.getD process.offset, phase := .idle }
    Tailed source { run with process := some next } ∧
      Tailed source (({ run with process := some next } : TailRun σ ρ).saveCursor next ok) := by
  have hstanding := h.standing
  rw [hphase] at hstanding
  have hquiet := hstanding.1.quiet hreturned
  have hmerges := h.settles hquiet hsettled
  intro next
  have hidle : Tailed source { run with process := some next } :=
    htailed.withProcess (List.prefix_refl _) ⟨h.published, h.epoch, h.stored, h.settled, h.merged,
      h.consistent, h.unused, hquiet, hsettled, hstanding.2⟩
  refine ⟨hidle, ?_⟩
  cases ok with
  | false => exact hidle
  | true =>
    refine ⟨⟨raw, hstanding.2, h.epoch, Nat.le_refl _, ?_⟩, (fun hnone => nomatch hnone),
      fun process hprocess => ?_⟩
    · show MergesDeltas _ (run.store.take run.store.length)
      rw [List.take_length]
      exact hmerges
    · cases hprocess
      obtain ⟨base, before, raw, hnext⟩ := hidle.up next rfl
      exact ⟨base, before, raw, hnext.published, hnext.epoch, hnext.stored, hnext.settled,
        hnext.merged, hnext.consistent, hnext.unused, hnext.standing⟩

theorem Tailed.start (h : Tailed source run) (hdown : run.process = none) (adapter : σ) :
    Tailed source { run with process := some (run.loadCursor source adapter) } := by
  obtain ⟨raw, hcovers⟩ := h.cursor
  have hmerged := hcovers.merged
  rw [← h.down hdown, List.take_length] at hmerged
  apply h.withProcess (List.prefix_refl _)
  refine @Tails.mk _ _ source _ _ run.store (source.stampAll 0 raw) raw ?_ hcovers.epoch ?_
    (Nat.zero_le _) hmerged (Publication.consistent_start source.window rfl) (fun id _ => ?_)
    ⟨Publication.quiet_start source.window, rfl, hcovers.read⟩
  · exact (List.append_nil _).symm
  · exact (List.append_nil _).symm
  · simp [loadCursor, Publication.start, Publication.IsNew, Publication.queue]

theorem Tailed.processStep {op : TailOp σ} (h : Tailed source run)
    (hprocess : run.process = some process) (hsafe : StepSafe run op)
    (hstep : processStep source run process op = some run') : Tailed source run' := by
  obtain ⟨base, before, raw, htails⟩ := h.up process hprocess
  have hstanding := htails.standing
  have hkeep := List.prefix_refl run.store
  cases op with
    simp only [TailRun.processStep] at hstep
  | poll =>
    split at hstep
    · next hphase =>
        rw [hphase] at hstanding
        split at hstep
        · cases hstep
          exact h.withProcess hkeep (htails.awaitFlush hstanding.2.2)
        · next lines newOffset _ hlines =>
            cases hstep
            have hread := hstanding.2.2.readNewLines
            apply h.withProcess hkeep
            refine htails.withPublication rfl (List.prefix_refl _) htails.consistent rfl rfl rfl
              htails.unused ?_
            show ReadUpTo source run.file newOffset lines (raw ++ [])
            rw [List.append_nil]
            rw [hlines] at hread
            exact hread
    · cases hstep
  | normalize =>
    split at hstep
    · next line lines ctxEpoch newOffset hphase =>
        rw [hphase, Standing, List.append_nil] at hstanding
        split at hstep
        · cases hstep
          apply h.withProcess hkeep
          exact htails.withPublication rfl (List.prefix_refl _) htails.consistent rfl rfl rfl
            htails.unused (hstanding.normalize process.adapter ctxEpoch)
        · cases hstep
    · cases hstep
  | publish =>
    split at hstep
    · next hphase =>
        split at hstep
        · next hpublished =>
            cases hstep
            exact h.withProcess hkeep (htails.publish hphase hpublished)
        · cases hstep
    · cases hstep
  | publication =>
    split at hstep
    · obtain ⟨publication, hpublication, rfl⟩ := Option.map_eq_some_iff.mp hstep
      exact h.withProcess hkeep (htails.background rfl hpublication)
    · obtain ⟨publication, hpublication, rfl⟩ := Option.map_eq_some_iff.mp hstep
      exact h.withProcess hkeep (htails.background rfl hpublication)
    · obtain ⟨publication, hpublication, rfl⟩ := Option.map_eq_some_iff.mp hstep
      exact h.withProcess hkeep (htails.background rfl hpublication)
    · split at hstep
      · obtain ⟨publication, hpublication, rfl⟩ := Option.map_eq_some_iff.mp hstep
        exact h.withProcess hkeep (htails.background rfl hpublication)
      · cases hstep
    · cases hstep
  | append ok =>
    obtain rfl : ok = true := hsafe
    split at hstep
    · cases hstep
    · next event rest hnext =>
        cases hstep
        exact h.withProcess (List.prefix_append _ _) (htails.append hnext)
  | flush =>
    split at hstep
    · next ctxEpoch newOffset hphase =>
        rw [hphase, Standing, List.append_nil] at hstanding
        split at hstep
        · cases hstep
          exact h.withProcess hkeep (htails.awaitFlush hstanding)
        · cases hstep
    · cases hstep
  | finish ok =>
    split at hstep
    · next id upTo hphase =>
        split at hstep
        · next hdone =>
            have hfinish := htails.finish h hphase hdone.1 hdone.2 ok
            split at hstep
            · cases hstep
              exact hfinish.1
            · cases hstep
              exact hfinish.2
        · cases hstep
    · cases hstep
  | grow | start | crash => cases hstep

theorem Tailed.grow (h : Tailed source run) (bytes : List UInt8) :
    Tailed source { run with file := run.file ++ bytes } where
  cursor := by
    obtain ⟨raw, hcovers⟩ := h.cursor
    exact ⟨raw, hcovers.read.grow bytes, hcovers.epoch, hcovers.covered, hcovers.merged⟩
  down := h.down
  up process hprocess := by
    obtain ⟨base, before, raw, htails⟩ := h.up process hprocess
    exact ⟨base, before, raw, htails.published, htails.epoch, htails.stored, htails.settled,
      htails.merged, htails.consistent, htails.unused, htails.standing.grow bytes⟩

theorem Tailed.step {op : TailOp σ} (h : Tailed source run) (hsafe : StepSafe run op)
    (hstep : step source run op = some run') : Tailed source run' := by
  cases hprocess : run.process with
  | none =>
    cases op with
    | grow bytes =>
      cases hstep
      exact h.grow bytes
    | start adapter =>
      simp only [TailRun.step, hprocess] at hstep
      cases hstep
      exact h.start hprocess adapter
    | crash | poll | normalize | publish | publication | append | flush | finish =>
      simp [TailRun.step, hprocess] at hstep
  | some process =>
    cases op with
    | grow bytes =>
      cases hstep
      exact h.grow bytes
    | start => simp [TailRun.step, hprocess] at hstep
    | crash =>
      simp only [TailRun.step, hprocess] at hstep
      cases hstep
      obtain ⟨raw, hcovers⟩ := h.cursor
      refine ⟨⟨raw, hcovers.read, hcovers.epoch, hcovers.covered, hcovers.merged⟩,
        fun _ => hsafe, fun process hprocess => nomatch hprocess⟩
    | poll | normalize | publish | publication | append | flush | finish =>
      simp only [TailRun.step, hprocess] at hstep
      exact h.processStep hprocess hsafe hstep

theorem Tails.ordered (h : Tails source run process base before raw) (events : List StreamEvent) :
    ∃ rest, MergesDeltas (source.stampAll 0 (raw ++ events)) (run.store ++ rest) := by
  let publication := process.publication
  let coming := source.stampAll process.runEpoch events
  have hsplit : source.stampAll 0 (raw ++ events)
      = before ++ publication.passed ++ (publication.pending ++ coming) := by
    have hordered := h.consistent.ordered
    rw [source.stampAll_append, h.published, h.epoch, hordered]
    simp [publication, coming]
  let rest := process.unsettled ++ publication.batch ++ publication.coalescer.buffer
    ++ (publication.pending ++ coming)
  have hstored : run.store ++ rest = base ++ (publication.emitted ++ publication.batch ++ publication.coalescer.buffer)
        ++ (publication.pending ++ coming) := by
    rw [h.stored]
    simp only [rest, TailProcess.unsettled, List.append_assoc]
    rw [← List.append_assoc (List.take _ _), List.take_append_drop]
  refine ⟨rest, ?_⟩
  rw [hstored, hsplit]
  apply Merges.append_right
  exact (h.merged.append_right _).trans (h.consistent.merged.append_left _)

theorem Tailed.exactlyOnce (h : Tailed source run) : run.ExactlyOnce source where
  ordered := by
    cases hprocess : run.process with
    | none =>
      obtain ⟨raw, hcovers⟩ := h.cursor
      obtain ⟨done, hdone, hnormalizes⟩ := hcovers.read.ordered
      have hmerged := hcovers.merged
      rw [← h.down hprocess, List.take_length] at hmerged
      exact ⟨done, raw, [], hdone, hnormalizes, by rwa [List.append_nil]⟩
    | some process =>
      obtain ⟨base, before, raw, htails⟩ := h.up process hprocess
      have hread : ∃ upTo left events, ReadUpTo source run.file upTo left (raw ++ events) := by
        have hstanding := htails.standing
        cases hphase : process.phase with
        | idle =>
          rw [hphase] at hstanding
          exact ⟨_, _, [], by rw [List.append_nil]; exact hstanding.2.2⟩
        | publishing lines events =>
          rw [hphase] at hstanding
          exact ⟨_, _, events, hstanding⟩
        | flushing =>
          rw [hphase] at hstanding
          exact ⟨_, _, [], by rw [List.append_nil]; exact hstanding.2⟩
      obtain ⟨upTo, left, events, hread⟩ := hread
      obtain ⟨done, hdone, hnormalizes⟩ := hread.ordered
      obtain ⟨rest, hmerges⟩ := htails.ordered events
      exact ⟨done, raw ++ events, rest, hdone, hnormalizes, hmerges⟩
  complete := by
    rintro ⟨process, hprocess, hidle, hnone⟩
    obtain ⟨base, before, raw, htails⟩ := h.up process hprocess
    have hstanding := htails.standing
    rw [hidle] at hstanding
    obtain ⟨hquiet, hsettled, hread⟩ := hstanding
    exact ⟨raw, hread.complete hnone, htails.settles hquiet hsettled⟩

end

end TailRun

open TailRun

private def oneEventSource : TranscriptSource Unit Unit where
  loads _ := some ()
  normalizeLine _ _ _ := (some [{ type := .status }], ())
  redactEvent event := event
  window := 60

private def storedLine : List (TailOp Unit) :=
  [.start (), .poll 100, .normalize, .publish 101, .append true]

private def savedOps : List (TailOp Unit) :=
  .grow [97, newline] :: storedLine ++ [.flush 102, .finish true, .crash, .start (), .poll 200,
    .finish true]

private theorem normalizes_length {lines : List Unit} {events : List StreamEvent}
    (h : oneEventSource.Normalizes lines events) : events.length = lines.length := by
  induction h with
  | nil => rfl
  | snoc _ line adapter ctxEpoch ih =>
    rw [List.length_append, List.length_append, ih]
    rfl

end ClaudeHub
