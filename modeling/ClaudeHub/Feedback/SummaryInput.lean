import ClaudeHub.Lib.Runs
import Mathlib.Logic.Function.Basic

/-! # Feedback records and the runs that consume them

A summary run is prepared from the records on disk, what is left of its selection is staged, and the
stage is committed to the index of processed records when the run has succeeded, perhaps late and
perhaps again. Which records a run selects is left open.
-/

namespace ClaudeHub

open StepSystem

abbrev RecordPath := String

abbrev SummaryRunId := String

structure RecordFile where
  sha256 : String
  write : Nat
  deriving DecidableEq

/-- What `prepare_summary_input` leaves with its caller. -/
structure SummaryInput where
  recordPaths : RecordPath → Bool
  selectedDumps : RecordPath → Option RecordFile

structure SummaryStage where
  recordPaths : RecordPath → Bool
  committedPaths : List RecordPath
  selectedDumps : RecordPath → Option RecordFile

namespace SummaryStage

def commits (stage : SummaryStage) (path : RecordPath) : Option RecordFile :=
  if path ∈ stage.committedPaths then stage.selectedDumps path else none

end SummaryStage

structure FeedbackStore where
  files : RecordPath → Option RecordFile := fun _ => none
  /-- `processed_task_records` by their paths. -/
  index : RecordPath → Option RecordFile := fun _ => none
  prepared : SummaryRunId → Option SummaryInput := fun _ => none
  stages : SummaryRunId → Option SummaryStage := fun _ => none
  writes : Nat := 0
  committed : List SummaryStage := []

inductive FeedbackOp
  | writeRecord (path : RecordPath) (sha256 : String)
  | removeRecord (path : RecordPath)
  | prepare (run : SummaryRunId) (selects : List RecordPath)
  /-- What is left of the selection once the prompt has no more room. -/
  | stage (run : SummaryRunId) (kept : List RecordPath)
  | commitStaged (run : SummaryRunId)
  | discardStaged (run : SummaryRunId)
  | abandon (run : SummaryRunId)

namespace FeedbackStore

def writeRecord (store : FeedbackStore) (path : RecordPath) (sha256 : String) : FeedbackStore :=
  { store with
    files := Function.update store.files path (some ⟨sha256, store.writes⟩)
    writes := store.writes + 1 }

def prepareSummaryInput (store : FeedbackStore) (selects : List RecordPath) : SummaryInput where
  recordPaths path := (store.files path).isSome
  selectedDumps path := if path ∈ selects then store.files path else none

def stageSummaryInput (store : FeedbackStore) (run : SummaryRunId) (input : SummaryInput)
    (committedPaths : List RecordPath) : FeedbackStore :=
  { store with
    stages := Function.update store.stages run (some
      { recordPaths := input.recordPaths
        committedPaths := committedPaths
        selectedDumps := fun path =>
          if path ∈ committedPaths then input.selectedDumps path else none }) }

/-- `commit_summary_input`: the index with the entries of a stage, for the paths that were there when
the run was prepared. -/
def commitSummaryInput (store : FeedbackStore) (stage : SummaryStage) : FeedbackStore :=
  { store with
    index := fun path =>
      if stage.recordPaths path then (stage.commits path).or (store.index path) else none
    committed := store.committed ++ [stage] }

def discardStagedSummaryInput (store : FeedbackStore) (run : SummaryRunId) : FeedbackStore :=
  { store with stages := Function.update store.stages run none }

def step (store : FeedbackStore) : FeedbackOp → Option FeedbackStore
  | .writeRecord path sha256 => some (store.writeRecord path sha256)
  | .removeRecord path => some { store with files := Function.update store.files path none }
  | .prepare run selects =>
    if (store.prepared run).isSome then none
    else some { store with
      prepared := Function.update store.prepared run (some (store.prepareSummaryInput selects)) }
  | .stage run kept =>
    match store.prepared run with
    | none => none
    | some input =>
      if kept.all fun path => (input.selectedDumps path).isSome then
        some (store.stageSummaryInput run input kept)
      else none
  | .commitStaged run =>
    match store.stages run with
    | none => some store
    | some stage => some (store.commitSummaryInput stage)
  | .discardStaged run | .abandon run => some (store.discardStagedSummaryInput run)

/-! ## Marks -/

/-- A committed run had the record in its committed paths, as it read it. -/
def Consumed (store : FeedbackStore) (path : RecordPath) (record : RecordFile) : Prop :=
  ∃ stage ∈ store.committed, stage.commits path = some record

/-- The index has the present content of the record. -/
def Marked (store : FeedbackStore) (path : RecordPath) : Prop :=
  ∃ record entry, store.files path = some record ∧ store.index path = some entry ∧
    entry.sha256 = record.sha256

/-- A marked record was there when the run was prepared, and if the run has it as well, the run read
what it has now. -/
def Undisturbed (store : FeedbackStore) : FeedbackOp → Prop
  | .commitStaged run => ∀ stage path, store.stages run = some stage → store.Marked path →
      stage.recordPaths path = true ∧ ∀ entry record, stage.commits path = some entry →
        store.files path = some record → entry.sha256 = record.sha256
  | _ => True

def EntriesOk (writes : Nat) (recordPaths : RecordPath → Bool)
    (entries : RecordPath → Option RecordFile) : Prop :=
  ∀ path entry, entries path = some entry → recordPaths path = true ∧ entry.write < writes

structure Inv (store : FeedbackStore) : Prop where
  files : ∀ path record, store.files path = some record → record.write < store.writes
  prepared : ∀ run input, store.prepared run = some input →
    EntriesOk store.writes input.recordPaths input.selectedDumps
  stages : ∀ run stage, store.stages run = some stage →
    EntriesOk store.writes stage.recordPaths stage.commits
  consumed : ∀ path record, store.Consumed path record → record.write < store.writes
  indexed : ∀ path entry, store.index path = some entry → store.Consumed path entry
  marks : ∀ path record, store.files path = some record → store.Consumed path record →
    store.Marked path

variable {store next : FeedbackStore} {run : SummaryRunId} {path : RecordPath}
  {stage : SummaryStage} {input : SummaryInput}

theorem inv_init : Inv {} where
  files := nofun
  prepared := nofun
  stages := nofun
  consumed := by simp [Consumed]
  indexed := nofun
  marks := nofun

theorem EntriesOk.mono {recordPaths : RecordPath → Bool} {entries : RecordPath → Option RecordFile}
    {writes : Nat} (h : EntriesOk writes recordPaths entries) :
    EntriesOk (writes + 1) recordPaths entries :=
  fun path entry hentry => ⟨(h path entry hentry).1, Nat.lt_succ_of_lt (h path entry hentry).2⟩

theorem update_some {κ ν : Type} [DecidableEq κ] {f : κ → Option ν} {a b : κ} {v : Option ν} {x : ν}
    (h : Function.update f a v b = some x) : (b = a ∧ v = some x) ∨ (b ≠ a ∧ f b = some x) := by
  by_cases hsame : b = a
  · subst hsame
    rw [Function.update_self] at h
    exact .inl ⟨rfl, h⟩
  · rw [Function.update_of_ne hsame] at h
    exact .inr ⟨hsame, h⟩

theorem Inv.writeRecord (h : store.Inv) (sha256 : String) :
    (store.writeRecord path sha256).Inv where
  files other record hfile := by
    rcases update_some hfile with ⟨-, hnew⟩ | ⟨-, hold⟩
    · cases hnew
      exact Nat.lt_succ_self _
    · exact Nat.lt_succ_of_lt (h.files other record hold)
  prepared run input hprepared := (h.prepared run input hprepared).mono
  stages run stage hstage := (h.stages run stage hstage).mono
  consumed other record hconsumed := Nat.lt_succ_of_lt (h.consumed other record hconsumed)
  indexed := h.indexed
  marks other record hfile hconsumed := by
    have hbefore := h.consumed other record hconsumed
    rcases update_some hfile with ⟨-, hnew⟩ | ⟨hne, hold⟩
    · -- nothing committed has the content that was just written
      cases hnew
      exact absurd hbefore (Nat.lt_irrefl _)
    · obtain ⟨record', entry, hrecord, hentry, hsha⟩ := h.marks other record hold hconsumed
      cases hold.symm.trans hrecord
      exact ⟨record, entry, hfile, hentry, hsha⟩

theorem Inv.removeRecord (h : store.Inv) :
    Inv { store with files := Function.update store.files path none } := by
  have hfiles {other : RecordPath} {record : RecordFile}
      (hfile : Function.update store.files path none other = some record) :
      store.files other = some record := by
    rcases update_some hfile with ⟨-, hnew⟩ | ⟨-, hold⟩
    · cases hnew
    · exact hold
  refine ⟨fun other record hfile => h.files other record (hfiles hfile), h.prepared, h.stages,
    h.consumed, h.indexed, fun other record hfile hconsumed => ?_⟩
  obtain ⟨record', entry, hrecord, hentry, hsha⟩ := h.marks other record (hfiles hfile) hconsumed
  cases (hfiles hfile).symm.trans hrecord
  exact ⟨record, entry, hfile, hentry, hsha⟩

theorem Inv.prepare (h : store.Inv) (selects : List RecordPath) :
    Inv { store with prepared :=
      Function.update store.prepared run (some (store.prepareSummaryInput selects)) } := by
  refine { h with prepared := fun other input hinput => ?_ }
  rcases update_some hinput with ⟨-, hnew⟩ | ⟨-, hold⟩
  · cases hnew
    intro path entry hentry
    have hfile : store.files path = some entry := by
      unfold prepareSummaryInput at hentry
      dsimp only at hentry
      split at hentry
      · exact hentry
      · cases hentry
    exact ⟨Option.isSome_of_mem hfile, h.files path entry hfile⟩
  · exact h.prepared other input hold

theorem Inv.stageInput (h : store.Inv) (hinput : store.prepared run = some input)
    (kept : List RecordPath) : (store.stageSummaryInput run input kept).Inv := by
  refine { h with stages := fun other stage hstage => ?_ }
  rcases update_some hstage with ⟨-, hnew⟩ | ⟨-, hold⟩
  · cases hnew
    intro path entry hentry
    refine h.prepared run input hinput path entry ?_
    unfold SummaryStage.commits at hentry
    split at hentry
    next hkept => exact (if_pos hkept).symm.trans hentry
    · cases hentry
  · exact h.stages other stage hold

theorem Inv.discard (h : store.Inv) : (store.discardStagedSummaryInput run).Inv := by
  refine { h with stages := fun other stage hstage => ?_ }
  rcases update_some hstage with ⟨-, hnew⟩ | ⟨-, hold⟩
  · cases hnew
  · exact h.stages other stage hold

theorem consumed_commit (store : FeedbackStore) (stage : SummaryStage) (path : RecordPath)
    (record : RecordFile) : (store.commitSummaryInput stage).Consumed path record ↔
      store.Consumed path record ∨ stage.commits path = some record := by
  unfold Consumed commitSummaryInput
  simp [or_and_right, exists_or]

theorem Inv.commit (h : store.Inv) (hstage : store.stages run = some stage)
    (hok : store.Undisturbed (.commitStaged run)) : (store.commitSummaryInput stage).Inv := by
  have hentries := h.stages run stage hstage
  refine ⟨h.files, h.prepared, h.stages, fun path record hconsumed => ?_,
    fun path entry hindex => ?_, fun path record hfile hconsumed => ?_⟩
  · rcases (consumed_commit store stage path record).mp hconsumed with hold | hnew
    · exact h.consumed path record hold
    · exact (hentries path record hnew).2
  · refine (consumed_commit store stage path entry).mpr ?_
    unfold commitSummaryInput at hindex
    dsimp only at hindex
    split at hindex
    · rcases Option.or_eq_some_iff.mp hindex with hnew | ⟨-, hold⟩
      · exact .inr hnew
      · exact .inl (h.indexed path entry hold)
    · cases hindex
  · rcases (consumed_commit store stage path record).mp hconsumed with hold | hnew
    · have hmarked := h.marks path record hfile hold
      obtain ⟨hthere, hread⟩ := hok stage path hstage hmarked
      obtain ⟨record', entry, hrecord, hentry, hsha⟩ := hmarked
      cases hfile.symm.trans hrecord
      cases hcommits : stage.commits path with
      | none =>
        exact ⟨record, entry, hfile, by simp [commitSummaryInput, hthere, hcommits, hentry], hsha⟩
      | some own =>
        exact ⟨record, own, hfile, by simp [commitSummaryInput, hthere, hcommits],
          hread own record hcommits hfile⟩
    · have hthere := (hentries path record hnew).1
      exact ⟨record, record, hfile, by simp [commitSummaryInput, hthere, hnew], rfl⟩

theorem Inv.step {op : FeedbackOp} (h : store.Inv) (hok : store.Undisturbed op)
    (hstep : store.step op = some next) : next.Inv := by
  cases op with
  | writeRecord path sha256 =>
    cases hstep
    exact h.writeRecord sha256
  | removeRecord =>
    cases hstep
    exact h.removeRecord
  | prepare run selects =>
    obtain ⟨-, rfl⟩ := by simpa [FeedbackStore.step] using hstep
    exact h.prepare selects
  | stage run kept =>
    simp only [FeedbackStore.step] at hstep
    split at hstep
    · cases hstep
    next input hinput =>
      split at hstep
      · cases hstep
        exact h.stageInput hinput kept
      · cases hstep
  | commitStaged =>
    simp only [FeedbackStore.step] at hstep
    split at hstep
    · cases hstep
      exact h
    next stage hstage =>
      cases hstep
      exact h.commit hstage hok
  | discardStaged =>
    cases hstep
    exact h.discard
  | abandon =>
    cases hstep
    exact h.discard

theorem commit_again (store : FeedbackStore) (stage : SummaryStage) :
    ((store.commitSummaryInput stage).commitSummaryInput stage).index =
      (store.commitSummaryInput stage).index := by
  funext path
  simp only [commitSummaryInput]
  split
  · cases stage.commits path <;> rfl
  · rfl

/-- Where at each commit the marked records were there when the run was prepared, and the run read
what they have now, a record that is present and unchanged is marked if and only if a committed run
had it. -/
theorem records_marked_by_committed_runs (ops : List FeedbackOp) (store : FeedbackStore)
    (hrun : Run step Undisturbed {} ops store) :
    (∀ path record, store.files path = some record →
      (store.Consumed path record → store.Marked path) ∧
        (store.Marked path →
          ∃ earlier, earlier.sha256 = record.sha256 ∧ store.Consumed path earlier)) ∧
    ∀ stage, ((store.commitSummaryInput stage).commitSummaryInput stage).index =
      (store.commitSummaryInput stage).index := by
  have hinv : store.Inv := hrun.invariant inv_init fun _ _ _ h hok hstep => h.step hok hstep
  refine ⟨fun path record hfile => ⟨hinv.marks path record hfile, fun hmarked => ?_⟩,
    store.commit_again⟩
  obtain ⟨record', entry, hrecord, hentry, hsha⟩ := hmarked
  cases hfile.symm.trans hrecord
  exact ⟨entry, hsha, hinv.indexed path entry hentry⟩

/-- A run that is committed late, when another record has come. -/
theorem records_marked_by_late_run : ∃ store, exec step {}
      [.writeRecord "a" "x", .prepare "r1" ["a"], .stage "r1" ["a"], .writeRecord "b" "y",
        .commitStaged "r1"] = some store ∧ store.Marked "a" := by
  have hnone (path : RecordPath) (store : FeedbackStore) (h : store.index = fun _ => none) :
      ¬ store.Marked path := by
    rintro ⟨record, entry, -, hentry, -⟩
    rw [h] at hentry
    cases hentry
  have hrun : Run step Undisturbed {} [.writeRecord "a" "x", .prepare "r1" ["a"],
      .stage "r1" ["a"], .writeRecord "b" "y", .commitStaged "r1"] _ :=
    .cons trivial rfl (.cons trivial rfl (.cons trivial rfl (.cons trivial rfl
      (.cons (fun _ path _ hmarked => absurd hmarked (hnone path _ rfl)) rfl (.nil _)))))
  have hmarks := (records_marked_by_committed_runs _ _ hrun).1 "a" ⟨"x", 0⟩ rfl
  exact ⟨_, hrun.exec_eq, hmarks.1 ⟨_, List.mem_singleton_self _, rfl⟩⟩

/-- The older of two runs is committed last and takes the mark of a record that came between. -/
theorem records_unmarked_by_older_run : ¬ ∀ ops store, exec step {} ops = some store →
    ∀ path record, store.files path = some record → store.Consumed path record →
      store.Marked path := by
  intro h
  obtain ⟨record, entry, -, hentry, -⟩ := h [.writeRecord "a" "x", .prepare "r1" ["a"],
    .stage "r1" ["a"], .writeRecord "b" "y", .prepare "r2" ["b"], .stage "r2" ["b"],
    .commitStaged "r2", .commitStaged "r1"] _ rfl "b" ⟨"y", 1⟩ rfl
    ⟨_, List.mem_cons_self .., rfl⟩
  exact absurd (hentry.symm.trans rfl) (Option.some_ne_none entry)

end FeedbackStore

end ClaudeHub
