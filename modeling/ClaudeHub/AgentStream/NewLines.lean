import ClaudeHub.AgentStream.Tailing

/-! # Reading new lines

One call takes the size of a growing file and then reads that far from the stored offset. What is
no line yet is left to the next call. A line whose reading raises an exception that is not caught
ends the call before anything is stored.
-/

namespace ClaudeHub.NewLines

open StepSystem

/-- What `json.loads` makes of a line that it does not skip. -/
inductive Loaded (ρ : Type)
  | object (record : ρ)
  /-- A `RecursionError`, or the `ValueError` of a long integer. -/
  | raised
  deriving DecidableEq

def Loaded.object? {ρ : Type} : Loaded ρ → Option ρ
  | object record => some record
  | raised => none

def objects {ρ : Type} (loaded : List (Loaded ρ)) : List ρ := loaded.filterMap Loaded.object?

structure Stat where
  inode : Nat
  size : Nat
  deriving DecidableEq

variable {σ ρ : Type} (source : TranscriptSource σ (Loaded ρ))

/-- `_read_new_lines` after its `stat`: the records, the new offset, the inode and whether the
file is rotated; nothing where it raises. -/
def readNewLines (selfInode : Option Nat) (selfOffset : Nat) (stat : Stat) (file : List UInt8) :
    Option (List ρ × Nat × Nat × Bool) :=
  if selfInode.any (· ≠ stat.inode) then some ([], 0, stat.inode, true)
  else if stat.size < selfOffset then some ([], 0, stat.inode, true)
  else if stat.size = selfOffset then some ([], selfOffset, stat.inode, false)
  else
    let complete := completeLines ((file.drop selfOffset).take (stat.size - selfOffset))
    let loaded := source.records complete
    if loaded.all fun line => line.object?.isSome then
      some (objects loaded, selfOffset + complete.length, stat.inode, false)
    else none

/-- A file that is appended to, with what its reader stores, has returned and has under way. -/
structure ReadRun (ρ : Type) where
  file : List UInt8 := []
  fileInode : Nat := 0
  inode : Option Nat := none
  offset : Nat := 0
  stat : Option Stat := none
  returned : List ρ := []
  raised : Bool := false
  deriving DecidableEq

inductive ReadOp
  | grow (bytes : List UInt8)
  | stat
  /-- The rest of the call, and the storing of its offset and inode. -/
  | read

def ReadRun.step (run : ReadRun ρ) : ReadOp → Option (ReadRun ρ)
  | .grow bytes => some { run with file := run.file ++ bytes }
  | .stat => some { run with stat := some ⟨run.fileInode, run.file.length⟩ }
  | .read => run.stat.map fun stat =>
    match readNewLines source run.inode run.offset stat run.file with
    | none => { run with stat := none, raised := true }
    | some (lines, offset, inode, _) =>
      { run with
        stat := none, offset := offset, inode := some inode, returned := run.returned ++ lines }

/-- No complete line makes the reading raise. -/
def Loads (file : List UInt8) : Prop := .raised ∉ source.records (completeLines file)

variable {source} {run next : ReadRun ρ} {op : ReadOp}

theorem objects_append (front back : List (Loaded ρ)) :
    objects (front ++ back) = objects front ++ objects back := List.filterMap_append

structure Inv (source : TranscriptSource σ (Loaded ρ)) (run : ReadRun ρ) : Prop where
  inode : ∀ inode ∈ run.inode, inode = run.fileInode
  stat : ∀ stat ∈ run.stat, stat.inode = run.fileInode ∧ run.offset ≤ stat.size ∧
    stat.size ≤ run.file.length
  offset : run.offset ≤ run.file.length
  lineEnd : LineEnd (run.file.take run.offset)
  quiet : .raised ∉ source.records (run.file.take run.offset)
  returned : run.returned = objects (source.records (run.file.take run.offset))
  raised : run.raised = true → ¬ Loads source run.file

theorem records_mono {front file : List UInt8} (h : front <+: file) :
    source.records (completeLines front) <+: source.records (completeLines file) := by
  obtain ⟨back, rfl⟩ := (prefix_completeLines front).trans h
  rw [(lineEnd_completeLines front).completeLines_append,
    source.records_append (lineEnd_completeLines front)]
  exact List.prefix_append _ _

theorem completeLines_take {file : List UInt8} {offset size : Nat} (hoffset : offset ≤ size)
    (hend : LineEnd (file.take offset)) : file.take offset ++
      completeLines ((file.drop offset).take (size - offset)) = completeLines (file.take size) := by
  rw [← hend.completeLines_append, ← List.take_add, Nat.add_sub_cancel' hoffset]

theorem take_add_completeLines (file : List UInt8) (offset size : Nat) :
    file.take (offset + (completeLines ((file.drop offset).take (size - offset))).length) =
      file.take offset ++ completeLines ((file.drop offset).take (size - offset)) := by
  rw [List.take_add]
  congr 1
  have hprefix := (prefix_completeLines ((file.drop offset).take (size - offset))).trans
    (List.take_prefix _ _)
  exact (List.prefix_iff_eq_take.mp hprefix).symm

theorem Inv.readStep (h : Inv source run) {stat : Stat} (hstat : run.stat = some stat)
    (hstep : run.step source .read = some next) :
    Inv source next ∧ next.file = run.file ∧
      (next.raised = false →
        next.file.take next.offset = completeLines (run.file.take stat.size)) := by
  obtain ⟨hinode, hoffset, hsize⟩ := h.stat stat hstat
  have hsame : run.inode.any (· ≠ stat.inode) = false := by
    cases hown : run.inode with
    | none => rfl
    | some inode => simp [h.inode inode hown, hinode]
  have hseen := completeLines_take hoffset h.lineEnd
  simp only [ReadRun.step, hstat, Option.map_some, readNewLines, hsame, Nat.not_lt.mpr hoffset,
    Bool.false_eq_true, if_false, Option.some.injEq] at hstep
  have hnothing : stat.size = run.offset → run.file.take run.offset =
      completeLines (run.file.take stat.size) := fun heq => by
    simpa [heq, completeLines] using hseen
  split at hstep
  next hraise =>
    split at hraise
    · cases hraise
    · split at hraise
      · cases hraise
      next hloads =>
        subst hstep
        refine ⟨{ h with stat := by simp, raised := fun _ hfile => ?_ }, rfl, by simp⟩
        obtain ⟨line, hline, hnone⟩ : ∃ line ∈ source.records
            (completeLines ((run.file.drop run.offset).take (stat.size - run.offset))),
            line.object? = none := by simpa using hloads
        obtain rfl : line = .raised := by
          cases line with
          | object => cases hnone
          | raised => rfl
        apply hfile
        have hprefix : source.records (completeLines (run.file.take stat.size)) <+: _ :=
          records_mono (List.take_prefix stat.size run.file)
        apply hprefix.subset
        rw [← hseen, source.records_append h.lineEnd]
        exact List.mem_append_right _ hline
  next lines offset inode rotated hread =>
    subst hstep
    split at hread
    next heq =>
      cases hread
      refine ⟨{ h with inode := fun i hi => ?_, stat := by simp, returned := ?_ }, rfl,
        fun _ => hnothing heq⟩
      · exact hinode ▸ (Option.some.inj hi).symm
      · simpa using h.returned
    · split at hread
      next hloads =>
        cases hread
        have htake := take_add_completeLines run.file run.offset stat.size
        have hrecords := source.records_append h.lineEnd
          (completeLines ((run.file.drop run.offset).take (stat.size - run.offset)))
        refine ⟨⟨fun i hi => hinode ▸ (Option.some.inj hi).symm, by simp, ?_, ?_, ?_, ?_, h.raised⟩,
          rfl, fun _ => htake.trans hseen⟩
        · have hlength := (prefix_completeLines
            ((run.file.drop run.offset).take (stat.size - run.offset))).length_le
          simp only [List.length_take, List.length_drop] at hlength
          dsimp only
          omega
        · rw [htake, hseen]
          exact lineEnd_completeLines _
        · rw [htake, hrecords, List.mem_append]
          rintro (hold | hnew)
          · exact h.quiet hold
          · simpa [Loaded.object?] using List.all_eq_true.mp hloads _ hnew
        · rw [htake, hrecords, objects_append, ← h.returned]
      · cases hread

theorem Inv.step (h : Inv source run) (hstep : run.step source op = some next) :
    Inv source next := by
  cases op with
  | grow bytes =>
    cases hstep
    have htake : (run.file ++ bytes).take run.offset = run.file.take run.offset :=
      List.take_append_of_le_length h.offset
    refine ⟨h.inode, fun stat hstat => ?_, ?_, by rw [htake]; exact h.lineEnd,
      by rw [htake]; exact h.quiet, by rw [htake]; exact h.returned, fun hraised hloads => ?_⟩
    · obtain ⟨hinode, hoffset, hsize⟩ := h.stat stat hstat
      exact ⟨hinode, hoffset, by simp; omega⟩
    · exact h.offset.trans (by simp)
    · exact h.raised hraised fun hin =>
        hloads ((records_mono (List.prefix_append run.file bytes)).subset hin)
  | stat =>
    cases hstep
    exact { h with stat := fun stat hstat => by cases hstat; exact ⟨rfl, h.offset, le_rfl⟩ }
  | read =>
    obtain ⟨stat, hstat, -⟩ := Option.map_eq_some_iff.mp hstep
    exact (h.readStep hstat hstep).1

theorem inv_init (source : TranscriptSource σ (Loaded ρ)) (file : List UInt8) (inode : Nat) :
    Inv source { file := file, fileInode := inode } :=
  ⟨nofun, nofun, Nat.zero_le _, .inl rfl, by simp, by simp [objects], nofun⟩

theorem Inv.read_iff (h : Inv source run) :
    (∃ next, exec (ReadRun.step source) run [.stat, .read] = some next ∧ next.raised = false ∧
      next.returned = objects (source.records (completeLines run.file))) ↔
        Loads source run.file := by
  have hstat : Inv source { run with stat := some ⟨run.fileInode, run.file.length⟩ } :=
    h.step (rfl : run.step source .stat = some _)
  obtain ⟨next, hnext⟩ : ∃ next, ReadRun.step source
      { run with stat := some ⟨run.fileInode, run.file.length⟩ } .read = some next := ⟨_, rfl⟩
  have hexec : exec (ReadRun.step source) run [.stat, .read] = some next := by
    rw [exec_cons, ReadRun.step, Option.bind_some, exec_cons, hnext, Option.bind_some, exec_nil]
  obtain ⟨hinv, hfile, hcomplete⟩ := hstat.readStep rfl hnext
  rw [List.take_length] at hcomplete
  rw [hexec]
  constructor
  · rintro ⟨_, heq, hraised, -⟩
    cases heq
    have hquiet := hinv.quiet
    rwa [hcomplete hraised] at hquiet
  · intro hloads
    rw [Loads, ← hfile] at hloads
    have hraised := eq_false_of_ne_true fun hraised => hinv.raised hraised hloads
    exact ⟨next, rfl, hraised, by rw [hinv.returned, hcomplete hraised]⟩

/-- Whatever is appended between the calls, what they return are the objects on the lines before
the offset, which is behind a line end. The next call returns with those of all complete lines
exactly where none of them makes the reading raise. -/
theorem new_lines_read_iff (source : TranscriptSource σ (Loaded ρ)) (file : List UInt8)
    (inode : Nat) (ops : List ReadOp) (run : ReadRun ρ)
    (hrun : exec (ReadRun.step source) { file := file, fileInode := inode } ops = some run) :
    LineEnd (run.file.take run.offset) ∧
    run.returned = objects (source.records (run.file.take run.offset)) ∧
    ((∃ next, exec (ReadRun.step source) run [.stat, .read] = some next ∧ next.raised = false ∧
      next.returned = objects (source.records (completeLines run.file))) ↔
        Loads source run.file) ∧
    ∀ stat file, run.inode.any (· ≠ stat.inode) ∨ stat.size < run.offset →
      readNewLines source run.inode run.offset stat file = some ([], 0, stat.inode, true) := by
  have h : Inv source run := (Run.of_exec hrun).invariant (inv_init source file inode)
    fun _ _ _ h _ hstep => h.step hstep
  refine ⟨h.lineEnd, h.returned, h.read_iff, fun stat file hrotated => ?_⟩
  unfold readNewLines
  rcases hrotated with hother | hshrunk
  · rw [if_pos hother]
  · rw [if_pos hshrunk, ite_self]

private def nestedLine (depth : Nat) : List UInt8 := List.replicate depth 91

/-- What is nested too deeply for `json.loads`, and an empty object. -/
private def nestedSource (depth : Nat) : TranscriptSource Unit (Loaded Unit) where
  loads chunk := if chunk = nestedLine depth then some .raised
    else if chunk = [123, 125] then some (.object ()) else none
  normalizeLine _ _ _ := (some [], ())
  redactEvent event := event
  window := 60

private def halvesOps : List ReadOp :=
  [.grow [123], .stat, .grow [125], .read, .grow [newline], .stat, .read]

theorem new_lines_read_halves :
    exec (ReadRun.step (nestedSource 100000)) {} halvesOps =
      some ⟨[123, 125, newline], 0, some 0, 3, none, [()], false⟩ ∧
    ∃ next, exec (ReadRun.step (nestedSource 100000))
      ⟨[123, 125, newline], 0, some 0, 3, none, [()], false⟩ [.stat, .read] = some next ∧
      next.returned = [()] := by
  have hrun : exec (ReadRun.step (nestedSource 100000)) {} halvesOps =
      some ⟨[123, 125, newline], 0, some 0, 3, none, [()], false⟩ := by decide +kernel
  obtain ⟨-, -, hread, -⟩ := new_lines_read_iff (nestedSource 100000) [] 0 halvesOps _ hrun
  have hloads : Loads (nestedSource 100000) [123, 125, newline] := by unfold Loads; decide +kernel
  obtain ⟨next, hnext, -, hreturned⟩ := hread.mpr hloads
  have hobjects :
      objects ((nestedSource 100000).records (completeLines [123, 125, newline])) = [()] := by
    decide +kernel
  exact ⟨hrun, next, hnext, hreturned.trans hobjects⟩

private theorem nestedLine_raises (depth : Nat) :
    .raised ∈ (nestedSource (depth + 1)).records
      (completeLines (nestedLine (depth + 1) ++ [newline])) := by
  have hcomplete : completeLines (nestedLine (depth + 1) ++ [newline]) =
      nestedLine (depth + 1) ++ [newline] := by simp [completeLines]
  have hsplit : (nestedLine (depth + 1) ++ [newline]).splitOn newline =
      [nestedLine (depth + 1), []] := by
    rw [List.splitOn_eq_splitOnP,
      List.splitOnP_append_cons_of_forall_mem (by simp [nestedLine, newline]) newline (by simp),
      List.splitOnP_nil]
  have hrecord : (nestedSource (depth + 1)).record (nestedLine (depth + 1)) = some .raised := by
    have hspace : (nestedLine (depth + 1)).all isSpaceByte = false := by
      simp [nestedLine, isSpaceByte]
    rw [TranscriptSource.record, hspace]
    simp [nestedSource]
  rw [hcomplete, TranscriptSource.records, hsplit, List.filterMap_cons_some hrecord]
  exact List.mem_cons_self ..

/-- The nested line is read again at every poll, and nothing behind it ever is. -/
theorem nested_line_stops_reading :
    ¬ ∀ (source : TranscriptSource Unit (Loaded Unit)) (file : List UInt8) (ops : List ReadOp)
      (run : ReadRun Unit),
      exec (ReadRun.step source) { file := file } ops = some run →
      ∃ next, exec (ReadRun.step source) run [.stat, .read] = some next ∧ next.raised = false ∧
        next.returned = objects (source.records (completeLines run.file)) := fun hread =>
  (inv_init (nestedSource 100000) (nestedLine 100000 ++ [newline]) 0).read_iff.mp
    (hread (nestedSource 100000) (nestedLine 100000 ++ [newline]) [] _ rfl)
    (nestedLine_raises 99999)

end ClaudeHub.NewLines
