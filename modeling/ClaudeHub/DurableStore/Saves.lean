import ClaudeHub.DurableStore.Store

/-! # Saves of a durable store and crashes between them

Where nothing else writes the primary, it holds a saved payload whole at every point of a
run, so a load after a crash reads one and never has anything to recover.
-/

namespace ClaudeHub

/-- What is loaded was committed or was being saved, and nothing committed is lost. -/
def StoreLoad.Faithful (load : StoreLoad) : Prop :=
  (load.data = load.saved ∨ ∃ text, load.inFlight = some text ∧ load.data = some text) ∧
    (load.saved.isSome → load.data.isSome)

def StoreOp.Corrupts : StoreOp → Prop
  | .corrupt _ => True
  | _ => False

namespace StoreRun

section

variable (run : StoreRun) (content : FileContent) (phase : Nat → StorePhase)

@[simp] theorem read_live_writeTemp (file : StoreFile) :
    (run.writeTemp content phase).files.read (.live file) = run.files.read (.live file) := by
  simp [writeTemp, Directory.read_write]

@[simp] theorem read_temp_writeTemp :
    (run.writeTemp content phase).files.read (.temp run.nextTemp) = some content := by
  simp [writeTemp, Directory.read_write]

end

/-- What the primary holds while nothing else writes it, by where the save stands. -/
def Written (valid : String → Bool) (run : StoreRun) : StorePhase → Prop
  | .down => run.primary = run.saved.map .text ∨
      ∃ text, run.inFlight = some text ∧ valid text = true ∧ run.primary = some (.text text)
  | .up => run.primary = run.saved.map .text
  | .rotating text _ =>
    run.primary = run.saved.map .text ∧ run.inFlight = some text ∧ valid text = true ∧
      run.primary.isSome
  | .writing text =>
    run.primary = run.saved.map .text ∧ run.inFlight = some text ∧ valid text = true
  | .replacing text temp =>
    run.primary = run.saved.map .text ∧ run.inFlight = some text ∧ valid text = true ∧
      run.files.read (.temp temp) = some (.text text)
  | .syncing text =>
    run.primary = some (.text text) ∧ run.inFlight = some text ∧ valid text = true
  | _ => False

/-- The invariant of a store that nothing else writes. -/
structure Sound (valid : String → Bool) (run : StoreRun) : Prop where
  savedValid : ∀ text, run.saved = some text → valid text = true
  backed : run.backup.isSome → run.primary.isSome
  written : run.Written valid run.phase
  faithful : ∀ load ∈ run.loads, load.Faithful

theorem sound_init (valid : String → Bool) : Sound valid {} where
  savedValid := by simp
  backed := by simp [backup]
  written := .inl rfl
  faithful := by simp

variable {valid : String → Bool} {run run' : StoreRun}

theorem Sound.returns {data : Option String} {source : LoadSource} (h : Sound valid run)
    (hprimary : run.primary = data.map .text)
    (hvalid : ∀ text, data = some text → valid text = true)
    (hload : StoreLoad.Faithful ⟨data, source, run.saved, run.inFlight⟩) :
    Sound valid (run.returns data source) where
  savedValid := hvalid
  backed := h.backed
  written := hprimary
  faithful load hload' := by
    rcases List.mem_append.mp hload' with hold | hnew
    · exact h.faithful load hold
    · obtain rfl := List.mem_singleton.mp hnew
      exact hload

theorem Sound.load (h : Sound valid run) (hphase : run.phase = .down) (timestamp : Time) :
    Sound valid (loadDurableJson valid run timestamp) := by
  have hwritten : run.Written valid .down := hphase ▸ h.written
  cases hprimary : run.primary with
  | none =>
    have hsaved : run.saved = none := by
      rcases hwritten with heq | ⟨text, -, -, heq⟩
      · rw [hprimary] at heq
        exact Option.map_eq_none_iff.mp heq.symm
      · rw [hprimary] at heq
        exact nomatch heq
    have hbackup : run.backup = none := by
      have hnot := mt h.backed
      rw [hprimary] at hnot
      simpa using hnot
    simp only [loadDurableJson, hprimary, hbackup]
    refine h.returns hprimary (by simp) ⟨.inl hsaved.symm, ?_⟩
    rw [hsaved]
    exact fun hsome => hsome
  | some content =>
    have hcontent : ∃ text, content = .text text ∧ valid text = true ∧
        (run.saved = some text ∨ run.inFlight = some text) := by
      rcases hwritten with heq | ⟨text, hflight, hvalid, heq⟩
      · rw [hprimary] at heq
        obtain ⟨text, hsaved, htext⟩ := Option.map_eq_some_iff.mp heq.symm
        exact ⟨text, htext.symm, h.savedValid text hsaved, .inl hsaved⟩
      · rw [hprimary] at heq
        exact ⟨text, Option.some.inj heq, hvalid, .inr hflight⟩
    obtain ⟨text, rfl, hvalid, hfrom⟩ := hcontent
    simp only [loadDurableJson, hprimary, FileContent.payload?, hvalid, if_true]
    refine h.returns hprimary (by simpa using hvalid) ⟨?_, fun _ => rfl⟩
    rcases hfrom with hsaved | hflight
    · exact .inl hsaved.symm
    · exact .inr ⟨text, hflight, rfl⟩

variable {text : String}

theorem saveStateText_of_missing (h : run.primary = none) :
    run.saveStateText text = { run with inFlight := some text, phase := .writing text } := by
  unfold saveStateText
  dsimp only
  rw [show ({ run with inFlight := some text } : StoreRun).primary = none from h]

theorem saveStateText_of_present {content : FileContent} (h : run.primary = some content) :
    run.saveStateText text =
      ({ run with inFlight := some text } : StoreRun).writeTemp content (.rotating text) := by
  unfold saveStateText
  dsimp only
  rw [show ({ run with inFlight := some text } : StoreRun).primary = some content from h]

theorem Sound.save (h : Sound valid run) (hphase : run.phase = .up) (hvalid : valid text = true) :
    Sound valid (run.saveStateText text) := by
  have hwritten : run.Written valid .up := hphase ▸ h.written
  cases hprimary : run.primary with
  | none =>
    rw [saveStateText_of_missing hprimary]
    exact ⟨h.savedValid, h.backed, ⟨hwritten, rfl, hvalid⟩, h.faithful⟩
  | some content =>
    rw [saveStateText_of_present hprimary]
    have hread : ∀ file, (({ run with inFlight := some text } : StoreRun).writeTemp content
        (.rotating text)).files.read (.live file) = run.files.read (.live file) :=
      read_live_writeTemp _ content _
    refine ⟨h.savedValid, ?_, ⟨(hread .primary).trans hwritten, rfl, hvalid, ?_⟩, h.faithful⟩
    · intro _
      exact Option.isSome_of_eq_some ((hread .primary).trans hprimary)
    · exact Option.isSome_of_eq_some ((hread .primary).trans hprimary)

theorem Sound.advance {ok : Bool} (h : Sound valid run)
    (hstep : advance valid run ok = some run') : Sound valid run' := by
  have hwritten := h.written
  cases hphase : run.phase with
  | rotating =>
    rw [hphase] at hwritten
    obtain ⟨hprimary, hflight, hvalid, hsome⟩ := hwritten
    have hread : run'.primary = run.primary := by
      simp only [StoreRun.advance, hphase, Option.some.injEq] at hstep
      subst hstep
      cases ok
      · exact Directory.read_remove _ _ _
      · exact Directory.read_move_other _ (by simp) (by simp)
    simp only [StoreRun.advance, hphase, Option.some.injEq] at hstep
    subst hstep
    exact ⟨h.savedValid, fun _ => hread ▸ hsome, ⟨hread.trans hprimary, hflight, hvalid⟩,
      h.faithful⟩
  | writing text =>
    rw [hphase] at hwritten
    obtain ⟨hprimary, hflight, hvalid⟩ := hwritten
    simp only [StoreRun.advance, hphase, Option.some.injEq] at hstep
    subst hstep
    have hread := read_live_writeTemp run (.text text) (.replacing text)
    refine ⟨h.savedValid, ?_, ⟨(hread .primary).trans hprimary, hflight, hvalid, ?_⟩,
      h.faithful⟩
    · intro hbackup
      have hsome := h.backed
        ((congrArg Option.isSome (hread .backup)).symm.trans hbackup)
      exact (congrArg Option.isSome (hread .primary)).trans hsome
    · exact read_temp_writeTemp run (.text text) (.replacing text)
  | replacing =>
    rw [hphase] at hwritten
    obtain ⟨hprimary, hflight, hvalid, htemp⟩ := hwritten
    simp only [StoreRun.advance, hphase, Option.some.injEq] at hstep
    subst hstep
    have hread := Directory.read_move_target (.live .primary) htemp
    exact ⟨h.savedValid, fun _ => Option.isSome_of_eq_some hread, ⟨hread, hflight, hvalid⟩,
      h.faithful⟩
  | syncing =>
    rw [hphase] at hwritten
    obtain ⟨hprimary, hflight, hvalid⟩ := hwritten
    simp only [StoreRun.advance, hphase, Option.some.injEq] at hstep
    subst hstep
    exact ⟨by simpa using hvalid, h.backed, hprimary, h.faithful⟩
  | down => simp [StoreRun.advance, hphase] at hstep
  | up => simp [StoreRun.advance, hphase] at hstep
  | movingPrimary | movingBackup | restoring | restored | movingMarker | marking | marked =>
    rw [hphase] at hwritten
    exact hwritten.elim

theorem Sound.crash (h : Sound valid run) : Sound valid { run with phase := .down } := by
  refine ⟨h.savedValid, h.backed, ?_, h.faithful⟩
  have hwritten := h.written
  cases hphase : run.phase with
  | down =>
    rw [hphase] at hwritten
    exact hwritten
  | up =>
    rw [hphase] at hwritten
    exact .inl hwritten
  | syncing text =>
    rw [hphase] at hwritten
    exact .inr ⟨text, hwritten.2.1, hwritten.2.2, hwritten.1⟩
  | rotating | writing | replacing =>
    rw [hphase] at hwritten
    exact .inl hwritten.1
  | movingPrimary | movingBackup | restoring | restored | movingMarker | marking | marked =>
    rw [hphase] at hwritten
    exact hwritten.elim

theorem Sound.step {op : StoreOp} (h : Sound valid run) (hop : ¬ op.Corrupts)
    (hstep : step valid run op = some run') : Sound valid run' := by
  cases op with
  | load timestamp =>
    obtain ⟨hphase, rfl⟩ : run.phase = .down ∧ loadDurableJson valid run timestamp = run' := by
      simpa [StoreRun.step] using hstep
    exact h.load hphase timestamp
  | save text =>
    obtain ⟨⟨hphase, hvalid⟩, rfl⟩ :
        (run.phase = .up ∧ valid text = true) ∧ run.saveStateText text = run' := by
      simpa [StoreRun.step] using hstep
    exact h.save hphase hvalid
  | advance => exact h.advance hstep
  | crash =>
    obtain ⟨-, rfl⟩ : run.phase ≠ .down ∧ { run with phase := .down } = run' := by
      simpa [StoreRun.step] using hstep
    exact h.crash
  | corrupt => exact (hop trivial).elim

theorem sound_of_run {ops : List StoreOp} {ok : StoreRun → StoreOp → Prop}
    (hok : ∀ run op, ok run op → ¬ op.Corrupts)
    (hrun : StepSystem.Run (StoreRun.step valid) ok {} ops run) : Sound valid run :=
  hrun.invariant (sound_init valid) fun _ _ _ h hop hstep => h.step (hok _ _ hop) hstep

end StoreRun

end ClaudeHub
