import ClaudeHub.DurableStore.Saves

/-! # What a recovery leaves behind

A load moves a corrupt primary aside, restores the backup over its name and then writes the
marker. The bytes are lost where the move failed and the primary is written over, and the
marker is missing where a crash falls after the primary was moved or restored and before the
marker was written: the next load then sees nothing wrong.
-/

namespace ClaudeHub

namespace StoreRun

def overwritten (run : StoreRun) (ok : Bool) : Option FileName :=
  match run.phase with
  | .rotating _ temp => some (if ok then .live .backup else .temp temp)
  | .replacing _ _ | .restored _ _ _ => some (.live .primary)
  | .marked _ _ => some (.live .marker)
  | _ => none

/-- A load from here that starts the store empty or from its backup goes through the marker,
or one is there already. -/
def Recoverable (valid : String → Bool) (run : StoreRun) : Prop :=
  run.detected = [] ∨ run.marker.isSome ∨
    (∃ content, run.primary = some content ∧ content.payload? valid = none) ∨
    (run.primary = none ∧ run.backup.isSome)

/-- Nothing detected is written over in its last file, and no load begins where the corrupt
primary is gone or restored already and no marker was written. -/
def StepSafe (valid : String → Bool) (run : StoreRun) : StoreOp → Prop
  | .load _ => run.Recoverable valid
  | .advance ok => ∀ name, run.overwritten ok = some name →
      ∀ content ∈ run.detected, run.files.HoldsBeside name content
  | .corrupt text => ∀ content ∈ run.detected,
      .text text = content ∨ run.files.HoldsBeside (.live .primary) content
  | _ => True

/-- The bytes of every detected corrupt primary are in some file, and a store that started
without its primary has its marker. -/
def Accounted (run : StoreRun) : Prop :=
  (∀ content ∈ run.detected, run.files.Holds content) ∧
    (run.recovered = true → run.marker.isSome)

/-- The temporary file that a phase goes on with. -/
def Pending (files : Directory FileName FileContent) : StorePhase → Prop
  | .rotating _ temp | .replacing _ temp | .restored _ _ temp =>
    ∃ content, files.read (.temp temp) = some content
  | .marked temp _ => ∃ events, files.read (.temp temp) = some (.events events)
  | .movingMarker _ _ => False
  | _ => True

/-- The invariant of a store that keeps its evidence. -/
structure Guarded (run : StoreRun) : Prop where
  accounted : run.Accounted
  readable : ∀ content, run.marker = some content → ∃ events, content = .events events
  unused : ∀ id, run.nextTemp ≤ id → run.files.read (.temp id) = none
  pending : Pending run.files run.phase

theorem guarded_init : Guarded {} where
  accounted := ⟨by simp, by simp⟩
  readable := by simp [marker]
  unused := by simp
  pending := trivial

variable {valid : String → Bool} {run run' : StoreRun} {phase : StorePhase}

theorem Pending.congr {files files' : Directory FileName FileContent} (h : Pending files phase)
    (htemps : ∀ id, files'.read (.temp id) = files.read (.temp id)) : Pending files' phase := by
  cases phase with
  | rotating _ temp | replacing _ temp | restored _ _ temp =>
    obtain ⟨content, hcontent⟩ := h
    exact ⟨content, (htemps temp).trans hcontent⟩
  | marked temp =>
    obtain ⟨events, hevents⟩ := h
    exact ⟨events, (htemps temp).trans hevents⟩
  | movingMarker => exact h
  | down | up | writing | syncing | movingPrimary | movingBackup | restoring | marking =>
    exact trivial

theorem Guarded.withPhase (h : Guarded run) (hphase : Pending run.files phase) :
    Guarded { run with phase := phase } :=
  ⟨h.accounted, h.readable, h.unused, hphase⟩

theorem Guarded.atRest (h : Guarded run) : Guarded { run with phase := .up } :=
  h.withPhase trivial

theorem Guarded.withFiles {files : Directory FileName FileContent} (h : Guarded run)
    (hholds : ∀ content ∈ run.detected, files.Holds content)
    (hmarker : files.read (.live .marker) = run.marker)
    (hunused : ∀ id, run.nextTemp ≤ id → files.read (.temp id) = none)
    (hphase : Pending files phase) : Guarded { run with files := files, phase := phase } where
  accounted := ⟨hholds, fun hrecovered => by
    show (files.read (.live .marker)).isSome = true
    rw [hmarker]
    exact h.accounted.2 hrecovered⟩
  readable content hcontent := h.readable content (hmarker.symm.trans hcontent)
  unused := hunused
  pending := hphase

theorem Guarded.writeTemp {content : FileContent} {phase : Nat → StorePhase} (h : Guarded run)
    (hphase : Pending (run.writeTemp content phase).files (phase run.nextTemp)) :
    Guarded (run.writeTemp content phase) where
  accounted := by
    refine ⟨fun c hc => Directory.holds_write.mpr (.inr ?_), fun hrecovered => ?_⟩
    · apply (h.accounted.1 c hc).beside
      simp [h.unused run.nextTemp (Nat.le_refl _)]
    · have hread := read_live_writeTemp run content phase .marker
      exact (congrArg Option.isSome hread).trans (h.accounted.2 hrecovered)
  readable c hc := h.readable c ((read_live_writeTemp run content phase .marker).symm.trans hc)
  unused id hid := by
    have hlt : run.nextTemp < id := hid
    show (run.files.write (.temp run.nextTemp) content).read (.temp id) = none
    rw [Directory.read_write, if_neg (by simp; omega)]
    exact h.unused id (Nat.le_of_lt hlt)
  pending := hphase

theorem Guarded.returns {data : Option String} {source : LoadSource}
    (h : Guarded { run with phase := .up })
    (hmarker : run.detected ≠ [] → run.marker.isSome) : Guarded (run.returns data source) where
  accounted := by
    refine ⟨h.accounted.1, fun hrecovered => ?_⟩
    have hor : run.recovered = true ∨ run.detected ≠ [] := by
      simpa [StoreRun.returns] using hrecovered
    exact hor.elim h.accounted.2 hmarker
  readable := h.readable
  unused := h.unused
  pending := trivial

theorem Guarded.appendQuarantineMarker {event : QuarantineEvent} {data : Option String}
    (h : Guarded { run with phase := .up }) :
    Guarded (run.appendQuarantineMarker event data) := by
  unfold StoreRun.appendQuarantineMarker
  cases hmarker : run.marker with
  | none => exact h.withPhase trivial
  | some content =>
    obtain ⟨events, rfl⟩ := h.readable content hmarker
    exact h.withPhase trivial

theorem Guarded.tryLoadBackup {event : QuarantineEvent} (h : Guarded { run with phase := .up }) :
    Guarded (tryLoadBackup valid run event) := by
  unfold StoreRun.tryLoadBackup
  split
  · exact h.appendQuarantineMarker
  · split
    · exact h.withPhase trivial
    · exact h.withPhase trivial

theorem uniqueQuarantinePath_free (run : StoreRun) (file : StoreFile) (timestamp : Time) :
    run.files.read (run.uniqueQuarantinePath file timestamp) = none :=
  run.files.read_firstFree fun m n h => by simpa using h

theorem Guarded.moveAside {file : StoreFile} {timestamp : Time} (h : Guarded run)
    (hfile : file ≠ .marker) :
    Guarded { run with
      files := run.files.move (.live file) (run.uniqueQuarantinePath file timestamp)
      phase := .up } := by
  refine h.withFiles (fun c hc => ?_) ?_ (fun id hid => ?_) trivial
  · exact (h.accounted.1 c hc).move (run.uniqueQuarantinePath_free file timestamp)
  · apply Directory.read_move_other
    · simpa using hfile.symm
    · simp [uniqueQuarantinePath]
  · rw [Directory.read_move_other _ (by simp) (by simp [uniqueQuarantinePath])]
    exact h.unused id hid

theorem Guarded.movePrimaryAside {timestamp : Time} {content : FileContent} {moved : Bool}
    (h : Guarded run) : Guarded (movePrimaryAside valid run timestamp content moved) := by
  unfold StoreRun.movePrimaryAside
  cases moved with
  | false => exact h.atRest.tryLoadBackup
  | true =>
    cases hprimary : run.primary with
    | none => exact h.atRest.tryLoadBackup
    | some => exact (h.moveAside (by simp)).tryLoadBackup

theorem Guarded.load (h : Guarded run) (hrecoverable : run.Recoverable valid)
    (timestamp : Time) : Guarded (loadDurableJson valid run timestamp) := by
  have hmarker : run.Recoverable valid →
      (∀ content, run.primary = some content → content.payload? valid ≠ none) →
      (run.primary = none → run.backup = none) → run.detected ≠ [] → run.marker.isSome := by
    rintro (hnone | hmarked | ⟨c, hc, hinvalid⟩ | ⟨hmissing, hbackup⟩) hvalid hempty hdetected
    · exact absurd hnone hdetected
    · exact hmarked
    · exact absurd hinvalid (hvalid c hc)
    · rw [hempty hmissing] at hbackup
      exact nomatch hbackup
  cases hprimary : run.primary with
  | none =>
    cases hbackup : run.backup with
    | none =>
      simp only [loadDurableJson, hprimary, hbackup]
      exact h.atRest.returns (hmarker hrecoverable (by simp [hprimary]) fun _ => hbackup)
    | some =>
      simp only [loadDurableJson, hprimary, hbackup]
      exact h.atRest.tryLoadBackup
  | some content =>
    cases hpayload : content.payload? valid with
    | some =>
      simp only [loadDurableJson, hprimary, hpayload]
      exact h.atRest.returns (hmarker hrecoverable (by simp [hprimary, hpayload])
        (by simp [hprimary]))
    | none =>
      simp only [loadDurableJson, hprimary, hpayload]
      refine ⟨⟨fun c hc => ?_, h.accounted.2⟩, h.readable, h.unused, trivial⟩
      rcases List.mem_append.mp hc with hold | hnew
      · exact h.accounted.1 c hold
      · obtain rfl := List.mem_singleton.mp hnew
        exact ⟨.live .primary, hprimary⟩

/-! ## Operations that write over a file -/

@[simp] theorem detected_appendQuarantineMarker (run : StoreRun) (event : QuarantineEvent)
    (data : Option String) : (run.appendQuarantineMarker event data).detected = run.detected := by
  unfold StoreRun.appendQuarantineMarker
  split <;> rfl

@[simp] theorem files_appendQuarantineMarker (run : StoreRun) (event : QuarantineEvent)
    (data : Option String) : (run.appendQuarantineMarker event data).files = run.files := by
  unfold StoreRun.appendQuarantineMarker
  split <;> rfl

section

variable (h : Guarded run)
include h

theorem files_of_overwritten {ok : Bool} {name : FileName} (hname : run.overwritten ok = some name)
    (hstep : advance valid run ok = some run') : run'.detected = run.detected ∧
      ∀ content, run'.files.Holds content ↔ run.files.HoldsBeside name content := by
  have hpending := h.pending
  cases hphase : run.phase with
  | rotating =>
    rw [hphase] at hpending
    obtain ⟨moved, hmoved⟩ := hpending
    simp only [overwritten, hphase, Option.some.injEq] at hname
    simp only [StoreRun.advance, hphase, Option.some.injEq] at hstep
    subst hname hstep
    cases ok
    · exact ⟨rfl, fun c => Directory.holds_remove⟩
    · exact ⟨rfl, fun c => Directory.holds_move hmoved (by simp)⟩
  | replacing =>
    rw [hphase] at hpending
    obtain ⟨moved, hmoved⟩ := hpending
    simp only [overwritten, hphase, Option.some.injEq] at hname
    simp only [StoreRun.advance, hphase, Option.some.injEq] at hstep
    subst hname hstep
    exact ⟨rfl, fun c => Directory.holds_move hmoved (by simp)⟩
  | restored =>
    rw [hphase] at hpending
    obtain ⟨moved, hmoved⟩ := hpending
    simp only [overwritten, hphase, Option.some.injEq] at hname
    simp only [StoreRun.advance, hphase, Option.some.injEq] at hstep
    subst hname hstep
    refine ⟨by simp, fun c => ?_⟩
    rw [files_appendQuarantineMarker]
    exact Directory.holds_move hmoved (by simp)
  | marked =>
    rw [hphase] at hpending
    obtain ⟨events, hmoved⟩ := hpending
    simp only [overwritten, hphase, Option.some.injEq] at hname
    simp only [StoreRun.advance, hphase, Option.some.injEq] at hstep
    subst hname hstep
    exact ⟨rfl, fun c => Directory.holds_move hmoved (by simp)⟩
  | down | up | writing | syncing | movingPrimary | movingBackup | restoring | movingMarker
  | marking => simp [overwritten, hphase] at hname

/-- A temporary file that is moved or deleted leaves the numbers from `nextTemp` on unused. -/
theorem Guarded.unused_move {source : FileName} {file : StoreFile} {id : Nat}
    (hid : run.nextTemp ≤ id) : (run.files.move source (.live file)).read (.temp id) = none :=
  Directory.read_move_of_missing (h.unused id hid) (by simp)

theorem Guarded.advance {ok : Bool} (hsafe : StepSafe valid run (.advance ok))
    (hstep : advance valid run ok = some run') : Guarded run' := by
  have hpending := h.pending
  have hholds : ∀ name, run.overwritten ok = some name →
      ∀ c ∈ run.detected, run'.files.Holds c := fun name hname c hc =>
    ((files_of_overwritten h hname hstep).2 c).mpr (hsafe name hname c hc)
  cases hphase : run.phase with
    simp only [StoreRun.advance] at hstep
  | rotating =>
    simp only [overwritten, hphase] at hholds
    simp only [hphase, Option.some.injEq] at hstep
    subst hstep
    refine h.withFiles (hholds _ rfl) ?_ (fun id hid => ?_) trivial
    · cases ok
      · exact Directory.read_remove _ _ _
      · exact Directory.read_move_other _ (by simp) (by simp)
    · cases ok
      · show (run.files.remove _).read _ = none
        rw [Directory.read_remove, h.unused id hid, ite_self]
      · exact h.unused_move hid
  | writing text =>
    simp only [hphase, Option.some.injEq] at hstep
    subst hstep
    exact h.writeTemp ⟨_, read_temp_writeTemp run _ (.replacing text)⟩
  | replacing =>
    simp only [overwritten, hphase] at hholds
    simp only [hphase, Option.some.injEq] at hstep
    subst hstep
    refine h.withFiles (hholds _ rfl) ?_ (fun id hid => h.unused_move hid) trivial
    exact Directory.read_move_other _ (by simp) (by simp)
  | syncing =>
    simp only [hphase, Option.some.injEq] at hstep
    subst hstep
    exact ⟨h.accounted, h.readable, h.unused, trivial⟩
  | movingPrimary =>
    simp only [hphase, Option.some.injEq] at hstep
    subst hstep
    exact h.movePrimaryAside
  | movingBackup =>
    simp only [hphase, Option.some.injEq] at hstep
    subst hstep
    apply Guarded.appendQuarantineMarker
    cases ok
    · exact h.withPhase trivial
    · have haside : StoreFile.backup ≠ .marker := by simp
      exact h.moveAside haside
  | restoring event text =>
    simp only [hphase, Option.some.injEq] at hstep
    subst hstep
    exact h.writeTemp ⟨_, read_temp_writeTemp run _ (.restored event text)⟩
  | restored =>
    simp only [overwritten, hphase] at hholds
    simp only [hphase, Option.some.injEq] at hstep
    subst hstep
    apply Guarded.appendQuarantineMarker
    refine h.withFiles (fun c hc => ?_) ?_ (fun id hid => h.unused_move hid) trivial
    · have hkept := hholds _ rfl c hc
      rw [files_appendQuarantineMarker] at hkept
      exact hkept
    · exact Directory.read_move_other _ (by simp) (by simp)
  | marking events data =>
    simp only [hphase, Option.some.injEq] at hstep
    subst hstep
    exact h.writeTemp ⟨_, read_temp_writeTemp run _ fun temp => .marked temp data⟩
  | marked =>
    simp only [overwritten, hphase] at hholds
    simp only [hphase, Option.some.injEq] at hstep
    subst hstep
    rw [hphase] at hpending
    obtain ⟨events, hevents⟩ := hpending
    have hmarker := Directory.read_move_target (.live .marker) hevents
    apply Guarded.returns
    · refine ⟨⟨hholds _ rfl, fun _ => Option.isSome_of_eq_some hmarker⟩, fun c hc => ?_,
        fun id hid => h.unused_move hid, trivial⟩
      exact ⟨events, Option.some.inj (hc.symm.trans hmarker)⟩
    · exact fun _ => Option.isSome_of_eq_some hmarker
  | movingMarker =>
    rw [hphase] at hpending
    exact hpending.elim
  | down => simp [hphase] at hstep
  | up => simp [hphase] at hstep

theorem Guarded.save {text : String} : Guarded (run.saveStateText text) := by
  have hflight : Guarded { run with inFlight := some text } :=
    { h with }
  cases hprimary : run.primary with
  | none =>
    rw [saveStateText_of_missing hprimary]
    exact hflight.withPhase trivial
  | some content =>
    rw [saveStateText_of_present hprimary]
    exact hflight.writeTemp ⟨_, read_temp_writeTemp _ content _⟩

theorem Guarded.corrupt {text : String} (hsafe : StepSafe valid run (.corrupt text)) :
    Guarded { run with files := run.files.write (.live .primary) (.text text) } := by
  have hother : ∀ name, name ≠ .live .primary →
      (run.files.write (.live .primary) (.text text)).read name = run.files.read name :=
    fun name hname => by rw [Directory.read_write, if_neg hname]
  have hmarker := hother (.live .marker) (by simp)
  have htemps := fun id => hother (.temp id) (by simp)
  refine ⟨⟨fun c hc => Directory.holds_write.mpr (hsafe c hc), fun hrecovered => ?_⟩, ?_, ?_, ?_⟩
  · exact (congrArg Option.isSome hmarker).trans (h.accounted.2 hrecovered)
  · exact fun c hc => h.readable c (hmarker.symm.trans hc)
  · exact fun id hid => (htemps id).trans (h.unused id hid)
  · exact h.pending.congr htemps

theorem Guarded.step {op : StoreOp} (hsafe : StepSafe valid run op)
    (hstep : step valid run op = some run') : Guarded run' := by
  cases op with
  | load timestamp =>
    obtain ⟨-, rfl⟩ : run.phase = .down ∧ loadDurableJson valid run timestamp = run' := by
      simpa [StoreRun.step] using hstep
    exact h.load hsafe timestamp
  | save text =>
    obtain ⟨-, rfl⟩ :
        (run.phase = .up ∧ valid text = true) ∧ run.saveStateText text = run' := by
      simpa [StoreRun.step] using hstep
    exact h.save
  | advance => exact h.advance hsafe hstep
  | crash =>
    obtain ⟨-, rfl⟩ : run.phase ≠ .down ∧ { run with phase := .down } = run' := by
      simpa [StoreRun.step] using hstep
    exact h.withPhase trivial
  | corrupt text =>
    obtain ⟨-, rfl⟩ : (run.primary.isSome ∧ valid text = false) ∧
        { run with files := run.files.write (.live .primary) (.text text) } = run' := by
      simpa [StoreRun.step] using hstep
    exact h.corrupt hsafe

theorem Guarded.not_accounted {op : StoreOp} (hnot : ¬ StepSafe valid run op)
    (hstep : StoreRun.step valid run op = some run') : ¬ run'.Accounted := by
  cases op with
  | load timestamp =>
    obtain ⟨-, rfl⟩ : run.phase = .down ∧ loadDurableJson valid run timestamp = run' := by
      simpa [StoreRun.step] using hstep
    simp only [StepSafe, Recoverable, not_or, not_exists, not_and] at hnot
    obtain ⟨hdetected, hmarker, hvalid, hempty⟩ := hnot
    have hreturns : ∃ data source,
        loadDurableJson valid run timestamp = run.returns data source := by
      unfold loadDurableJson
      cases hprimary : run.primary with
      | none =>
        have hbackup : run.backup = none := by simpa using hempty hprimary
        simp only [hbackup]
        exact ⟨_, _, rfl⟩
      | some content =>
        obtain ⟨text, htext⟩ := Option.ne_none_iff_exists'.mp (hvalid content hprimary)
        simp only [htext]
        exact ⟨_, _, rfl⟩
    obtain ⟨data, source, heq⟩ := hreturns
    rw [heq]
    exact fun haccounted => hmarker (haccounted.2 (by simp [StoreRun.returns, hdetected]))
  | advance =>
    simp only [StepSafe, not_forall] at hnot
    obtain ⟨name, hname, content, hcontent, hlost⟩ := hnot
    obtain ⟨hdetected, hholds⟩ := files_of_overwritten h hname hstep
    intro haccounted
    exact hlost ((hholds content).mp (haccounted.1 content (hdetected ▸ hcontent)))
  | corrupt text =>
    obtain ⟨-, rfl⟩ : (run.primary.isSome ∧ valid text = false) ∧
        { run with files := run.files.write (.live .primary) (.text text) } = run' := by
      simpa [StoreRun.step] using hstep
    simp only [StepSafe, not_forall] at hnot
    obtain ⟨content, hcontent, hlost⟩ := hnot
    exact fun haccounted => hlost (Directory.holds_write.mp (haccounted.1 content hcontent))
  | save | crash => exact (hnot trivial).elim

end

end StoreRun

open StoreRun StepSystem

/-- Without outside writes every load of every run is faithful; with them, a run accounts for
every corrupt primary throughout exactly when its steps are all safe. -/
theorem durable_store_survives (valid : String → Bool) {ops : List StoreOp} {run : StoreRun}
    (hrun : Run (step valid) (fun _ _ => True) {} ops run) :
    ((∀ op ∈ ops, ¬ op.Corrupts) → ∀ load ∈ run.loads, load.Faithful) ∧
      ((∀ visited, Visits (step valid) {} ops visited → visited.Accounted) ↔
        Run (step valid) (StepSafe valid) {} ops run) := by
  constructor
  · intro hops
    exact (sound_of_run (fun _ _ h => h.2) (hrun.and_forall hops)).faithful
  · exact Run.forall_visits_iff (fun _ h => h.accounted) (fun _ _ _ h hsafe => h.step hsafe)
      (fun _ _ _ h hnot => h.not_accounted hnot) guarded_init hrun

private def intact (text : String) : Bool := text ≠ "garbage"

private def firstSave : List StoreOp :=
  [.load 0, .save "a", .advance true, .advance true, .advance true]

/-- A second save, after which the primary is damaged and the next load moves it aside. -/
private def recoveryOps : List StoreOp :=
  firstSave ++ [.save "b", .advance true, .advance true, .advance true, .advance true, .crash,
    .corrupt "garbage", .load 1, .advance true, .advance true, .advance true, .advance true,
    .advance true]

theorem durable_store_survives_recovery :
    ∃ run, exec (step intact) {} recoveryOps = some run ∧
      ((∀ op ∈ recoveryOps, ¬ op.Corrupts) → ∀ load ∈ run.loads, load.Faithful) ∧
      ((∀ visited, Visits (step intact) {} recoveryOps visited → visited.Accounted) ↔
        Run (step intact) (StepSafe intact) {} recoveryOps run) := by
  obtain ⟨run, hrun⟩ := Option.isSome_iff_exists.mp
    (by decide +kernel : (exec (step intact) {} recoveryOps).isSome)
  exact ⟨run, hrun, durable_store_survives intact (Run.of_exec hrun)⟩

/-- A rename that fails leaves the corrupt primary where the backup is restored over it; a
crash before the marker is written leaves a store that starts empty without one. -/
theorem recovery_not_accounted :
    (∃ run, exec (step intact) {} (firstSave ++ [.save "b", .advance true, .advance true,
        .advance true, .advance true, .crash, .corrupt "garbage", .load 1, .advance false,
        .advance true, .advance true]) = some run ∧
      ∃ content ∈ run.detected, ¬ run.files.Holds content) ∧
    ∃ run, exec (step intact) {} (firstSave ++ [.crash, .corrupt "garbage", .load 1,
        .advance true, .crash, .load 2]) = some run ∧
      run.loads.getLast?.map StoreLoad.data = some none ∧ run.recovered = true ∧
        run.marker = none := by
  constructor
  · exact exists_exec_of_any (by decide +kernel)
  · exact exists_exec_of_any (by decide +kernel)

end ClaudeHub
