import ClaudeHub.AgentStream.EditResend

/-! # Edits that nothing disturbs

What the files, the copies and the runtimes hold at each await of an edit. While it has the files
to itself no runtime has a turn but the one that it sends to; the copies then say what the files
held, and no other caller writes what they lack.
-/

namespace ClaudeHub

open StepSystem

namespace EditPhase

inductive Turns
  | registered
  | nobodys
  | edits
  | others
  | anyones
  deriving DecidableEq

def turns : EditPhase → Turns
  | idle | finding | looking _ | stopping _ _ => .registered
  | unregistering _ _ | detached _ | saving _ | guarded _ | truncated | forked | starting _
  | sending _ | unregisteringCreated _ | restoring | restoringTranscript _ => .nobodys
  | delivering _ | handling | stoppingCreated _ => .edits
  | reviving _ | revived _ _ | ended .refused | ended .rolledBack => .others
  | ended .returned | ended .stranded => .anyones

def runtime? : EditPhase → Option Nat
  | stopping _ previous => some previous
  | starting tailer | sending tailer => some tailer
  | stoppingCreated created => some created
  | _ => none

inductive Files
  | free
  | intact
  | copying
  | copied
  /-- The transcript is cut, or about to be written by the turn of the edit. -/
  | forked
  | restored (store : Bool)
  deriving DecidableEq

def files : EditPhase → Files
  | idle | ended .returned | ended .stranded => .free
  | finding | looking _ | stopping _ _ | unregistering _ _ | detached _ => .intact
  | ended .refused | ended .rolledBack => .intact
  | saving _ => .copying
  | guarded _ | truncated | delivering _ | handling | stoppingCreated _ => .copied
  | unregisteringCreated _ | restoring => .copied
  | forked | starting _ | sending _ => .forked
  | restoringTranscript store => .restored store
  | reviving restored | revived restored _ => if restored then .intact else .free

end EditPhase

namespace EditWorld

variable (world : EditWorld)

def TurnsHold : EditPhase.Turns → Prop
  | .registered =>
    (∀ id turn, (world.runtimes id).turn = some turn →
      turn.byEdit = false ∧ world.registered = some id) ∧
    ∀ call kind id, world.calls.lookup call = some (kind, id) → world.registered = some id
  | .nobodys => ∀ id, (world.runtimes id).turn = none
  | .edits => ∀ id turn, (world.runtimes id).turn = some turn →
      turn.byEdit = true ∧ world.registered = some id ∧ world.transcriptBackup = true
  | .others => ∀ id turn, (world.runtimes id).turn = some turn → turn.byEdit = false
  | .anyones => True

def StoreSaved : Prop := world.storeSidecar = some (world.before ++ world.added)

/-- Either the transcript has a copy of what it held, or nothing has touched it. -/
def TranscriptSaved : Prop :=
  (world.transcriptBackup = true ∧ world.transcriptSidecar.isSome ∧
      world.transcriptSidecar = appendRecords world.transcriptBefore world.transcriptAdded) ∨
    (world.transcriptBackup = false ∧
      world.transcript = appendRecords world.transcriptBefore world.transcriptAdded)

def FilesHold : EditPhase.Files → Prop
  | .free => True
  | .intact => world.Intact
  | .copying => world.Intact ∧ world.StoreSaved
  | .copied => world.StoreSaved ∧ world.TranscriptSaved
  | .forked => world.StoreSaved ∧ world.TranscriptSaved ∧ world.transcriptBackup = true
  | .restored store => world.StoreSaved ∧ world.TranscriptSaved ∧
      (store = true → world.storeFile = world.before ++ world.added)

/-- What holds in every run whose steps leave the edit undisturbed. -/
structure Sound : Prop where
  turns : world.TurnsHold world.phase.turns
  files : world.FilesHold world.phase.files
  registered : ∀ id ∈ world.phase.runtime?, world.registered = some id
  spared : world.cancelled = []
  kept : world.rollbackFailed → world.retainBackups = true ∧ world.storeSidecar.isSome ∧
    (world.transcriptBackup → world.transcriptSidecar.isSome)

variable {world}

theorem sound_start (storeFile : List HubLine) (transcript : Option (List String)) :
    (start storeFile transcript).Sound where
  turns := by
    refine ⟨fun id turn hturn => ?_, fun call kind id hcall => ?_⟩
    · simp [start] at hturn
    · simp [start, Dict.lookup] at hcall
  files := trivial
  registered := by simp [start, EditPhase.runtime?]
  spared := rfl
  kept := by simp [start]

theorem Sound.allOrNothing (h : world.Sound) : world.AllOrNothing where
  intact := by
    have hfiles := h.files
    rintro (hphase | hphase) <;> simpa [hphase, EditPhase.files, FilesHold] using hfiles
  spared := h.spared
  kept := fun hfailed => (h.kept hfailed).2

variable {next : EditWorld} {zone : EditPhase.Turns}

theorem TurnsHold.mono (h : world.TurnsHold zone)
    (hturns : ∀ id turn, (next.runtimes id).turn = some turn →
        (world.runtimes id).turn = some turn)
    (hregistered : ∀ id, world.registered = some id → next.registered = some id)
    (hcalls : ∀ call kind id, next.calls.lookup call = some (kind, id) →
        world.calls.lookup call = some (kind, id) ∨ next.registered = some id)
    (hbackup : next.transcriptBackup = world.transcriptBackup) : next.TurnsHold zone := by
  cases zone with
  | registered =>
    refine ⟨fun id turn hturn => ?_, fun call kind id hcall => ?_⟩
    · exact (h.1 id turn (hturns id turn hturn)).imp_right (hregistered id)
    · rcases hcalls call kind id hcall with hold | hnew
      · exact hregistered id (h.2 call kind id hold)
      · exact hnew
  | nobodys =>
    intro id
    cases hturn : (next.runtimes id).turn with
    | none => rfl
    | some turn =>
      have hold := hturns id turn hturn
      rw [h id] at hold
      contradiction
  | edits =>
    intro id turn hturn
    obtain ⟨hedit, hreg, hback⟩ := h id turn (hturns id turn hturn)
    exact ⟨hedit, hregistered id hreg, by rw [hbackup]; exact hback⟩
  | others => exact fun id turn hturn => h id turn (hturns id turn hturn)
  | anyones => trivial

theorem getOrCreate_registered : world.getOrCreate.1.registered = some world.getOrCreate.2 := by
  unfold getOrCreate
  cases hregistered : world.registered with
  | none => rfl
  | some => exact hregistered

variable {id : Nat}

theorem getOrCreate_keeps (h : world.registered = some id) :
    world.getOrCreate.1.registered = some id := by
  simp [getOrCreate, h]

variable {turn : RuntimeTurn}

theorem getOrCreate_turn (h : (world.getOrCreate.1.runtimes id).turn = some turn) :
    (world.runtimes id).turn = some turn := by
  unfold getOrCreate at h
  cases hregistered : world.registered with
  | some => simpa [hregistered] using h
  | none =>
    by_cases hid : id = world.nextRuntime
    · simp [hregistered, setRuntime, hid] at h
    · simpa [hregistered, setRuntime, hid] using h

theorem getOrCreate_eq : ∃ registered runtimes nextRuntime, world.getOrCreate.1 =
    { world with registered := registered, runtimes := runtimes, nextRuntime := nextRuntime } := by
  unfold getOrCreate
  cases world.registered with
  | none => exact ⟨_, _, _, rfl⟩
  | some => exact ⟨_, _, _, rfl⟩

theorem TurnsHold.getOrCreate (h : world.TurnsHold zone) :
    world.getOrCreate.1.TurnsHold zone := by
  obtain ⟨registered, runtimes, nextRuntime, hmade⟩ := world.getOrCreate_eq
  refine h.mono (fun id turn hturn => getOrCreate_turn hturn) (fun id => getOrCreate_keeps) ?_ ?_
  · rw [hmade]
    exact fun call kind id hcall => .inl hcall
  · rw [hmade]

theorem FilesHold.getOrCreate {files : EditPhase.Files} (h : world.FilesHold files) :
    world.getOrCreate.1.FilesHold files := by
  obtain ⟨registered, runtimes, nextRuntime, hmade⟩ := world.getOrCreate_eq
  rw [hmade]
  cases files <;> exact h

theorem FilesHold.setRuntime {files : EditPhase.Files} (h : world.FilesHold files) (id : Nat)
    (runtime : ChatRuntime) : (world.setRuntime id runtime).FilesHold files := by
  cases files <;> exact h

theorem nobodys_of_stopped {stopped : Nat}
    (h : ∀ id turn, (world.runtimes id).turn = some turn → world.registered = some id)
    (hregistered : world.registered = some stopped) (id : Nat) :
    ((world.setRuntime stopped {}).runtimes id).turn = none := by
  by_cases hid : id = stopped
  · simp [setRuntime, hid]
  · simp only [setRuntime, Function.update_of_ne hid]
    cases hturn : (world.runtimes id).turn with
    | none => rfl
    | some turn =>
      have hsame := h id turn hturn
      rw [hregistered] at hsame
      exact absurd (Option.some.inj hsame).symm hid

/-! ## Writes for the turn of a runtime -/

@[simp] theorem writeFor_runtimes (turn : RuntimeTurn) (lines : List HubLine)
    (records : List String) : (world.writeFor turn lines records).runtimes = world.runtimes := by
  unfold writeFor
  split <;> rfl

theorem writeFor_eq (turn : RuntimeTurn) (lines : List HubLine) (records : List String) :
    ∃ storeFile transcript added transcriptAdded, world.writeFor turn lines records =
      { world with
        storeFile := storeFile
        transcript := transcript
        added := added
        transcriptAdded := transcriptAdded } := by
  unfold writeFor
  split
  · exact ⟨_, _, _, _, rfl⟩
  · exact ⟨_, _, _, _, rfl⟩

theorem Intact.writeForOthers (h : world.Intact) (lines : List HubLine) (records : List String) :
    (world.writeForOthers lines records).Intact := by
  obtain ⟨hstore, htranscript⟩ := h
  constructor
  · show world.storeFile ++ lines = world.before ++ (world.added ++ lines)
    rw [hstore, List.append_assoc]
  · show appendRecords world.transcript records =
      appendRecords world.transcriptBefore (world.transcriptAdded ++ records)
    rw [htranscript, appendRecords_append]

variable {phase : EditPhase}

theorem FilesHold.writeForOthers (hopen : phase.exclusive = false) (h : world.FilesHold phase.files)
    (lines : List HubLine) (records : List String) :
    (world.writeForOthers lines records).FilesHold phase.files := by
  have hfiles : phase.files = .free ∨ phase.files = .intact := by
    cases phase with
    | reviving restored => cases restored <;> simp [EditPhase.files]
    | revived restored => cases restored <;> simp [EditPhase.files]
    | ended outcome => cases outcome <;> simp [EditPhase.files]
    | _ => first | simp [EditPhase.files]; done | simp [EditPhase.exclusive] at hopen
  rcases hfiles with hfiles | hfiles
  · rw [hfiles]
    trivial
  · rw [hfiles] at h ⊢
    exact Intact.writeForOthers h lines records

theorem turns_cases (phase : EditPhase) :
    ((phase.turns = .registered ∨ phase.turns = .others) ∧ phase.exclusive = false) ∨
      (phase.turns = .nobodys ∧ phase.exclusive = true) ∨
      (phase.turns = .edits ∧ phase.files = .copied ∧ phase.exclusive = true) ∨
      (phase.turns = .anyones ∧ phase.files = .free) := by
  cases phase with
  | ended outcome => cases outcome <;> decide
  | _ => simp [EditPhase.turns, EditPhase.files, EditPhase.exclusive]

theorem FilesHold.writeFor (hturns : world.TurnsHold phase.turns) (h : world.FilesHold phase.files)
    (hturn : (world.runtimes id).turn = some turn) (lines : List HubLine) (records : List String) :
    (world.writeFor turn lines records).FilesHold phase.files := by
  have hothers : turn.byEdit = false → phase.exclusive = false →
      (world.writeFor turn lines records).FilesHold phase.files := by
    intro hedit hopen
    unfold EditWorld.writeFor
    rw [hedit]
    exact h.writeForOthers hopen lines records
  rcases turns_cases phase with
    ⟨hzone | hzone, hopen⟩ | ⟨hzone, -⟩ | ⟨hzone, hfiles, -⟩ | ⟨hzone, hfiles⟩
  · rw [hzone] at hturns
    exact hothers (hturns.1 id turn hturn).1 hopen
  · rw [hzone] at hturns
    exact hothers (hturns id turn hturn) hopen
  · rw [hzone] at hturns
    rw [hturns id] at hturn
    contradiction
  · rw [hzone] at hturns
    obtain ⟨hedit, -, hbackup⟩ := hturns id turn hturn
    rw [hfiles] at h ⊢
    unfold EditWorld.writeFor
    rw [if_pos hedit]
    obtain ⟨hstore, htranscript | ⟨hnone, -⟩⟩ := h
    · exact ⟨hstore, .inl htranscript⟩
    · rw [hbackup] at hnone
      contradiction
  · rw [hfiles]
    trivial

theorem TurnsHold.writeFor (h : world.TurnsHold zone) (turn : RuntimeTurn) (lines : List HubLine)
    (records : List String) :
    (world.writeFor turn lines records).TurnsHold zone := by
  obtain ⟨storeFile, transcript, added, transcriptAdded, hwrite⟩ :=
    @writeFor_eq world turn lines records
  rw [hwrite]
  exact h.mono (fun _ _ hturn => hturn) (fun _ hreg => hreg) (fun _ _ _ hcall => .inl hcall) rfl

theorem TurnsHold.endTurn (h : world.TurnsHold zone) (hturn : (world.runtimes id).turn = some turn)
    (inFlight : Bool) : (world.setRuntime id { world.runtimes id with
      turn := some { turn with inFlight := inFlight } }).TurnsHold zone := by
  have hread : ∀ other current, (Function.update world.runtimes id { world.runtimes id with
      turn := some { turn with inFlight := inFlight } } other).turn = some current →
      ∃ old, (world.runtimes other).turn = some old ∧ current.byEdit = old.byEdit := by
    intro other current hcurrent
    by_cases hid : other = id
    · subst hid
      simp only [Function.update_self, Option.some.injEq] at hcurrent
      exact ⟨turn, hturn, by rw [← hcurrent]⟩
    · rw [Function.update_of_ne hid] at hcurrent
      exact ⟨current, hcurrent, rfl⟩
  cases zone with
  | registered =>
    refine ⟨fun other current hcurrent => ?_, h.2⟩
    obtain ⟨old, hold, hedit⟩ := hread other current hcurrent
    rw [hedit]
    exact h.1 other old hold
  | nobodys =>
    rw [h id] at hturn
    contradiction
  | edits =>
    intro other current hcurrent
    obtain ⟨old, hold, hedit⟩ := hread other current hcurrent
    rw [hedit]
    exact h other old hold
  | others =>
    intro other current hcurrent
    obtain ⟨old, hold, hedit⟩ := hread other current hcurrent
    rw [hedit]
    exact h other old hold
  | anyones => trivial

theorem Sound.writeFor (h : world.Sound) (hturn : (world.runtimes id).turn = some turn)
    (lines : List HubLine) (records : List String) : (world.writeFor turn lines records).Sound := by
  have hturns := h.turns.writeFor turn lines records
  have hfiles := h.files.writeFor h.turns hturn lines records
  obtain ⟨storeFile, transcript, added, transcriptAdded, hwrite⟩ :=
    @writeFor_eq world turn lines records
  rw [hwrite] at hturns hfiles ⊢
  exact ⟨hturns, hfiles, h.registered, h.spared, h.kept⟩

theorem Sound.terminalize (h : world.Sound) (hturn : (world.runtimes id).turn = some turn)
    (streamSequence : Int) (explained : Bool) :
    (world.terminalize id turn streamSequence explained).Sound := by
  have hwritten := h.writeFor hturn
    (HubLine.terminalEdge streamSequence (some turn.turnId) explained) []
  have hsame : world.runtimes = (world.writeFor turn
      (HubLine.terminalEdge streamSequence (some turn.turnId) explained) []).runtimes := by simp
  unfold EditWorld.terminalize
  rw [hsame] at hturn ⊢
  have hturns := hwritten.turns.endTurn hturn false
  exact ⟨hturns, hwritten.files.setRuntime id _, hwritten.registered, hwritten.spared,
    hwritten.kept⟩

theorem Sound.endCall (h : world.Sound) (call : Nat) : (world.endCall call).Sound where
  turns := by
    refine h.turns.mono (fun _ _ hturn => hturn) (fun _ hreg => hreg) ?_ rfl
    intro other kind id hcall
    left
    simp only [EditWorld.endCall, Dict.lookup_erase] at hcall
    split at hcall
    · contradiction
    · exact hcall
  files := by
    have hfiles := h.files
    unfold EditWorld.endCall
    cases hphase : world.phase.files <;> rw [hphase] at hfiles <;> exact hfiles
  registered := h.registered
  spared := h.spared
  kept := h.kept

theorem Sound.obtains (h : world.Sound) (call : Nat) (kind : TailerCall) :
    ({ world.getOrCreate.1 with calls :=
      world.getOrCreate.1.calls.set call (kind, world.getOrCreate.2) } : EditWorld).Sound := by
  have hturns := h.turns.getOrCreate
  have hfiles := h.files.getOrCreate
  have hnew := world.getOrCreate_registered
  have hkeeps := fun id => @getOrCreate_keeps world id
  obtain ⟨registered, runtimes, nextRuntime, hmade⟩ := world.getOrCreate_eq
  rw [hmade] at hturns hfiles hnew hkeeps ⊢
  refine ⟨?_, ?_, fun id hid => hkeeps id (h.registered id hid), h.spared, h.kept⟩
  · refine hturns.mono (fun _ _ hturn => hturn) (fun _ hreg => hreg) ?_ rfl
    intro other kind' id hcall
    simp only [Dict.lookup_set] at hcall
    split at hcall
    · obtain ⟨rfl, rfl⟩ : kind = kind' ∧ world.getOrCreate.2 = id := by simpa using hcall
      exact .inr hnew
    · exact .inl hcall
  · show FilesHold _ world.phase.files
    cases hphase : world.phase.files <;> rw [hphase] at hfiles <;> exact hfiles

theorem Sound.writeForOthers (h : world.Sound) (hopen : world.phase.exclusive = false)
    (lines : List HubLine) (records : List String) :
    (world.writeForOthers lines records).Sound where
  turns := h.turns.mono (fun _ _ hturn => hturn) (fun _ hreg => hreg)
    (fun _ _ _ hcall => .inl hcall) rfl
  files := h.files.writeForOthers hopen lines records
  registered := h.registered
  spared := h.spared
  kept := h.kept

theorem Sound.acceptCall {call : Nat} {streamSequence : Int} (h : world.Sound)
    (hopen : world.phase.exclusive = false)
    (hstep : world.acceptCall call streamSequence = some next) : next.Sound := by
  unfold EditWorld.acceptCall at hstep
  split at hstep
  case h_2 => contradiction
  case h_1 turnId steer id hcall =>
    split at hstep
    · contradiction
    · cases hstep
      apply Sound.endCall
      have hwritten := h.writeForOthers hopen
        [.event (some streamSequence) { type := .turnStarted, turnId := some turnId }] []
      refine ⟨?_, hwritten.files.setRuntime id _, hwritten.registered, hwritten.spared,
        hwritten.kept⟩
      have hturns := h.turns
      have hread : ∀ other current, (Function.update world.runtimes id { world.runtimes id with
          turn := some ⟨turnId, false, true⟩ } other).turn = some current →
          (other = id ∧ current.byEdit = false) ∨ (world.runtimes other).turn = some current := by
        intro other current hcurrent
        by_cases hid : other = id
        · subst hid
          simp only [Function.update_self, Option.some.injEq] at hcurrent
          exact .inl ⟨rfl, by rw [← hcurrent]⟩
        · rw [Function.update_of_ne hid] at hcurrent
          exact .inr hcurrent
      show TurnsHold _ world.phase.turns
      rcases turns_cases world.phase with
        ⟨hzone | hzone, -⟩ | ⟨-, hclosed⟩ | ⟨-, -, hclosed⟩ | ⟨hzone, -⟩
      · rw [hzone] at hturns ⊢
        refine ⟨fun other current hcurrent => ?_, hturns.2⟩
        rcases hread other current hcurrent with ⟨rfl, hedit⟩ | hold
        · exact ⟨hedit, hturns.2 _ _ _ hcall⟩
        · exact hturns.1 other current hold
      · rw [hzone] at hturns ⊢
        intro other current hcurrent
        rcases hread other current hcurrent with ⟨-, hedit⟩ | hold
        · exact hedit
        · exact hturns other current hold
      · rw [hopen] at hclosed
        contradiction
      · rw [hopen] at hclosed
        contradiction
      · rw [hzone]
        trivial

/-! ## The edit from await to await -/

theorem TurnsHold.edits_of_nobodys (h : world.TurnsHold .nobodys) : world.TurnsHold .edits := by
  intro id turn hturn
  rw [h id] at hturn
  contradiction

theorem TurnsHold.others_of_nobodys (h : world.TurnsHold .nobodys) :
    world.TurnsHold .others := by
  intro id turn hturn
  rw [h id] at hturn
  contradiction

theorem TurnsHold.others_of_registered (h : world.TurnsHold .registered) :
    world.TurnsHold .others :=
  fun id turn hturn => (h.1 id turn hturn).1

theorem nobodys_of_unregistered
    (h : ∀ id turn, (world.runtimes id).turn = some turn → world.registered = some id)
    (hnone : world.registered = none) : world.TurnsHold .nobodys := by
  intro id
  cases hturn : (world.runtimes id).turn with
  | none => rfl
  | some turn =>
    have hregistered := h id turn hturn
    rw [hnone] at hregistered
    contradiction

theorem FilesHold.copies (h : world.FilesHold .copied) : world.storeSidecar.isSome ∧
    (world.transcriptBackup → world.transcriptSidecar.isSome) := by
  obtain ⟨hstore, htranscript⟩ := h
  refine ⟨by rw [hstore]; rfl, fun hbackup => ?_⟩
  rcases htranscript with ⟨-, hsome, -⟩ | ⟨hnone, -⟩
  · exact hsome
  · rw [hnone] at hbackup
    contradiction

theorem Sound.enter (h : world.Sound) (hturns : world.TurnsHold phase.turns)
    (hfiles : world.FilesHold phase.files)
    (hregistered : ∀ id ∈ phase.runtime?, world.registered = some id) :
    (world.enter phase).Sound where
  turns := by
    show TurnsHold _ phase.turns
    cases hzone : phase.turns <;> rw [hzone] at hturns <;> exact hturns
  files := by
    show FilesHold _ phase.files
    cases hzone : phase.files <;> rw [hzone] at hfiles <;> exact hfiles
  registered := hregistered
  spared := h.spared
  kept := h.kept

theorem Sound.finish {outcome : EditEnd} (h : world.Sound)
    (hturns : world.TurnsHold (EditPhase.ended outcome).turns)
    (hfiles : world.FilesHold (EditPhase.ended outcome).files) : (world.finish outcome).Sound where
  turns := by
    cases outcome <;> exact hturns
  files := by
    cases outcome <;> exact hfiles
  registered := by simp [EditWorld.finish, EditPhase.runtime?]
  spared := h.spared
  kept := by
    intro hfailed
    obtain ⟨hretained, hcopies⟩ := h.kept hfailed
    refine ⟨hretained, ?_⟩
    simpa [EditWorld.finish, hretained] using hcopies

theorem Sound.retainAndRaise (h : world.Sound) : world.retainAndRaise.Sound where
  turns := trivial
  files := trivial
  registered := by simp [EditWorld.retainAndRaise, EditWorld.finish, EditPhase.runtime?]
  spared := h.spared
  kept := by
    intro hfailed
    refine ⟨rfl, ?_⟩
    simpa [EditWorld.retainAndRaise, EditWorld.finish] using (h.kept hfailed).2

theorem strand_sound {failed : EditWorld} (hspared : failed.cancelled = [])
    (hcopies : failed.storeSidecar.isSome ∧
      (failed.transcriptBackup → failed.transcriptSidecar.isSome)) :
    (failed.rollbackFails.finish .stranded).Sound where
  turns := trivial
  files := trivial
  registered := by simp [EditWorld.finish, EditPhase.runtime?]
  spared := hspared
  kept := by
    intro _
    refine ⟨rfl, ?_⟩
    simpa [EditWorld.finish, EditWorld.rollbackFails] using hcopies

theorem Sound.stopPrevious {streamSeq : Int} {previous : Nat} (h : world.Sound)
    (hphase : world.phase = .stopping streamSeq previous) (ok : Bool) :
    (world.stopPrevious streamSeq previous ok).Sound := by
  have hturns := h.turns
  have hfiles := h.files
  have hregistered := h.registered previous (by rw [hphase]; rfl)
  rw [hphase] at hturns hfiles
  unfold EditWorld.stopPrevious
  split
  · exact h.enter hturns.others_of_registered hfiles (by simp [EditPhase.runtime?])
  · have hstop := nobodys_of_stopped (fun id turn hturn => (hturns.1 id turn hturn).2) hregistered
    split
    · refine ⟨fun id => ?_, hfiles.setRuntime previous {}, by simp [EditWorld.enter, EditPhase.runtime?],
        h.spared, h.kept⟩
      exact hstop id
    · have hkept := hfiles.setRuntime previous
        { world.runtimes previous with retirementPending := true }
      refine ⟨?_, hkept, by simp [EditWorld.enter, EditPhase.runtime?], h.spared, h.kept⟩
      intro id turn hturn
      by_cases hid : id = previous
      · subst hid
        apply (hturns.1 id turn _).1
        simpa [EditWorld.enter, EditWorld.setRuntime] using hturn
      · apply (hturns.1 id turn _).1
        simpa [EditWorld.enter, EditWorld.setRuntime, hid] using hturn

theorem Sound.snapshotTranscript {streamSeq : Int} (h : world.Sound)
    (hphase : world.phase = .saving streamSeq) (located : Bool) :
    (world.snapshotTranscript streamSeq located).Sound := by
  have hturns := h.turns
  have hfiles := h.files
  rw [hphase] at hturns hfiles
  obtain ⟨⟨-, htranscript⟩, hstore⟩ := hfiles
  have huncopied : ({ world.enter (.guarded streamSeq) with transcriptBackup := false } :
      EditWorld).Sound := by
    refine ⟨hturns, ⟨hstore, .inr ⟨rfl, htranscript⟩⟩, by simp [EditWorld.enter, EditPhase.runtime?],
      h.spared, fun hfailed => ?_⟩
    obtain ⟨hretained, hsome, -⟩ := h.kept hfailed
    exact ⟨hretained, hsome, nofun⟩
  cases located with
  | false => exact huncopied
  | true =>
    cases hrecords : world.transcript with
    | none =>
      simpa [EditWorld.snapshotTranscript, EditWorld.enter, hrecords] using huncopied
    | some records =>
      have hsound : ({ world.enter (.guarded streamSeq) with
          transcriptSidecar := some records, transcriptBackup := true } : EditWorld).Sound := by
        refine ⟨hturns, ⟨hstore, .inl ⟨rfl, rfl, ?_⟩⟩, by simp [EditWorld.enter, EditPhase.runtime?],
          h.spared, fun hfailed => ?_⟩
        · show some records = _
          rw [← hrecords]
          exact htranscript
        · obtain ⟨hretained, hsome, -⟩ := h.kept hfailed
          exact ⟨hretained, hsome, fun _ => rfl⟩
      simpa [EditWorld.snapshotTranscript, EditWorld.enter, hrecords] using hsound

theorem stopRuntime_spec (hturns : world.TurnsHold .edits) (created : Nat)
    (streamSequence : Int) : ∃ storeFile, world.stopRuntime created streamSequence =
      { world.setRuntime created {} with storeFile := storeFile } := by
  cases hturn : (world.runtimes created).turn with
  | none => exact ⟨world.storeFile, by simp [stopRuntime, hturn, setRuntime]⟩
  | some turn =>
    have hedit := (hturns created turn hturn).1
    cases hflight : turn.inFlight with
    | false =>
      exact ⟨world.storeFile, by simp [stopRuntime, hturn, hflight, setRuntime]⟩
    | true =>
      exact ⟨world.storeFile ++ HubLine.terminalEdge streamSequence (some turn.turnId) true,
        by simp [stopRuntime, hturn, hflight, hedit, writeFor, write, setRuntime]⟩

theorem Sound.stopCreated {created : Nat} (h : world.Sound)
    (hphase : world.phase = .stoppingCreated created) (ok : Bool) (streamSequence : Int) :
    (world.stopCreated created ok streamSequence).Sound := by
  have hturns := h.turns
  have hfiles := h.files
  have hregistered := h.registered created (by rw [hphase]; rfl)
  rw [hphase] at hturns hfiles
  have hnobodys := nobodys_of_stopped (fun id turn hturn => (hturns id turn hturn).2.1) hregistered
  obtain ⟨storeFile, hstop⟩ := stopRuntime_spec hturns created streamSequence
  unfold EditWorld.stopCreated
  rw [hstop]
  split
  · exact ⟨hnobodys, hfiles, by simp [EditWorld.enter, EditPhase.runtime?], h.spared, h.kept⟩
  · apply strand_sound
    · exact h.spared
    · exact hfiles.copies

theorem StoreSaved.restoreStore (h : world.StoreSaved) :
    world.restoreStore = { world with storeFile := world.before ++ world.added } := by
  rw [StoreSaved] at h
  simp [EditWorld.restoreStore, h]

theorem Sound.restoresStore (h : world.Sound) (hphase : world.phase = .restoring)
    (outcome : RestoreOutcome) : (world.restoresStore outcome).Sound := by
  have hturns := h.turns
  have hfiles := h.files
  rw [hphase] at hturns hfiles
  have hrestore := hfiles.1.restoreStore
  cases outcome with
  | written =>
    unfold EditWorld.restoresStore
    rw [hrestore]
    exact ⟨hturns, ⟨hfiles.1, hfiles.2, fun _ => rfl⟩,
      by simp [EditWorld.enter, EditPhase.runtime?], h.spared, h.kept⟩
  | failed =>
    exact ⟨hturns, ⟨hfiles.1, hfiles.2, nofun⟩, by simp [EditWorld.restoresStore,
      EditWorld.enter, EditPhase.runtime?], h.spared, fun _ => ⟨rfl, hfiles.copies⟩⟩
  | cancelled wrote =>
    cases wrote with
    | false => exact strand_sound h.spared hfiles.copies
    | true =>
      show (world.restoreStore.rollbackFails.finish .stranded).Sound
      rw [hrestore]
      apply strand_sound
      · exact h.spared
      · exact hfiles.copies

theorem TranscriptSaved.restoreTranscript (h : world.TranscriptSaved) :
    ∃ transcript, world.restoreTranscript = { world with transcript := transcript } ∧
      transcript = appendRecords world.transcriptBefore world.transcriptAdded := by
  rcases h with ⟨hbackup, hsome, hcopy⟩ | ⟨hnone, hsame⟩
  · obtain ⟨saved, hsaved⟩ := Option.isSome_iff_exists.mp hsome
    refine ⟨some saved, by simp [EditWorld.restoreTranscript, hbackup, hsaved], ?_⟩
    rw [← hcopy, hsaved]
  · have hsame' : world.restoreTranscript = world := by
      simp [EditWorld.restoreTranscript, hnone]
    exact ⟨world.transcript, hsame', hsame⟩

theorem Sound.restoresTranscript {storeRestored : Bool} (h : world.Sound)
    (hphase : world.phase = .restoringTranscript storeRestored) (failed : Option (List String)) :
    (world.restoresTranscript storeRestored failed).Sound := by
  have hturns := h.turns
  have hfiles := h.files
  rw [hphase] at hturns hfiles
  obtain ⟨hstore, htranscript, hrestored⟩ := hfiles
  have hcopies : world.storeSidecar.isSome ∧
      (world.transcriptBackup → world.transcriptSidecar.isSome) :=
    FilesHold.copies ⟨hstore, htranscript⟩
  cases failed with
  | none =>
    obtain ⟨transcript, hrestore, hsame⟩ := htranscript.restoreTranscript
    unfold EditWorld.restoresTranscript
    rw [hrestore]
    refine ⟨hturns.others_of_nobodys, ?_, by simp [EditWorld.enter, EditPhase.runtime?],
      h.spared, h.kept⟩
    cases storeRestored with
    | true => exact ⟨hrestored rfl, hsame⟩
    | false => trivial
  | some =>
    exact ⟨hturns.others_of_nobodys, trivial, by simp [EditWorld.restoresTranscript,
      EditWorld.enter, EditPhase.runtime?], h.spared, fun _ => ⟨rfl, hcopies⟩⟩

theorem Sound.fail (h : world.Sound) (hstep : world.fail = some next) :
    next.Sound := by
  have hturns := h.turns
  have hfiles := h.files
  unfold EditWorld.fail at hstep
  cases hphase : world.phase <;> simp only [hphase, reduceCtorEq, Option.some.injEq] at hstep <;>
    rw [hphase] at hturns hfiles <;> subst hstep
  case finding | looking | stopping =>
    exact h.enter hturns.others_of_registered hfiles (by simp [EditPhase.runtime?])
  case unregistering | detached =>
    exact h.enter hturns.others_of_nobodys hfiles (by simp [EditPhase.runtime?])
  case saving =>
    exact h.enter hturns.others_of_nobodys hfiles.1 (by simp [EditPhase.runtime?])
  case guarded | truncated =>
    exact h.enter hturns.edits_of_nobodys hfiles (by simp [EditPhase.runtime?])
  case forked | starting | sending =>
    exact h.enter hturns.edits_of_nobodys ⟨hfiles.1, hfiles.2.1⟩ (by simp [EditPhase.runtime?])
  case delivering => exact h.enter hturns hfiles (by simp [EditPhase.runtime?])
  case reviving restored | revived restored tailer =>
    cases restored with
    | true => exact h.finish hturns hfiles
    | false => exact h.finish trivial trivial

theorem Sound.getOrCreate (h : world.Sound) (phase : Nat → EditPhase)
    (hturns : ∀ made : EditWorld, made.TurnsHold world.phase.turns →
      made.TurnsHold (phase world.getOrCreate.2).turns)
    (hfiles : ∀ made : EditWorld, made.FilesHold world.phase.files →
      made.FilesHold (phase world.getOrCreate.2).files)
    (hruntime : ∀ id ∈ (phase world.getOrCreate.2).runtime?, world.getOrCreate.2 = id) :
    (world.getOrCreate.1.enter (phase world.getOrCreate.2)).Sound := by
  have hmadeTurns := hturns _ h.turns.getOrCreate
  have hmadeFiles := hfiles _ h.files.getOrCreate
  have hnew := world.getOrCreate_registered
  obtain ⟨registered, runtimes, nextRuntime, hmade⟩ := world.getOrCreate_eq
  rw [hmade] at hmadeTurns hmadeFiles hnew ⊢
  refine ⟨?_, ?_, fun id hid => ?_, h.spared, h.kept⟩
  · show TurnsHold _ (phase _).turns
    cases hzone : (phase world.getOrCreate.2).turns <;> rw [hzone] at hmadeTurns <;>
      exact hmadeTurns
  · show FilesHold _ (phase _).files
    cases hzone : (phase world.getOrCreate.2).files <;> rw [hzone] at hmadeFiles <;>
      exact hmadeFiles
  · rw [← hruntime id hid]
    exact hnew

/-! ## Whole edits -/

theorem Sound.step {op : EditOp} (h : world.Sound) (hok : world.Undisturbed op)
    (hstep : world.step op = some next) : next.Sound := by
  have hturns := h.turns
  have hfiles := h.files
  cases op with
    simp only [EditWorld.step, Option.ite_none_right_eq_some, Option.some.injEq] at hstep
  | begins =>
    obtain ⟨⟨hphase, -⟩, rfl⟩ := hstep
    rw [hphase] at hturns
    exact ⟨hturns, ⟨by simp, rfl⟩, by simp [EditPhase.runtime?], h.spared, h.kept⟩
  | finds streamSeq =>
    obtain ⟨hphase, rfl⟩ := hstep
    rw [hphase] at hturns hfiles
    cases streamSeq with
    | some => exact h.enter hturns hfiles (by simp [EditPhase.runtime?])
    | none => exact h.enter hturns.others_of_registered hfiles (by simp [EditPhase.runtime?])
  | looks =>
    split at hstep
    case h_2 => contradiction
    case h_1 streamSeq hphase =>
      cases hstep
      rw [hphase] at hturns hfiles
      cases hregistered : world.registered with
      | some =>
        exact h.enter hturns hfiles (by simp [EditPhase.runtime?, hregistered])
      | none =>
        have hnone := nobodys_of_unregistered
          (fun id turn hturn => (hturns.1 id turn hturn).2) hregistered
        exact h.enter hnone hfiles (by simp [EditPhase.runtime?])
  | stopsPrevious ok =>
    split at hstep
    case h_2 => contradiction
    case h_1 streamSeq previous hphase =>
      cases hstep
      exact h.stopPrevious hphase ok
  | unregistersPrevious =>
    split at hstep
    case h_2 => contradiction
    case h_1 streamSeq previous hphase =>
      cases hstep
      rw [hphase] at hturns hfiles
      unfold unregister
      split
      · exact ⟨hturns, hfiles, by simp [EditWorld.enter, EditPhase.runtime?], h.spared, h.kept⟩
      · exact h.enter hturns hfiles (by simp [EditPhase.runtime?])
  | snapshotsStore =>
    split at hstep
    case h_2 => contradiction
    case h_1 streamSeq hphase =>
      cases hstep
      rw [hphase] at hturns hfiles
      refine ⟨hturns, ⟨hfiles, ?_⟩, by simp [EditPhase.runtime?], h.spared, fun hfailed => ?_⟩
      · show some world.storeFile = some (world.before ++ world.added)
        rw [hfiles.1]
      · exact ⟨(h.kept hfailed).1, rfl, (h.kept hfailed).2.2⟩
  | snapshotsTranscript located =>
    split at hstep
    case h_2 => contradiction
    case h_1 streamSeq hphase =>
      cases hstep
      exact h.snapshotTranscript hphase located
  | truncates =>
    split at hstep
    case h_2 => contradiction
    case h_1 streamSeq hphase =>
      cases hstep
      rw [hphase] at hturns hfiles
      exact ⟨hturns, hfiles, by simp [EditPhase.runtime?], h.spared, h.kept⟩
  | truncationFails =>
    split at hstep
    case h_2 => contradiction
    case h_1 streamSeq hphase =>
      cases hstep
      rw [hphase] at hturns hfiles
      exact ⟨hturns.edits_of_nobodys, hfiles, by simp [EditPhase.runtime?], h.spared, h.kept⟩
  | forks =>
    split at hstep
    case h_2 => contradiction
    case h_1 records hphase htranscript =>
      cases hstep
      rw [hphase] at hturns hfiles
      obtain ⟨hstore, hcopy | ⟨hnone, -⟩⟩ := hfiles
      · exact ⟨hturns, ⟨hstore, .inl hcopy, hok⟩, by simp [EditPhase.runtime?], h.spared, h.kept⟩
      · rw [hok] at hnone
        contradiction
  | restarts =>
    obtain ⟨⟨hphase, -⟩, rfl⟩ := hstep
    refine h.getOrCreate .starting ?_ ?_ (by simp [EditPhase.runtime?])
    · rw [hphase]
      exact fun made hmade => hmade
    · rw [hphase]
      exact fun made hmade => hmade
  | starts =>
    split at hstep
    case h_2 => contradiction
    case h_1 tailer hphase =>
      cases hstep
      have hregistered := h.registered tailer (by rw [hphase]; rfl)
      rw [hphase] at hturns hfiles
      exact ⟨hturns, hfiles, by simpa [EditWorld.enter, EditPhase.runtime?, write] using hregistered,
        h.spared, h.kept⟩
  | accepts turnId =>
    split at hstep
    case h_2 => contradiction
    case h_1 tailer hphase =>
      simp only [Option.ite_none_left_eq_some, Option.some.injEq] at hstep
      obtain ⟨-, rfl⟩ := hstep
      have hregistered := h.registered tailer (by rw [hphase]; rfl)
      rw [hphase] at hturns hfiles
      obtain ⟨hstore, htranscript, hbackup⟩ := hfiles
      refine ⟨fun id turn hturn => ?_, ⟨hstore, htranscript⟩,
        by simp [EditWorld.enter, EditPhase.runtime?], h.spared, h.kept⟩
      by_cases hid : id = tailer
      · subst hid
        have hedit : some (⟨turnId, true, true⟩ : RuntimeTurn) = some turn := by
          simpa [EditWorld.enter, EditWorld.begin, EditWorld.setRuntime] using hturn
        exact ⟨by rw [← Option.some.inj hedit], hregistered, hbackup⟩
      · have hold : (world.runtimes id).turn = some turn := by
          simpa [EditWorld.enter, EditWorld.begin, EditWorld.setRuntime, EditWorld.write, hid]
            using hturn
        rw [hturns id] at hold
        contradiction
  | delivers =>
    split at hstep
    case h_2 => contradiction
    case h_1 tailer hphase =>
      cases hstep
      exact h.finish trivial trivial
  | fails => exact h.fail hstep
  | catches =>
    obtain ⟨hphase, hstep⟩ := hstep
    rw [hphase] at hturns hfiles
    split at hstep
    · cases hstep
      cases hregistered : world.registered with
      | some =>
        exact h.enter hturns hfiles (by simp [EditPhase.runtime?, hregistered])
      | none =>
        have hnone := nobodys_of_unregistered
          (fun id turn hturn => (hturns id turn hturn).2.1) hregistered
        exact h.enter hnone hfiles (by simp [EditPhase.runtime?])
    · cases hstep
      exact h.retainAndRaise
  | stopsCreated ok streamSequence =>
    split at hstep
    case h_2 => contradiction
    case h_1 created hphase =>
      cases hstep
      exact h.stopCreated hphase ok streamSequence
  | unregistersCreated =>
    split at hstep
    case h_2 => contradiction
    case h_1 created hphase =>
      cases hstep
      rw [hphase] at hturns hfiles
      have hdropped : (world.unregister created).Sound := by
        unfold unregister
        split
        · refine ⟨?_, ?_, by simp [hphase, EditPhase.runtime?], h.spared, h.kept⟩
          · rw [hphase]
            exact hturns
          · rw [hphase]
            exact hfiles
        · exact h
      have hsame : (world.unregister created).phase = world.phase := by
        unfold unregister
        split <;> rfl
      have hdroppedTurns := hdropped.turns
      have hdroppedFiles := hdropped.files
      rw [hsame, hphase] at hdroppedTurns hdroppedFiles
      split
      · exact hdropped.enter hdroppedTurns hdroppedFiles (by simp [EditPhase.runtime?])
      · exact hdropped.retainAndRaise
  | restoresStore outcome =>
    obtain ⟨hphase, rfl⟩ := hstep
    exact h.restoresStore hphase outcome
  | restoresTranscript failed =>
    split at hstep
    case h_2 => contradiction
    case h_1 storeRestored hphase =>
      cases hstep
      exact h.restoresTranscript hphase failed
  | revives =>
    split at hstep
    case h_2 => contradiction
    case h_1 restored hphase =>
      simp only [Option.ite_none_right_eq_some, Option.some.injEq] at hstep
      obtain ⟨-, rfl⟩ := hstep
      refine h.getOrCreate (.revived restored) ?_ ?_ (by simp [EditPhase.runtime?])
      · rw [hphase]
        exact fun made hmade => hmade
      · rw [hphase]
        exact fun made hmade => hmade
  | revivedStarts streamSequence =>
    split at hstep
    case h_2 => contradiction
    case h_1 restored tailer hphase =>
      cases hstep
      have hwritten := h.writeForOthers (by rw [hphase]; rfl)
        (if (world.runtimes tailer).turnInFlight then [] else world.orphanEdge streamSequence) []
      have hwrittenTurns := hwritten.turns
      have hwrittenFiles := hwritten.files
      have hsame : (world.writeForOthers (if (world.runtimes tailer).turnInFlight then []
          else world.orphanEdge streamSequence) []).phase = .revived restored tailer := hphase
      rw [hsame] at hwrittenTurns hwrittenFiles
      cases restored with
      | true => exact hwritten.finish hwrittenTurns hwrittenFiles
      | false => exact hwritten.finish trivial trivial
  | obtains call kind =>
    obtain ⟨-, rfl⟩ := hstep
    exact h.obtains call kind
  | repairs =>
    simp only [repairCall] at hstep
    split at hstep
    case h_2 => contradiction
    case h_1 kind id hcall =>
      simp only [Option.ite_none_left_eq_some, Option.some.injEq] at hstep
      obtain ⟨-, rfl⟩ := hstep
      exact h.writeForOthers hok _ _
  | callAccepted => exact h.acceptCall hok hstep
  | callCancels call streamSequence =>
    simp only [cancelCall] at hstep
    split at hstep
    case h_2 => contradiction
    case h_1 kind id hcall =>
      split at hstep
      case h_2 => contradiction
      case h_1 turn hturn =>
        simp only [Option.ite_none_right_eq_some, Option.some.injEq] at hstep
        obtain ⟨-, rfl⟩ := hstep
        exact h.terminalize hturn streamSequence false
  | callEnds call =>
    obtain rfl := hstep
    exact h.endCall call
  | output id lines records =>
    split at hstep
    case h_2 => contradiction
    case h_1 turn hturn =>
      cases hstep
      exact h.writeFor hturn lines records
  | completes id streamSequence =>
    split at hstep
    case h_2 => contradiction
    case h_1 turn hturn =>
      simp only [Option.ite_none_right_eq_some, Option.some.injEq] at hstep
      obtain ⟨-, rfl⟩ := hstep
      exact h.terminalize hturn streamSequence false
  | ownerReplaced =>
    obtain rfl := hstep
    refine ⟨?_, ?_, h.registered, h.spared, h.kept⟩
    · show TurnsHold _ world.phase.turns
      cases hzone : world.phase.turns <;> rw [hzone] at hturns <;> exact hturns
    · show FilesHold _ world.phase.files
      cases hzone : world.phase.files <;> rw [hzone] at hfiles <;> exact hfiles

/-- An edit that nothing disturbs is all or nothing: where it raises it leaves both files with what
they held and what was written for other callers, and it cancels no turn of theirs. -/
theorem edit_resend_all_or_nothing {storeFile : List HubLine} {transcript : Option (List String)}
    {ops : List EditOp} (hrun : Run step Undisturbed (start storeFile transcript) ops world) :
    world.AllOrNothing := by
  have hsound : world.Sound :=
    hrun.invariant (sound_start storeFile transcript) fun _ _ _ hsound hok hstep =>
      hsound.step hok hstep
  exact hsound.allOrNothing

private def editedFile : List HubLine :=
  [.event (some 0) { type := .turnStarted, turnId := some "sent" },
    .event (some 1) { type := .turnCompleted, turnId := some "sent" }]

private def editedTranscript : Option (List String) := some ["question", "answer"]

private def cutOps : List EditOp :=
  [.begins, .finds (some 0), .looks, .stopsPrevious true, .unregistersPrevious, .snapshotsStore,
    .snapshotsTranscript true, .truncates, .forks 0]

private def undoOps : List EditOp :=
  [.catches, .stopsCreated true 9, .unregistersCreated, .restoresStore .written,
    .restoresTranscript none, .revives, .revivedStarts 9]

/-- A subscriber comes back while the edited message is sent, and the provider refuses it. -/
private def refusedOps : List EditOp :=
  [.obtains 0 .subscribe] ++ cutOps ++
    [.restarts, .starts 0, .obtains 1 .subscribe, .accepts "edited" 0, .output 1 [] ["edited"],
      .fails] ++ undoOps

theorem edit_resend_all_or_nothing_rolled_back : ∃ world, Run step Undisturbed
    (start editedFile editedTranscript) refusedOps world ∧
      (world.phase = .ended .rolledBack ∧ world.storeFile = editedFile ∧
        world.transcript = editedTranscript) ∧ world.AllOrNothing := by
  have hany : (execOk step Undisturbed (start editedFile editedTranscript) refusedOps).any
      (fun world => decide (world.phase = .ended .rolledBack ∧ world.storeFile = editedFile ∧
        world.transcript = editedTranscript)) := by decide +kernel
  obtain ⟨world, hexec, hends⟩ := (Option.any_eq_true _ _).mp hany
  have hrun := Run.of_execOk hexec
  exact ⟨world, hrun, of_decide_eq_true hends, edit_resend_all_or_nothing hrun⟩

/-- Between the copies and the cut another caller's send makes a runtime; the edit stops its turn
as if it had begun it, and the restore write leaves out that it was sent. -/
private def overtakenEditOps : List EditOp :=
  [.obtains 0 .subscribe] ++ cutOps ++
    [.obtains 1 (.sendMessage "other" false), .callAccepted 1 5, .fails] ++ undoOps

theorem edit_resend_cancels_other_turn : ∃ world, exec step (start editedFile editedTranscript)
    overtakenEditOps = some world ∧ world.phase = .ended .rolledBack ∧ world.current = true ∧
      world.cancelled = ["other"] ∧ world.storeFile = editedFile ∧ ¬ world.AllOrNothing := by
  have hany : (exec step (start editedFile editedTranscript) overtakenEditOps).any
      (fun world => decide ((world.phase = .ended .rolledBack ∧ world.current = true) ∧
        world.cancelled = ["other"] ∧ world.storeFile = editedFile)) := by decide +kernel
  obtain ⟨world, hexec, ⟨hphase, hcurrent⟩, hcancelled, hfile⟩ := exists_exec_of_any hany
  refine ⟨world, hexec, hphase, hcurrent, hcancelled, hfile, fun howes => ?_⟩
  have hspared := howes.spared
  rw [hcancelled] at hspared
  contradiction

end EditWorld

end ClaudeHub
