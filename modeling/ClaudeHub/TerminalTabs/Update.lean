import ClaudeHub.Models.Enums

/-! # Updating a tab

The rules for MASO are checked before a field of the tab is assigned; those for the target are
checked when the launch fields and the agent already are.
-/

namespace ClaudeHub.TabUpdate

inductive AgentType
  | claude | codex | traex | maso | cursor | antigravity | terminal
  deriving DecidableEq

inductive ExecutionTarget
  /-- `LOCAL` -/
  | hub
  | remote
  deriving DecidableEq

inductive CursorTransport
  | terminal | terminalTranscript | acp | native
  deriving DecidableEq

/-- The fields of a `TTYDProcess` that an update reads or assigns. -/
structure Tab (ε : Type) where
  name : String
  shell : String := ""
  cwd : Option String := none
  soloMode : Bool := false
  sessionKind : SessionKind := .terminal
  agentType : AgentType
  agentSessionId : Option SessionId := none
  cursorTransport : CursorTransport := .terminal
  cursorDataDir : Option String := none
  cursorCliVersion : Option String := none
  cursorTranscriptPath : Option String := none
  cursorTranscriptSchema : Option String := none
  target : ExecutionTarget := .hub
  remoteProfileId : Option String := none
  remoteCwd : Option String := none
  remoteReconnect : Bool := true
  env : ε
  deriving DecidableEq

structure Update (ε : Type) where
  name : Option String := none
  shell : Option String := none
  cwd : Option String := none
  soloMode : Option Bool := none
  agentType : Option AgentType := none
  target : Option ExecutionTarget := none
  remoteProfileId : Option String := none
  remoteCwd : Option String := none
  remoteReconnect : Option Bool := none
  env : Option ε := none

/-- What an update asks of the environment, the profiles and the transcripts on the disk. -/
structure Runtime (ε : Type) where
  /-- `maso_base_url`, which may raise. -/
  masoBaseUrl : ε → Except String String
  interactiveUnsupported : String → Bool
  cleanEnv : ε → ε
  prepareAgentEnv : Tab ε → ε
  setupTunnelEnv : Tab ε → ε
  cursorTerminalTranscriptProvenanceValid : Tab ε → Bool

variable {ε : Type} [DecidableEq ε] (runtime : Runtime ε) (uuid4 : String)

def checkMaso (process : Tab ε) (update : Update ε) : Except String Unit := do
  if update.agentType.any fun agentType =>
      agentType ≠ process.agentType && (agentType = .maso || process.agentType = .maso) then
    throw "Create a new Chat to change the MASO provider"
  if process.agentType = .maso ∧ update.env.any (· ≠ process.env) then
    throw "Use switch-env to change a MASO Chat's model"
  if process.agentType = .maso ∧ update.cwd.any (some · ≠ process.cwd) then
    throw "Create a new MASO Chat to change its working directory"
  if update.agentType.getD process.agentType = .maso ∧
      (process.sessionKind ≠ .chat ∨ update.target.getD process.target ≠ .hub) then
    throw "MASO is only available for local Chat sessions"
  match update.env with
  | none => return
  | some env =>
    if process.agentType = .maso then
      if (← runtime.masoBaseUrl env) ≠ (← runtime.masoBaseUrl process.env) then
        throw "Create a new MASO Chat to change MASO_BASE_URL"

def Tab.resetCursor (process : Tab ε) : Tab ε :=
  { process with
    cursorTransport := .terminal
    cursorDataDir := none
    cursorCliVersion := none
    cursorTranscriptPath := none
    cursorTranscriptSchema := none }

/-- The fields that are assigned before the target is looked at. -/
def assignLaunch (process : Tab ε) (update : Update ε) : Tab ε :=
  let process :=
    { process with
      name := (truthy update.name).getD process.name
      shell := update.shell.getD process.shell
      cwd := update.cwd.or process.cwd
      soloMode := update.soloMode.getD process.soloMode }
  match update.agentType with
  | none => process
  | some agentType =>
    if process.agentType = agentType then process
    else
      { process.resetCursor with
        agentSessionId := if agentType = .claude ∨ agentType = .codex then some uuid4 else none
        agentType }

def noninteractiveRemoteUnsupported : String :=
  "This SSH alias is browse-only: it neither accepts an ssh argv command nor exposes an " ++
    "interactive PTY the Hub can drive. Directory listing may work, but Terminal tabs and " ++
    "remote agents cannot run on it."

def checkTarget (process : Tab ε) (update : Update ε) : Except String Unit := do
  if update.target.getD process.target = .remote then
    if process.sessionKind = .chat then
      throw "Chat sessions run on the Hub host; use a Terminal session for remote SSH"
    let profileId := (update.remoteProfileId.or process.remoteProfileId).getD ""
    if runtime.interactiveUnsupported profileId then
      throw noninteractiveRemoteUnsupported

def assignEnv (process : Tab ε) (env : ε) : Tab ε :=
  let cleaned : Tab ε := { process with env := runtime.cleanEnv env }
  let prepared : Tab ε := { process with env := runtime.prepareAgentEnv cleaned }
  if process.agentType = .claude then prepared
  else { process with env := runtime.setupTunnelEnv prepared }

/-- The rest of an update that is not rejected. -/
def assignTarget (process : Tab ε) (update : Update ε) : Tab ε :=
  let moved : Tab ε :=
    { process with
      target := update.target.getD process.target
      remoteProfileId := update.remoteProfileId.or process.remoteProfileId
      remoteCwd := update.remoteCwd.or process.remoteCwd
      remoteReconnect := update.remoteReconnect.getD process.remoteReconnect }
  let launched := update.env.elim moved (assignEnv runtime moved)
  let checked :=
    if launched.cursorTransport = .terminalTranscript ∧
        ¬ (launched.target = .hub ∧ runtime.cursorTerminalTranscriptProvenanceValid launched) then
      launched.resetCursor
    else launched
  if checked.sessionKind = .chat ∧ checked.agentType = .cursor ∧ checked.target = .hub ∧
      checked.cursorTransport = .terminal then
    { checked with cursorTransport := .native }
  else checked

/-- The tab after `update_tab`, and whether the update was rejected. -/
def updateTab (process : Tab ε) (update : Update ε) : Tab ε × Except String Unit :=
  match checkMaso runtime process update with
  | .error error => (process, .error error)
  | .ok () =>
    match checkTarget runtime process update with
    | .error error => (assignLaunch uuid4 process update, .error error)
    | .ok () => (assignTarget runtime (assignLaunch uuid4 process update) update, .ok ())

/-- What the update gives for the launch fields and the agent is what the tab has. -/
structure SameLaunch (process : Tab ε) (update : Update ε) : Prop where
  name : ∀ name ∈ truthy update.name, name = process.name
  shell : ∀ shell ∈ update.shell, shell = process.shell
  cwd : ∀ cwd ∈ update.cwd, some cwd = process.cwd
  soloMode : ∀ soloMode ∈ update.soloMode, soloMode = process.soloMode
  agentType : ∀ agentType ∈ update.agentType, agentType = process.agentType

variable {process : Tab ε} {update : Update ε}

theorem getD_of_same {β : Type} {given : Option β} {current : β}
    (h : ∀ value ∈ given, value = current) : given.getD current = current := by
  cases given with
  | none => rfl
  | some value => exact h value rfl

omit [DecidableEq ε] in
theorem assignLaunch_eq_iff : assignLaunch uuid4 process update = process ↔
    SameLaunch process update := by
  constructor
  · intro h
    have hagent (agentType : AgentType) (hgiven : agentType ∈ update.agentType) :
        agentType = process.agentType := by
      by_contra hne
      have hassigned := congrArg Tab.agentType h
      rw [assignLaunch, Option.mem_def.mp hgiven] at hassigned
      simp only [if_neg (Ne.symm hne)] at hassigned
      exact hne hassigned
    have hlaunch : assignLaunch uuid4 process update =
        { process with
          name := (truthy update.name).getD process.name
          shell := update.shell.getD process.shell
          cwd := update.cwd.or process.cwd
          soloMode := update.soloMode.getD process.soloMode } := by
      unfold assignLaunch
      cases hgiven : update.agentType with
      | none => rfl
      | some agentType => exact if_pos (hagent agentType hgiven).symm
    rw [hlaunch] at h
    refine ⟨fun name hname => ?_, fun shell hshell => ?_, fun cwd hcwd => ?_,
      fun soloMode hsolo => ?_, hagent⟩
    · simpa [Option.mem_def.mp hname] using congrArg Tab.name h
    · simpa [Option.mem_def.mp hshell] using congrArg Tab.shell h
    · simpa [Option.mem_def.mp hcwd] using congrArg Tab.cwd h
    · simpa [Option.mem_def.mp hsolo] using congrArg Tab.soloMode h
  · intro h
    have hcwd : update.cwd.or process.cwd = process.cwd := by
      cases hgiven : update.cwd with
      | none => rfl
      | some cwd => exact h.cwd cwd hgiven
    unfold assignLaunch
    rw [getD_of_same h.name, getD_of_same h.shell, hcwd, getD_of_same h.soloMode]
    cases hgiven : update.agentType with
    | none => rfl
    | some agentType => exact if_pos (h.agentType agentType hgiven).symm

/-- A rejected update leaves the tab as it was exactly where a rule for MASO rejects it, or
nothing that it gives for the launch fields and the agent is new. -/
theorem rejected_update_unchanged_iff (runtime : Runtime ε) (uuid4 : String) (process : Tab ε)
    (update : Update ε) (error : String)
    (hrejected : (updateTab runtime uuid4 process update).2 = .error error) :
    (updateTab runtime uuid4 process update).1 = process ↔
      checkMaso runtime process update ≠ .ok () ∨ SameLaunch process update := by
  unfold updateTab at hrejected ⊢
  cases hmaso : checkMaso runtime process update with
  | error => simp
  | ok =>
    cases htarget : checkTarget runtime process update with
    | error => simp [assignLaunch_eq_iff]
    | ok => simp [hmaso, htarget] at hrejected

private def browseOnly : Runtime Unit where
  masoBaseUrl _ := .ok ""
  interactiveUnsupported id := id = "browse"
  cleanEnv := id
  prepareAgentEnv := Tab.env
  setupTunnelEnv := Tab.env
  cursorTerminalTranscriptProvenanceValid _ := false

private def codexTab : Tab Unit :=
  { name := "tab", agentType := .codex, agentSessionId := some "session", env := () }

private def movedToClaude : Update Unit :=
  { agentType := some .claude, target := some .remote, remoteProfileId := some "browse" }

theorem rejected_update_unchanged_target :
    (updateTab browseOnly "uuid" codexTab { movedToClaude with agentType := none }).1 = codexTab :=
  (rejected_update_unchanged_iff browseOnly "uuid" codexTab
    { movedToClaude with agentType := none } noninteractiveRemoteUnsupported rfl).mpr
      (.inr ⟨nofun, nofun, nofun, nofun, nofun⟩)

/-- The session of the conversation is lost with an update that is refused. -/
theorem rejected_update_loses_session :
    ¬ ∀ (process : Tab Unit) (update : Update Unit) (error : String),
      (updateTab browseOnly "uuid" process update).2 = .error error →
      (updateTab browseOnly "uuid" process update).1 = process := fun h =>
  absurd (congrArg Tab.agentSessionId
    (h codexTab movedToClaude noninteractiveRemoteUnsupported rfl)) (by decide)

end ClaudeHub.TabUpdate
