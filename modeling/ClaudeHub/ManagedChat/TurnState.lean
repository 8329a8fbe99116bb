import ClaudeHub.AgentStream.TurnLifecycle
import ClaudeHub.Lib.Decimal
import ClaudeHub.ManagedChat.Evidence

/-! # The running turn of a managed Chat

Delivery keeps its own reading of the event log: the set of all turns that have started and
were not completed. An error does not complete a turn here, and a turn without an id goes by
its epoch.
-/

namespace ClaudeHub

open Brackets

inductive DurableTurnState
  | empty | terminal | unfinished | unknown
  deriving DecidableEq, Repr

/-- `f"epoch:{run_epoch}"` -/
def epochKey (runEpoch : JsonValue) : String := "epoch:" ++ runEpoch.printed

def RawEvent.turnKey (raw : RawEvent) : String :=
  match raw.turnId with
  | .text turnId => turnId
  | _ => epochKey raw.runEpoch

structure DurableScan where
  unfinished : Finset String := ∅
  sawLifecycle : Bool := false
  deriving DecidableEq

namespace DurableScan

def see (scan : DurableScan) (raw : RawEvent) : DurableScan :=
  if raw.type = .text "turn_started" then ⟨insert raw.turnKey scan.unfinished, true⟩
  else if raw.type = .text "turn_completed" then ⟨scan.unfinished.erase raw.turnKey, true⟩
  else scan

/-- The loop body of `_scan_durable_turn_state`; a row that is no object raises. -/
def seeRow (scan : DurableScan) : StreamRow → Except StreamReadError DurableScan
  | .blank => .ok scan
  | .notJson | .notObject => .error .corrupt
  | .object raw => .ok (scan.see raw)

def state (scan : DurableScan) : DurableTurnState :=
  if scan.unfinished ≠ ∅ then .unfinished else if scan.sawLifecycle then .terminal else .empty

end DurableScan

def scanDurableTurnState : StreamFile → DurableTurnState
  | .missing => .empty
  | .unreadable => .unknown
  | .readable rows =>
    match rows.foldlM DurableScan.seeRow {} with
    | .ok scan => scan.state
    | .error _ => .unknown

/-- What `path.stat` tells a file by. -/
structure FileIdentity where
  path : String
  inode : Nat
  size : Nat
  mtimeNs : Nat
  deriving DecidableEq, Repr

inductive StatResult
  | notFound
  | failed
  | found (identity : FileIdentity)
  deriving DecidableEq, Repr

abbrev TurnStateCache := Option (FileIdentity × DurableTurnState)

/-- `_durable_turn_state`, with the cache entry of the session. -/
def durableTurnState (stat : StatResult) (cached : TurnStateCache) (file : StreamFile) :
    DurableTurnState × TurnStateCache :=
  match stat with
  | .notFound => (.empty, none)
  | .failed => (.unknown, cached)
  | .found identity =>
    match cached with
    | some (seen, state) =>
      if seen = identity then (state, cached)
      else (scanDurableTurnState file, some (identity, scanDurableTurnState file))
    | none => (scanDurableTurnState file, some (identity, scanDurableTurnState file))

/-- The file is found where there is one, and an entry under its identity was scanned from what
it holds. -/
structure TurnStateCache.Current (cached : TurnStateCache) (stat : StatResult)
    (file : StreamFile) : Prop where
  missing : stat = .notFound → file = .missing
  readable : stat ≠ .failed
  scanned : ∀ identity state, cached = some (identity, state) → stat = .found identity →
    state = scanDurableTurnState file

variable {file : StreamFile}

theorem durableTurnState_eq {stat : StatResult} {cached : TurnStateCache}
    (h : cached.Current stat file) :
    (durableTurnState stat cached file).1 = scanDurableTurnState file := by
  unfold durableTurnState
  cases stat with
  | notFound => rw [h.missing rfl]; rfl
  | failed => exact (h.readable rfl).elim
  | found identity =>
    cases cached with
    | none => rfl
    | some entry =>
      obtain ⟨seen, state⟩ := entry
      by_cases hseen : seen = identity
      · subst hseen
        simpa using h.scanned seen state rfl rfl
      · simp [hseen]

/-- `_has_running_turn`, for a runtime with this status. -/
def hasRunningTurn (delivered : List String) (token : String) (attempts : Attempts)
    (runtime : Option AgentRuntimeStatus) (durable : DurableTurnState) : Bool :=
  let deliveryIs (state : ChatDeliveryState) (entry : String × AttemptRecord) : Bool :=
    recordDeliveryState delivered token entry.1 (some entry.2) = state
  if attempts.rows.any (deliveryIs .sending) then true
  else if runtime = some .working then true
  else if durable = .unfinished ∨ durable = .unknown then true
  else
    durable = .empty && attempts.rows.any fun entry =>
      deliveryIs .accepted entry && decide (entry.1 ∉ delivered)

def StreamEvent.turnKey (event : StreamEvent) : String :=
  match event.turnId with
  | some turnId => turnId
  | none => epochKey (.ofNumber event.runEpoch)

def StreamEvent.edge (event : StreamEvent) : Edge String :=
  if event.type = .turnStarted then .opens event.turnKey
  else if event.type = .turnCompleted then .closes event.turnKey
  else .other

def EveryTurnCompleted (events : List StreamEvent) : Prop :=
  ∀ before started after, Occurs events before started after → started.type = .turnStarted →
    ∃ later ∈ after, later.type = .turnCompleted ∧ later.turnKey = started.turnKey

variable {validate : Validator}

def DurableScan.seeEvent (scan : DurableScan) (event : StreamEvent) : DurableScan where
  unfinished := seeKey StreamEvent.edge scan.unfinished event
  sawLifecycle := scan.sawLifecycle || event.type = .turnStarted || event.type = .turnCompleted

theorem RawEvent.Dumps.turnKey {raw : RawEvent} {event : StreamEvent} (h : raw.Dumps event) :
    raw.turnKey = event.turnKey := by
  unfold RawEvent.turnKey StreamEvent.turnKey
  rw [h.turnId, h.runEpoch]
  cases event.turnId <;> rfl

theorem DurableScan.see_eq {raw : RawEvent} {event : StreamEvent} (h : raw.Dumps event)
    (scan : DurableScan) : scan.see raw = scan.seeEvent event := by
  have htype : ∀ type : AgentStreamEventType,
      raw.type = .text type.value ↔ event.type = type := by
    intro type
    rw [h.type, JsonValue.text.injEq, AgentStreamEventType.value_injective.eq_iff]
  have hstarts := htype .turnStarted
  have hcompleted := htype .turnCompleted
  simp only [AgentStreamEventType.value] at hstarts hcompleted
  unfold see seeEvent seeKey StreamEvent.edge
  simp only [hstarts, hcompleted, h.turnKey]
  by_cases hs : event.type = .turnStarted
  · simp [hs]
  · by_cases hc : event.type = .turnCompleted
    · simp [hc]
    · simp [hs, hc]

theorem foldl_seeEvent_unfinished (events : List StreamEvent) :
    (events.foldl DurableScan.seeEvent {}).unfinished = openKeys StreamEvent.edge events := by
  induction events using List.reverseRecOn with
  | nil => rfl
  | append_singleton events event ih =>
    rw [List.foldl_append, openKeys_concat, ← ih]
    rfl

theorem openKeys_edge_eq_empty (events : List StreamEvent) :
    openKeys StreamEvent.edge events = ∅ ↔ EveryTurnCompleted events := by
  have hopens : ∀ (event : StreamEvent) (key : String),
      event.edge = .opens key ↔ event.type = .turnStarted ∧ event.turnKey = key := by
    intro event key
    unfold StreamEvent.edge
    by_cases hs : event.type = .turnStarted
    · simp [hs]
    · by_cases hc : event.type = .turnCompleted <;> simp [hs, hc]
  have hcloses : ∀ (event : StreamEvent) (key : String),
      event.edge = .closes key ↔ event.type = .turnCompleted ∧ event.turnKey = key := by
    intro event key
    unfold StreamEvent.edge
    by_cases hs : event.type = .turnStarted
    · simp [hs]
    · by_cases hc : event.type = .turnCompleted <;> simp [hs, hc]
  rw [openKeys_eq_empty]
  simp only [hopens, hcloses]
  constructor
  · intro h before started after hoccurs hstarts
    exact h before started after started.turnKey hoccurs ⟨hstarts, rfl⟩
  · rintro h before started after key hoccurs ⟨hstarts, rfl⟩
    exact h before started after hoccurs hstarts

def DurableTurnState.ended (state : DurableTurnState) : Prop :=
  state = .terminal ∨ state = .empty

theorem DurableScan.state_ended (scan : DurableScan) :
    scan.state.ended ↔ scan.unfinished = ∅ := by
  unfold DurableScan.state DurableTurnState.ended
  by_cases hnone : scan.unfinished = ∅
  · cases scan.sawLifecycle <;> simp [hnone]
  · simp [hnone]

theorem scanDurableTurnState_eq (h : file.WellFormed validate) :
    scanDurableTurnState file =
      ((file.events validate).foldl DurableScan.seeEvent {}).state := by
  cases file with
  | missing => rfl
  | unreadable => exact h.elim
  | readable =>
    have hfold := foldlM_rows (f := DurableScan.seeRow) (g := DurableScan.seeEvent)
      (fun _ => rfl) (fun scan raw event _ hdumps => by
        rw [DurableScan.seeRow, scan.see_eq hdumps]) h {}
    simp only [scanDurableTurnState, hfold, StreamFile.events]

theorem scanDurableTurnState_ended (h : file.WellFormed validate) :
    (scanDurableTurnState file).ended ↔ EveryTurnCompleted (file.events validate) := by
  rw [scanDurableTurnState_eq h, DurableScan.state_ended, foldl_seeEvent_unfinished,
    openKeys_edge_eq_empty]

/-! ## How the readers compare -/

theorem epochKey_injective : Function.Injective fun runEpoch => epochKey (.ofNumber runEpoch) := by
  intro a b h
  have hprinted := (String.append_right_inj "epoch:").mp h
  have hnone : ∀ n : Int,
      (JsonValue.ofNumber none).printed ≠ (JsonValue.ofNumber (some n)).printed := by
    intro n heq
    have hmem : 'N' ∈ n.repr.toList := by
      rw [← show "None" = n.repr from heq]
      decide
    rcases Decimal.mem_intRepr hmem with hc | hc <;> exact absurd hc (by decide)
  cases a with
  | none =>
    cases b with
    | none => rfl
    | some n => exact absurd hprinted (hnone n)
  | some m =>
    cases b with
    | none => exact absurd hprinted.symm (hnone m)
    | some => exact congrArg some (Decimal.intRepr_injective hprinted)

def PlainTurnIds (events : List StreamEvent) : Prop :=
  ∀ event ∈ events, ∀ turnId, event.turnId = some turnId →
    ∀ runEpoch : Option Int, turnId ≠ epochKey (.ofNumber runEpoch)

theorem PlainTurnIds.sameTurn {events : List StreamEvent} (h : PlainTurnIds events)
    {event started : StreamEvent} (hevent : event ∈ events) (hstarted : started ∈ events)
    (hkey : event.turnKey = started.turnKey) : event.sameTurn started = true := by
  unfold StreamEvent.turnKey at hkey
  unfold StreamEvent.sameTurn
  cases hs : started.turnId with
  | some turnId =>
    cases he : event.turnId with
    | some => simpa [hs, he] using hkey
    | none =>
      rw [hs, he] at hkey
      exact absurd hkey.symm (h started hstarted turnId hs event.runEpoch)
  | none =>
    cases he : event.turnId with
    | some other =>
      rw [hs, he] at hkey
      exact absurd hkey (h event hevent other he started.runEpoch)
    | none =>
      rw [hs, he] at hkey
      simpa using epochKey_injective hkey

theorem EveryTurnCompleted.lastTurnEnded {events : List StreamEvent}
    (h : EveryTurnCompleted events) (hplain : PlainTurnIds events) : LastTurnEnded events := by
  intro before started after hoccurs hstarts _
  obtain ⟨later, hmem, hcompleted, hkey⟩ := h before started after hoccurs hstarts
  have hin : ∀ event ∈ started :: after, event ∈ events := by
    intro event hevent
    rw [hoccurs]
    exact List.mem_append_right before hevent
  refine ⟨later, hmem, .inl hcompleted, hplain.sameTurn ?_ ?_ hkey⟩
  · exact hin later (List.mem_cons_of_mem started hmem)
  · exact hin started List.mem_cons_self

/-- No message is with the provider, and the accepted ones have been delivered. -/
def DeliveriesSettled (delivered : List String) (token : String) (attempts : Attempts) : Prop :=
  ∀ entry ∈ attempts.rows,
    recordDeliveryState delivered token entry.1 (some entry.2) ≠ .sending ∧
      (recordDeliveryState delivered token entry.1 (some entry.2) = .accepted →
        entry.1 ∈ delivered)

theorem hasRunningTurn_iff {delivered : List String} {token : String} {attempts : Attempts}
    (h : DeliveriesSettled delivered token attempts) {runtime : Option AgentRuntimeStatus}
    (hruntime : runtime ≠ some .working) (durable : DurableTurnState) :
    hasRunningTurn delivered token attempts runtime durable = true ↔ ¬ durable.ended := by
  have hsending : attempts.rows.any (fun entry =>
      decide (recordDeliveryState delivered token entry.1 (some entry.2) = .sending)) = false := by
    simpa using fun name record hmem => (h (name, record) hmem).1
  have haccepted : attempts.rows.any (fun entry =>
      decide (recordDeliveryState delivered token entry.1 (some entry.2) = .accepted) &&
        decide (entry.1 ∉ delivered)) = false := by
    simpa using fun name record hmem => (h (name, record) hmem).2
  simp only [hasRunningTurn, hsending, haccepted, hruntime, Bool.false_eq_true, if_false,
    Bool.and_false]
  unfold DurableTurnState.ended
  cases durable <;> simp

/-- The Chat readers always agree; delivery's reader calls every turn that is not completed
under its own key unfinished, so it agrees with them where an ended last turn leaves no started
turn without completion. -/
theorem turn_readers_compare {validate : Validator} {file : StreamFile}
    (h : file.WellFormed validate) {turnId : TurnId} (hid : turnId ≠ "") :
    ∃ snapshot, inspectTurnLifecycle validate turnId file = .ok snapshot ∧
      latestUnfinishedTurn validate file = .ok snapshot.latestUnfinished ∧
      (snapshot.latestUnfinished = none ↔ LastTurnEnded (file.events validate)) ∧
      ((scanDurableTurnState file).ended ↔ EveryTurnCompleted (file.events validate)) ∧
      (PlainTurnIds (file.events validate) →
        ((scanDurableTurnState file).ended → snapshot.latestUnfinished = none) ∧
        ((snapshot.latestUnfinished = none ↔ (scanDurableTurnState file).ended) ↔
          (LastTurnEnded (file.events validate) → EveryTurnCompleted (file.events validate)))) ∧
      ∀ (stat : StatResult) (cached : TurnStateCache) (delivered : List String) (token : String)
        (attempts : Attempts) (runtime : Option AgentRuntimeStatus),
        cached.Current stat file → DeliveriesSettled delivered token attempts →
        runtime ≠ some .working →
        (hasRunningTurn delivered token attempts runtime (durableTurnState stat cached file).1 =
          true ↔ ¬ EveryTurnCompleted (file.events validate)) := by
  have hlatest := foldl_see_latest turnId (file.events validate)
  have hnone := lastOpen_eq_none_iff (file.events validate)
  have hended := scanDurableTurnState_ended h
  rw [← hlatest] at hnone
  refine ⟨_, inspectTurnLifecycle_eq h hid, ?_, hnone, hended, fun hplain => ?_, ?_⟩
  · rw [latestUnfinishedTurn_eq h, hlatest]
  · have hforward := fun hcompleted : EveryTurnCompleted (file.events validate) =>
      hcompleted.lastTurnEnded hplain
    rw [hnone, hended]
    exact ⟨hforward, fun hiff => hiff.mp, fun himp => ⟨himp, hforward⟩⟩
  · intro stat cached delivered token attempts runtime hcurrent hsettled hruntime
    rw [hasRunningTurn_iff hsettled hruntime, durableTurnState_eq hcurrent, hended]

private def validateFields : Validator
  | ⟨.text type, turnId, runEpoch, _⟩ => do
      let type ← [AgentStreamEventType.turnStarted, .turnCompleted, .textDelta, .thinkingDelta,
        .toolCallStarted, .toolCallCompleted, .approvalRequired, .approvalResolved, .error,
        .status].find? fun known => known.value = type
      let turnId ← match turnId with
        | .null => some none
        | .text turnId => some (some turnId)
        | _ => none
      let runEpoch ← match runEpoch with
        | .null => some none
        | .number runEpoch => some (some runEpoch)
        | _ => none
      return { type := type, turnId := turnId, runEpoch := runEpoch }
  | _ => none

private def lifecycleRow (type : String) (turnId : JsonValue) : StreamRow :=
  .object { type := .text type, turnId := turnId, runEpoch := .number 1 }

private def completedLog : StreamFile :=
  .readable [lifecycleRow "turn_started" (.text "turn"), .blank,
    lifecycleRow "turn_completed" (.text "turn")]

theorem turn_readers_compare_completed :
    completedLog.WellFormed validateFields ∧
      ∃ snapshot, inspectTurnLifecycle validateFields "turn" completedLog = .ok snapshot ∧
        latestUnfinishedTurn validateFields completedLog = .ok snapshot.latestUnfinished := by
  have hwell : completedLog.WellFormed validateFields := by
    intro row hrow
    simp only [List.mem_cons, List.not_mem_nil, or_false] at hrow
    rcases hrow with rfl | rfl | rfl
    · exact ⟨{ type := .turnStarted, turnId := some "turn", runEpoch := some 1 }, by decide,
        rfl, rfl, rfl⟩
    · trivial
    · exact ⟨{ type := .turnCompleted, turnId := some "turn", runEpoch := some 1 }, by decide,
        rfl, rfl, rfl⟩
  obtain ⟨snapshot, hinspect, hlatest, -⟩ := turn_readers_compare hwell (by decide : "turn" ≠ "")
  exact ⟨hwell, snapshot, hinspect, hlatest⟩

private def failedLog : StreamFile :=
  .readable [lifecycleRow "turn_started" (.text "turn"), lifecycleRow "error" (.text "turn")]

private def spelledLog : StreamFile :=
  .readable [lifecycleRow "turn_started" (.text "epoch:1"), lifecycleRow "turn_completed" .null]

/-- Chat sees a failed turn as ended and delivery does not; a turn id spelled like an epoch key
gives the reverse. -/
theorem turn_readers_disagree :
    (latestUnfinishedTurn validateFields failedLog = .ok none ∧
      scanDurableTurnState failedLog = .unfinished) ∧
    ((∃ started, latestUnfinishedTurn validateFields spelledLog = .ok (some started)) ∧
      scanDurableTurnState spelledLog = .terminal) := by
  let started : StreamEvent := { type := .turnStarted, turnId := some "epoch:1", runEpoch := some 1 }
  refine ⟨⟨?_, ?_⟩, ⟨started, ?_⟩, ?_⟩
  all_goals decide +kernel

end ClaudeHub
