import Mathlib.Data.List.Infix
import Mathlib.Data.List.MinMax
import ClaudeHub.ChatInbox.Inbox

/-! # Pumping, submission and reconciliation

The pump of a tab admits the oldest message that blocks its queue and hands it to
a submission. The submission calls back immediately before it touches the
provider, and that call makes the message's mark durable.
-/

namespace ClaudeHub

/-- How a turn of the pump goes on: it is over, it goes on once the incarnation it
wrote is saved, or it submits the message once `dispatching` is saved. -/
inductive PumpTurn
  | ended (effect : InboxEffect Unit)
  | pinned (memory : InboxPayload) (target : EpochTarget)
  | submits (effect : InboxEffect Unit)

structure Observation where
  messageId : MessageId
  state : ChatMessageState
  updatedAt : Time
  recovering : Bool
  deriving DecidableEq, Repr

namespace InboxPayload

def active (p : InboxPayload) (tabId : TabId) : List ChatMessageEnvelope :=
  p.messages.rows.filter fun m =>
    m.tabId = tabId && m.blocksQueue && m.kind = .message

/-- The message that a turn of the pump works on; a queue with a delivery that is in
flight or undecided is left alone. -/
def head (p : InboxPayload) (tabId : TabId) : Option ChatMessageEnvelope :=
  if (p.active tabId).any fun m => m.state.inFlight || m.state = .uncertain then none
  else (p.active tabId).argmin ChatMessageEnvelope.sequence

/-- The end of a turn, with the target resolved and the incarnation of the message set. -/
def dispatchHead (p : InboxPayload) (closing : Bool) (item : ChatMessageEnvelope)
    (target : EpochTarget) (now : Time) : PumpTurn :=
  if target.incarnation ≠ item.incarnation then
    .ended (p.change closing item .failed (some "Chat incarnation/backend changed") now)
  else
    match target.waitingReason with
    | some reason => .ended (p.change closing item .waiting (some reason) now)
    | none =>
      let item := { item with attempts := item.attempts + 1 }
      .submits ((p.putMessage item).change closing item .dispatching none now)

def admitHead (p : InboxPayload) (closing : Bool) (item : ChatMessageEnvelope)
    (resolved : Except InboxError InboxTarget) (now : Time) : PumpTurn :=
  match resolved with
  | .error e =>
    let state := if e.status = 404 then .cancelled else .failed
    .ended (p.change closing item state (some e.detail) now)
  | .ok raw =>
    let (p, target) := p.target item.tabId raw
    if item.scheduled ∧ item.incarnation = .text "" then
      .pinned (p.putMessage { item with incarnation := target.incarnation }) target
    else p.dispatchHead closing item target now

def preparedHead (p : InboxPayload) (closing : Bool) (item : ChatMessageEnvelope)
    (reason : Option String) (resolved : Except InboxError InboxTarget) (now : Time) : PumpTurn :=
  if !item.blocksQueue then .ended (.keep p (.ok ()))
  else
    match reason with
    | some reason => .ended (p.change closing item .waiting (some reason) now)
    | none => p.admitHead closing item resolved now

/-- `_before_delivery`: the last check before the provider, and the durable mark. -/
def beforeDelivery (p : InboxPayload) (closing : Bool) (messageId : MessageId)
    (resolved : Except InboxError InboxTarget) : InboxEffect Unit :=
  if closing then .keep p (.error ⟨503, "Chat inbox is shutting down"⟩)
  else
    match p.messages.get? messageId with
    | none => .keep p (.error ⟨404, "Chat message not found"⟩)
    | some item =>
      if item.state ≠ .dispatching then
        .keep p (.error ⟨409, "Intent was cancelled before provider submission"⟩)
      else if item.kind = .questionAnswer then
        .write (p.putMessage { item with submissionStarted := true }) ()
      else
        match resolved with
        | .error e => .keep p (.error e)
        | .ok raw =>
          let (p, current) := p.target item.tabId raw
          if current.incarnation ≠ item.incarnation ∨ current.waitingReason.isSome then
            .keep p (.error ⟨409, "Chat target changed before submission"⟩)
          else .write (p.putMessage { item with submissionStarted := true }) ()

def submitReturned (p : InboxPayload) (closing : Bool) (messageId : MessageId) (now : Time) :
    InboxEffect Unit :=
  match p.messages.get? messageId with
  | none => .keep p (.ok ())
  | some item =>
    if item.state = .dispatching then p.change closing item .accepted none now
    else .keep p (.ok ())

def turnInFlightText : List Char := "turn is already in flight".toList

def submitRaised (p : InboxPayload) (closing : Bool) (messageId : MessageId)
    (exc : SubmitException) (now : Time) : InboxEffect Unit :=
  match p.messages.get? messageId with
  | none => .keep p (.ok ())
  | some live =>
    let retry (attempts : Nat) (reason : String) : InboxEffect Unit :=
      let item := { live with attempts := attempts }
      (p.putMessage item).change closing item .waiting (some reason) now
    let fail (detail : String) := p.change closing live .failed (some detail) now
    let default :=
      if (if live.scheduled then 13 else 12) ≤ live.attempts then
        fail "Chat runtime unavailable after 12 attempts"
      else retry live.attempts "Waiting for Chat runtime"
    if live.state.terminal then .keep p (.ok ())
    else if live.submissionStarted then
      p.change closing live .uncertain
        (some "Submission may have reached provider; no automatic replay") now
    else
      match exc with
      | .runtimeError text =>
        if !live.scheduled then default
        else if turnInFlightText <:+: text.toList then
          retry (live.attempts - 1) "waiting for the current Chat response"
        else fail text
      | .exception text => if live.scheduled then fail text else default
      | .inboxError e =>
        if e.status = 403 ∨ e.status = 404 then fail e.detail
        else if e.status = 409 then
          retry (if live.scheduled then live.attempts - 1 else 0) e.detail
        else default
      | .cancelled => default

def seconds (n : Nat) : Time := n * 1000000

def scheduledInflight (p : InboxPayload) : List MessageId :=
  (p.messages.rows.filter fun m => m.scheduled && m.state.inFlight).map
    ChatMessageEnvelope.messageId

/-- The restart policy for an answer; `true` where its question is to follow. -/
def restartAnswer (p : InboxPayload) (closing : Bool) (item : ChatMessageEnvelope) (now : Time) :
    InboxEffect Bool :=
  if !item.submissionStarted then
    match p.change closing item .queued (some "Recovered before answer submission") now with
    | .keep p reply => .keep p (reply.map fun _ => false)
    | .write p _ => .write p false
  else
    match p.change closing item .uncertain (some "Answer delivery needs reconciliation") now with
    | .keep p reply => .keep p (reply.map fun _ => true)
    | .write p _ => .write p true

def restsScheduled (item : ChatMessageEnvelope) (recovering : Bool) (now : Time) : Bool :=
  item.scheduled && item.state.inFlight && !recovering &&
    (now - item.updatedAt < seconds 600 ||
      match item.recoveryCheckedAt with
      | none => false
      | some checked => now - checked < seconds 60)

/-- The part of a pass over an ordinary message before the evidence is read. -/
def observe (p : InboxPayload) (item : ChatMessageEnvelope) (recovering : Bool) (now : Time) :
    InboxPayload × Option Observation :=
  if item.scheduled && item.state = .uncertain then (p, none)
  else if restsScheduled item recovering now then (p, none)
  else
    let checked :=
      if item.scheduled && item.state.inFlight && !recovering then
        p.putMessage { item with recoveryCheckedAt := some now }
      else p
    if item.state.inFlight || item.state = .uncertain then
      (checked, some ⟨item.messageId, item.state, item.updatedAt, recovering⟩)
    else (checked, none)

/-- Whether a scheduled delivery counts as dead: what a restart finds does, and else the
liveness probe decides, which is not asked about a live turn. -/
def deadDelivery (seen : Observation) (proof : InboxEvidence) (probedDead : Bool) : Bool :=
  proof ≠ .live && (seen.recovering || probedDead)

/-- The part of a pass over an ordinary message once the evidence has been read. -/
def resolve (p : InboxPayload) (closing : Bool) (seen : Observation) (proof : InboxEvidence)
    (probedDead restarting : Bool) (now : Time) : InboxEffect Unit :=
  match p.messages.get? seen.messageId with
  | none => .keep p (.ok ())
  | some item =>
    if item.state ≠ seen.state ∨ item.updatedAt ≠ seen.updatedAt then .keep p (.ok ())
    else if item.state.terminal then .keep p (.ok ())
    else
      match proof with
      | .completed => p.change closing item .completed none now
      | .failed => p.change closing item .failed none now
      | .cancelled => p.change closing item .cancelled none now
      | .absent | .started | .live =>
        if item.scheduled then
          if !deadDelivery seen proof probedDead then .keep p (.ok ())
          else if proof = .absent ∧ item.submissionStarted = false then
            let item := { item with legacyRecovery := false }
            (p.putMessage item).change closing item .queued
              (some "recovered before provider dispatch") now
          else
            p.change closing item .uncertain
              (some "Chat turn stopped reporting while it was in flight") now
        else if item.state = .accepted ∧ proof ≠ .live ∧ restarting = false ∧
            seconds 60 < now - item.updatedAt then
          p.change closing item .uncertain
            (some "Accepted turn lost runtime ownership; reconcile before retry") now
        else if restarting = true ∧ proof ≠ .live then
          if proof = .absent ∧ item.submissionStarted = false ∧ item.state = .dispatching then
            p.change closing item .queued none now
          else
            p.change closing item .uncertain
              (some "Provider delivery needs reconciliation; no automatic replay") now
        else .keep p (.ok ())

def expireMessage (now : Time) (item : ChatMessageEnvelope) : ChatMessageEnvelope :=
  if (item.state.terminal || (item.scheduled && item.state = .uncertain)) && !item.expired &&
      seconds (30 * 86400) < now - item.updatedAt then
    { item with
      message := "", expired := true, sourceTabId := none, principalEmail := none, actor := "" }
  else item

theorem expireMessage_messageId (now : Time) (item : ChatMessageEnvelope) :
    (expireMessage now item).messageId = item.messageId := by
  unfold expireMessage
  split <;> rfl

def expireQuestion (p : InboxPayload) (now : Time) (q : ChatQuestion) : ChatQuestion :=
  let stamp := ((q.answerId.bind p.messages.get?).map ChatMessageEnvelope.updatedAt).getD
    q.createdAt
  if (q.state = .resolved ∨ q.state = .stale) ∧ seconds (30 * 86400) < now - stamp then
    { q with prompt := "", card := q.card.cleared }
  else q

theorem expireQuestion_questionRef (p : InboxPayload) (now : Time) (q : ChatQuestion) :
    (p.expireQuestion now q).questionRef = q.questionRef := by
  unfold expireQuestion
  simp only
  split <;> rfl

/-- The end of a pass: drop the content of what is long over. -/
def prune (p : InboxPayload) (now : Time) : InboxEffect Unit :=
  let messages := p.messages.map (expireMessage now) (expireMessage_messageId now)
  let p' := { p with messages := messages }
  let pruned := { p' with
    questions := p.questions.map (p'.expireQuestion now) (expireQuestion_questionRef p' now) }
  if pruned = p then .keep p (.ok ()) else .write pruned ()

end InboxPayload

end ClaudeHub
