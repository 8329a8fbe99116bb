import ClaudeHub.ChatInbox.Messages
import Mathlib.Algebra.GroupWithZero.Nat

/-! # The durable Chat inbox

An operation decides on the payload in memory and then saves it or leaves it
unsaved. A save that raises puts the last committed payload back into memory and
closes the inbox until the next process, whether or not the file was replaced.
-/

namespace ClaudeHub

structure InboxError where
  status : Nat
  detail : String
  deriving DecidableEq, Repr

inductive InboxFailure
  | inboxError (e : InboxError)
  | saveFailed
  deriving DecidableEq, Repr

structure InboxTarget where
  incarnation : String
  conversationId : Option String := none
  waitingReason : Option String := none
  deriving DecidableEq, Repr

structure EpochTarget where
  incarnation : Incarnation
  waitingReason : Option String
  deriving DecidableEq, Repr

inductive InboxEvidence
  | absent | started | completed | failed | cancelled | live
  deriving DecidableEq, Repr

inductive SubmitException
  | inboxError (e : InboxError)
  | runtimeError (text : String)
  | exception (text : String)
  | cancelled
  deriving DecidableEq, Repr

structure InboxLimits where
  maxPending : Nat := 100
  maxBytes : Nat := 1024 * 1024
  deriving DecidableEq, Repr

structure ChatMessageInbox where
  live : InboxPayload := {}
  committed : InboxPayload := {}
  file : InboxPayload := {}
  closing : Bool := false
  failed : Bool := false
  restartRecovery : List MessageId := []
  deriving DecidableEq

/-- An operation's payload in memory, and whether it saves it before it replies. -/
inductive InboxEffect (α : Type)
  | keep (memory : InboxPayload) (reply : Except InboxError α)
  | write (memory : InboxPayload) (reply : α)

namespace ChatMessageInbox

def save (inbox : ChatMessageInbox) (outcome : SaveOutcome) : ChatMessageInbox :=
  match outcome with
  | .saved => { inbox with committed := inbox.live, file := inbox.live }
  | .notReplaced => { inbox with live := inbox.committed, closing := true, failed := true }
  | .replacedThenRaised =>
    { inbox with live := inbox.committed, file := inbox.live, closing := true, failed := true }

def perform {α : Type} (inbox : ChatMessageInbox) (effect : InboxEffect α)
    (outcome : SaveOutcome) : ChatMessageInbox × Except InboxFailure α :=
  match effect with
  | .keep memory (.ok reply) => ({ inbox with live := memory }, .ok reply)
  | .keep memory (.error e) => ({ inbox with live := memory }, .error (.inboxError e))
  | .write memory reply =>
    ({ inbox with live := memory }.save outcome,
      if outcome.raises then .error .saveFailed else .ok reply)

/-- The constructor of a new process. -/
def load (file : InboxPayload) : Except String ChatMessageInbox :=
  file.checkOwnership.map fun _ => { live := file, committed := file, file := file }

end ChatMessageInbox

/-! ## Admission and cancellation -/

inductive ScheduledRunStatus
  | queued | waiting | dispatching | running
  deriving DecidableEq, Repr

structure ScheduledIntent where
  id : MessageId
  taskId : String
  tabId : TabId
  clientTurnId : TurnId
  status : ScheduledRunStatus
  queuedAt : Time
  dispatchedAt : Option Time := none
  dispatchAttempts : Nat := 0
  message : String
  deriving DecidableEq, Repr

/-- The envelope that `_admit_scheduled_intents` builds for a run. -/
def ScheduledIntent.envelope (run : ScheduledIntent) (incarnation : Incarnation) :
    ChatMessageEnvelope where
  messageId := run.id
  callId := run.id
  tabId := run.tabId
  turnId := run.clientTurnId
  state :=
    match run.status with
    | .queued => .queued
    | .waiting => .waiting
    | .dispatching => .dispatching
    | .running => .accepted
  updatedAt := run.dispatchedAt.getD run.queuedAt
  principal := "scheduler"
  actor := "scheduler"
  incarnation := incarnation
  fingerprint := .scheduled run.id
  message := run.message
  attempts := run.dispatchAttempts
  scheduledRunId := some run.id
  legacyRecovery := run.status = .dispatching || run.status = .running

namespace InboxPayload

/-- `_change` of a row of `p`. -/
def change (p : InboxPayload) (closing : Bool) (item : ChatMessageEnvelope)
    (state : ChatMessageState) (reason : Option String) (now : Time) : InboxEffect Unit :=
  if closing then .keep p (.error ⟨503, "Chat inbox unavailable"⟩)
  else
    .write (p.putMessage { item with
      state := state
      updatedAt := now
      waitingReason := if state = .waiting then reason else none
      error := if state = .failed ∨ state = .uncertain then reason else none }) ()

/-- `_target`: pin the conversation of a target, and count another epoch when it changes. -/
def target (p : InboxPayload) (tabId : TabId) (raw : InboxTarget) : InboxPayload × EpochTarget :=
  let key := (tabId, raw.incarnation)
  let pinned : PinnedConversation := (p.conversations.get? key).getD ⟨key, "", 0⟩
  let current := raw.conversationId.getD ""
  let pinned' : PinnedConversation :=
    if pinned.conversationId ≠ "" ∧ current ≠ pinned.conversationId then
      ⟨key, current, pinned.epoch + 1⟩
    else if pinned.conversationId = "" ∧ current ≠ "" then ⟨key, current, pinned.epoch⟩
    else pinned
  ({ p with conversations :=
      if pinned' = pinned then p.conversations else p.conversations.insert pinned' },
    ⟨.epoch raw.incarnation pinned'.epoch, raw.waitingReason⟩)

def pending (p : InboxPayload) (tabId : TabId) : List ChatMessageEnvelope :=
  p.messages.rows.filter fun m => m.tabId = tabId && m.blocksQueue

def messageBytes (rows : List ChatMessageEnvelope) : Nat :=
  (rows.map fun m => m.message.utf8ByteSize).sum

/-- `enqueue`, with the identity that it draws for a new message. -/
def enqueue (limits : InboxLimits) (p : InboxPayload) (closing : Bool) (tabId : TabId)
    (principal actor : String) (email : Option String) (payload : ChatMessageCreate)
    (resolved : Except InboxError InboxTarget) (messageId : MessageId) (now : Time) :
    InboxEffect ChatMessageEnvelope :=
  if closing then .keep p (.error ⟨503, "Chat inbox unavailable or shutting down"⟩)
  else
    match resolved with
    | .error e => .keep p (.error e)
    | .ok raw =>
      let (p, target) := p.target tabId raw
      match p.messages.rows.find? fun item => (item.principal, item.tabId, item.incarnation,
          item.callId) = (principal, tabId, target.incarnation, payload.callId) with
      | some item =>
        if item.fingerprint ≠ .message payload then
          .keep p (.error ⟨409, "call_id already identifies a different message"⟩)
        else if item.expired then
          .keep p (.error ⟨410, "Receipt expired; old call_id cannot be replayed"⟩)
        else .keep p (.ok item)
      | none =>
        if target.waitingReason = some "archived" then
          .keep p (.error ⟨409, "Restore this archived Chat before sending"⟩)
        else if limits.maxPending ≤ (p.pending tabId).length ∨
            limits.maxBytes < messageBytes (p.pending tabId) + payload.message.utf8ByteSize then
          .keep p (.error ⟨429, "Chat inbox backlog limit reached"⟩)
        else
          let item : ChatMessageEnvelope :=
            { messageId := messageId
              callId := payload.callId
              tabId := tabId
              turnId := "hub-message-" ++ messageId
              state := .queued
              updatedAt := now
              principal := principal
              actor := actor
              principalEmail := email
              incarnation := target.incarnation
              fingerprint := .message payload
              message := payload.message
              sourceTabId := payload.sourceTabId
              sequence := p.nextSequence }
          .write (p.putMessage item) item

def admitScheduled (limits : InboxLimits) (p : InboxPayload) (closing : Bool)
    (run : ScheduledIntent) (resolved : Except InboxError InboxTarget) (enforceLimit : Bool) :
    InboxEffect ChatMessageEnvelope :=
  match p.messages.get? run.id with
  | some existing => .keep p (.ok existing)
  | none =>
    let (p, incarnation) :=
      match resolved with
      | .error _ => (p, Incarnation.text "")
      | .ok raw => ((p.target run.tabId raw).1, (p.target run.tabId raw).2.incarnation)
    if closing then .keep p (.error ⟨503, "Chat inbox unavailable"⟩)
    else
      let item := { run.envelope incarnation with sequence := p.nextSequence }
      if enforceLimit ∧ item.state.unsent ∧ limits.maxPending ≤ (p.pending run.tabId).length then
        .keep p (.error ⟨429, "Chat inbox backlog limit reached"⟩)
      else .write (p.putMessage item) item

def owned (p : InboxPayload) (tabId : TabId) (messageId : MessageId) (principal : String) :
    Except InboxError ChatMessageEnvelope :=
  match p.messages.get? messageId with
  | none => .error ⟨404, "Chat message not found"⟩
  | some item =>
    if item.tabId ≠ tabId ∨ item.principal ≠ principal then
      .error ⟨404, "Chat message not found"⟩
    else if item.expired then .error ⟨410, "Chat message receipt expired"⟩
    else .ok item

/-- `cancel`; the kind of the message is not looked at. -/
def cancel (p : InboxPayload) (closing : Bool) (tabId : TabId) (messageId : MessageId)
    (principal : String) (now : Time) : InboxEffect Unit :=
  if closing then .keep p (.error ⟨503, "Chat inbox unavailable"⟩)
  else
    match p.owned tabId messageId principal with
    | .error e => .keep p (.error e)
    | .ok item =>
      if item.state = .cancelled then .keep p (.ok ())
      else if !item.state.unsent then
        .keep p (.error ⟨409, "Only not-yet-submitted messages may be cancelled"⟩)
      else p.change closing item .cancelled none now

def cancelScheduled (p : InboxPayload) (closing : Bool) (messageId : MessageId) (release : Bool)
    (now : Time) : InboxEffect Unit :=
  match p.messages.get? messageId with
  | none => .keep p (.ok ())
  | some item =>
    if item.scheduled && (item.state.unsent || (release && item.blocksQueue)) then
      p.change closing item .cancelled none now
    else .keep p (.ok ())

def turnMessage (p : InboxPayload) (tabId : TabId) (turnId : TurnId) :
    Option ChatMessageEnvelope :=
  p.messages.rows.find? fun item =>
    item.tabId = tabId && item.turnId = turnId && item.blocksQueue

def completedState (item : ChatMessageEnvelope) (status : String) : ChatMessageState :=
  if status = "completed" ∨ (item.scheduled ∧ (status = "success" ∨ status = "ok")) then .completed
  else if status = "cancelled" ∨ status = "canceled" then .cancelled
  else .failed

/-- `completed`: the provider's turn has ended. -/
def completed (p : InboxPayload) (closing : Bool) (tabId : TabId) (turnId : TurnId)
    (status : String) (now : Time) : InboxEffect Unit :=
  if closing then .keep p (.ok ())
  else
    match p.turnMessage tabId turnId with
    | none => .keep p (.ok ())
    | some item => p.change closing item (completedState item status) none now

end InboxPayload

end ClaudeHub
