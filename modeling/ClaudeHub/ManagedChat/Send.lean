import ClaudeHub.Lib.Runs
import ClaudeHub.ManagedChat.Evidence

/-! # Sending messages of a managed Chat

Calls prepare their attachments, wait for the session's lock in any order, and hold it
while the provider works on their message. Between two waits a call reads and writes
the evidence file; a restart takes every call of the process with it.
-/

namespace ClaudeHub

open StepSystem

/-- A call of `send_message` whose attachments are prepared. -/
structure SendCall where
  callId : String
  payload : ChatPayload
  deriving DecidableEq, Repr

/-- `send_message` up to the session's lock. -/
def prepareCall (kind : SessionKind) (callId text : String) (attachments : List ChatAttachment) :
    Except ChatValueError SendCall :=
  if kind ≠ .chat then .error .terminalSession
  else if Lines.strip callId.toList = [] then .error .blankCallId
  else if Lines.strip text.toList = [] ∧ attachments = [] then .error .emptyMessage
  else (prepareAttachments attachments).map fun identities => ⟨callId, ⟨text, identities⟩⟩

/-- The holder of the session's lock, whose message is with the provider, and the evidence
that it has read and rewritten. -/
structure Handoff where
  call : SendCall
  records : Attempts
  deriving DecidableEq

inductive ChatEvent
  | sent (call : SendCall)
  | accepted (callId : String)
  | removed (callId : String)
  | discarded
  | returned (call : SendCall)
  | raised (callId : String) (e : ChatSendError)
  deriving DecidableEq

/-- A session with its evidence file and the calls of the running process. The log has the
last event first. -/
structure ManagedChat where
  kind : SessionKind := .chat
  file : EvidenceFile := .absent
  processToken : String := ""
  deliveredCallIds : List String := []
  waiting : List SendCall := []
  holder : Option Handoff := none
  log : List ChatEvent := []
  deriving DecidableEq

inductive ProviderResult
  | returned
  | raised (exc : ProviderException)
  deriving DecidableEq, Repr

inductive ChatOp
  | call (callId text : String) (attachments : List ChatAttachment)
  | withdraw (call : SendCall)
  | acquire (call : SendCall) (readable : Bool) (outcome : SaveOutcome)
  | finish (result : ProviderResult) (outcome : SaveOutcome)
  | restart (token : String)
  | deliveredChanged (callIds : List String)
  | discard
  | damage (readable : Bool)

namespace ManagedChat

def start (kind : SessionKind) (file : EvidenceFile) (token : String) (delivered : List String) :
    ManagedChat :=
  { kind := kind, file := file, processToken := token, deliveredCallIds := delivered }

def readEvidence (chat : ManagedChat) (readable : Bool) : Except ChatSendError Attempts :=
  if readable then chat.file.readAttempts else .error .evidenceUnreadable

/-- The decision of a call about a record of its call id: it returns, it raises, or there
is no record and it goes on. -/
def admission (chat : ManagedChat) (call : SendCall) (record : Option AttemptRecord) :
    Option (Except ChatSendError Unit) :=
  match record with
  | some (.attempt existing) =>
    if existing.payloadSha256 ≠ some call.payload ∨ existing.turnId ≠ some call.callId then
      some (.error (.valueError (.differentPayload call.callId)))
    else
      match recordDeliveryState chat.deliveredCallIds chat.processToken call.callId record with
      | .accepted => some (.ok ())
      | .sending => some (.error (.alreadySending call.callId))
      | _ => some (.error (.deliveryUncertain call.callId))
  | _ => none

def reply (chat : ManagedChat) (call : SendCall) (result : Except ChatSendError Unit) :
    ManagedChat :=
  { chat with log :=
      match result with
      | .ok _ => .returned call :: chat.log
      | .error e => .raised call.callId e :: chat.log }

def writeAhead (chat : ManagedChat) (call : SendCall) (records : Attempts)
    (outcome : SaveOutcome) : ManagedChat :=
  let records := records.set call.callId
    (.attempt ⟨some call.payload, some chat.processToken, .sending, some call.callId⟩)
  let chat := { chat with file := chat.file.writeAttempts records outcome }
  if outcome.raises then chat.reply call (.error .writeFailed)
  else { chat with holder := some ⟨call, records⟩, log := .sent call :: chat.log }

def acquire (chat : ManagedChat) (call : SendCall) (readable : Bool) (outcome : SaveOutcome) :
    ManagedChat :=
  match chat.readEvidence readable with
  | .error e => chat.reply call (.error e)
  | .ok records =>
    match chat.admission call (records.lookup call.callId) with
    | some result => chat.reply call result
    | none => chat.writeAhead call records outcome

/-- The evidence of a finished send, and what it means for the call id once it is in the file. -/
def settle (handoff : Handoff) : ProviderResult → Attempts × List ChatEvent
  | .returned => (handoff.records.mark handoff.call.callId .accepted,
      [.accepted handoff.call.callId])
  | .raised .nativeInputNotSubmitted => (handoff.records.erase handoff.call.callId,
      [.removed handoff.call.callId])
  | .raised _ => (handoff.records.mark handoff.call.callId .uncertain, [])

def finish (chat : ManagedChat) (handoff : Handoff) (result : ProviderResult)
    (outcome : SaveOutcome) : ManagedChat :=
  let (records, events) := settle handoff result
  let chat := { chat with
    holder := none
    file := chat.file.writeAttempts records outcome
    log := (if outcome = SaveOutcome.notReplaced then [] else events) ++ chat.log }
  chat.reply handoff.call <|
    if outcome.raises then .error .writeFailed
    else
      match result with
      | .returned => .ok ()
      | .raised exc => .error (.raised exc)

def step (chat : ManagedChat) : ChatOp → Option ManagedChat
  | .call callId text attachments =>
    match prepareCall chat.kind callId text attachments with
    | .error e => some { chat with log := .raised callId (.valueError e) :: chat.log }
    | .ok call => some { chat with waiting := chat.waiting ++ [call] }
  | .withdraw call =>
    if call ∈ chat.waiting then some { chat with waiting := chat.waiting.erase call } else none
  | .acquire call readable outcome =>
    if chat.holder.isNone ∧ call ∈ chat.waiting then
      some ({ chat with waiting := chat.waiting.erase call }.acquire call readable outcome)
    else none
  | .finish result outcome => chat.holder.map fun handoff => chat.finish handoff result outcome
  | .restart token => some { chat with processToken := token, waiting := [], holder := none }
  | .deliveredChanged callIds => some { chat with deliveredCallIds := callIds }
  | .discard => some { chat with file := .absent, log := .discarded :: chat.log }
  | .damage readable =>
    some { chat with file := if readable then .invalid else .unreadable }

end ManagedChat

end ClaudeHub
