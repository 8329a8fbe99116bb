import ClaudeHub.Lib.Table
import ClaudeHub.Models.Enums

/-! # Chat messages, questions and the inbox payload

An ordinary message and the answer to a question are envelopes of one table.
Digests are taken to be injective and are carried as what they digest.
-/

namespace ClaudeHub

abbrev MessageId := String
abbrev QuestionRef := String

inductive ChatMessageState
  | queued | waiting | dispatching | accepted | completed | failed | cancelled | uncertain
  deriving DecidableEq, Repr

/-- `TERMINAL_STATES` -/
def ChatMessageState.terminal : ChatMessageState → Bool
  | .completed | .failed | .cancelled => true
  | _ => false

/-- `{"queued", "waiting"}`: not handed to a submission. -/
def ChatMessageState.unsent : ChatMessageState → Bool
  | .queued | .waiting => true
  | _ => false

/-- `{"dispatching", "accepted"}` -/
def ChatMessageState.inFlight : ChatMessageState → Bool
  | .dispatching | .accepted => true
  | _ => false

inductive ChatMessageKind
  | message | questionAnswer
  deriving DecidableEq, Repr

/-- The incarnation of a target: its own name with the epoch of its conversation, or
the text of another owner. -/
inductive Incarnation
  | epoch (name : String) (count : Nat)
  | text (name : String)
  deriving DecidableEq, Repr

structure ChatMessageCreate where
  message : String
  callId : String
  sourceTabId : Option TabId := none
  deriving DecidableEq, Repr

/-- The `selected` list has exactly one entry. -/
structure QuestionAnswerCreate where
  callId : String
  selected : String
  deriving DecidableEq, Repr

inductive MessageFingerprint
  | message (payload : ChatMessageCreate)
  | answer (payload : QuestionAnswerCreate)
  | scheduled (runId : MessageId)
  deriving DecidableEq, Repr

structure ChatMessageEnvelope where
  messageId : MessageId
  callId : String
  tabId : TabId
  turnId : TurnId
  state : ChatMessageState := .queued
  waitingReason : Option String := none
  error : Option String := none
  updatedAt : Time := 0
  principal : String
  actor : String
  principalEmail : Option String := none
  incarnation : Incarnation
  fingerprint : MessageFingerprint
  message : String
  sourceTabId : Option TabId := none
  sequence : Nat := 0
  attempts : Nat := 0
  submissionStarted : Bool := false
  expired : Bool := false
  kind : ChatMessageKind := .message
  questionRef : Option QuestionRef := none
  scheduledRunId : Option MessageId := none
  legacyRecovery : Bool := false
  recoveryCheckedAt : Option Time := none
  deriving DecidableEq, Repr

namespace ChatMessageEnvelope

def scheduled (item : ChatMessageEnvelope) : Bool := item.scheduledRunId.isSome

def blocksQueue (item : ChatMessageEnvelope) : Bool :=
  !item.state.terminal && !(item.scheduled && item.state = .uncertain)

end ChatMessageEnvelope

inductive QuestionState
  | opened | claimed | resolved | stale | uncertain
  deriving DecidableEq, Repr

inductive QuestionMode
  | native | followup
  deriving DecidableEq, Repr

inductive QuestionMirrorState
  | queued | sending | sent | uncertain | disabled
  deriving DecidableEq, Repr

inductive QuestionReplyState
  | pending | sending | sent | uncertain
  deriving DecidableEq, Repr

/-- The card of a question in a messenger. Of the routing of the card only its chat is kept. -/
structure QuestionMirror where
  botId : String
  chatId : String
  sendUuid : String
  messageId : Option String := none
  state : QuestionMirrorState := .queued
  displayedState : Option String := none
  retryAt : Option Time := none
  attempts : Nat := 0
  actionDigests : List (String × String) := []
  deriving DecidableEq, Repr

structure QuestionCard where
  options : List String := []
  expiresAt : Time := 0
  replyState : Option QuestionReplyState := none
  replyText : String := ""
  mirror : Option QuestionMirror := none
  mirrorChecked : Bool := false
  retiredCards : List (String × String) := []
  deriving DecidableEq, Repr

def QuestionCard.cleared (card : QuestionCard) : QuestionCard :=
  { card with
    options := []
    replyText := ""
    mirror := card.mirror.map fun mirror => { mirror with actionDigests := [] } }

structure ChatQuestion where
  questionRef : QuestionRef
  tabId : TabId
  sessionId : SessionId
  incarnation : String
  turnId : TurnId
  callId : String
  questionId : String
  prompt : String := ""
  mode : QuestionMode
  createdAt : Time := 0
  state : QuestionState := .opened
  answerId : Option MessageId := none
  card : QuestionCard := {}
  deriving DecidableEq, Repr

/-- `callback_nonces`: which callback bodies have been seen, and until when they count. -/
structure CallbackNonce where
  key : String
  fingerprint : String
  expiresAt : Time
  deriving DecidableEq, Repr

/-- `callback_receipts`: which answer a callback event was admitted as. -/
structure CallbackReceipt where
  key : String
  fingerprint : String
  answerId : MessageId
  deriving DecidableEq, Repr

structure PinnedConversation where
  key : TabId × String
  conversationId : String
  epoch : Nat := 0
  deriving DecidableEq, Repr

abbrev MessageTable := Table ChatMessageEnvelope.messageId
abbrev QuestionTable := Table ChatQuestion.questionRef

structure InboxPayload where
  messages : MessageTable := Table.empty
  questions : QuestionTable := Table.empty
  callbackReceipts : Table CallbackReceipt.key := Table.empty
  callbackNonces : Table CallbackNonce.key := Table.empty
  conversations : Table PinnedConversation.key := Table.empty
  deriving DecidableEq

namespace InboxPayload

def putMessage (p : InboxPayload) (item : ChatMessageEnvelope) : InboxPayload :=
  { p with messages := p.messages.insert item }

def putQuestion (p : InboxPayload) (q : ChatQuestion) : InboxPayload :=
  { p with questions := p.questions.insert q }

/-- `max(sequences, default=0) + 1` -/
def nextSequence (p : InboxPayload) : Nat :=
  (p.messages.rows.map ChatMessageEnvelope.sequence).foldl max 0 + 1

def foreignAnswer (p : InboxPayload) (q : ChatQuestion) : Bool :=
  match q.answerId with
  | none => false
  | some id => (p.messages.get? id).bind ChatMessageEnvelope.questionRef ≠ some q.questionRef

/-- The checks of a restored payload beyond its row formats; the tables have no
duplicate identities. -/
def checkOwnership (p : InboxPayload) : Except String Unit :=
  if p.questions.rows.any fun q => (q.state = .claimed || q.state = .uncertain) &&
      q.answerId.isNone then
    .error "Question answer ownership is corrupt"
  else if p.questions.rows.any p.foreignAnswer then
    .error "Question answer ownership is corrupt"
  else if p.messages.rows.any fun m => m.kind = .questionAnswer &&
      ((m.questionRef.bind p.questions.get?).isNone) then
    .error "Question answer target is corrupt"
  else if p.callbackReceipts.rows.any fun receipt => (p.messages.get? receipt.answerId).isNone then
    .error "Invalid callback receipt ownership"
  else .ok ()

end InboxPayload

end ClaudeHub
