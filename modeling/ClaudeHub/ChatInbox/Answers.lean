import ClaudeHub.ChatInbox.Delivery

/-! # Questions and their answers

An answer is claimed for an open question and pumped outside its tab's queue. The
pump of an answer saves the answer's state first and the question's state after
that, in a second save.
-/

namespace ClaudeHub

namespace InboxPayload

def hexDigit (n : Nat) : Char := ("0123456789abcdef".toList)[n % 16]!

def jsonEscape (c : Char) : List Char :=
  if c = '"' then ['\\', '"']
  else if c = '\\' then ['\\', '\\']
  else if c = '\n' then ['\\', 'n']
  else if c = '\r' then ['\\', 'r']
  else if c = '\t' then ['\\', 't']
  else if c.toNat = 8 then ['\\', 'b']
  else if c.toNat = 12 then ['\\', 'f']
  else if c.toNat < 32 then
    ['\\', 'u', '0', '0', hexDigit (c.toNat / 16), hexDigit c.toNat]
  else [c]

def jsonString (text : String) : String :=
  "\"" ++ String.ofList (text.toList.flatMap jsonEscape) ++ "\""

def answerMessage (questionId selected : String) : String :=
  "\x7b\"type\": \"ask_question_response\", \"answers\": [\x7b\"questionId\": " ++
    jsonString questionId ++ ", \"selected\": [" ++ jsonString selected ++ "]\x7d]\x7d"

def terminalTabSession : List Char := "terminal-tab-".toList

/-- The turn an answer belongs to: the asking turn of a native question, and a turn of
its own otherwise. -/
def answerTurn (q : ChatQuestion) (payload : QuestionAnswerCreate) (answerId : MessageId) :
    TurnId :=
  match q.mode with
  | .native => q.turnId
  | .followup =>
    if terminalTabSession <+: q.sessionId.toList then "question-answer-" ++ answerId
    else payload.callId

def pendingAnswers (p : InboxPayload) (tabId : TabId) : List ChatMessageEnvelope :=
  p.messages.rows.filter fun m =>
    m.kind = .questionAnswer && m.blocksQueue && m.tabId = tabId

/-- `claim_answer`, with the identity that it draws for the answer. -/
def claimAnswer (limits : InboxLimits) (p : InboxPayload) (closing : Bool)
    (questionRef : QuestionRef) (principal actor : String) (email : Option String)
    (payload : QuestionAnswerCreate) (callback : Option (String × String))
    (answerId : MessageId) (now : Time) : InboxEffect ChatMessageEnvelope :=
  if closing then .keep p (.error ⟨503, "Question inbox unavailable"⟩)
  else
    match p.questions.get? questionRef with
    | none => .keep p (.error ⟨404, "Question not found"⟩)
    | some q =>
      let prior := callback.bind fun event => (p.callbackReceipts.get? event.1).map fun receipt =>
        (event.2, receipt)
      match prior with
      | some (fingerprint, receipt) =>
        if receipt.fingerprint ≠ fingerprint then
          .keep p (.error ⟨409, "Callback event payload changed"⟩)
        else
          match p.messages.get? receipt.answerId with
          | none => .keep p (.error ⟨404, "Chat message not found"⟩)
          | some answer => .keep p (.ok answer)
      | none =>
        match p.messages.rows.find? fun m => m.kind = .questionAnswer &&
            m.callId = payload.callId with
        | some existing =>
          if (existing.principal, existing.questionRef, existing.fingerprint) ≠
              (principal, some questionRef, .answer payload) then
            .keep p (.error ⟨409, "Answer call_id conflict"⟩)
          else if existing.expired then .keep p (.error ⟨410, "Answer receipt expired"⟩)
          else .keep p (.ok existing)
        | none =>
          if q.state ≠ .opened then
            .keep p (.error ⟨409, "Question already answered or stale"⟩)
          else if 100 ≤ (p.pendingAnswers q.tabId).length ∨
              limits.maxBytes < messageBytes (p.pendingAnswers q.tabId) +
                payload.selected.utf8ByteSize then
            .keep p (.error ⟨429, "Question answer backlog limit reached"⟩)
          else
            let item : ChatMessageEnvelope :=
              { messageId := answerId
                callId := payload.callId
                tabId := q.tabId
                turnId := answerTurn q payload answerId
                kind := .questionAnswer
                questionRef := some q.questionRef
                state := .queued
                updatedAt := now
                principal := principal
                actor := actor
                principalEmail := email
                incarnation := .text q.incarnation
                fingerprint := .answer payload
                message := answerMessage q.questionId payload.selected
                sequence := p.nextSequence }
            let receipts :=
              match callback with
              | none => p.callbackReceipts
              | some event => p.callbackReceipts.insert ⟨event.1, event.2, answerId⟩
            let claimed := { p with callbackReceipts := receipts }
            let claimed := claimed.putQuestion
              { q with state := .claimed, answerId := some answerId }
            .write (claimed.putMessage item) item

def answerOutcome (item : ChatMessageEnvelope) (raised : Option SubmitException) :
    ChatMessageState × Option String :=
  match raised with
  | none => (.completed, none)
  | some exc =>
    if item.submissionStarted = false ∧ exc = .inboxError ⟨409, "question_busy"⟩ then
      (.waiting, some "question_busy")
    else if item.submissionStarted then
      (.uncertain, some "Question answer could not be confirmed")
    else (.failed, some "Question answer could not be confirmed")

def finishAnswer (p : InboxPayload) (closing : Bool) (item : ChatMessageEnvelope)
    (raised : Option SubmitException) (now : Time) : InboxEffect Unit :=
  let (state, reason) := answerOutcome item raised
  p.change closing item state reason now

def settledState (state : ChatMessageState) : QuestionState :=
  match state with
  | .completed => .resolved
  | .uncertain => .uncertain
  | _ => .stale

def settleQuestion (p : InboxPayload) (item : ChatMessageEnvelope) : InboxEffect Unit :=
  match item.questionRef.bind p.questions.get? with
  | none => .keep p (.ok ())
  | some q => .write (p.putQuestion { q with state := settledState item.state }) ()

def restartQuestion (p : InboxPayload) (item : ChatMessageEnvelope) : InboxEffect Unit :=
  match item.questionRef.bind p.questions.get? with
  | none => .keep p (.ok ())
  | some q => .write (p.putQuestion { q with state := .uncertain }) ()

/-- `capture`, with the pending question that it has read and the reference that it draws. -/
def capture (p : InboxPayload) (closing : Bool) (q : ChatQuestion) : InboxEffect ChatQuestion :=
  if closing then .keep p (.error ⟨503, "Question inbox unavailable"⟩)
  else
    match p.questions.rows.find? fun other => (other.sessionId, other.incarnation, other.turnId,
        other.callId) = (q.sessionId, q.incarnation, q.turnId, q.callId) with
    | some existing => .keep p (.ok existing)
    | none =>
      let held := p.questions.rows.filter fun other => other.tabId = q.tabId &&
        (other.state = .opened || other.state = .claimed || other.state = .uncertain)
      if 100 ≤ held.length then .keep p (.error ⟨429, "Open question limit reached"⟩)
      else
        let q := { q with state := .opened, answerId := none }
        .write (p.putQuestion q) q

def staleIf (test : ChatQuestion → Bool) (q : ChatQuestion) : ChatQuestion :=
  if q.state = .opened && test q then { q with state := .stale } else q

theorem staleIf_questionRef (test : ChatQuestion → Bool) (q : ChatQuestion) :
    (staleIf test q).questionRef = q.questionRef := by
  unfold staleIf
  split <;> rfl

def staleQuestions (p : InboxPayload) (test : ChatQuestion → Bool) : InboxPayload :=
  { p with questions := p.questions.map (staleIf test) (staleIf_questionRef test) }

/-- `observe` of a started turn. -/
def turnStarted (p : InboxPayload) (sessionId : SessionId) (turnId : TurnId) : InboxEffect Unit :=
  .write (p.staleQuestions fun q => q.sessionId = sessionId && q.turnId ≠ turnId) ()

def successStatus (status : String) : Bool :=
  status = "completed" || status = "success" || status = "ok"

/-- `observe` of a completed turn. -/
def turnCompleted (p : InboxPayload) (sessionId : SessionId) (turnId : TurnId)
    (status : String) : InboxEffect Unit :=
  .write (p.staleQuestions fun q => q.sessionId = sessionId && q.turnId = turnId &&
    (q.mode = .native || !successStatus status)) ()

/-- `observe` of a resolved approval, at one of its questions. A claimed question is left
to the pump of its answer. -/
def approvalResolved (p : InboxPayload) (closing : Bool) (q : ChatQuestion) (now : Time) :
    InboxEffect Unit :=
  if q.state = .claimed then .keep p (.ok ())
  else
    let resolved := p.putQuestion { q with state := .resolved }
    match q.answerId.bind p.messages.get? with
    | none => .keep resolved (.ok ())
    | some item =>
      if item.state = .uncertain then resolved.change closing item .completed none now
      else .keep resolved (.ok ())

/-- `tick` at an uncertain question whose answer another mailbox has durably taken over. -/
def handoffPersisted (p : InboxPayload) (closing : Bool) (q : ChatQuestion) (now : Time) :
    InboxEffect Unit :=
  if q.state ≠ .uncertain ∨ q.mode ≠ .followup ∨
      terminalTabSession <+: q.sessionId.toList then .keep p (.ok ())
  else
    match q.answerId.bind p.messages.get? with
    | none => .keep p (.ok ())
    | some item =>
      (p.putQuestion { q with state := .resolved }).change closing item .completed none now

/-- `tick` at an open question that is no longer pending at its provider. -/
def questionGone (p : InboxPayload) (q : ChatQuestion) : InboxEffect Unit :=
  if q.state = .opened then .write (p.putQuestion { q with state := .stale }) ()
  else .keep p (.ok ())

def rememberNonce (p : InboxPayload) (key fingerprint : String) (now : Time) : InboxEffect Unit :=
  let kept := p.callbackNonces.filter fun nonce => now < nonce.expiresAt
  match kept.get? key with
  | some previous =>
    if previous.fingerprint ≠ fingerprint then
      .keep { p with callbackNonces := kept }
        (.error ⟨409, "Callback nonce reused with changed body"⟩)
    else .keep { p with callbackNonces := kept } (.ok ())
  | none =>
    .write { p with callbackNonces := kept.insert ⟨key, fingerprint, now + seconds 600⟩ } ()

/-- A save of `mirror_question`, or of the reply that a completed turn leaves for the card:
the card of the question is all that it rewrites. -/
def mirrorQuestion (p : InboxPayload) (card : QuestionCard) (q : ChatQuestion) :
    InboxEffect Unit :=
  .write (p.putQuestion { q with card := card }) ()

/-- `guard_input`: ordinary input cannot supersede a claimed or ambiguous answer. -/
def guardInput (p : InboxPayload) (sessionId : SessionId) (turnId : TurnId) :
    Except InboxError Unit :=
  if p.questions.rows.any fun q => q.sessionId = sessionId &&
      (q.state = .claimed || q.state = .uncertain) &&
      match q.answerId.bind p.messages.get? with
      | none => false
      | some item => item.turnId ≠ turnId then
    .error ⟨409, "A question answer owns this Chat"⟩
  else .ok ()

end InboxPayload

end ClaudeHub
