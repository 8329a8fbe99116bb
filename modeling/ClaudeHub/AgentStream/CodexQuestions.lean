import ClaudeHub.Lib.Runs
import ClaudeHub.Lib.Table

/-! # Questions of a Codex session

The app-server asks by a request and waits for its response. Requests come in, calls answer what is
pending and Stop clears it, all between each other's awaits. A claim is a pending request that a
call has taken out of the map, with the proof that the call may answer it.
-/

namespace ClaudeHub.CodexQuestions

open StepSystem

inductive RequestId
  | number (n : Int)
  | text (s : String)
  | other (json : String)
  deriving DecidableEq

structure RawOption where
  label : Option String
  description : Option String

inductive RawOptions
  | missing
  | malformed
  | list (options : List (Option RawOption))

structure RawQuestion where
  id : Option String
  question : Option String
  header : Option String
  options : RawOptions
  multiSelect : Bool
  isSecret : Bool

structure QuestionOption where
  id : String
  label : String
  description : Option String

structure Question where
  id : String
  prompt : String
  options : List QuestionOption
  allowMultiple : Bool
  isSecret : Bool

def nonEmpty (text : Option String) : Option String := text.filter (· ≠ "")

def RawOption.normalize (raw : RawOption) : Option QuestionOption :=
  (nonEmpty raw.label).map fun label => ⟨label, label, nonEmpty raw.description⟩

def RawOptions.normalize : RawOptions → Option (List QuestionOption)
  | .missing => some []
  | .malformed => none
  | .list raw =>
    let options := raw.filterMap fun option => option.bind RawOption.normalize
    if !raw.isEmpty && options.isEmpty then none else some options

def RawQuestion.normalize (raw : RawQuestion) : Option Question := do
  let id ← nonEmpty raw.id
  let prompt ← (nonEmpty raw.question).or (nonEmpty raw.header)
  let options ← raw.options.normalize
  return ⟨id, prompt, options, raw.multiSelect, raw.isSecret⟩

def codexNormalizeQuestions (raw : Option (List (Option RawQuestion))) : List Question :=
  (raw.getD []).filterMap fun item => item.bind RawQuestion.normalize

structure QuestionParams where
  /-- The `itemId` as `str` writes it. -/
  itemId : Option String
  questions : Option (List (Option RawQuestion))

structure ServerRequest where
  id : RequestId
  method : String
  params : Option QuestionParams

structure PendingQuestion where
  reqId : RequestId
  params : QuestionParams

def PendingQuestion.callId (q : PendingQuestion) : String := q.params.itemId.getD "request_user_input"

def PendingQuestion.questionIds (q : PendingQuestion) : List String :=
  (codexNormalizeQuestions q.params.questions).map Question.id

def questionMethods : List String := ["item/tool/requestUserInput", "tool/requestUserInput"]

def ServerRequest.question (request : ServerRequest) : Option PendingQuestion :=
  match request.id with
  | .other _ => none
  | id => if request.method ∈ questionMethods then request.params.map (⟨id, ·⟩) else none

structure AnswerEntry where
  questionId : Option String
  selected : Option (List (Option String))

structure AnswerCall where
  number : Nat
  answers : List (Option AnswerEntry)
  expectedCallId : Option String

def AnswerEntry.codexAnswer (entry : AnswerEntry) : Option (String × List String) := do
  let questionId ← entry.questionId
  let selected ← entry.selected
  return (questionId, selected.reduceOption)

def AnswerCall.codexAnswers (call : AnswerCall) : Dict String (List String) :=
  Table.ofList (call.answers.filterMap fun entry => entry.bind AnswerEntry.codexAnswer)

/-- What `answer_pending_question` asks of a pending request. -/
def AnswerCall.takes (call : AnswerCall) (q : PendingQuestion) : Bool :=
  call.expectedCallId.all (· = q.callId) &&
    (call.answers.isEmpty || !q.questionIds.isEmpty &&
      q.questionIds.all fun id => (call.codexAnswers.lookup id).isSome)

structure Claim where
  call : AnswerCall
  question : PendingQuestion
  takes : call.takes question = true

namespace Claim

def reqId (claim : Claim) : RequestId := claim.question.reqId

def result (claim : Claim) : List (String × List String) :=
  claim.call.codexAnswers.rows.filter fun answer => answer.1 ∈ claim.question.questionIds

theorem result_fits (claim : Claim) :
    claim.call.answers = [] ∧ claim.result = [] ∨
      claim.question.questionIds ≠ [] ∧ (claim.result.map Prod.fst).Nodup ∧
        (∀ id, id ∈ claim.result.map Prod.fst ↔ id ∈ claim.question.questionIds) ∧
        ∀ answer ∈ claim.result, claim.call.codexAnswers.lookup answer.1 = some answer.2 := by
  have htakes := claim.takes
  simp only [AnswerCall.takes, Bool.and_eq_true, Bool.or_eq_true, List.isEmpty_iff] at htakes
  rcases htakes.2 with hempty | ⟨hsome, hcovered⟩
  · exact .inl ⟨hempty, by simp [result, AnswerCall.codexAnswers, hempty, Table.ofList]⟩
  · refine .inr ⟨by simpa using hsome,
      claim.call.codexAnswers.nodup.sublist (List.filter_sublist.map _), fun id => ?_,
      fun answer hanswer => Dict.lookup_eq_some.mpr (List.mem_filter.mp hanswer).1⟩
    constructor
    · intro hid
      obtain ⟨answer, hanswer, rfl⟩ := List.mem_map.mp hid
      simpa using (List.mem_filter.mp hanswer).2
    · intro hid
      obtain ⟨given, hgiven⟩ := Option.isSome_iff_exists.mp (List.all_eq_true.mp hcovered id hid)
      have hrow := Dict.lookup_eq_some.mp hgiven
      exact List.mem_map.mpr ⟨(id, given), List.mem_filter.mpr ⟨hrow, by simpa using hid⟩, rfl⟩

theorem call_fits (claim : Claim) {callId : String}
    (h : claim.call.expectedCallId = some callId) : claim.question.callId = callId := by
  have htakes := claim.takes
  simp only [AnswerCall.takes, h, Option.all_some, Bool.and_eq_true, decide_eq_true_eq] at htakes
  exact htakes.1.symm

end Claim

inductive Response
  | error (id : RequestId) (code : Int) (message : String)
  | dismissed (question : PendingQuestion) (h : question.questionIds = [])
  | answered (claim : Claim)

def Response.id : Response → RequestId
  | .error id _ _ => id
  | .dismissed question _ => question.reqId
  | .answered claim => claim.reqId

inductive Delivery
  | drained
  | raised (written : Bool)
  deriving DecidableEq

structure Session where
  pending : Table PendingQuestion.reqId := .empty
  claims : List Claim := []
  calls : Nat := 0
  received : List RequestId := []
  responses : List Response := []
  dropped : List RequestId := []
  /-- The transport failed, or a later request took the place of a pending one. -/
  lost : List RequestId := []

namespace Session

def sendResponse (s : Session) (response : Response) (delivery : Delivery) : Session :=
  if delivery = .raised false then { s with lost := s.lost ++ [response.id] }
  else { s with responses := s.responses ++ [response] }

def stash (s : Session) (q : PendingQuestion) : Session :=
  { s with
    pending := s.pending.insert q
    lost := s.lost ++ if (s.pending.get? q.reqId).isSome then [q.reqId] else [] }

def handleServerRequest (s : Session) (request : ServerRequest) (accepted : Bool)
    (delivery : Delivery) : Session :=
  let s := { s with received := s.received ++ [request.id] }
  if accepted then
    match request.question with
    | none =>
      s.sendResponse (.error request.id (-32601) ("method not found: " ++ request.method)) delivery
    | some q =>
      if h : q.questionIds = [] then s.sendResponse (.dismissed q h) delivery else s.stash q
  else s.sendResponse (.error request.id (-32600) "turn interrupted") delivery

def claimsOf (s : Session) (call : AnswerCall) : List Claim :=
  s.pending.rows.filterMap fun q => if h : call.takes q = true then some ⟨call, q, h⟩ else none

/-- `answer_pending_question` up to its first response. -/
def answerPendingQuestion (s : Session) (answers : List (Option AnswerEntry))
    (expectedCallId : Option String) : Session :=
  let call := ⟨s.calls, answers, expectedCallId⟩
  { s with
    calls := s.calls + 1
    pending := s.pending.filter fun q => !call.takes q
    claims := s.claims ++ s.claimsOf call }

def respond (s : Session) (call : Nat) (delivery : Delivery) : Option Session :=
  match s.claims.filter fun claim => claim.call.number = call with
  | [] => none
  | next :: rest =>
    let others := s.claims.filter fun claim => !decide (claim.call.number = call)
    let sent := s.sendResponse (.answered next) delivery
    if delivery = .drained then some { sent with claims := rest ++ others }
    else some { sent with claims := others, lost := sent.lost ++ rest.map Claim.reqId }

def stop (s : Session) : Session :=
  { s with pending := .empty, dropped := s.dropped ++ s.pending.rows.map PendingQuestion.reqId }

inductive Op
  /-- A request, whether its turn's notifications are still accepted, and its own response. -/
  | request (request : ServerRequest) (accepted : Bool) (delivery : Delivery)
  | answer (answers : List (Option AnswerEntry)) (expectedCallId : Option String)
  | respond (call : Nat) (delivery : Delivery)
  | stop

def step (s : Session) : Op → Option Session
  | .request request accepted delivery => some (s.handleServerRequest request accepted delivery)
  | .answer answers expectedCallId => some (s.answerPendingQuestion answers expectedCallId)
  | .respond call delivery => s.respond call delivery
  | .stop => some s.stop

/-! ## Every request is accounted for -/

def outcomes (s : Session) : List RequestId :=
  s.responses.map Response.id ++ (s.pending.rows.map PendingQuestion.reqId ++
    (s.claims.map Claim.reqId ++ (s.dropped ++ s.lost)))

def Accounted (s : Session) : Prop := ∀ id, s.received.count id = s.outcomes.count id

variable {s next : Session}

theorem count_sendResponse (response : Response) (delivery : Delivery) (id : RequestId) :
    (s.sendResponse response delivery).outcomes.count id =
      s.outcomes.count id + [response.id].count id := by
  unfold sendResponse outcomes
  split <;> simp only [List.map_append, List.map_cons, List.map_nil, List.count_append] <;> omega

theorem received_sendResponse (response : Response) (delivery : Delivery) :
    (s.sendResponse response delivery).received = s.received := by
  unfold sendResponse
  split <;> rfl

theorem count_stash (q : PendingQuestion) (id : RequestId) :
    (s.stash q).outcomes.count id = s.outcomes.count id + [q.reqId].count id := by
  have hrows := congrArg (List.count id) (Table.map_key_insert s.pending q)
  unfold stash outcomes
  by_cases hold : (s.pending.get? q.reqId).isSome = true
  all_goals
    simp only [hold, if_true, Bool.false_eq_true, if_false, List.count_append,
      List.count_nil] at hrows ⊢
    omega

theorem reqId_question {request : ServerRequest} {q : PendingQuestion}
    (h : request.question = some q) : q.reqId = request.id := by
  unfold ServerRequest.question at h
  split at h
  · cases h
  · split at h
    · obtain ⟨params, -, rfl⟩ := Option.map_eq_some_iff.mp h
      rfl
    · cases h

theorem Accounted.handleServerRequest (h : s.Accounted) (request : ServerRequest)
    (accepted : Bool) (delivery : Delivery) :
    (s.handleServerRequest request accepted delivery).Accounted := by
  intro id
  have hold := h id
  -- each branch gives one response or one pending question for the request
  have hsent (response : Response) (hid : response.id = request.id) :
      (sendResponse { s with received := s.received ++ [request.id] } response
        delivery).received.count id = (sendResponse { s with received := s.received ++ [request.id] }
        response delivery).outcomes.count id := by
    rw [count_sendResponse, received_sendResponse, List.count_append, hid, hold]
    rfl
  unfold Session.handleServerRequest
  dsimp only
  split
  · cases hquestion : request.question with
    | none => exact hsent _ rfl
    | some =>
      have hid := reqId_question hquestion
      dsimp only
      split
      · exact hsent _ hid
      · rw [count_stash, hid]
        show (s.received ++ [request.id]).count id = _
        rw [List.count_append, hold]
        rfl
  · exact hsent _ rfl

theorem map_claimsOf (call : AnswerCall) : (s.claimsOf call).map Claim.reqId =
    (s.pending.rows.filter call.takes).map PendingQuestion.reqId := by
  unfold claimsOf
  induction s.pending.rows with
  | nil => rfl
  | cons q rows ih => by_cases htakes : call.takes q = true <;> simp [htakes, ih, Claim.reqId]

theorem Accounted.answerPendingQuestion (h : s.Accounted) (answers : List (Option AnswerEntry))
    (expectedCallId : Option String) :
    (s.answerPendingQuestion answers expectedCallId).Accounted := by
  intro id
  have hold := h id
  have hids := ((List.filter_append_perm (AnswerCall.takes ⟨s.calls, answers, expectedCallId⟩)
    s.pending.rows).map PendingQuestion.reqId).count_eq id
  simp only [Session.answerPendingQuestion, outcomes, map_claimsOf, Table.filter, List.map_append,
    List.count_append] at hold hids ⊢
  omega

theorem Accounted.respond (h : s.Accounted) {call : Nat} {delivery : Delivery}
    (hstep : s.respond call delivery = some next) : next.Accounted := by
  intro id
  have hold := h id
  have hclaims := ((List.filter_append_perm (fun claim => decide (claim.call.number = call))
    s.claims).map Claim.reqId).count_eq id
  unfold Session.respond at hstep
  split at hstep
  · cases hstep
  next claim rest hcall =>
    rw [hcall] at hclaims
    have hsent := s.count_sendResponse (.answered claim) delivery id
    have hreceived := s.received_sendResponse (.answered claim) delivery
    have hleft : (s.sendResponse (.answered claim) delivery).claims = s.claims := by
      unfold sendResponse
      split <;> rfl
    dsimp only at hstep
    split at hstep
    all_goals
      cases hstep
      simp only [outcomes, hreceived, hleft, List.map_append, List.map_cons, List.count_append,
        List.count_cons, List.count_nil, Response.id] at hold hclaims hsent ⊢
      omega

theorem Accounted.stop (h : s.Accounted) : s.stop.Accounted := by
  intro id
  have hold := h id
  simp only [Session.stop, outcomes, Table.rows_empty, List.map_nil, List.count_append,
    List.count_nil] at hold ⊢
  omega

theorem Accounted.step (h : s.Accounted) {op : Op} (hstep : s.step op = some next) :
    next.Accounted := by
  cases op with
    simp only [Session.step, Option.some.injEq] at hstep
  | request request accepted delivery =>
    rw [← hstep]
    exact h.handleServerRequest request accepted delivery
  | answer answers expectedCallId =>
    rw [← hstep]
    exact h.answerPendingQuestion answers expectedCallId
  | respond => exact h.respond hstep
  | stop =>
    rw [← hstep]
    exact h.stop

/-- Every request has one outcome, so a request is answered at most once, and what a call answers
has the call id it was given and either all question ids of the request or, for a dismissal, none. -/
theorem questions_answered_once {ops : List Op} {s : Session}
    (hrun : Run step (fun _ _ => True) {} ops s) :
    s.received.Perm s.outcomes ∧
      (∀ id, (s.responses.map Response.id).count id ≤ s.received.count id) ∧
      (s.received.Nodup → (s.responses.map Response.id).Nodup) ∧
      ∀ claim, .answered claim ∈ s.responses →
        (∀ callId, claim.call.expectedCallId = some callId → claim.question.callId = callId) ∧
        (claim.call.answers = [] ∧ claim.result = [] ∨
          claim.question.questionIds ≠ [] ∧ (claim.result.map Prod.fst).Nodup ∧
            (∀ id, id ∈ claim.result.map Prod.fst ↔ id ∈ claim.question.questionIds) ∧
            ∀ answer ∈ claim.result, claim.call.codexAnswers.lookup answer.1 = some answer.2) := by
  have haccounted : s.Accounted :=
    hrun.invariant (fun _ => rfl) fun _ _ _ h _ hstep => h.step hstep
  have hperm : s.received.Perm s.outcomes := List.perm_iff_count.mpr haccounted
  have hsub : (s.responses.map Response.id).Sublist s.outcomes := List.sublist_append_left ..
  exact ⟨hperm, fun id => (haccounted id).symm ▸ hsub.count_le id,
    fun hnodup => (hperm.nodup_iff.mp hnodup).sublist hsub,
    fun claim _ => ⟨fun _ => claim.call_fits, claim.result_fits⟩⟩

/-- The question `q`, as request 1. -/
def asked : ServerRequest where
  id := .number 1
  method := "item/tool/requestUserInput"
  params := some ⟨none, some [some ⟨some "q", some "Which?", none, .missing, false, false⟩]⟩

/-- A question that comes and is answered. -/
theorem question_answered_once : ∃ s, exec step {}
      [.request asked true .drained, .answer [some ⟨some "q", some [some "this"]⟩] none,
        .respond 0 .drained] = some s ∧ (s.responses.map Response.id).Nodup ∧
      s.received.Perm s.outcomes := by
  have hrun : Run step (fun _ _ => True) {} [.request asked true .drained,
      .answer [some ⟨some "q", some [some "this"]⟩] none, .respond 0 .drained] _ :=
    .cons trivial rfl (.cons trivial rfl (.cons trivial rfl (.nil _)))
  have honce := questions_answered_once hrun
  exact ⟨_, hrun.exec_eq, honce.2.2.1 (List.nodup_singleton _), honce.1⟩

/-- The app-server is gone when a call that has claimed the request comes to send its response. -/
theorem claimed_question_lost : ¬ ∀ ops s, exec step {} ops = some s → s.claims = [] →
    ∀ id ∈ s.received, id ∈ s.responses.map Response.id ∨ (s.pending.get? id).isSome ∨
      id ∈ s.dropped := by
  intro h
  have hlost := h [.request asked true .drained, .answer [] none, .respond 0 (.raised false)] _ rfl
    rfl (.number 1) (List.mem_singleton_self _)
  revert hlost
  decide

end Session

end ClaudeHub.CodexQuestions
