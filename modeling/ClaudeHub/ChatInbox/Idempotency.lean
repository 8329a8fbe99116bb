import ClaudeHub.ChatInbox.Order

/-! # Retries of an enqueue

A call of `enqueue` is known by its principal, its tab, the incarnation that its target
has when it is made, and its call id. Whatever happens in between, a call under the key
of an accepted one finds the message of that one.
-/

namespace ClaudeHub

open StepSystem InboxPayload MessageEntry

/-- A call of `enqueue`, with the target that it resolves, the identity that it draws and
the time it reads. -/
structure EnqueueCall where
  tabId : TabId
  principal : String
  actor : String
  email : Option String := none
  payload : ChatMessageCreate
  resolved : Except InboxError InboxTarget
  messageId : MessageId
  now : Time

namespace EnqueueCall

def op (call : EnqueueCall) (outcome : SaveOutcome) : InboxOp :=
  .enqueue call.tabId call.principal call.actor call.email call.payload call.resolved
    call.messageId call.now outcome

def effect (limits : InboxLimits) (p : InboxPayload) (closing : Bool) (call : EnqueueCall) :
    InboxEffect ChatMessageEnvelope :=
  p.enqueue limits closing call.tabId call.principal call.actor call.email call.payload
    call.resolved call.messageId call.now

def reply (limits : InboxLimits) (run : InboxRun) (call : EnqueueCall) (outcome : SaveOutcome) :
    Except InboxFailure ChatMessageEnvelope :=
  (run.inbox.perform (call.effect limits run.inbox.live run.inbox.closing) outcome).2

def key? (p : InboxPayload) (call : EnqueueCall) :
    Option (String × TabId × Incarnation × String) :=
  match call.resolved with
  | .error _ => none
  | .ok raw => some (call.principal, call.tabId, (p.target call.tabId raw).2.incarnation,
      call.payload.callId)

end EnqueueCall

def ChatMessageEnvelope.key (item : ChatMessageEnvelope) : String × TabId × Incarnation × String :=
  (item.principal, item.tabId, item.incarnation, item.callId)

def conflictError : InboxError := ⟨409, "call_id already identifies a different message"⟩

def expiredError : InboxError := ⟨410, "Receipt expired; old call_id cannot be replayed"⟩

/-- What `enqueue` answers about a message that it finds under its key. -/
def EnqueueCall.answer (call : EnqueueCall) (item : ChatMessageEnvelope) :
    Except InboxError ChatMessageEnvelope :=
  if item.fingerprint ≠ .message call.payload then .error conflictError
  else if item.expired then .error expiredError
  else .ok item

namespace InboxPayload

variable {limits : InboxLimits} {p : InboxPayload} {closing : Bool} {call : EnqueueCall}

/-- A message that `enqueue` adds: it has the key of the call and carries its payload. -/
structure EnqueuedAs (p : InboxPayload) (call : EnqueueCall) (item : ChatMessageEnvelope) : Prop where
  messageId : item.messageId = call.messageId
  key : call.key? p = some item.key
  fingerprint : item.fingerprint = .message call.payload

/-- What `enqueue` does: it answers about the first message under its key, adds one where
there is none, or refuses. -/
theorem enqueue_cases :
    (∃ memory e, call.effect limits p closing = .keep memory (.error e) ∧
      memory.messages = p.messages ∧
      (closing = true ∨ call.key? p = none ∨
        ∀ item ∈ p.messages.rows, call.key? p ≠ some item.key)) ∨
    (∃ memory item, call.effect limits p closing = .keep memory (call.answer item) ∧
      memory.messages = p.messages ∧ item ∈ p.messages.rows ∧ call.key? p = some item.key) ∨
    (∃ memory item, call.effect limits p closing = .write memory item ∧
      memory.messages = p.messages.insert item ∧ p.EnqueuedAs call item ∧
      ∀ other ∈ p.messages.rows, call.key? p ≠ some other.key) := by
  unfold EnqueueCall.effect enqueue
  split
  next hclosing => exact .inl ⟨_, _, rfl, rfl, .inl hclosing⟩
  cases hresolved : call.resolved with
  | error e => exact .inl ⟨_, e, rfl, rfl, .inr (.inl (by simp [EnqueueCall.key?, hresolved]))⟩
  | ok raw =>
    have hkey : call.key? p = some (call.principal, call.tabId,
        (p.target call.tabId raw).2.incarnation, call.payload.callId) := by
      simp [EnqueueCall.key?, hresolved]
    simp only
    split
    next item hfind =>
      have hmem : item ∈ p.messages.rows := List.mem_of_find?_eq_some hfind
      have hsame : call.key? p = some item.key := by
        have htest := List.find?_some hfind
        simp only [decide_eq_true_eq] at htest
        exact hkey.trans (congrArg some htest.symm)
      refine .inr (.inl ⟨(p.target call.tabId raw).1, item, ?_, rfl, hmem, hsame⟩)
      unfold EnqueueCall.answer
      split
      · rfl
      · split <;> rfl
    next hfind =>
      have hnone : ∀ item ∈ p.messages.rows, call.key? p ≠ some item.key := by
        intro item hmem hsame
        have hmiss := List.find?_eq_none.mp hfind item hmem
        simp only [decide_eq_true_eq] at hmiss
        exact hmiss (Option.some.inj (hkey.symm.trans hsame)).symm
      split
      · exact .inl ⟨_, _, rfl, rfl, .inr (.inr hnone)⟩
      · split
        · exact .inl ⟨_, _, rfl, rfl, .inr (.inr hnone)⟩
        · exact .inr (.inr ⟨_, _, rfl, rfl, ⟨rfl, hkey, rfl⟩, hnone⟩)

/-- The message of an accepted call: direct, under the call's key, and with its payload. -/
structure Holds (p : InboxPayload) (id : MessageId) (key : String × TabId × Incarnation × String)
    (payload : ChatMessageCreate) (item : ChatMessageEnvelope) : Prop where
  get? : p.messages.get? id = some item
  direct : item.entry.Direct
  key : item.key = key
  fingerprint : item.fingerprint = .message payload

variable {item other : ChatMessageEnvelope}

theorem sameKey_iff :
    SameKey item.entry other.entry ↔ item.key = other.key := Iff.rfl

theorem Holds.extend {exempt : MessageId → Prop} {q : InboxPayload} {id : MessageId}
    {key : String × TabId × Incarnation × String} {payload : ChatMessageCreate}
    (h : p.Holds id key payload item) (hext : Extends exempt p q) :
    ∃ item', q.Holds id key payload item' := by
  obtain ⟨e, he, hrewrites, -⟩ := hext.kept id item.entry (entry_of_get? h.get?)
  obtain ⟨item', hget, rfl⟩ := Option.map_eq_some_iff.mp he
  refine ⟨item', hget, hrewrites.direct.mpr h.direct, ?_, hrewrites.fingerprint.trans h.fingerprint⟩
  exact (sameKey_iff.1 (hrewrites.sameKey h.direct)).trans h.key

theorem Holds.unique {id : MessageId} {key : String × TabId × Incarnation × String}
    {payload : ChatMessageCreate} (h : p.Holds id key payload item) (hp : p.Ordered)
    (hother : other ∈ p.messages.rows) (hkey : other.key = key) (hdirect : other.entry.Direct) :
    other = item := by
  have hid := hp.keyed other.messageId id other.entry item.entry (entry_of_mem hother)
    (entry_of_get? h.get?) hdirect h.direct (sameKey_iff.2 (hkey.trans h.key.symm))
  have hget : p.messages.get? id = some other := Table.get?_eq_some.mpr ⟨hother, hid⟩
  exact Option.some.inj (hget.symm.trans h.get?)

theorem direct_of_key (hp : p.Ordered) (hother : other ∈ p.messages.rows)
    (hkey : call.key? p = some other.key) (hcaller : call.principal ≠ "scheduler") :
    other.entry.Direct := by
  obtain ⟨raw, hresolved⟩ : ∃ raw, call.resolved = .ok raw := by
    cases hresolved : call.resolved with
    | error => simp [EnqueueCall.key?, hresolved] at hkey
    | ok raw => exact ⟨raw, rfl⟩
  simp only [EnqueueCall.key?, hresolved, Option.some.injEq, ChatMessageEnvelope.key,
    Prod.mk.injEq] at hkey
  obtain ⟨hprincipal, -, hincarnation, -⟩ := hkey
  have hentry := entry_of_mem hother
  have hunscheduled : other.entry.owner.scheduled = false := by
    cases hscheduled : other.entry.owner.scheduled with
    | false => rfl
    | true => exact absurd (hprincipal.trans (hp.timed _ _ hentry hscheduled)) hcaller
  refine ⟨?_, hunscheduled⟩
  cases hkind : other.entry.owner.kind with
  | message => rfl
  | questionAnswer =>
    obtain ⟨-, name, hname⟩ := hp.asked _ _ hentry hkind
    have hname : other.incarnation = .text name := hname
    simp [hname, target] at hincarnation

end InboxPayload

namespace EnqueueCall

variable {limits : InboxLimits} {run next : InboxRun} {call : EnqueueCall} {outcome : SaveOutcome}

theorem step_eq (hstep : InboxRun.step limits run (call.op outcome) = some next) :
    run.inbox.live.messages.get? call.messageId = none ∧ next.inbox =
      (run.inbox.perform (call.effect limits run.inbox.live run.inbox.closing) outcome).1 := by
  simp only [EnqueueCall.op, InboxRun.step, InboxRun.stepFree, Option.ite_none_left_eq_some,
    not_or, Option.some.injEq] at hstep
  obtain ⟨-, ⟨-, hnew⟩, rfl⟩ := hstep
  exact ⟨by simpa using hnew, rfl⟩

theorem holds_of_accepted (hq : run.Queued) {item : ChatMessageEnvelope}
    (hstep : InboxRun.step limits run (call.op outcome) = some next)
    (hreply : call.reply limits run outcome = .ok item) :
    ∃ key, call.key? run.inbox.live = some key ∧
      next.inbox.live.Holds item.messageId key call.payload item := by
  obtain ⟨hnew, hinbox⟩ := step_eq hstep
  rcases @enqueue_cases limits run.inbox.live run.inbox.closing call with
    ⟨memory, e, heffect, -⟩ | ⟨memory, found, heffect, hmessages, hmem, hkey⟩ |
    ⟨memory, added, heffect, hmessages, has, -⟩
  · simp [reply, heffect, ChatMessageInbox.perform] at hreply
  · -- The call was answered with a message that was there.
    have hanswer : call.answer found = .ok item := by
      simp only [reply, heffect] at hreply
      cases hres : call.answer found with
      | error => simp [hres, ChatMessageInbox.perform] at hreply
      | ok => simpa [hres, ChatMessageInbox.perform] using hreply
    have hlive : next.inbox.live = memory := by
      rw [hinbox, heffect, hanswer]
      rfl
    unfold answer at hanswer
    split at hanswer
    · simp at hanswer
    next hfingerprint =>
    have hfingerprint : found.fingerprint = .message call.payload := by simpa using hfingerprint
    split at hanswer
    · simp at hanswer
    obtain rfl := Except.ok.inj hanswer
    refine ⟨found.key, hkey, ?_, ?_, rfl, hfingerprint⟩
    · rw [hlive, hmessages]
      exact Table.get?_eq_some.mpr ⟨hmem, rfl⟩
    · exact hq.inbox.ordered.digested _ _ _ (entry_of_mem hmem) hfingerprint
  · have hsaved : outcome = .saved ∧ added = item := by
      cases outcome <;>
        simp_all [reply, ChatMessageInbox.perform, SaveOutcome.raises]
    obtain ⟨rfl, rfl⟩ := hsaved
    have hlive : next.inbox.live = memory := by
      rw [hinbox, heffect]
      rfl
    have hget : next.inbox.live.messages.get? added.messageId = some added := by
      rw [hlive, hmessages]
      exact Table.get?_insert_self _ added
    refine ⟨added.key, has.key, hget, ?_, rfl, has.fingerprint⟩
    have hordered := (hq.step hstep).queued.inbox.ordered
    exact hordered.digested _ _ _ (entry_of_get? hget) has.fingerprint

theorem reply_of_held (hq : run.Queued) {id : MessageId}
    {key : String × TabId × Incarnation × String} {payload : ChatMessageCreate}
    {item : ChatMessageEnvelope} (hheld : run.inbox.live.Holds id key payload item)
    (hkey : call.key? run.inbox.live = some key) (hopen : run.inbox.closing = false)
    (hstep : InboxRun.step limits run (call.op outcome) = some next) :
    ∃ found ∈ run.inbox.live.messages.rows, found.key = key ∧
      (call.principal ≠ "scheduler" → found = item) ∧
      (found.fingerprint = .message call.payload → found = item) ∧
      call.reply limits run outcome
        = (call.answer found).mapError InboxFailure.inboxError ∧
      next.inbox.live.messages = run.inbox.live.messages := by
  obtain ⟨-, hinbox⟩ := step_eq hstep
  have hmem := (Table.get?_eq_some.mp hheld.get?).1
  have hordered := hq.inbox.ordered
  rcases @enqueue_cases limits run.inbox.live run.inbox.closing call with
    ⟨memory, e, -, -, hnone⟩ | ⟨memory, found, heffect, hmessages, hfound, hsame⟩ |
    ⟨memory, added, -, -, -, hnone⟩
  · rcases hnone with hclosing | hnone | hnone
    · simp [hopen] at hclosing
    · simp [hkey] at hnone
    · exact absurd (hkey.trans (congrArg some hheld.key.symm)) (hnone item hmem)
  · have hfkey : found.key = key := Option.some.inj (hsame.symm.trans hkey)
    refine ⟨found, hfound, hfkey, fun hcaller => ?_, fun hfingerprint => ?_, ?_, ?_⟩
    · exact hheld.unique hordered hfound hfkey (direct_of_key hordered hfound hsame hcaller)
    · exact hheld.unique hordered hfound hfkey
        (hordered.digested _ _ _ (entry_of_mem hfound) hfingerprint)
    · unfold reply
      rw [heffect]
      cases call.answer found <;> rfl
    · rw [hinbox, heffect]
      cases call.answer found <;> exact hmessages
  · exact absurd (hkey.trans (congrArg some hheld.key.symm)) (hnone item hmem)

theorem refused_adds_nothing (hq : run.Queued) {e : InboxFailure}
    (hstep : InboxRun.step limits run (call.op outcome) = some next)
    (hreply : call.reply limits run outcome = .error e) :
    (∀ id, (next.inbox.live.messages.get? id).isSome = (run.inbox.live.messages.get? id).isSome) ∧
    (e ≠ .saveFailed → next.inbox.live.messages = run.inbox.live.messages) ∧
    ((next.inbox.file = run.inbox.file ∧ next.inbox.committed = run.inbox.committed) ∨
      (e = .saveFailed ∧ next.inbox.closing = true ∧ ∃ item,
        next.inbox.file.messages = run.inbox.live.messages.insert item ∧
        run.inbox.live.EnqueuedAs call item)) := by
  obtain ⟨-, hinbox⟩ := step_eq hstep
  have hsame (memory : InboxPayload) (hmessages : memory.messages = run.inbox.live.messages)
      (reply : Except InboxError ChatMessageEnvelope)
      (heffect : call.effect limits run.inbox.live run.inbox.closing = .keep memory reply) :
      next.inbox.live.messages = run.inbox.live.messages ∧ next.inbox.file = run.inbox.file ∧
        next.inbox.committed = run.inbox.committed := by
    rw [hinbox, heffect]
    cases reply <;> exact ⟨hmessages, rfl, rfl⟩
  rcases @enqueue_cases limits run.inbox.live run.inbox.closing call with
    ⟨memory, e', heffect, hmessages, -⟩ | ⟨memory, found, heffect, hmessages, -⟩ |
    ⟨memory, added, heffect, hmessages, has, -⟩
  · obtain ⟨hlive, hfile, hcommitted⟩ := hsame memory hmessages _ heffect
    exact ⟨fun id => by rw [hlive], fun _ => hlive, .inl ⟨hfile, hcommitted⟩⟩
  · obtain ⟨hlive, hfile, hcommitted⟩ := hsame memory hmessages _ heffect
    exact ⟨fun id => by rw [hlive], fun _ => hlive, .inl ⟨hfile, hcommitted⟩⟩
  · have hback (id : MessageId) : (run.inbox.committed.messages.get? id).isSome
        = (run.inbox.live.messages.get? id).isSome := by
      have hagree := congrFun hq.inbox.agree id
      simpa [entry] using congrArg Option.isSome hagree
    cases outcome with
    | saved => simp [reply, heffect, ChatMessageInbox.perform, SaveOutcome.raises] at hreply
    | notReplaced =>
      obtain rfl : e = .saveFailed := by
        simpa [reply, heffect, ChatMessageInbox.perform, SaveOutcome.raises] using hreply.symm
      rw [hinbox, heffect]
      exact ⟨hback, by simp, .inl ⟨rfl, rfl⟩⟩
    | replacedThenRaised =>
      obtain rfl : e = .saveFailed := by
        simpa [reply, heffect, ChatMessageInbox.perform, SaveOutcome.raises] using hreply.symm
      rw [hinbox, heffect]
      exact ⟨hback, by simp, .inr ⟨rfl, rfl, added, hmessages, has⟩⟩

end EnqueueCall

private def firstCall : EnqueueCall where
  tabId := "tab"
  principal := "user"
  actor := "User"
  payload := ⟨"hello", "call", none⟩
  resolved := .ok ⟨"run", some "conversation", none⟩
  messageId := "m1"
  now := 1

private def retriedCall : EnqueueCall := { firstCall with messageId := "m2", now := 4000000000000 }

private def ranAndExpired : List InboxOp :=
  [.pump "tab" false (.ok ⟨"run", some "conversation", none⟩) 2 .saved,
    .beforeDelivery "m1" (.ok ⟨"run", some "conversation", none⟩) .saved,
    .submitReturned "tab" 3 .saved,
    .completed "tab" "hub-message-m1" "completed" 4 .saved,
    .crash,
    .prune 3000000000000 .saved]

end ClaudeHub
