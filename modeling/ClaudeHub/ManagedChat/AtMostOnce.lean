import ClaudeHub.ManagedChat.Send

/-! # At most one handoff of a call id

A call id stands from its send on until its attempt is removed or the evidence is
discarded. As long as it stands, both the file and the evidence of the lock's holder
have its record, with the payload that was sent.
-/

namespace ClaudeHub

open StepSystem

namespace ChatEvent

/-- The send of a call id that still stands, and whether its acceptance was recorded. -/
def standing (callId : String) : List ChatEvent → Option (SendCall × Bool)
  | [] => none
  | .sent call :: log => if call.callId = callId then some (call, false) else standing callId log
  | .accepted id :: log =>
    if id = callId then (standing callId log).map fun sent => (sent.1, true)
    else standing callId log
  | .removed id :: log => if id = callId then none else standing callId log
  | .discarded :: _ => none
  | .returned _ :: log | .raised _ _ :: log => standing callId log

def SentOnce : List ChatEvent → Prop
  | [] => True
  | .sent call :: log => standing call.callId log = none ∧ SentOnce log
  | .accepted _ :: log | .removed _ :: log | .discarded :: log | .returned _ :: log
  | .raised _ _ :: log => SentOnce log

theorem SentOnce.of_append {later log : List ChatEvent} (h : SentOnce (later ++ log)) :
    SentOnce log := by
  induction later with
  | nil => exact h
  | cons event later ih =>
    cases event with
    | sent => exact ih h.2
    | _ => exact ih h

theorem standing_of_sent {later log : List ChatEvent} {call : SendCall}
    (hsent : SentOnce (later ++ .sent call :: log)) (hremoved : .removed call.callId ∉ later)
    (hdiscarded : .discarded ∉ later) :
    standing call.callId (later ++ .sent call :: log) =
      some (call, decide (.accepted call.callId ∈ later)) := by
  induction later with
  | nil => simp [standing]
  | cons event later ih =>
    simp only [List.mem_cons, not_or] at hremoved hdiscarded
    have hrest : SentOnce (later ++ .sent call :: log) := @SentOnce.of_append [event] _ hsent
    have ih := ih hrest hremoved.2 hdiscarded.2
    cases event with
    | sent other =>
      -- The same call id cannot have been sent again.
      have hfresh : standing other.callId (later ++ .sent call :: log) = none := hsent.1
      have hother : other.callId ≠ call.callId := by
        intro heq
        rw [heq, ih] at hfresh
        simp at hfresh
      simp [standing, hother, ih]
    | accepted id =>
      by_cases hid : id = call.callId
      · simp [standing, hid, ih]
      · simp [standing, hid, ih, Ne.symm hid]
    | removed id =>
      have hid : id ≠ call.callId := fun heq => hremoved.1 (by rw [heq])
      simp [standing, hid, ih]
    | discarded => exact absurd rfl hdiscarded.1
    | returned => simp [standing, ih]
    | raised => simp [standing, ih]

end ChatEvent

open ChatEvent

def Attempts.Covers (records : Attempts) (log : List ChatEvent) : Prop :=
  ∀ callId call done, standing callId log = some (call, done) →
    ∃ attempt, records.lookup callId = some (.attempt attempt) ∧
      attempt.payloadSha256 = some call.payload ∧ attempt.turnId = some callId ∧
      (done = true → attempt.state = .accepted)

namespace ManagedChat

structure Inv (chat : ManagedChat) : Prop where
  sentOnce : SentOnce chat.log
  file : ∀ records, chat.file.readAttempts = .ok records → records.Covers chat.log
  holder : ∀ handoff, chat.holder = some handoff → handoff.records.Covers chat.log ∧
    ∀ call done, standing handoff.call.callId chat.log = some (call, done) → done = false

variable {chat next : ManagedChat} {call : SendCall} {records : Attempts} {log : List ChatEvent}
  {outcome : SaveOutcome} {readable : Bool}

theorem inv_start (kind : SessionKind) (file : EvidenceFile) (token : String)
    (delivered : List String) : (start kind file token delivered).Inv where
  sentOnce := trivial
  file := by
    intro records _ callId call done h
    simp [start, standing] at h
  holder := by simp [start]

theorem standing_reply (chat : ManagedChat) (call : SendCall) (result : Except ChatSendError Unit)
    (callId : String) : standing callId (chat.reply call result).log = standing callId chat.log := by
  cases result <;> rfl

theorem covers_reply (h : records.Covers chat.log) (result : Except ChatSendError Unit) :
    records.Covers (chat.reply call result).log := by
  intro callId sent done hstanding
  rw [standing_reply] at hstanding
  exact h callId sent done hstanding

theorem Inv.reply (h : chat.Inv) (call : SendCall) (result : Except ChatSendError Unit) :
    (chat.reply call result).Inv where
  sentOnce := by cases result <;> exact h.sentOnce
  file records hread := covers_reply (h.file records hread) result
  holder handoff hholder := by
    obtain ⟨hcovers, hopen⟩ := h.holder handoff hholder
    refine ⟨covers_reply hcovers result, fun sent done hstanding => ?_⟩
    rw [standing_reply] at hstanding
    exact hopen sent done hstanding

theorem covers_write {file : EvidenceFile}
    (hfile : outcome = .notReplaced → ∀ old, file.readAttempts = .ok old → old.Covers log)
    (hrecords : outcome ≠ .notReplaced → records.Covers log) :
    ∀ read, (file.writeAttempts records outcome).readAttempts = .ok read → read.Covers log := by
  intro read hread
  cases outcome with
  | notReplaced => exact hfile rfl read hread
  | saved =>
    obtain rfl : records = read := Except.ok.inj hread
    exact hrecords (by simp)
  | replacedThenRaised =>
    obtain rfl : records = read := Except.ok.inj hread
    exact hrecords (by simp)

theorem Inv.writeAhead (h : chat.Inv) (hholder : chat.holder = none)
    (hcovers : records.Covers chat.log) (hnew : standing call.callId chat.log = none) :
    (chat.writeAhead call records outcome).Inv := by
  have hset (log : List ChatEvent) (hother : ∀ callId ≠ call.callId,
      standing callId log = standing callId chat.log)
      (hself : ∀ sent done, standing call.callId log = some (sent, done) →
        sent = call ∧ done = false) :
      Attempts.Covers (records.set call.callId (.attempt
        ⟨some call.payload, some chat.processToken, .sending, some call.callId⟩)) log := by
    intro callId sent done hstanding
    rw [Dict.lookup_set]
    by_cases hid : callId = call.callId
    · subst hid
      obtain ⟨rfl, rfl⟩ := hself sent done hstanding
      exact ⟨_, if_pos rfl, rfl, rfl, by simp⟩
    · rw [if_neg hid]
      rw [hother callId hid] at hstanding
      exact hcovers callId sent done hstanding
  have hkept := hset chat.log (fun _ _ => rfl) (by simp [hnew])
  unfold ManagedChat.writeAhead
  simp only
  split
  · have hwritten : ManagedChat.Inv { chat with
        file := chat.file.writeAttempts (records.set call.callId (.attempt
          ⟨some call.payload, some chat.processToken, .sending, some call.callId⟩)) outcome } :=
      ⟨h.sentOnce, covers_write (fun _ => h.file) fun _ => hkept, by simp [hholder]⟩
    exact hwritten.reply call _
  next hsaved =>
    have hsent := hset (.sent call :: chat.log)
      (fun callId hid => by simp [standing, Ne.symm hid]) (by simp [standing])
    refine ⟨⟨hnew, h.sentOnce⟩, ?_, ?_⟩
    · refine covers_write (fun hnot => ?_) fun _ => hsent
      simp [hnot, SaveOutcome.raises] at hsaved
    · intro handoff hhandoff
      cases hhandoff
      exact ⟨hsent, by simp [standing]⟩

theorem standing_of_admission (hcovers : records.Covers chat.log)
    (hadmission : chat.admission call (records.lookup call.callId) = none) :
    standing call.callId chat.log = none := by
  cases hstanding : standing call.callId chat.log with
  | none => rfl
  | some sent =>
    obtain ⟨attempt, hlookup, -⟩ := hcovers _ sent.1 sent.2 hstanding
    rw [hlookup] at hadmission
    unfold admission at hadmission
    simp only at hadmission
    split at hadmission
    · simp at hadmission
    · split at hadmission <;> simp at hadmission

theorem readEvidence_ok (h : chat.readEvidence readable = .ok records) :
    chat.file.readAttempts = .ok records := by
  unfold readEvidence at h
  split at h
  · exact h
  · simp at h

theorem Inv.acquire (h : chat.Inv) (hholder : chat.holder = none) :
    (chat.acquire call readable outcome).Inv := by
  unfold ManagedChat.acquire
  split
  · exact h.reply call _
  next records hread =>
    have hcovers := h.file records (readEvidence_ok hread)
    split
    · exact h.reply call _
    next hadmission => exact h.writeAhead hholder hcovers (standing_of_admission hcovers hadmission)

variable {handoff : Handoff}

theorem settle_covers (result : ProviderResult) (hcovers : handoff.records.Covers log)
    (hopen : ∀ call done, standing handoff.call.callId log = some (call, done) → done = false) :
    (settle handoff result).1.Covers ((settle handoff result).2 ++ log) := by
  have hmark (state : AttemptState) (log' : List ChatEvent)
      (hother : ∀ callId ≠ handoff.call.callId, standing callId log' = standing callId log)
      (hself : ∀ call done, standing handoff.call.callId log' = some (call, done) →
        (∃ done', standing handoff.call.callId log = some (call, done')) ∧
          (done = true → state = .accepted)) :
      (handoff.records.mark handoff.call.callId state).Covers log' := by
    intro callId call done hstanding
    rw [Attempts.lookup_mark]
    by_cases hid : callId = handoff.call.callId
    · subst hid
      obtain ⟨⟨done', hold⟩, hstate⟩ := hself call done hstanding
      obtain ⟨attempt, hlookup, hpayload, hturn, -⟩ := hcovers _ _ _ hold
      exact ⟨{ attempt with state := state }, by simp [hlookup], hpayload, hturn, hstate⟩
    · rw [if_neg hid]
      rw [hother callId hid] at hstanding
      exact hcovers callId call done hstanding
  have huncertain : (handoff.records.mark handoff.call.callId .uncertain).Covers log := by
    refine hmark _ log (fun _ _ => rfl) fun call done hstanding => ⟨⟨done, hstanding⟩, ?_⟩
    simp [hopen call done hstanding]
  cases result with
  | returned =>
    refine hmark _ _ (fun callId hid => by simp [settle, standing, Ne.symm hid]) ?_
    intro call done hstanding
    simp only [settle, List.singleton_append, standing, if_pos, Option.map_eq_some_iff,
      Prod.mk.injEq] at hstanding
    obtain ⟨sent, hsent, rfl, -⟩ := hstanding
    exact ⟨⟨sent.2, hsent⟩, fun _ => rfl⟩
  | raised exc =>
    cases exc with
    | nativeInputNotSubmitted =>
      intro callId call done hstanding
      show ∃ attempt, Dict.lookup (Table.erase handoff.records handoff.call.callId) callId = _ ∧ _
      rw [Dict.lookup_erase]
      by_cases hid : callId = handoff.call.callId
      · simp [settle, standing, hid] at hstanding
      · rw [if_neg hid]
        simp only [settle, List.singleton_append, standing, if_neg (Ne.symm hid)] at hstanding
        exact hcovers callId call done hstanding
    | exception => exact huncertain
    | cancelled => exact huncertain

theorem settle_sentOnce (result : ProviderResult) (h : SentOnce log) :
    SentOnce ((settle handoff result).2 ++ log) := by
  cases result with
  | returned => exact h
  | raised exc => cases exc <;> exact h

theorem Inv.finish (h : chat.Inv) (hholder : chat.holder = some handoff) (result : ProviderResult) :
    (chat.finish handoff result outcome).Inv := by
  obtain ⟨hcovers, hopen⟩ := h.holder handoff hholder
  have hsettled := settle_covers result hcovers hopen
  have hfinished : ManagedChat.Inv { chat with
      holder := none
      file := chat.file.writeAttempts (settle handoff result).1 outcome
      log := (if outcome = SaveOutcome.notReplaced then [] else (settle handoff result).2) ++
        chat.log } := by
    refine ⟨?_, covers_write (fun hnot => ?_) fun hreplaced => ?_, by simp⟩
    · split
      · exact h.sentOnce
      · exact settle_sentOnce result h.sentOnce
    · rw [if_pos hnot]
      exact h.file
    · rw [if_neg hreplaced]
      exact hsettled
  exact hfinished.reply handoff.call _

theorem Inv.step (h : chat.Inv) {op : ChatOp} (hstep : chat.step op = some next) : next.Inv := by
  cases op with
  | call callId text =>
    simp only [ManagedChat.step] at hstep
    split at hstep
    next e _ =>
      cases hstep
      exact h.reply ⟨callId, ⟨text, []⟩⟩ (.error (.valueError e))
    · cases hstep
      exact ⟨h.sentOnce, h.file, h.holder⟩
  | withdraw =>
    simp only [ManagedChat.step, Option.ite_none_right_eq_some, Option.some.injEq] at hstep
    obtain ⟨-, rfl⟩ := hstep
    exact ⟨h.sentOnce, h.file, h.holder⟩
  | acquire =>
    simp only [ManagedChat.step, Option.ite_none_right_eq_some, Option.some.injEq] at hstep
    obtain ⟨⟨hholder, -⟩, rfl⟩ := hstep
    refine Inv.acquire ⟨h.sentOnce, h.file, h.holder⟩ ?_
    simpa using hholder
  | finish result =>
    obtain ⟨handoff, hholder, rfl⟩ := Option.map_eq_some_iff.mp hstep
    exact h.finish hholder result
  | restart =>
    cases hstep
    exact ⟨h.sentOnce, h.file, by simp⟩
  | deliveredChanged =>
    cases hstep
    exact ⟨h.sentOnce, h.file, h.holder⟩
  | discard =>
    cases hstep
    refine ⟨h.sentOnce, ?_, fun handoff _ => ⟨?_, ?_⟩⟩ <;> simp [Attempts.Covers, standing]
  | damage readable =>
    cases hstep
    refine ⟨h.sentOnce, ?_, h.holder⟩
    cases readable <;> simp [EvidenceFile.readAttempts]

/-- What a call finds of a call id that stands: it never sends, it is refused with another
payload, and it returns once the acceptance is recorded. -/
theorem acquire_standing (h : chat.Inv) {sent : SendCall} {done : Bool}
    (hstanding : standing call.callId chat.log = some (sent, done)) :
    ∃ result, chat.acquire call readable outcome = chat.reply call result ∧
      ∀ records, chat.readEvidence readable = .ok records →
        (call.payload ≠ sent.payload →
          result = .error (.valueError (.differentPayload call.callId))) ∧
        (call.payload = sent.payload → done = true → result = .ok ()) := by
  unfold ManagedChat.acquire
  cases hread : chat.readEvidence readable with
  | error => exact ⟨_, rfl, fun records hrecords => by simp at hrecords⟩
  | ok records =>
    have hcovers := h.file records (readEvidence_ok hread)
    obtain ⟨attempt, hlookup, hpayload, hturn, hstate⟩ := hcovers _ _ _ hstanding
    simp only [hlookup, admission, hpayload, hturn]
    by_cases hsame : call.payload = sent.payload
    · rw [if_neg (by simp [hsame])]
      cases hfound : recordDeliveryState chat.deliveredCallIds chat.processToken call.callId
          (some (.attempt attempt)) with
      | accepted => exact ⟨_, rfl, fun _ _ => ⟨fun hne => absurd hsame hne, fun _ _ => rfl⟩⟩
      | _ =>
        refine ⟨_, rfl, fun _ _ => ⟨fun hne => absurd hsame hne, fun _ hdone => ?_⟩⟩
        rw [recordDeliveryState] at hfound
        split at hfound <;> simp [hstate hdone] at hfound
    · rw [if_pos (.inl fun heq => hsame (Option.some.inj heq).symm)]
      exact ⟨_, rfl, fun _ _ => ⟨fun _ => rfl, fun heq => absurd heq hsame⟩⟩

theorem acquire_unreadable {e : ChatSendError} (h : chat.readEvidence readable = .error e) :
    chat.acquire call readable outcome = chat.reply call (.error e) := by
  unfold ManagedChat.acquire
  rw [h]

end ManagedChat

/-- In every run on any evidence file, between two sends of one call id its attempt was durably
removed or the evidence was discarded; until then a call with the id replies without a send. -/
theorem managed_chat_at_most_once {kind : SessionKind} {file : EvidenceFile} {token : String}
    {delivered : List String} {ops : List ChatOp} {chat : ManagedChat}
    (hrun : Run ManagedChat.step (fun _ _ => True) (.start kind file token delivered) ops chat) :
    (∀ later between earlier call call',
      chat.log = later ++ .sent call' :: (between ++ .sent call :: earlier) →
      call'.callId = call.callId →
      .removed call.callId ∈ between ∨ .discarded ∈ between) ∧
    (∀ later earlier sent, chat.log = later ++ .sent sent :: earlier →
      .removed sent.callId ∉ later → .discarded ∉ later →
      ∀ call readable outcome next, chat.step (.acquire call readable outcome) = some next →
        call.callId = sent.callId →
        ∃ result, next = { chat with waiting := chat.waiting.erase call }.reply call result ∧
          ∀ records, chat.readEvidence readable = .ok records →
            (call.payload ≠ sent.payload →
              result = .error (.valueError (.differentPayload call.callId))) ∧
            (call.payload = sent.payload → .accepted sent.callId ∈ later → result = .ok ())) ∧
    ∀ call readable outcome next e, chat.step (.acquire call readable outcome) = some next →
      chat.readEvidence readable = .error e →
      next = { chat with waiting := chat.waiting.erase call }.reply call (.error e) := by
  have hinv : chat.Inv := hrun.invariant (ManagedChat.inv_start kind file token delivered)
    fun _ _ _ h _ hstep => h.step hstep
  have hacquire {call : SendCall} {readable : Bool} {outcome : SaveOutcome} {next : ManagedChat}
      (hstep : chat.step (.acquire call readable outcome) = some next) :
      next = { chat with waiting := chat.waiting.erase call }.acquire call readable outcome := by
    simp only [ManagedChat.step, Option.ite_none_right_eq_some, Option.some.injEq] at hstep
    exact hstep.2.symm
  refine ⟨?_, ?_, ?_⟩
  · intro later between earlier call call' hlog hid
    by_contra hnot
    simp only [not_or] at hnot
    have honce := hinv.sentOnce
    rw [hlog] at honce
    obtain ⟨hfresh, hrest⟩ := honce.of_append
    rw [hid, standing_of_sent hrest hnot.1 hnot.2] at hfresh
    simp at hfresh
  · intro later earlier sent hlog hremoved hdiscarded call readable outcome next hstep hid
    have honce := hinv.sentOnce
    rw [hlog] at honce
    have hstanding := standing_of_sent honce hremoved hdiscarded
    rw [← hlog, ← hid] at hstanding
    have hbase : ManagedChat.Inv { chat with waiting := chat.waiting.erase call } :=
      ⟨hinv.sentOnce, hinv.file, hinv.holder⟩
    obtain ⟨result, hreply, hfound⟩ := ManagedChat.acquire_standing hbase hstanding
    refine ⟨result, (hacquire hstep).trans hreply, fun records hread => ?_⟩
    obtain ⟨hother, hsame⟩ := hfound records hread
    exact ⟨hother, fun heq haccepted => hsame heq (by simpa [hid] using haccepted)⟩
  · intro call readable outcome next e hstep hread
    exact (hacquire hstep).trans (ManagedChat.acquire_unreadable hread)

private def greetingCall : SendCall := ⟨"c1", ⟨"hello", []⟩⟩

private def sentAfterRemoval : List ChatOp :=
  [.call "c1" "hello" [], .acquire greetingCall true .saved,
    .finish (.raised .nativeInputNotSubmitted) .saved,
    .call "c1" "hello" [], .acquire greetingCall true .saved, .finish .returned .saved,
    .restart "second", .call "c1" "hello" []]

/-- A message that was not submitted is sent again, and a repeat after a restart returns. -/
theorem managed_chat_at_most_once_repeated :
    ∃ chat next, exec ManagedChat.step (.start .chat .absent "first" []) sentAfterRemoval =
        some chat ∧
      ManagedChat.step chat (.acquire greetingCall true .saved) = some next ∧
      next.log = .returned greetingCall :: chat.log := by
  have hends : ((exec ManagedChat.step (.start .chat .absent "first" []) sentAfterRemoval).bind
      fun chat => (ManagedChat.step chat (.acquire greetingCall true .saved)).map fun _ =>
        (chat.log, (chat.readEvidence true).toOption.isSome)) =
      some ([.returned greetingCall, .accepted "c1", .sent greetingCall,
        .raised "c1" (.raised .nativeInputNotSubmitted), .removed "c1", .sent greetingCall],
        true) := by
    decide +kernel
  obtain ⟨chat, hchat, hrest⟩ := Option.bind_eq_some_iff.mp hends
  obtain ⟨next, hnext, hpair⟩ := Option.map_eq_some_iff.mp hrest
  obtain ⟨hlog, hreadable⟩ := Prod.mk.inj hpair
  obtain ⟨-, hrepeat, -⟩ := managed_chat_at_most_once (Run.of_exec hchat)
  obtain ⟨result, hreply, hresult⟩ :=
    hrepeat [.returned greetingCall, .accepted "c1"] _ greetingCall hlog (by decide) (by decide)
      greetingCall true .saved next hnext rfl
  refine ⟨chat, next, hchat, hnext, ?_⟩
  cases hread : chat.readEvidence true with
  | error => simp [hread, Except.toOption] at hreadable
  | ok records =>
    rw [hreply, (hresult records hread).2 rfl (by decide)]
    rfl

end ClaudeHub
