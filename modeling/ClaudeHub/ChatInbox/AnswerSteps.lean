import ClaudeHub.ChatInbox.AnswerState

/-! # What each operation does to questions and answers

Only a public cancellation, a completed turn, and the pump of an answer can finish
the answer of a claimed question.
-/

namespace ClaudeHub

open InboxPayload

def InboxEffect.memory {α : Type} : InboxEffect α → InboxPayload
  | .keep memory _ => memory
  | .write memory _ => memory

namespace InboxPayload

variable {l p : InboxPayload} {busy : MessageId → Prop} {closing : Bool}
  {item : ChatMessageEnvelope} {state : ChatMessageState} {reason : Option String} {now : Time}

theorem core_put_self (p : InboxPayload) (item : ChatMessageEnvelope) :
    (p.putMessage item).core item.messageId = some item.core := by
  rw [core_putMessage, if_pos rfl]

def Ordinary (p : InboxPayload) (id : MessageId) : Prop :=
  ∃ c, p.core id = some c ∧ c.owner.kind = .message

theorem Ordinary.kind {id : MessageId} (h : l.Ordinary id)
    (hget : l.messages.get? id = some item) : item.kind = .message := by
  obtain ⟨c, hc, hkind⟩ := h
  cases (core_of_get? hget).symm.trans hc
  exact hkind

/-- The pump of this answer is in `busy` if a claimed question waits for it. -/
def Finishes (p : InboxPayload) (busy : MessageId → Prop) (id : MessageId) : Prop :=
  ∀ q ∈ p.questions.rows, q.state = .claimed → q.answerId = some id → busy id

theorem Ordinary.finishes {id : MessageId} (hid : l.Ordinary id) (h : l.AnswersOk busy) :
    l.Finishes busy id := by
  intro q hq _ hanswer
  obtain ⟨c, hc, hkind⟩ := hid
  obtain ⟨d, hd, hdkind, -⟩ := h.owned q hq id hanswer
  cases hc.symm.trans hd
  simp [hkind] at hdkind

theorem Unmarked.ordinary {id : MessageId} {tabId : TabId} (h : l.Unmarked id tabId) :
    l.Ordinary id := by
  obtain ⟨c, hc, -, hkind, -⟩ := h
  exact ⟨c, hc, hkind⟩

/-- `_change` of an answer to a finished state, where its pump is still to come if its
question is claimed. -/
theorem change_ends (h : p.AnswersOk busy) (hitem : p.core item.messageId = some item.core)
    (hend : state.terminal = true → p.Finishes busy item.messageId) :
    (p.change closing item state reason now).memory.AnswersOk busy := by
  unfold change
  split
  · exact h
  · exact h.put hitem rfl hend

/-- `_change` of a message that has been rewritten in memory. -/
theorem change_put_ends (h : p.AnswersOk busy) (hitem : p.core item.messageId = some item.core)
    (hid : p.Finishes busy item.messageId) :
    ((p.putMessage item).change closing item state reason now).memory.AnswersOk busy :=
  change_ends (h.put hitem rfl fun _ => hid) (core_put_self p item) fun _ => hid

theorem change_unfinished (h : p.AnswersOk busy)
    (hitem : p.core item.messageId = some item.core) (hstate : state.terminal = false) :
    (p.change closing item state reason now).memory.AnswersOk busy :=
  change_ends h hitem fun hterm => by simp [hstate] at hterm

theorem change_message (h : p.AnswersOk busy) (hitem : p.core item.messageId = some item.core)
    (hkind : item.kind = .message) :
    (p.change closing item state reason now).memory.AnswersOk busy :=
  change_ends h hitem fun _ => Ordinary.finishes ⟨_, hitem, hkind⟩ h

theorem target_answers (h : l.AnswersOk busy) (tabId : TabId) (raw : InboxTarget) :
    (l.target tabId raw).1.AnswersOk busy :=
  h.congr rfl rfl rfl

/-! ## Ordinary messages -/

theorem enqueue_answers (h : l.AnswersOk busy) {limits : InboxLimits} {tabId : TabId}
    {principal actor : String} {email : Option String} {payload : ChatMessageCreate}
    {resolved : Except InboxError InboxTarget} {messageId : MessageId}
    (hnew : l.messages.get? messageId = none) :
    (l.enqueue limits closing tabId principal actor email payload resolved messageId
      now).memory.AnswersOk busy := by
  unfold enqueue
  split
  · exact h
  split
  · exact h
  next raw =>
  have htarget := target_answers h tabId raw
  simp only
  split
  · split
    · exact htarget
    · split <;> exact htarget
  · split
    · exact htarget
    · split
      · exact htarget
      · exact htarget.put_new (by simp [core, hnew]) rfl

theorem admitScheduled_answers (h : l.AnswersOk busy) {limits : InboxLimits}
    {intent : ScheduledIntent} {resolved : Except InboxError InboxTarget} {enforceLimit : Bool} :
    (l.admitScheduled limits closing intent resolved enforceLimit).memory.AnswersOk busy := by
  unfold admitScheduled
  split
  · exact h
  next hnone =>
  have hnew : l.core intent.id = none := by simp [core, hnone]
  cases resolved with
  | error =>
    simp only
    split
    · exact h
    · split
      · exact h
      · exact h.put_new hnew rfl
  | ok raw =>
    have htarget := target_answers h intent.tabId raw
    simp only
    split
    · exact htarget
    · split
      · exact htarget
      · exact htarget.put_new hnew rfl

theorem cancelScheduled_answers (h : l.AnswersOk busy) {messageId : MessageId} {release : Bool} :
    (l.cancelScheduled closing messageId release now).memory.AnswersOk busy := by
  unfold cancelScheduled
  split
  · exact h
  next item hget =>
  have hitem := item_core hget
  split
  next hscheduled =>
    simp only [Bool.and_eq_true] at hscheduled
    refine change_message h hitem ?_
    cases hkind : item.kind with
    | message => rfl
    | questionAnswer =>
      have hnot : item.scheduled = false := h.unscheduled _ _ hitem hkind
      simp [hnot] at hscheduled
  · exact h

end InboxPayload

def PumpTurn.memory : PumpTurn → InboxPayload
  | .ended effect => effect.memory
  | .pinned memory _ => memory
  | .submits effect => effect.memory

namespace InboxPayload

variable {l p : InboxPayload} {busy : MessageId → Prop} {closing : Bool}
  {item : ChatMessageEnvelope} {state : ChatMessageState} {reason : Option String} {now : Time}

theorem dispatchHead_answers (h : p.AnswersOk busy)
    (hitem : p.core item.messageId = some item.core) (hkind : item.kind = .message)
    {target : EpochTarget} : (p.dispatchHead closing item target now).memory.AnswersOk busy := by
  unfold dispatchHead
  split
  · exact change_message h hitem hkind
  · split
    · exact change_message h hitem hkind
    · exact change_put_ends h hitem (Ordinary.finishes ⟨_, hitem, hkind⟩ h)

variable {resolved : Except InboxError InboxTarget}

theorem admitHead_answers (h : l.AnswersOk busy) (hitem : l.core item.messageId = some item.core)
    (hkind : item.kind = .message) :
    (l.admitHead closing item resolved now).memory.AnswersOk busy := by
  unfold admitHead
  split
  · exact change_message h hitem hkind
  next raw =>
  have htarget := target_answers h item.tabId raw
  simp only
  split
  · exact htarget.put_message hitem rfl hkind
  · exact dispatchHead_answers htarget hitem hkind

theorem preparedHead_answers (h : l.AnswersOk busy) (hitem : l.core item.messageId = some item.core)
    (hkind : item.kind = .message) :
    (l.preparedHead closing item reason resolved now).memory.AnswersOk busy := by
  unfold preparedHead
  split
  · exact h
  · split
    · exact change_message h hitem hkind
    · exact admitHead_answers h hitem hkind

theorem beforeDelivery_answers (h : l.AnswersOk busy) {id : MessageId} :
    (l.beforeDelivery closing id resolved).memory.AnswersOk busy := by
  unfold beforeDelivery
  split
  · exact h
  split
  · exact h
  next item hget =>
  split
  · exact h
  next hstate =>
  have hstate : item.state = .dispatching := by simpa using hstate
  have hitem := item_core hget
  have hmark (p : InboxPayload) (hp : p.AnswersOk busy) (hcore : p.core = l.core) :
      (p.putMessage { item with submissionStarted := true }).AnswersOk busy :=
    hp.put (c := item.core) (by rw [hcore]; exact hitem) rfl
      fun hterm => by simp [hstate, ChatMessageState.terminal] at hterm
  split
  · exact hmark l h rfl
  · split
    · exact h
    next raw =>
      have htarget := target_answers h item.tabId raw
      simp only
      split
      · exact htarget
      · exact hmark _ htarget rfl

theorem submitReturned_answers (h : l.AnswersOk busy) {id : MessageId} :
    (l.submitReturned closing id now).memory.AnswersOk busy := by
  unfold submitReturned
  split
  · exact h
  next item hget =>
  split
  · exact change_unfinished h (item_core hget) rfl
  · exact h

theorem Redelivers.answers {id : MessageId} {effect : InboxEffect Unit}
    (h : l.Redelivers closing id now effect) (hok : l.AnswersOk busy) (hid : l.Finishes busy id) :
    effect.memory.AnswersOk busy := by
  cases h with
  | nothing => exact hok
  | changes state reason hget _ _ =>
    obtain rfl := Table.key_of_get? hget
    exact change_ends hok (item_core hget) fun _ => hid
  | putsBack attempts legacyRecovery state reason hget =>
    obtain rfl := Table.key_of_get? hget
    have hitem := item_core hget
    exact change_put_ends hok hitem hid

theorem observe_answers (h : l.AnswersOk busy) (hitem : l.core item.messageId = some item.core)
    (hkind : item.kind = .message) (recovering : Bool) :
    (l.observe item recovering now).1.AnswersOk busy := by
  have hchecked : (l.putMessage { item with recoveryCheckedAt := some now }).AnswersOk busy :=
    h.put_message hitem rfl hkind
  unfold observe
  split
  · exact h
  · split
    · exact h
    · simp only
      split <;> split <;> first | exact hchecked | exact h

theorem observe_messageId {recovering : Bool} {seen : Observation}
    (hseen : (l.observe item recovering now).2 = some seen) : seen.messageId = item.messageId := by
  unfold observe at hseen
  split at hseen
  · simp at hseen
  · split at hseen
    · simp at hseen
    · simp only at hseen
      split at hseen
      · cases hseen
        rfl
      · simp at hseen

theorem prune_answers (h : l.AnswersOk busy) : (l.prune now).memory.AnswersOk busy := by
  unfold prune
  simp only
  split
  · exact h
  · have hcore : InboxPayload.core { l with
        messages := l.messages.map (expireMessage now) (expireMessage_messageId now) } =
        l.core := by
      funext id
      simp only [core, Table.get?_map, Option.map_map]
      congr 1
      funext item
      simp only [Function.comp_apply, expireMessage]
      split <;> rfl
    have hquestion (m : InboxPayload) (q : ChatQuestion) :
        (m.expireQuestion now q).questionRef = q.questionRef ∧
          (m.expireQuestion now q).answerId = q.answerId ∧
          (m.expireQuestion now q).state = q.state := by
      unfold expireQuestion
      simp only
      split <;> exact ⟨rfl, rfl, rfl⟩
    have hmessages := h.congr (p := { l with
      messages := l.messages.map (expireMessage now) (expireMessage_messageId now) }) hcore rfl rfl
    refine hmessages.update ?_ ?_ (fun id c hc => ⟨c, hc, rfl⟩) (fun id c hc _ => ⟨c, hc, rfl⟩)
      hmessages.receipts ?_
    · intro q' hq'
      obtain ⟨q, hq, rfl⟩ := List.mem_map.mp hq'
      obtain ⟨href, hans, hstate⟩ := hquestion _ q
      exact ⟨q, hq, href, hans, .inl hstate⟩
    · intro q hq
      obtain ⟨href, hans, -⟩ := hquestion _ q
      exact ⟨_, List.mem_map_of_mem hq, href, hans⟩
    · intro q' hq' hclaimed id c hid hc hterm
      obtain ⟨q, hq, rfl⟩ := List.mem_map.mp hq'
      obtain ⟨-, hans, hstate⟩ := hquestion _ q
      exact hmessages.settled q hq (hstate.symm.trans hclaimed) id c (hans.symm.trans hid) hc hterm

/-! ## Questions and answers -/

variable {q : ChatQuestion}

section

variable (h : l.AnswersOk busy)
include h

theorem capture_answers (hnew : l.questions.get? q.questionRef = none) :
    (l.capture closing q).memory.AnswersOk busy := by
  unfold capture
  split
  · exact h
  split
  · exact h
  simp only
  split
  · exact h
  have hrows (x : ChatQuestion) : x ∈ (l.putQuestion
      { q with state := .opened, answerId := none }).questions.rows ↔
        x = { q with state := .opened, answerId := none } ∨ x ∈ l.questions.rows := by
    refine Table.mem_insert.trans (or_congr Iff.rfl ⟨And.left, fun hx => ⟨hx, ?_⟩⟩)
    exact Table.get?_eq_none.mp hnew x hx
  constructor
  · intro x hx hstate
    rcases (hrows x).mp hx with rfl | hold
    · simp at hstate
    · exact h.held x hold hstate
  · intro x hx id hid
    rcases (hrows x).mp hx with rfl | hold
    · simp at hid
    · exact h.owned x hold id hid
  · intro x hx hstate
    rcases (hrows x).mp hx with rfl | hold
    · rfl
    · exact h.opened x hold hstate
  · intro id c hc hkind
    obtain ⟨x, hx, hrest⟩ := h.asked id c hc hkind
    exact ⟨x, (hrows x).mpr (.inr hx), hrest⟩
  · exact h.unscheduled
  · exact h.receipts
  · intro x hx hclaimed id c hid hc hterm
    rcases (hrows x).mp hx with rfl | hold
    · simp at hclaimed
    · exact h.settled x hold hclaimed id c hid hc hterm

theorem claim_answers {item : ChatMessageEnvelope} {receipts : Table CallbackReceipt.key}
    (hq : q ∈ l.questions.rows) (hopen : q.state = .opened) (hnew : l.core item.messageId = none)
    (hkind : item.kind = .questionAnswer) (href : item.questionRef = some q.questionRef)
    (hscheduled : item.scheduled = false) (hstate : item.state = .queued)
    (hreceipts : ∀ r ∈ receipts.rows, r.answerId = item.messageId ∨ r ∈ l.callbackReceipts.rows) :
    ((({ l with callbackReceipts := receipts } : InboxPayload).putQuestion
      { q with state := .claimed, answerId := some item.messageId }).putMessage
        item).AnswersOk busy := by
  have hrows (x : ChatQuestion) : x ∈ (l.questions.insert
      { q with state := .claimed, answerId := some item.messageId }).rows ↔
        x = { q with state := .claimed, answerId := some item.messageId } ∨
          (x ∈ l.questions.rows ∧ x.questionRef ≠ q.questionRef) := Table.mem_insert
  have hself : (l.putMessage item).core item.messageId = some item.core := core_put_self l item
  have hkept (id : MessageId) (c : MessageCore) (hc : l.core id = some c) :
      (l.putMessage item).core id = some c := by
    rw [core_putMessage, if_neg, hc]
    rintro rfl
    simp [hnew] at hc
  have hcores (id : MessageId) (c : MessageCore) (hc : (l.putMessage item).core id = some c) :
      (id = item.messageId ∧ c = item.core) ∨ l.core id = some c := by
    rw [core_putMessage] at hc
    split at hc
    next heq => exact .inl ⟨heq, (Option.some.inj hc).symm⟩
    · exact .inr hc
  constructor
  · intro x hx _
    rcases (hrows x).mp hx with rfl | ⟨hold, -⟩
    · rfl
    · exact h.held x hold ‹_›
  · intro x hx id hid
    rcases (hrows x).mp hx with rfl | ⟨hold, -⟩
    · cases hid
      exact ⟨item.core, hself, hkind, href⟩
    · obtain ⟨c, hc, hrest⟩ := h.owned x hold id hid
      exact ⟨c, hkept id c hc, hrest⟩
  · intro x hx hstate
    rcases (hrows x).mp hx with rfl | ⟨hold, -⟩
    · simp at hstate
    · exact h.opened x hold hstate
  · intro id c hc hanswer
    rcases hcores id c hc with ⟨rfl, rfl⟩ | hold
    · exact ⟨_, (hrows _).mpr (.inl rfl), href, rfl⟩
    · obtain ⟨x, hx, hxref, hid⟩ := h.asked id c hold hanswer
      refine ⟨x, (hrows x).mpr (.inr ⟨hx, fun heq => ?_⟩), hxref, hid⟩
      obtain rfl := Table.eq_of_mem hx hq heq
      simp [h.opened x hx hopen] at hid
  · intro id c hc hanswer
    rcases hcores id c hc with ⟨rfl, rfl⟩ | hold
    · exact hscheduled
    · exact h.unscheduled id c hold hanswer
  · intro r hr
    rcases hreceipts r hr with heq | hold
    · rw [heq]
      exact Option.isSome_iff_exists.mpr ⟨_, hself⟩
    · obtain ⟨c, hc⟩ := Option.isSome_iff_exists.mp (h.receipts r hold)
      exact Option.isSome_iff_exists.mpr ⟨c, hkept _ c hc⟩
  · intro x hx hclaimed id c hid hc hterm
    rcases (hrows x).mp hx with rfl | ⟨hold, -⟩
    · cases hid
      cases hself.symm.trans hc
      simp [ChatMessageEnvelope.core, hstate, ChatMessageState.terminal] at hterm
    · obtain ⟨d, hd, -, -⟩ := h.owned x hold id hid
      obtain rfl := Option.some.inj ((hkept id d hd).symm.trans hc)
      exact h.settled x hold hclaimed id d hid hd hterm

theorem claimAnswer_answers {limits : InboxLimits} {questionRef : QuestionRef}
    {principal actor : String} {email : Option String} {payload : QuestionAnswerCreate}
    {callback : Option (String × String)} {answerId : MessageId}
    (hnew : l.messages.get? answerId = none) :
    (l.claimAnswer limits closing questionRef principal actor email payload callback answerId
      now).memory.AnswersOk busy := by
  unfold claimAnswer
  split
  · exact h
  split
  · exact h
  next q hget =>
  simp only
  split
  · split
    · exact h
    · split <;> exact h
  · split
    · split
      · exact h
      · split <;> exact h
    · split
      · exact h
      next hopen =>
      split
      · exact h
      · refine claim_answers h (Table.get?_eq_some.mp hget).1 (by simpa using hopen)
          (by simp [core, hnew]) rfl rfl rfl rfl ?_
        intro r hr
        cases callback with
        | none => exact .inr hr
        | some =>
          rcases Table.mem_insert.mp hr with rfl | ⟨hold, -⟩
          · exact .inl rfl
          · exact .inr hold

theorem restartAnswer_answers (hitem : l.core item.messageId = some item.core) :
    (l.restartAnswer closing item now).memory.AnswersOk busy := by
  have hchange (state : ChatMessageState) (reason : String) (hstate : state.terminal = false) :
      (l.change closing item state (some reason) now).memory.AnswersOk busy :=
    change_unfinished h hitem hstate
  unfold restartAnswer
  split
  · have hqueued := hchange .queued "Recovered before answer submission" rfl
    split <;> simp_all [InboxEffect.memory]
  · have huncertain := hchange .uncertain "Answer delivery needs reconciliation" rfl
    split <;> simp_all [InboxEffect.memory]

theorem restartQuestion_answers (hitem : l.core item.messageId = some item.core)
    (hkind : item.kind = .questionAnswer) : (l.restartQuestion item).memory.AnswersOk busy := by
  unfold restartQuestion
  split
  · exact h
  next q hget =>
  obtain ⟨ref, href, hget⟩ := Option.bind_eq_some_iff.mp hget
  have hq := (Table.get?_eq_some.mp hget).1
  have hkey := Table.key_of_get? hget
  obtain ⟨q', hq', href', hid⟩ := h.asked _ _ hitem hkind
  have hsame : q.questionRef = q'.questionRef := by
    rw [hkey]
    exact Option.some.inj (href.symm.trans href')
  obtain rfl := Table.eq_of_mem hq hq' hsame
  exact h.put_question { q with state := .uncertain } hq rfl rfl (.inr (.inr ⟨rfl, by simp [hid]⟩))

theorem settleQuestion_answers (hitem : l.core item.messageId = some item.core)
    (hkind : item.kind = .questionAnswer) :
    ∃ memory, l.settleQuestion item = .write memory () ∧ memory.core = l.core ∧
      memory.AnswersOk fun id => busy id ∧ id ≠ item.messageId := by
  obtain ⟨q, hq, href, hid⟩ := h.asked _ _ hitem hkind
  have hget : l.questions.get? q.questionRef = some q := Table.get?_eq_some.mpr ⟨hq, rfl⟩
  have href : item.questionRef = some q.questionRef := href
  have hstate : settledState item.state = .resolved ∨ settledState item.state = .stale ∨
      (settledState item.state = .uncertain ∧ q.answerId.isSome) := by
    cases item.state <;> simp [settledState, hid]
  refine ⟨l.putQuestion { q with state := settledState item.state },
    by simp [settleQuestion, href, hget], rfl, ?_⟩
  have hput := h.put_question { q with state := settledState item.state } hq rfl rfl hstate
  refine { hput with settled := ?_ }
  intro x hx hclaimed id c hxid hc hterm
  refine ⟨hput.settled x hx hclaimed id c hxid hc hterm, fun heq => ?_⟩
  subst heq
  rcases Table.mem_insert.mp hx with rfl | ⟨hold, hne⟩
  · rcases hstate with hs | hs | ⟨hs, -⟩ <;> simp [hs] at hclaimed
  · obtain rfl := h.question_unique hold hq hxid hid
    exact hne rfl

theorem staleQuestions_answers (test : ChatQuestion → Bool) :
    (l.staleQuestions test).AnswersOk busy := by
  have hstale (q : ChatQuestion) : (staleIf test q).questionRef = q.questionRef ∧
      (staleIf test q).answerId = q.answerId ∧
      ((staleIf test q).state = q.state ∨ (staleIf test q).state = .stale) := by
    unfold staleIf
    split
    · exact ⟨rfl, rfl, .inr rfl⟩
    · exact ⟨rfl, rfl, .inl rfl⟩
  refine h.update ?_ ?_ (fun id c hc => ⟨c, hc, rfl⟩) (fun id c hc _ => ⟨c, hc, rfl⟩)
    h.receipts ?_
  · intro q' hq'
    obtain ⟨q, hq, rfl⟩ := List.mem_map.mp hq'
    obtain ⟨href, hans, hstate⟩ := hstale q
    exact ⟨q, hq, href, hans, by tauto⟩
  · intro q hq
    obtain ⟨href, hans, -⟩ := hstale q
    exact ⟨_, List.mem_map_of_mem hq, href, hans⟩
  · intro q' hq' hclaimed id c hid hc hterm
    obtain ⟨q, hq, rfl⟩ := List.mem_map.mp hq'
    obtain ⟨-, hans, hstate⟩ := hstale q
    rcases hstate with hsame | hs
    · exact h.settled q hq (hsame.symm.trans hclaimed) id c (hans.symm.trans hid) hc hterm
    · simp [hs] at hclaimed

theorem change_settled {id : MessageId} (hq : q ∈ l.questions.rows) (hid : q.answerId = some id)
    (hget : l.messages.get? id = some item) :
    ((l.putQuestion { q with state := .resolved }).change closing item .completed reason
      now).memory.AnswersOk busy := by
  have hput := h.put_question { q with state := .resolved } hq rfl rfl (.inl rfl)
  refine change_ends hput (item_core hget) fun _ x hx hclaimed hxid => ?_
  rcases Table.mem_insert.mp hx with rfl | ⟨hold, hne⟩
  · simp at hclaimed
  · have hkey := Table.key_of_get? hget
    obtain rfl := h.question_unique hold hq (by rw [hxid, hkey]) hid
    exact (hne rfl).elim

theorem approvalResolved_answers (hq : q ∈ l.questions.rows) :
    (l.approvalResolved closing q now).memory.AnswersOk busy := by
  have hput := h.put_question { q with state := .resolved } hq rfl rfl (.inl rfl)
  unfold approvalResolved
  split
  · exact h
  simp only
  split
  · exact hput
  next item hget =>
  obtain ⟨id, hid, hget⟩ := Option.bind_eq_some_iff.mp hget
  split
  · exact change_settled h hq hid hget
  · exact hput

theorem handoffPersisted_answers (hq : q ∈ l.questions.rows) :
    (l.handoffPersisted closing q now).memory.AnswersOk busy := by
  unfold handoffPersisted
  split
  · exact h
  · split
    · exact h
    next item hget =>
      obtain ⟨id, hid, hget⟩ := Option.bind_eq_some_iff.mp hget
      exact change_settled h hq hid hget

theorem questionGone_answers (hq : q ∈ l.questions.rows) :
    (l.questionGone q).memory.AnswersOk busy := by
  unfold questionGone
  split
  · exact h.put_question { q with state := .stale } hq rfl rfl (.inr (.inl rfl))
  · exact h

theorem rememberNonce_answers {key fingerprint : String} :
    (l.rememberNonce key fingerprint now).memory.AnswersOk busy := by
  unfold rememberNonce
  simp only
  split
  · split <;> exact h.congr rfl rfl rfl
  · exact h.congr rfl rfl rfl

end

end InboxPayload

end ClaudeHub
