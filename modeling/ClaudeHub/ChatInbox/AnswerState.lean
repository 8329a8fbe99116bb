import ClaudeHub.ChatInbox.AtMostOnce

/-! # Questions and answers that belong together

`AnswersOk p busy` says that the answers of a payload belong to its questions one
to one, and that a claimed question with a finished answer has a pump in `busy`
that is still to save the question.
-/

namespace ClaudeHub

open InboxPayload

structure InboxPayload.AnswersOk (p : InboxPayload) (busy : MessageId → Prop) : Prop where
  held : ∀ q ∈ p.questions.rows, q.state = .claimed ∨ q.state = .uncertain → q.answerId.isSome
  owned : ∀ q ∈ p.questions.rows, ∀ id, q.answerId = some id → ∃ c, p.core id = some c ∧
    c.owner.kind = .questionAnswer ∧ c.owner.questionRef = some q.questionRef
  opened : ∀ q ∈ p.questions.rows, q.state = .opened → q.answerId = none
  asked : ∀ id c, p.core id = some c → c.owner.kind = .questionAnswer →
    ∃ q ∈ p.questions.rows, c.owner.questionRef = some q.questionRef ∧ q.answerId = some id
  unscheduled : ∀ id c, p.core id = some c → c.owner.kind = .questionAnswer →
    c.owner.scheduled = false
  receipts : ∀ receipt ∈ p.callbackReceipts.rows, (p.core receipt.answerId).isSome
  settled : ∀ q ∈ p.questions.rows, q.state = .claimed → ∀ id c, q.answerId = some id →
    p.core id = some c → c.state.terminal = true → busy id

def InboxPayload.Answerable (p : InboxPayload) : Prop :=
  ∀ q ∈ p.questions.rows, q.state = .claimed → ∃ m, q.answerId.bind p.messages.get? = some m ∧
    m.questionRef = some q.questionRef ∧ m.state.terminal = false

instance (p : InboxPayload) : Decidable p.Answerable := by
  unfold InboxPayload.Answerable
  infer_instance

def InboxPayload.OneAnswer (p : InboxPayload) : Prop :=
  ∀ m ∈ p.messages.rows, ∀ m' ∈ p.messages.rows, m.kind = .questionAnswer →
    m'.kind = .questionAnswer → m.questionRef = m'.questionRef → m = m'

namespace InboxPayload.AnswersOk

variable {l p : InboxPayload} {busy busy' : MessageId → Prop}

theorem mono (h : p.AnswersOk busy) (himp : ∀ id, busy id → busy' id) : p.AnswersOk busy' :=
  { h with
    settled := fun q hq hstate id c hid hc hterm =>
      himp id (h.settled q hq hstate id c hid hc hterm) }

theorem restrict (h : p.AnswersOk busy)
    (himp : ∀ id c, busy id → p.core id = some c → c.state.terminal = true → busy' id) :
    p.AnswersOk busy' :=
  { h with
    settled := fun q hq hstate id c hid hc hterm =>
      himp id c (h.settled q hq hstate id c hid hc hterm) hc hterm }

variable {q : ChatQuestion}

theorem question_unique (h : p.AnswersOk busy) {q' : ChatQuestion} {id : MessageId}
    (hq : q ∈ p.questions.rows) (hq' : q' ∈ p.questions.rows) (hid : q.answerId = some id)
    (hid' : q'.answerId = some id) : q = q' := by
  obtain ⟨c, hc, -, href⟩ := h.owned q hq id hid
  obtain ⟨c', hc', -, href'⟩ := h.owned q' hq' id hid'
  cases hc.symm.trans hc'
  exact Table.eq_of_mem hq hq' (Option.some.inj (href.symm.trans href'))

/-- Every message keeps its owner, no answer is added, and no question changes its answer
or is claimed or opened again. -/
theorem update (h : l.AnswersOk busy)
    (hforth : ∀ q' ∈ p.questions.rows, ∃ q ∈ l.questions.rows,
      q'.questionRef = q.questionRef ∧ q'.answerId = q.answerId ∧
        (q'.state = q.state ∨ q'.state = .resolved ∨ q'.state = .stale ∨
          (q'.state = .uncertain ∧ q.answerId.isSome)))
    (hback : ∀ q ∈ l.questions.rows, ∃ q' ∈ p.questions.rows,
      q'.questionRef = q.questionRef ∧ q'.answerId = q.answerId)
    (hkept : ∀ id c, l.core id = some c → ∃ c', p.core id = some c' ∧ c'.owner = c.owner)
    (hold : ∀ id c', p.core id = some c' → c'.owner.kind = .questionAnswer →
      ∃ c, l.core id = some c ∧ c'.owner = c.owner)
    (hreceipts : ∀ receipt ∈ p.callbackReceipts.rows, (p.core receipt.answerId).isSome)
    (hsettled : ∀ q' ∈ p.questions.rows, q'.state = .claimed → ∀ id c', q'.answerId = some id →
      p.core id = some c' → c'.state.terminal = true → busy id) : p.AnswersOk busy where
  held := by
    intro q' hq' hstate
    obtain ⟨q, hq, -, hans, hcase⟩ := hforth q' hq'
    rw [hans]
    rcases hcase with hsame | hres | hstale | ⟨-, hsome⟩
    · exact h.held q hq (by rwa [← hsame])
    · simp [hres] at hstate
    · simp [hstale] at hstate
    · exact hsome
  owned := by
    intro q' hq' id hid
    obtain ⟨q, hq, href, hans, -⟩ := hforth q' hq'
    obtain ⟨c, hc, hkind, hcref⟩ := h.owned q hq id (by rw [← hans]; exact hid)
    obtain ⟨c', hc', howner⟩ := hkept id c hc
    exact ⟨c', hc', by rw [howner, hkind], by rw [howner, hcref, href]⟩
  opened := by
    intro q' hq' hstate
    obtain ⟨q, hq, -, hans, hcase⟩ := hforth q' hq'
    rw [hans]
    rcases hcase with hsame | hres | hstale | ⟨hunc, -⟩
    · exact h.opened q hq (by rw [← hsame]; exact hstate)
    · simp [hres] at hstate
    · simp [hstale] at hstate
    · simp [hunc] at hstate
  asked := by
    intro id c' hc' hkind
    obtain ⟨c, hc, howner⟩ := hold id c' hc' hkind
    obtain ⟨q, hq, href, hans⟩ := h.asked id c hc (by rw [← howner]; exact hkind)
    obtain ⟨q', hq', href', hans'⟩ := hback q hq
    exact ⟨q', hq', by rw [howner, href, href'], by rw [hans', hans]⟩
  unscheduled := by
    intro id c' hc' hkind
    obtain ⟨c, hc, howner⟩ := hold id c' hc' hkind
    rw [howner]
    exact h.unscheduled id c hc (by rw [← howner]; exact hkind)
  receipts := hreceipts
  settled := hsettled

theorem congr (h : l.AnswersOk busy) (hcore : p.core = l.core) (hquestions : p.questions = l.questions)
    (hreceipts : p.callbackReceipts = l.callbackReceipts) : p.AnswersOk busy := by
  refine h.update ?_ ?_ ?_ ?_ ?_ ?_
  · rw [hquestions]
    exact fun q hq => ⟨q, hq, rfl, rfl, .inl rfl⟩
  · rw [hquestions]
    exact fun q hq => ⟨q, hq, rfl, rfl⟩
  · exact fun id c hc => ⟨c, by rw [hcore, hc], rfl⟩
  · exact fun id c hc _ => ⟨c, by rw [← hcore, hc], rfl⟩
  · rw [hreceipts, hcore]
    exact h.receipts
  · rw [hquestions, hcore]
    exact h.settled

variable {item : ChatMessageEnvelope}

/-- A rewritten message; it finishes no answer unless its pump is in `busy`. -/
theorem put (h : l.AnswersOk busy) {c : MessageCore} (hc : l.core item.messageId = some c)
    (howner : item.owner = c.owner)
    (hend : item.state.terminal = true → ∀ q ∈ l.questions.rows, q.state = .claimed →
        q.answerId = some item.messageId → busy item.messageId) :
    (l.putMessage item).AnswersOk busy := by
  have hcores (id : MessageId) (d : MessageCore) (hd : (l.putMessage item).core id = some d) :
      (id = item.messageId ∧ d = item.core) ∨ l.core id = some d := by
    rw [core_putMessage] at hd
    split at hd
    next heq => exact .inl ⟨heq, (Option.some.inj hd).symm⟩
    · exact .inr hd
  have hkept (id : MessageId) (d : MessageCore) (hd : l.core id = some d) :
      ∃ d', (l.putMessage item).core id = some d' ∧ d'.owner = d.owner := by
    rw [core_putMessage]
    split
    next heq =>
      subst heq
      cases hc.symm.trans hd
      exact ⟨_, rfl, howner⟩
    · exact ⟨d, hd, rfl⟩
  refine h.update (fun q hq => ⟨q, hq, rfl, rfl, .inl rfl⟩) (fun q hq => ⟨q, hq, rfl, rfl⟩)
    hkept ?_ ?_ ?_
  · intro id d hd _
    rcases hcores id d hd with ⟨rfl, rfl⟩ | hold
    · exact ⟨c, hc, howner⟩
    · exact ⟨d, hold, rfl⟩
  · intro receipt hreceipt
    obtain ⟨d, hd⟩ := Option.isSome_iff_exists.mp (h.receipts receipt hreceipt)
    obtain ⟨d', hd', -⟩ := hkept _ d hd
    exact Option.isSome_iff_exists.mpr ⟨d', hd'⟩
  · intro q hq hstate id d hid hd hterm
    rcases hcores id d hd with ⟨rfl, rfl⟩ | hold
    · exact hend hterm q hq hstate hid
    · exact h.settled q hq hstate id d hid hold hterm

theorem put_message (h : l.AnswersOk busy) {c : MessageCore} (hc : l.core item.messageId = some c)
    (howner : item.owner = c.owner) (hkind : item.kind = .message) :
    (l.putMessage item).AnswersOk busy := by
  refine h.put hc howner fun _ q hq _ hid => ?_
  obtain ⟨d, hd, hanswer, -⟩ := h.owned q hq _ hid
  cases hc.symm.trans hd
  rw [← howner] at hanswer
  simp [ChatMessageEnvelope.owner, hkind] at hanswer

theorem put_new (h : l.AnswersOk busy) (hnew : l.core item.messageId = none)
    (hkind : item.kind = .message) :
    (l.putMessage item).AnswersOk busy := by
  have hkept (id : MessageId) (d : MessageCore) (hd : l.core id = some d) :
      (l.putMessage item).core id = some d := by
    rw [core_putMessage, if_neg, hd]
    rintro rfl
    simp [hnew] at hd
  have hold (id : MessageId) (d : MessageCore) (hd : (l.putMessage item).core id = some d)
      (hanswer : d.owner.kind = .questionAnswer) : l.core id = some d := by
    rw [core_putMessage] at hd
    split at hd
    · cases hd
      simp [ChatMessageEnvelope.core, ChatMessageEnvelope.owner, hkind] at hanswer
    · exact hd
  refine h.update (fun q hq => ⟨q, hq, rfl, rfl, .inl rfl⟩) (fun q hq => ⟨q, hq, rfl, rfl⟩)
    (fun id d hd => ⟨d, hkept id d hd, rfl⟩) (fun id d hd hkind => ⟨d, hold id d hd hkind, rfl⟩)
    ?_ ?_
  · intro receipt hreceipt
    obtain ⟨d, hd⟩ := Option.isSome_iff_exists.mp (h.receipts receipt hreceipt)
    exact Option.isSome_iff_exists.mpr ⟨d, hkept _ d hd⟩
  · intro q hq hstate id d hid hd hterm
    obtain ⟨e, he, hanswer, -⟩ := h.owned q hq id hid
    obtain rfl := Option.some.inj ((hkept id e he).symm.trans hd)
    exact h.settled q hq hstate id e hid he hterm

theorem put_question (h : l.AnswersOk busy) (q' : ChatQuestion) (hq : q ∈ l.questions.rows)
    (href : q'.questionRef = q.questionRef) (hanswer : q'.answerId = q.answerId)
    (hstate : q'.state = .resolved ∨ q'.state = .stale ∨
        (q'.state = .uncertain ∧ q.answerId.isSome)) :
    (l.putQuestion q').AnswersOk busy := by
  have hrows (x : ChatQuestion) (hx : x ∈ (l.putQuestion q').questions.rows) :
      x = q' ∨ x ∈ l.questions.rows := by
    rcases Table.mem_insert.mp hx with rfl | ⟨hold, -⟩
    · exact .inl rfl
    · exact .inr hold
  refine h.update ?_ ?_ (fun id c hc => ⟨c, hc, rfl⟩) (fun id c hc _ => ⟨c, hc, rfl⟩)
    h.receipts ?_
  · intro x hx
    rcases hrows x hx with rfl | hold
    · exact ⟨q, hq, href, hanswer, .inr hstate⟩
    · exact ⟨x, hold, rfl, rfl, .inl rfl⟩
  · intro x hx
    by_cases heq : x.questionRef = q'.questionRef
    · obtain rfl : x = q := Table.eq_of_mem hx hq (heq.trans href)
      exact ⟨q', Table.mem_insert.mpr (.inl rfl), href, hanswer⟩
    · exact ⟨x, Table.mem_insert.mpr (.inr ⟨hx, heq⟩), rfl, rfl⟩
  · intro x hx hclaimed id c hid hc hterm
    rcases hrows x hx with rfl | hold
    · rcases hstate with hs | hs | ⟨hs, -⟩ <;> simp [hs] at hclaimed
    · exact h.settled x hold hclaimed id c hid hc hterm

theorem put_card (h : l.AnswersOk busy) (hq : q ∈ l.questions.rows) (card : QuestionCard) :
    (l.putQuestion { q with card := card }).AnswersOk busy := by
  have hrows (x : ChatQuestion) (hx : x ∈ (l.putQuestion { q with card := card }).questions.rows) :
      ∃ old ∈ l.questions.rows, x.questionRef = old.questionRef ∧ x.answerId = old.answerId ∧
        x.state = old.state := by
    rcases Table.mem_insert.mp hx with rfl | ⟨hold, -⟩
    · exact ⟨q, hq, rfl, rfl, rfl⟩
    · exact ⟨x, hold, rfl, rfl, rfl⟩
  refine h.update ?_ ?_ (fun id c hc => ⟨c, hc, rfl⟩) (fun id c hc _ => ⟨c, hc, rfl⟩)
    h.receipts ?_
  · intro x hx
    obtain ⟨old, hold, href, hanswer, hstate⟩ := hrows x hx
    exact ⟨old, hold, href, hanswer, .inl hstate⟩
  · intro x hx
    by_cases heq : x.questionRef = q.questionRef
    · obtain rfl : x = q := Table.eq_of_mem hx hq heq
      exact ⟨{ x with card := card }, Table.mem_insert.mpr (.inl rfl), rfl, rfl⟩
    · exact ⟨x, Table.mem_insert.mpr (.inr ⟨hx, heq⟩), rfl, rfl⟩
  · intro x hx hclaimed id c hid hc hterm
    obtain ⟨old, hold, -, hanswer, hstate⟩ := hrows x hx
    exact h.settled old hold (hstate ▸ hclaimed) id c (hanswer ▸ hid) hc hterm

theorem answerable (h : p.AnswersOk fun _ => False) : p.Answerable := by
  intro q hq hclaimed
  obtain ⟨id, hid⟩ := Option.isSome_iff_exists.mp (h.held q hq (.inl hclaimed))
  obtain ⟨c, hc, -, href⟩ := h.owned q hq id hid
  obtain ⟨m, hm, rfl⟩ := Option.map_eq_some_iff.mp hc
  refine ⟨m, by simp [hid, hm], href, ?_⟩
  cases hterm : m.state.terminal with
  | false => rfl
  | true => exact (h.settled q hq hclaimed id _ hid hc hterm).elim

theorem oneAnswer (h : p.AnswersOk busy) : p.OneAnswer := by
  intro m hm m' hm' hkind hkind' href
  obtain ⟨q, hq, hqref, hid⟩ := h.asked _ _ (item_core_of_mem hm) hkind
  obtain ⟨q', hq', hqref', hid'⟩ := h.asked _ _ (item_core_of_mem hm') hkind'
  have hsame : some q.questionRef = some q'.questionRef :=
    hqref.symm.trans (Eq.trans href hqref')
  obtain rfl := Table.eq_of_mem hq hq' (Option.some.inj hsame)
  exact Table.eq_of_mem hm hm' (Option.some.inj (hid.symm.trans hid'))

theorem checkOwnership (h : p.AnswersOk busy) : p.checkOwnership = .ok () := by
  have hheld : ¬ p.questions.rows.any (fun q => (q.state = .claimed || q.state = .uncertain) &&
      q.answerId.isNone) := by
    simp only [List.any_eq_true, not_exists, not_and, Bool.and_eq_true, Bool.or_eq_true,
      decide_eq_true_eq, Option.isNone_iff_eq_none]
    intro q hq hstate hnone
    have hsome := h.held q hq hstate
    simp [hnone] at hsome
  have howned : ¬ p.questions.rows.any p.foreignAnswer := by
    simp only [List.any_eq_true, not_exists, not_and]
    intro q hq
    unfold foreignAnswer
    cases hid : q.answerId with
    | none => simp
    | some id =>
      obtain ⟨c, hc, -, href⟩ := h.owned q hq id hid
      obtain ⟨m, hm, rfl⟩ := Option.map_eq_some_iff.mp hc
      have href : m.questionRef = some q.questionRef := href
      simp [hm, href]
  have hasked : ¬ p.messages.rows.any (fun m => m.kind = .questionAnswer &&
      ((m.questionRef.bind p.questions.get?).isNone)) := by
    simp only [List.any_eq_true, not_exists, not_and, Bool.and_eq_true, decide_eq_true_eq,
      Option.isNone_iff_eq_none]
    intro m hm hkind hnone
    obtain ⟨q, hq, href, -⟩ := h.asked _ _ (item_core_of_mem hm) hkind
    have href : m.questionRef = some q.questionRef := href
    rw [href, Option.bind_some] at hnone
    exact Table.get?_eq_none.mp hnone q hq rfl
  have hreceipts : ¬ p.callbackReceipts.rows.any (fun receipt =>
      (p.messages.get? receipt.answerId).isNone) := by
    simp only [List.any_eq_true, not_exists, not_and, Option.isNone_iff_eq_none]
    intro receipt hreceipt hnone
    have hsome := h.receipts receipt hreceipt
    simp [core, hnone] at hsome
  unfold InboxPayload.checkOwnership
  rw [if_neg hheld, if_neg howned, if_neg hasked, if_neg hreceipts]

end InboxPayload.AnswersOk

end ClaudeHub
