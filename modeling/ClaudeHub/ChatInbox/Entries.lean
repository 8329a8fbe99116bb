import ClaudeHub.ChatInbox.AtMostOnce
import ClaudeHub.Lib.Lists

/-! # What an operation keeps of a message

An entry is what a message is found by, its sequence and its state. Operations add
entries with higher sequences and rewrite the others: whom a message belongs to and
what it carries stays, and an ordinary message that has ended stays ended.
-/

namespace ClaudeHub

open StepSystem

/-- The fields of a message that its place in a queue and its retries depend on. -/
structure MessageEntry where
  owner : MessageOwner
  principal : String
  callId : String
  incarnation : Incarnation
  fingerprint : MessageFingerprint
  sequence : Nat
  state : ChatMessageState
  expired : Bool
  deriving DecidableEq, Repr

def ChatMessageEnvelope.entry (item : ChatMessageEnvelope) : MessageEntry where
  owner := item.owner
  principal := item.principal
  callId := item.callId
  incarnation := item.incarnation
  fingerprint := item.fingerprint
  sequence := item.sequence
  state := item.state
  expired := item.expired

namespace MessageEntry

/-- An ordinary message of a tab, scheduled or direct. -/
def Ordinary (e : MessageEntry) : Prop := e.owner.kind = .message

/-- An ordinary message that a caller has sent. -/
def Direct (e : MessageEntry) : Prop := e.owner.kind = .message ∧ e.owner.scheduled = false

/-- An ordinary message that does not hold the queue of its tab. -/
def Settled (e : MessageEntry) : Prop :=
  e.owner.kind = .message ∧
    (e.state.terminal = true ∨ (e.owner.scheduled = true ∧ e.state = .uncertain))

/-- What two enqueued messages of one call agree in. -/
def SameKey (e e' : MessageEntry) : Prop :=
  (e.principal, e.owner.tabId, e.incarnation, e.callId)
    = (e'.principal, e'.owner.tabId, e'.incarnation, e'.callId)

/-- What an operation may turn an entry into. -/
structure Rewrites (e e' : MessageEntry) : Prop where
  owner : e'.owner = e.owner
  principal : e'.principal = e.principal
  callId : e'.callId = e.callId
  fingerprint : e'.fingerprint = e.fingerprint
  sequence : e'.sequence = e.sequence
  incarnation : e'.incarnation = e.incarnation ∨ e.owner.scheduled = true
  ended : e.owner.kind = .message → e.state.terminal = true → e'.state.terminal = true

theorem Rewrites.refl (e : MessageEntry) : Rewrites e e :=
  ⟨rfl, rfl, rfl, rfl, rfl, .inl rfl, fun _ h => h⟩

variable {e e' : MessageEntry}

theorem Rewrites.trans {e'' : MessageEntry} (h : Rewrites e e') (h' : Rewrites e' e'') :
    Rewrites e e'' where
  owner := h'.owner.trans h.owner
  principal := h'.principal.trans h.principal
  callId := h'.callId.trans h.callId
  fingerprint := h'.fingerprint.trans h.fingerprint
  sequence := h'.sequence.trans h.sequence
  incarnation := by
    rcases h.incarnation with hsame | hsched
    · rw [← hsame, ← h.owner]
      exact h'.incarnation
    · exact .inr hsched
  ended hkind hterm := h'.ended (by rw [h.owner, hkind]) (h.ended hkind hterm)

theorem Rewrites.direct (h : Rewrites e e') : e'.Direct ↔ e.Direct := by
  simp only [Direct, h.owner]

theorem Rewrites.sameKey (h : Rewrites e e') (hdirect : e.Direct) :
    SameKey e' e := by
  have hincarnation : e'.incarnation = e.incarnation := by
    rcases h.incarnation with hsame | hsched
    · exact hsame
    · simp [hdirect.2] at hsched
  simp only [SameKey, h.principal, h.owner, h.callId, hincarnation]

theorem rewrites_state {state : ChatMessageState}
    (h : e.owner.kind = .message → e.state.terminal = true → state.terminal = true) :
    Rewrites e { e with state := state } :=
  ⟨rfl, rfl, rfl, rfl, rfl, .inl rfl, h⟩

theorem settled_of_terminal (hkind : e.owner.kind = .message) (hterm : e.state.terminal = true) :
    e.Settled :=
  ⟨hkind, .inl hterm⟩

theorem Settled.terminal (h : e.Settled) (hdirect : e.Direct) :
    e.state.terminal = true := by
  rcases h.2 with hterm | ⟨hsched, -⟩
  · exact hterm
  · simp [hdirect.2] at hsched

end MessageEntry

theorem ChatMessageEnvelope.settled_entry (item : ChatMessageEnvelope) :
    item.entry.Settled ↔ item.kind = .message ∧ item.blocksQueue = false := by
  simp only [MessageEntry.Settled, ChatMessageEnvelope.entry, ChatMessageEnvelope.owner,
    ChatMessageEnvelope.blocksQueue, Bool.and_eq_false_iff, Bool.not_eq_false',
    Bool.and_eq_true, decide_eq_true_eq]

namespace InboxPayload

open MessageEntry

def entry (p : InboxPayload) (id : MessageId) : Option MessageEntry :=
  (p.messages.get? id).map ChatMessageEnvelope.entry

theorem entry_of_get? {p : InboxPayload} {id : MessageId} {item : ChatMessageEnvelope}
    (h : p.messages.get? id = some item) : p.entry id = some item.entry := by
  simp [entry, h]

theorem entry_of_mem {p : InboxPayload} {item : ChatMessageEnvelope} (h : item ∈ p.messages.rows) :
    p.entry item.messageId = some item.entry :=
  entry_of_get? (Table.get?_eq_some.mpr ⟨h, rfl⟩)

theorem exists_of_entry {p : InboxPayload} {id : MessageId} {e : MessageEntry}
    (h : p.entry id = some e) :
    ∃ item ∈ p.messages.rows, item.messageId = id ∧ item.entry = e := by
  obtain ⟨item, hget, rfl⟩ := Option.map_eq_some_iff.mp h
  obtain ⟨hmem, hid⟩ := Table.get?_eq_some.mp hget
  exact ⟨item, hmem, hid, rfl⟩

theorem entry_putMessage (p : InboxPayload) (item : ChatMessageEnvelope) (id : MessageId) :
    (p.putMessage item).entry id
      = if id = item.messageId then some item.entry else p.entry id := by
  unfold entry putMessage
  rw [Table.get?_insert]
  split <;> rfl

theorem entry_putMessage_of_eq {p : InboxPayload} {item : ChatMessageEnvelope}
    (h : p.entry item.messageId = some item.entry) : (p.putMessage item).entry = p.entry := by
  funext id
  rw [entry_putMessage]
  split
  next heq => rw [heq, h]
  · rfl

@[simp] theorem entry_putQuestion (p : InboxPayload) (q : ChatQuestion) :
    (p.putQuestion q).entry = p.entry := rfl

@[simp] theorem entry_target (p : InboxPayload) (tabId : TabId) (raw : InboxTarget) :
    (p.target tabId raw).1.entry = p.entry := rfl

theorem lt_nextSequence {p : InboxPayload} {id : MessageId} {e : MessageEntry}
    (h : p.entry id = some e) : e.sequence < p.nextSequence := by
  obtain ⟨item, hmem, -, rfl⟩ := exists_of_entry h
  exact Nat.lt_succ_of_le (List.le_foldl_max (.inr (List.mem_map_of_mem hmem)))

/-- No two messages have a sequence in common, no two direct ones a key, only direct
messages are digested as a caller's, and a key tells them from all others: the scheduler
has a name of its own, and the incarnation of an answer is no tab's. -/
structure Ordered (p : InboxPayload) : Prop where
  sequenced : ∀ id id' e e', p.entry id = some e → p.entry id' = some e' →
    e.sequence = e'.sequence → id = id'
  keyed : ∀ id id' e e', p.entry id = some e → p.entry id' = some e' → e.Direct → e'.Direct →
    SameKey e e' → id = id'
  digested : ∀ id e payload, p.entry id = some e → e.fingerprint = .message payload → e.Direct
  timed : ∀ id e, p.entry id = some e → e.owner.scheduled = true → e.principal = "scheduler"
  asked : ∀ id e, p.entry id = some e → e.owner.kind = .questionAnswer →
    e.owner.scheduled = false ∧ ∃ name, e.incarnation = .text name

/-- Every message stays, and those that are new come after all others. What does not hold
its queue goes on not to, with the exception of some. -/
structure Extends (exempt : MessageId → Prop) (p q : InboxPayload) : Prop where
  kept : ∀ id e, p.entry id = some e → ∃ e', q.entry id = some e' ∧ Rewrites e e' ∧
    (¬ exempt id → e.Settled → e'.Settled)
  later : ∀ id e, q.entry id = some e → p.entry id = none → ∀ id' e', p.entry id' = some e' →
    e'.sequence < e.sequence

theorem Extends.of_entry_eq {exempt : MessageId → Prop} {p q : InboxPayload}
    (h : q.entry = p.entry) : Extends exempt p q where
  kept id e he := ⟨e, by rw [h, he], .refl e, fun _ hsettled => hsettled⟩
  later id e he hnone := by simp [← h, he] at hnone

theorem Extends.trans {exempt : MessageId → Prop} {p q r : InboxPayload}
    (h : Extends exempt p q) (h' : Extends exempt q r) : Extends exempt p r where
  kept id e he := by
    obtain ⟨e', he', hrewrites, hsettled⟩ := h.kept id e he
    obtain ⟨e'', he'', hrewrites', hsettled'⟩ := h'.kept id e' he'
    exact ⟨e'', he'', hrewrites.trans hrewrites',
      fun hexempt hs => hsettled' hexempt (hsettled hexempt hs)⟩
  later id e he hnone id' e' he' := by
    obtain ⟨e'', he'', hrewrites, -⟩ := h.kept id' e' he'
    rw [← hrewrites.sequence]
    cases hmid : q.entry id with
    | none => exact h'.later id e he hmid id' e'' he''
    | some d =>
      obtain ⟨d', hd', hrewrites', -⟩ := h'.kept id d hmid
      obtain rfl : d' = e := Option.some.inj (hd'.symm.trans he)
      rw [hrewrites'.sequence, hrewrites.sequence]
      exact h.later id d hmid hnone id' e' he'

theorem Extends.mono {exempt exempt' : MessageId → Prop} {p q : InboxPayload}
    (h : Extends exempt p q) (himp : ∀ id, exempt id → exempt' id) : Extends exempt' p q where
  kept id e he := by
    obtain ⟨e', he', hrewrites, hsettled⟩ := h.kept id e he
    exact ⟨e', he', hrewrites, fun hexempt => hsettled fun hex => hexempt (himp id hex)⟩
  later := h.later

theorem Ordered.of_entry_eq {p q : InboxPayload} (hp : p.Ordered) (h : q.entry = p.entry) :
    q.Ordered := by
  constructor <;> rw [h]
  exacts [hp.sequenced, hp.keyed, hp.digested, hp.timed, hp.asked]

/-- What an operation may write. -/
structure Grows (exempt : MessageId → Prop) (p q : InboxPayload) : Prop where
  grown : Extends exempt p q
  ordered : q.Ordered

variable {exempt : MessageId → Prop} {l p : InboxPayload} {item : ChatMessageEnvelope}

theorem Grows.of_entry_eq (hl : l.Ordered) (h : p.entry = l.entry) : Grows exempt l p :=
  ⟨.of_entry_eq h, hl.of_entry_eq h⟩

theorem grows_put {e : MessageEntry} (hl : l.Ordered) (hp : p.entry = l.entry)
    (he : l.entry item.messageId = some e) (hrewrites : Rewrites e item.entry)
    (hsettled : ¬ exempt item.messageId → e.Settled → item.entry.Settled) :
    Grows exempt l (p.putMessage item) := by
  have hput : ∀ id, (p.putMessage item).entry id =
      if id = item.messageId then some item.entry else l.entry id := by
    intro id
    rw [entry_putMessage, hp]
  -- Every entry afterwards is a rewriting of the one under the same identity before.
  have hback : ∀ id d, (p.putMessage item).entry id = some d →
      ∃ d', l.entry id = some d' ∧ Rewrites d' d := by
    intro id d hd
    rw [hput] at hd
    split at hd
    next heq =>
      cases hd
      exact ⟨e, by rw [heq, he], hrewrites⟩
    · exact ⟨d, hd, .refl d⟩
  refine ⟨⟨?_, ?_⟩, ?_, ?_, ?_, ?_, ?_⟩
  · intro id d hd
    by_cases hid : id = item.messageId
    · subst hid
      obtain rfl : e = d := Option.some.inj (he.symm.trans hd)
      exact ⟨item.entry, by rw [hput, if_pos rfl], hrewrites, hsettled⟩
    · exact ⟨d, by rw [hput, if_neg hid, hd], .refl d, fun _ h => h⟩
  · intro id d hd hnone
    obtain ⟨d', hd', -⟩ := hback id d hd
    simp [hnone] at hd'
  · intro id id' d d' hd hd' hsame
    obtain ⟨c, hc, hrew⟩ := hback id d hd
    obtain ⟨c', hc', hrew'⟩ := hback id' d' hd'
    exact hl.sequenced id id' c c' hc hc' (by rw [← hrew.sequence, hsame, hrew'.sequence])
  · intro id id' d d' hd hd' hdirect hdirect' hkey
    obtain ⟨c, hc, hrew⟩ := hback id d hd
    obtain ⟨c', hc', hrew'⟩ := hback id' d' hd'
    have hcdirect := hrew.direct.mp hdirect
    have hcdirect' := hrew'.direct.mp hdirect'
    exact hl.keyed id id' c c' hc hc' hcdirect hcdirect'
      ((hrew.sameKey hcdirect).symm.trans (hkey.trans (hrew'.sameKey hcdirect')))
  · intro id d payload hd hfingerprint
    obtain ⟨c, hc, hrew⟩ := hback id d hd
    exact hrew.direct.mpr (hl.digested id c payload hc (by rw [← hrew.fingerprint, hfingerprint]))
  · intro id d hd hscheduled
    obtain ⟨c, hc, hrew⟩ := hback id d hd
    rw [hrew.principal]
    exact hl.timed id c hc (by rw [← hrew.owner, hscheduled])
  · intro id d hd hkind
    obtain ⟨c, hc, hrew⟩ := hback id d hd
    obtain ⟨hunscheduled, name, hname⟩ := hl.asked id c hc (by rw [← hrew.owner, hkind])
    refine ⟨by rw [hrew.owner, hunscheduled], name, ?_⟩
    rcases hrew.incarnation with hsame | hscheduled
    · rw [hsame, hname]
    · simp [hunscheduled] at hscheduled

theorem grows_put_new (hl : l.Ordered) (hp : p.entry = l.entry)
    (hnew : l.entry item.messageId = none) (hsequence : item.sequence = l.nextSequence)
    (hkey : item.entry.Direct → ∀ id e, l.entry id = some e → ¬ SameKey e item.entry)
    (hdigest : ∀ payload, item.fingerprint = .message payload → item.entry.Direct)
    (htimed : item.scheduled = true → item.principal = "scheduler")
    (hasked : item.kind = .questionAnswer →
      item.scheduled = false ∧ ∃ name, item.incarnation = .text name) :
    Grows exempt l (p.putMessage item) := by
  have hcases : ∀ id d, (p.putMessage item).entry id = some d →
      (id = item.messageId ∧ d = item.entry) ∨ (id ≠ item.messageId ∧ l.entry id = some d) := by
    intro id d hd
    rw [entry_putMessage, hp] at hd
    split at hd
    next heq => exact .inl ⟨heq, (Option.some.inj hd).symm⟩
    next hne => exact .inr ⟨hne, hd⟩
  have hlast : ∀ id d, l.entry id = some d → d.sequence < item.entry.sequence := by
    intro id d hd
    rw [show item.entry.sequence = l.nextSequence from hsequence]
    exact lt_nextSequence hd
  refine ⟨⟨?_, ?_⟩, ?_, ?_, ?_, ?_, ?_⟩
  · intro id d hd
    refine ⟨d, ?_, .refl d, fun _ h => h⟩
    rw [entry_putMessage, if_neg, hp, hd]
    rintro rfl
    simp [hnew] at hd
  · intro id d hd hnone id' d' hd'
    rcases hcases id d hd with ⟨rfl, rfl⟩ | ⟨-, hold⟩
    · exact hlast id' d' hd'
    · simp [hnone] at hold
  · intro id id' d d' hd hd' hsame
    rcases hcases id d hd with ⟨rfl, rfl⟩ | ⟨-, hold⟩ <;>
      rcases hcases id' d' hd' with ⟨rfl, rfl⟩ | ⟨-, hold'⟩
    · rfl
    · exact absurd hsame (hlast id' d' hold').ne'
    · exact absurd hsame (hlast id d hold).ne
    · exact hl.sequenced id id' d d' hold hold' hsame
  · intro id id' d d' hd hd' hdirect hdirect' hsame
    rcases hcases id d hd with ⟨rfl, rfl⟩ | ⟨-, hold⟩ <;>
      rcases hcases id' d' hd' with ⟨rfl, rfl⟩ | ⟨-, hold'⟩
    · rfl
    · exact absurd hsame.symm (hkey hdirect id' d' hold')
    · exact absurd hsame (hkey hdirect' id d hold)
    · exact hl.keyed id id' d d' hold hold' hdirect hdirect' hsame
  · intro id d payload hd hfingerprint
    rcases hcases id d hd with ⟨rfl, rfl⟩ | ⟨-, hold⟩
    · exact hdigest payload hfingerprint
    · exact hl.digested id d payload hold hfingerprint
  · intro id d hd hscheduled
    rcases hcases id d hd with ⟨rfl, rfl⟩ | ⟨-, hold⟩
    · exact htimed hscheduled
    · exact hl.timed id d hold hscheduled
  · intro id d hd hkind
    rcases hcases id d hd with ⟨rfl, rfl⟩ | ⟨-, hold⟩
    · exact hasked hkind
    · exact hl.asked id d hold hkind

end InboxPayload

def InboxEffect.Grows {α : Type} (exempt : MessageId → Prop) (l : InboxPayload) :
    InboxEffect α → Prop
  | .keep memory _ => memory.entry = l.entry
  | .write memory _ => InboxPayload.Grows exempt l memory

namespace InboxPayload

open MessageEntry

variable {exempt : MessageId → Prop} {l p : InboxPayload} {closing : Bool}
  {item : ChatMessageEnvelope} {state : ChatMessageState} {reason : Option String} {now : Time}

/-- `_change` of a message whose state may change so. -/
theorem change_grows (hl : l.Ordered) (hp : p.entry = l.entry)
    (hitem : l.entry item.messageId = some item.entry)
    (hended : item.kind = .message → item.state.terminal = true → state.terminal = true)
    (hsettled : ¬ exempt item.messageId → item.entry.Settled →
      ({ item.entry with state := state } : MessageEntry).Settled) :
    (p.change closing item state reason now).Grows exempt l := by
  unfold change
  split
  · exact hp
  · exact grows_put hl hp hitem (rewrites_state hended) hsettled

/-- `_change` to the end of a message. -/
theorem change_grows_of_terminal (hl : l.Ordered) (hp : p.entry = l.entry)
    (hitem : l.entry item.messageId = some item.entry) (hterm : state.terminal = true) :
    (p.change closing item state reason now).Grows exempt l :=
  change_grows hl hp hitem (fun _ _ => hterm) fun _ hsettled => ⟨hsettled.1, .inl hterm⟩

/-- `_change` of an answer or of a message that holds its queue. -/
theorem change_grows_of_open (hl : l.Ordered) (hp : p.entry = l.entry)
    (hitem : l.entry item.messageId = some item.entry) (hopen : ¬ item.entry.Settled) :
    (p.change closing item state reason now).Grows exempt l :=
  change_grows hl hp hitem
    (fun hkind hterm => absurd (settled_of_terminal (e := item.entry) hkind hterm) hopen)
    fun _ hsettled => absurd hsettled hopen

/-- `_change` of a message that has not ended, by a task that may make it hold its queue. -/
theorem change_grows_of_exempt (hl : l.Ordered) (hp : p.entry = l.entry)
    (hitem : l.entry item.messageId = some item.entry) (hexempt : exempt item.messageId)
    (hterm : item.state.terminal = false) :
    (p.change closing item state reason now).Grows exempt l :=
  change_grows hl hp hitem (fun _ h => by simp [hterm] at h) fun h => absurd hexempt h

theorem item_entry {id : MessageId} (h : l.messages.get? id = some item) :
    l.entry item.messageId = some item.entry := by
  rw [Table.key_of_get? h]
  exact entry_of_get? h

theorem not_settled_of_answer (h : item.kind = .questionAnswer) : ¬ item.entry.Settled := by
  intro hsettled
  simp [item.settled_entry, h] at hsettled

theorem not_settled_of_blocks (h : item.blocksQueue = true) : ¬ item.entry.Settled := by
  intro hsettled
  simp [item.settled_entry, h] at hsettled

theorem blocksQueue_of_unsent (h : item.state.unsent = true) : item.blocksQueue = true := by
  unfold ChatMessageEnvelope.blocksQueue
  cases hstate : item.state <;>
    simp_all [ChatMessageState.unsent, ChatMessageState.terminal]

theorem not_settled_of_dispatching (h : item.state = .dispatching) : ¬ item.entry.Settled := by
  apply not_settled_of_blocks
  simp [ChatMessageEnvelope.blocksQueue, h, ChatMessageState.terminal]

/-! ## Operations -/

variable {limits : InboxLimits} {tabId : TabId} {principal : String}
  {resolved : Except InboxError InboxTarget} {messageId : MessageId}

theorem enqueue_grows (hl : l.Ordered) {actor : String} {email : Option String}
    {payload : ChatMessageCreate} (hnew : l.messages.get? messageId = none) :
    (l.enqueue limits closing tabId principal actor email payload resolved messageId now).Grows
      exempt l := by
  unfold enqueue
  split
  · rfl
  split
  · rfl
  simp only
  split
  · split
    · exact entry_target ..
    · split <;> exact entry_target ..
  next hnone =>
    split
    · exact entry_target ..
    · split
      · exact entry_target ..
      · refine grows_put_new hl (entry_target ..) (by simp [entry, hnew]) rfl ?_ ?_ ?_ ?_
        · intro _ id e he hsame
          obtain ⟨other, hmem, -, rfl⟩ := exists_of_entry he
          have hmiss := List.find?_eq_none.mp hnone other hmem
          simp only [decide_eq_true_eq] at hmiss
          exact hmiss hsame
        · exact fun _ _ => ⟨rfl, rfl⟩
        · intro hscheduled
          simp [ChatMessageEnvelope.scheduled] at hscheduled
        · intro hkind
          simp at hkind

theorem admitScheduled_grows (hl : l.Ordered) {intent : ScheduledIntent} {enforceLimit : Bool} :
    (l.admitScheduled limits closing intent resolved enforceLimit).Grows exempt l := by
  unfold admitScheduled
  split
  · rfl
  next hnone =>
  have hnew : l.entry intent.id = none := by simp [entry, hnone]
  -- A scheduled message is neither direct nor digested as a caller's.
  have hput (q : InboxPayload) (incarnation : Incarnation) (sequence : Nat)
      (hq : q.entry = l.entry) (hsequence : sequence = l.nextSequence) :
      InboxPayload.Grows exempt l
        (q.putMessage { intent.envelope incarnation with sequence := sequence }) := by
    refine grows_put_new hl hq hnew hsequence ?_ ?_ (fun _ => rfl) ?_
    · intro hdirect
      simp [Direct, ChatMessageEnvelope.entry, ChatMessageEnvelope.owner,
        ChatMessageEnvelope.scheduled, ScheduledIntent.envelope] at hdirect
    · intro payload hfingerprint
      simp [ScheduledIntent.envelope] at hfingerprint
    · intro hkind
      simp [ScheduledIntent.envelope] at hkind
  cases resolved with
  | error =>
    simp only
    split
    · rfl
    · split
      · rfl
      · exact hput l _ _ rfl rfl
  | ok =>
    simp only
    split
    · exact entry_target ..
    · split
      · exact entry_target ..
      · exact hput _ _ _ (entry_target ..) rfl

theorem cancel_grows (hl : l.Ordered) :
    (l.cancel closing tabId messageId principal now).Grows exempt l := by
  unfold cancel
  split
  · rfl
  split
  · rfl
  next item howned =>
  split
  · rfl
  · split
    · rfl
    · exact change_grows_of_terminal hl rfl (item_entry (owned_ok howned)) rfl

theorem cancelScheduled_grows (hl : l.Ordered) {release : Bool} :
    (l.cancelScheduled closing messageId release now).Grows exempt l := by
  unfold cancelScheduled
  split
  · rfl
  next item hget =>
  split
  · exact change_grows_of_terminal hl rfl (item_entry hget) rfl
  · rfl

theorem completed_grows (hl : l.Ordered) {turnId : TurnId} {status : String} :
    (l.completed closing tabId turnId status now).Grows exempt l := by
  unfold completed
  split
  · rfl
  split
  · rfl
  next item hfind =>
  exact change_grows_of_terminal hl rfl (entry_of_mem (List.mem_of_find?_eq_some hfind))
    (completedState_terminal item status)

theorem beforeDelivery_grows (hl : l.Ordered) :
    (l.beforeDelivery closing messageId resolved).Grows exempt l := by
  unfold beforeDelivery
  split
  · rfl
  split
  · rfl
  next item hget =>
  have hitem := item_entry hget
  have hmark (q : InboxPayload) (hq : q.entry = l.entry) :
      InboxPayload.Grows exempt l (q.putMessage { item with submissionStarted := true }) :=
    grows_put hl hq hitem (.refl _) fun _ h => h
  split
  · rfl
  split
  · exact hmark l rfl
  · split
    · rfl
    · simp only
      split
      · exact entry_target ..
      · exact hmark _ (entry_target ..)

theorem submitReturned_grows (hl : l.Ordered) :
    (l.submitReturned closing messageId now).Grows exempt l := by
  unfold submitReturned
  split
  · rfl
  next item hget =>
  split
  next hstate =>
    exact change_grows_of_open hl rfl (item_entry hget) (not_settled_of_dispatching hstate)
  · rfl

theorem Redelivers.grows {effect : InboxEffect Unit}
    (h : l.Redelivers closing messageId now effect) (hl : l.Ordered) (hexempt : exempt messageId) :
    effect.Grows exempt l := by
  cases h with
  | nothing => rfl
  | changes state reason hget hterm =>
    obtain rfl := Table.key_of_get? hget
    exact change_grows_of_exempt hl rfl (item_entry hget) hexempt hterm
  | putsBack attempts legacyRecovery state reason hget hterm =>
    obtain rfl := Table.key_of_get? hget
    have hitem := item_entry hget
    exact change_grows_of_exempt hl (entry_putMessage_of_eq hitem) hitem hexempt hterm

theorem restartAnswer_grows (hl : l.Ordered) (hkind : item.kind = .questionAnswer)
    (hitem : l.entry item.messageId = some item.entry) :
    (l.restartAnswer closing item now).Grows exempt l := by
  have hchange (state : ChatMessageState) (reason : Option String) :
      (l.change closing item state reason now).Grows exempt l :=
    change_grows_of_open hl rfl hitem (not_settled_of_answer hkind)
  unfold restartAnswer
  split
  · have h := hchange .queued (some "Recovered before answer submission")
    split <;> simp_all [InboxEffect.Grows]
  · have h := hchange .uncertain (some "Answer delivery needs reconciliation")
    split <;> simp_all [InboxEffect.Grows]

theorem entry_observe (hitem : l.entry item.messageId = some item.entry) (recovering : Bool) :
    (l.observe item recovering now).1.entry = l.entry := by
  have hchecked : (l.putMessage { item with recoveryCheckedAt := some now }).entry = l.entry :=
    entry_putMessage_of_eq hitem
  unfold observe
  split
  · rfl
  · split
    · rfl
    · simp only
      split <;> split <;> first | exact hchecked | rfl

theorem prune_grows (hl : l.Ordered) : (l.prune now).Grows exempt l := by
  unfold prune
  simp only
  split
  · rfl
  have hentry : ∀ id e, ({ l with
      messages := l.messages.map (expireMessage now) (expireMessage_messageId now)
      questions := l.questions.map (expireQuestion { l with
        messages := l.messages.map (expireMessage now) (expireMessage_messageId now) } now)
        (expireQuestion_questionRef _ now) } : InboxPayload).entry id = some e →
      ∃ d, l.entry id = some d ∧ ∃ expired, e = { d with expired := expired } := by
    intro id e he
    simp only [entry, Table.get?_map, Option.map_map, Option.map_eq_some_iff] at he
    obtain ⟨item, hget, rfl⟩ := he
    refine ⟨item.entry, entry_of_get? hget, (expireMessage now item).expired, ?_⟩
    simp only [Function.comp_apply, expireMessage]
    split <;> rfl
  refine ⟨⟨?_, ?_⟩, ?_, ?_, ?_, ?_, ?_⟩
  · intro id e he
    obtain ⟨item, hget, rfl⟩ := Option.map_eq_some_iff.mp he
    refine ⟨(expireMessage now item).entry, by simp [entry, hget], ?_, ?_⟩
    · unfold expireMessage
      split <;> exact ⟨rfl, rfl, rfl, rfl, rfl, .inl rfl, fun _ h => h⟩
    · unfold expireMessage
      split <;> exact fun _ h => h
  · intro id e he hnone
    obtain ⟨d, hd, -⟩ := hentry id e he
    simp [hnone] at hd
  · intro id id' e e' he he' hsame
    obtain ⟨d, hd, expired, rfl⟩ := hentry id e he
    obtain ⟨d', hd', expired', rfl⟩ := hentry id' e' he'
    exact hl.sequenced id id' d d' hd hd' hsame
  · intro id id' e e' he he' hdirect hdirect' hkey
    obtain ⟨d, hd, expired, rfl⟩ := hentry id e he
    obtain ⟨d', hd', expired', rfl⟩ := hentry id' e' he'
    exact hl.keyed id id' d d' hd hd' hdirect hdirect' hkey
  · intro id e payload he hfingerprint
    obtain ⟨d, hd, expired, rfl⟩ := hentry id e he
    exact hl.digested id d payload hd hfingerprint
  · intro id e he hscheduled
    obtain ⟨d, hd, expired, rfl⟩ := hentry id e he
    exact hl.timed id d hd hscheduled
  · intro id e he hkind
    obtain ⟨d, hd, expired, rfl⟩ := hentry id e he
    exact hl.asked id d hd hkind

variable {q : ChatQuestion}

section

variable (hl : l.Ordered)
include hl

theorem capture_grows : (l.capture closing q).Grows exempt l := by
  unfold capture
  split
  · rfl
  · split
    · rfl
    · simp only
      split
      · rfl
      · exact Grows.of_entry_eq hl rfl

theorem claimAnswer_grows {questionRef : QuestionRef} {actor : String} {email : Option String}
    {payload : QuestionAnswerCreate} {callback : Option (String × String)} {answerId : MessageId}
    (hnew : l.messages.get? answerId = none) :
    (l.claimAnswer limits closing questionRef principal actor email payload callback answerId
      now).Grows exempt l := by
  unfold claimAnswer
  split
  · rfl
  split
  · rfl
  simp only
  split
  · split
    · rfl
    · split <;> rfl
  · split
    · split
      · rfl
      · split <;> rfl
    · split
      · rfl
      · split
        · rfl
        · refine grows_put_new hl (entry_putQuestion ..) (by simp [entry, hnew]) rfl ?_ ?_ ?_
            fun _ => ⟨rfl, _, rfl⟩
          · intro hdirect
            simp [Direct, ChatMessageEnvelope.entry, ChatMessageEnvelope.owner] at hdirect
          · intro payload hfingerprint
            simp at hfingerprint
          · intro hscheduled
            simp [ChatMessageEnvelope.scheduled] at hscheduled

theorem finishAnswer_grows (hkind : item.kind = .questionAnswer)
    (hitem : l.entry item.messageId = some item.entry) {raised : Option SubmitException} :
    (l.finishAnswer closing item raised now).Grows exempt l :=
  change_grows_of_open hl rfl hitem (not_settled_of_answer hkind)

theorem settleQuestion_grows : (l.settleQuestion item).Grows exempt l := by
  unfold settleQuestion
  split
  · rfl
  · exact Grows.of_entry_eq hl rfl

theorem restartQuestion_grows : (l.restartQuestion item).Grows exempt l := by
  unfold restartQuestion
  split
  · rfl
  · exact Grows.of_entry_eq hl rfl

theorem approvalResolved_grows : (l.approvalResolved closing q now).Grows exempt l := by
  unfold approvalResolved
  split
  · rfl
  simp only
  split
  · rfl
  next item hget =>
  obtain ⟨id, -, hget⟩ := Option.bind_eq_some_iff.mp hget
  split
  · exact change_grows_of_terminal hl rfl (item_entry hget) rfl
  · rfl

theorem handoffPersisted_grows : (l.handoffPersisted closing q now).Grows exempt l := by
  unfold handoffPersisted
  split
  · rfl
  · split
    · rfl
    next item hget =>
      obtain ⟨id, -, hget⟩ := Option.bind_eq_some_iff.mp hget
      exact change_grows_of_terminal hl rfl (item_entry hget) rfl

theorem questionGone_grows : (l.questionGone q).Grows exempt l := by
  unfold questionGone
  split
  · exact Grows.of_entry_eq hl rfl
  · rfl

theorem rememberNonce_grows {key fingerprint : String} :
    (l.rememberNonce key fingerprint now).Grows exempt l := by
  unfold rememberNonce
  simp only
  split
  · split <;> rfl
  · exact Grows.of_entry_eq hl rfl

end

end InboxPayload

def PumpTurn.Grows (exempt : MessageId → Prop) (l : InboxPayload) : PumpTurn → Prop
  | .ended effect => effect.Grows exempt l
  | .pinned memory _ => InboxPayload.Grows exempt l memory
  | .submits effect => effect.Grows exempt l

namespace InboxPayload

open MessageEntry

variable {exempt : MessageId → Prop} {l p : InboxPayload} {closing : Bool}
  {item : ChatMessageEnvelope} {reason : Option String} {now : Time}

theorem dispatchHead_grows (hl : l.Ordered) (hp : p.entry = l.entry)
    (hitem : l.entry item.messageId = some item.entry) (hopen : ¬ item.entry.Settled)
    {target : EpochTarget} : (p.dispatchHead closing item target now).Grows exempt l := by
  unfold dispatchHead
  split
  · exact change_grows_of_open hl hp hitem hopen
  · split
    · exact change_grows_of_open hl hp hitem hopen
    · simp only [PumpTurn.Grows]
      refine change_grows_of_open hl ?_ hitem hopen
      rw [entry_putMessage_of_eq, hp]
      rw [hp]
      exact hitem

theorem admitHead_grows (hl : l.Ordered) (hitem : l.entry item.messageId = some item.entry)
    (hopen : ¬ item.entry.Settled) {resolved : Except InboxError InboxTarget} :
    (l.admitHead closing item resolved now).Grows exempt l := by
  unfold admitHead
  split
  · exact change_grows_of_open hl rfl hitem hopen
  · simp only
    split
    next hpin =>
      exact grows_put hl (entry_target ..) hitem
        ⟨rfl, rfl, rfl, rfl, rfl, .inr hpin.1, fun _ h => h⟩ fun _ h => h
    · exact dispatchHead_grows hl (entry_target ..) hitem hopen

theorem preparedHead_grows (hl : l.Ordered) (hitem : l.entry item.messageId = some item.entry)
    {resolved : Except InboxError InboxTarget} :
    (l.preparedHead closing item reason resolved now).Grows exempt l := by
  unfold preparedHead
  split
  · rfl
  next hblocks =>
    have hopen : ¬ item.entry.Settled := not_settled_of_blocks (by simpa using hblocks)
    split
    · exact change_grows_of_open hl rfl hitem hopen
    · exact admitHead_grows hl hitem hopen

end InboxPayload

end ClaudeHub
