import ClaudeHub.ChatInbox.AnswerState

/-! # The inbox file

What a save writes and what a start makes of a file. The arrays of the file may repeat
identities and its nonces may carry anything as their expiry; the objects of the file
have each key once.
-/

namespace ClaudeHub

/-- A nonce as the file has it, with its expiry where that reads as a finite number. -/
structure StoredNonce where
  key : String
  fingerprint : String
  expiresAt : Option Time
  deriving DecidableEq, Repr

structure InboxFile where
  version : Nat
  questions : List ChatQuestion
  callbackReceipts : Table CallbackReceipt.key
  callbackNonces : Table StoredNonce.key
  messages : List ChatMessageEnvelope
  conversations : Dict (TabId × String) String
  epochs : Dict (TabId × String) Nat
  deriving DecidableEq

namespace InboxPayload

/-- `_dump`. A conversation that was never rotated has no epoch. -/
def dump (p : InboxPayload) : InboxFile where
  version := 2
  questions := p.questions.rows
  callbackReceipts := p.callbackReceipts
  callbackNonces := p.callbackNonces.project
    (fun nonce => ⟨nonce.key, nonce.fingerprint, some nonce.expiresAt⟩) fun _ => rfl
  messages := p.messages.rows
  conversations := p.conversations.project (fun c => (c.key, c.conversationId)) fun _ => rfl
  epochs := (p.conversations.filter fun c => c.epoch ≠ 0).project (fun c => (c.key, c.epoch))
    fun _ => rfl

end InboxPayload

namespace InboxFile

def pinned (file : InboxFile) : Table PinnedConversation.key :=
  file.conversations.project
    (fun entry => ⟨entry.1, entry.2, (file.epochs.lookup entry.1).getD 0⟩) fun _ => rfl

def nonces (file : InboxFile) : Table CallbackNonce.key :=
  file.callbackNonces.project
    (fun nonce => ⟨nonce.key, nonce.fingerprint, nonce.expiresAt.getD 0⟩) fun _ => rfl

def restore (file : InboxFile) : Except String InboxPayload :=
  if file.version ≠ 1 ∧ file.version ≠ 2 then .error "unsupported Chat inbox version"
  else if hmessages : (file.messages.map ChatMessageEnvelope.messageId).Nodup then
    if hquestions : (file.questions.map ChatQuestion.questionRef).Nodup then
      let p : InboxPayload :=
        { messages := ⟨file.messages, hmessages⟩
          questions := ⟨file.questions, hquestions⟩
          callbackReceipts := file.callbackReceipts
          callbackNonces := file.nonces
          conversations := file.pinned }
      p.checkOwnership.bind fun _ =>
        if file.callbackNonces.rows.any fun nonce => nonce.expiresAt.isNone then
          .error "Invalid callback nonce expiry"
        else .ok p
    else .error "duplicate Chat question identity"
  else .error "duplicate Chat inbox identity"

end InboxFile

namespace InboxPayload

variable (p : InboxPayload)

theorem pinned_dump : p.dump.pinned = p.conversations := by
  have hepoch : ∀ c ∈ p.conversations.rows, (p.dump.epochs.lookup c.key).getD 0 = c.epoch := by
    intro c hc
    by_cases hzero : c.epoch = 0
    · have hnone : p.dump.epochs.lookup c.key = none := by
        cases hlookup : p.dump.epochs.lookup c.key with
        | none => rfl
        | some =>
          have hrow := Dict.lookup_eq_some.mp hlookup
          obtain ⟨d, hd, heq⟩ := List.mem_map.mp hrow
          obtain ⟨hmem, hne⟩ := Table.mem_filter.mp hd
          obtain ⟨hkey, -⟩ := Prod.mk.inj heq
          obtain rfl := Table.eq_of_mem hmem hc hkey
          simp [hzero] at hne
      rw [hnone, Option.getD_none, hzero]
    · have hsome : p.dump.epochs.lookup c.key = some c.epoch := by
        refine Dict.lookup_eq_some.mpr (List.mem_map.mpr ⟨c, ?_, rfl⟩)
        exact Table.mem_filter.mpr ⟨hc, by simpa using hzero⟩
      rw [hsome, Option.getD_some]
  refine Table.ext_rows ?_
  show (p.conversations.rows.map _).map _ = p.conversations.rows
  rw [List.map_map]
  refine (List.map_congr_left fun c hc => ?_).trans (List.map_id _)
  show PinnedConversation.mk c.key c.conversationId _ = c
  rw [hepoch c hc]

theorem nonces_dump : p.dump.nonces = p.callbackNonces := by
  refine Table.ext_rows ?_
  show (p.callbackNonces.rows.map _).map _ = p.callbackNonces.rows
  rw [List.map_map]
  exact List.map_id _

theorem restore_dump : p.dump.restore = p.checkOwnership.map fun _ => p := by
  have hexpiry : p.dump.callbackNonces.rows.any (fun nonce => nonce.expiresAt.isNone) = false := by
    refine List.any_eq_false.mpr fun nonce hnonce => ?_
    obtain ⟨original, -, rfl⟩ := List.mem_map.mp hnonce
    simp
  have hmessages : (p.dump.messages.map ChatMessageEnvelope.messageId).Nodup := p.messages.nodup
  have hquestions : (p.dump.questions.map ChatQuestion.questionRef).Nodup := p.questions.nodup
  unfold InboxFile.restore
  rw [if_neg (by simp [dump]), dif_pos hmessages, dif_pos hquestions]
  simp only [hexpiry, nonces_dump, pinned_dump]
  show (p.checkOwnership.bind fun _ => .ok p) = _
  cases p.checkOwnership <;> rfl

end InboxPayload

end ClaudeHub
