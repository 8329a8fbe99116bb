import ClaudeHub.BotPool.Limits

/-! # Where the authority of a binding comes from

Every code, claim and binding that the file holds goes back to events of the history, with
no advance of the Bot's generation since its code was issued. A binding that is routed is
therefore one that its owner has started and confirmed.
-/

namespace ClaudeHub

open StepSystem

def NotAdvancedSince (history : PoolHistory) (botId : BotId) (place : Nat) : Prop :=
  ∀ j, place < j → history[j]? ≠ some (.advanced botId)

/-- A code that was issued at place `i` was consumed at place `c`, once and in time. -/
structure ConsumedCode (digests : PairingDigests) (history : PoolHistory) (botId : BotId)
    (i c : Nat) (issue : IssuedCode) (claim : ClaimedCode) : Prop where
  issued : history[i]? = some (.issued issue)
  issuedBot : issue.botId = botId
  claimed : history[c]? = some (.claimed claim)
  claimedBot : claim.botId = botId
  order : i < c
  consumes : claim.issue = some i
  code : digests.code botId claim.code = digests.code botId issue.code
  inTime : claim.claimedAt < issue.expiresAt
  once : ∀ c' claim', history[c']? = some (.claimed claim') → claim'.issue = some i → c' = c

/-- The claim made at place `c` was confirmed at place `a` by the owner that had issued its
code, and the Bot's generation has not advanced since. -/
structure ConfirmedBy (digests : PairingDigests) (history : PoolHistory) (botId : BotId)
    (owner : OwnerIdentity) (tabId : TabId) (senderOpenId chatId : String) (i c a : Nat)
    (issue : IssuedCode) (claim : ClaimedCode) (confirmation : ConfirmedClaim) : Prop where
  consumed : ConsumedCode digests history botId i c issue claim
  confirmed : history[a]? = some (.confirmed confirmation)
  confirmedBot : confirmation.botId = botId
  order : c < a
  confirms : confirmation.claim = some c
  actor : confirmation.actor.kind = issue.owner.kind ∧ confirmation.actor.openId = issue.owner.openId
  word : digests.confirm botId claim.pairingId confirmation.word =
    digests.confirm botId claim.pairingId claim.word
  inTime : confirmation.confirmedAt < claim.expiresAt
  owner : issue.owner = owner
  tab : issue.tabId = tabId
  sender : claim.senderOpenId = senderOpenId
  chat : claim.chatId = chatId
  current : NotAdvancedSince history botId i

/-- Since the generation of the Bot last advanced, its owner has issued a code for that tab,
that sender has consumed it in that chat, and the owner has confirmed the claim. -/
def Authorized (digests : PairingDigests) (history : PoolHistory) (botId : BotId)
    (owner : OwnerIdentity) (tabId : TabId) (senderOpenId chatId : String) : Prop :=
  ∃ i c a issue claim confirmation, ConfirmedBy digests history botId owner tabId senderOpenId
    chatId i c a issue claim confirmation

/-- What a claim goes back to when it is made: a code that no advance has revoked. -/
structure RedeemsAt (digests : PairingDigests) (history : PoolHistory) (c : Nat)
    (claim : ClaimedCode) (i : Nat) (issue : IssuedCode) : Prop where
  redeems : claim.issue = some i
  order : i < c
  issued : history[i]? = some (.issued issue)
  bot : issue.botId = claim.botId
  code : digests.code claim.botId claim.code = digests.code claim.botId issue.code
  inTime : claim.claimedAt < issue.expiresAt
  kept : ∀ j, i < j → j < c → history[j]? ≠ some (.advanced claim.botId)

/-- What a confirmation goes back to: a claim that no advance has revoked. -/
structure ConfirmsAt (digests : PairingDigests) (history : PoolHistory) (a : Nat)
    (confirmation : ConfirmedClaim) (c : Nat) (claim : ClaimedCode) : Prop where
  confirms : confirmation.claim = some c
  order : c < a
  claimed : history[c]? = some (.claimed claim)
  bot : claim.botId = confirmation.botId
  word : digests.confirm claim.botId claim.pairingId confirmation.word =
    digests.confirm claim.botId claim.pairingId claim.word
  inTime : confirmation.confirmedAt < claim.expiresAt
  kept : ∀ j, c < j → j < a → history[j]? ≠ some (.advanced confirmation.botId)

/-- No code is claimed and no claim is confirmed across an advance of the Bot's generation. -/
structure Lawful (digests : PairingDigests) (history : PoolHistory) : Prop where
  claimed : ∀ (c : Nat) (claim : ClaimedCode), history[c]? = some (.claimed claim) →
    ∃ i issue, RedeemsAt digests history c claim i issue
  confirmed : ∀ (a : Nat) (confirmation : ConfirmedClaim), history[a]? = some (.confirmed confirmation) →
    ∃ c claim, ConfirmsAt digests history a confirmation c claim

/-- A code in the file was issued at place `i`, and was not consumed. -/
structure WaitingCode (digests : PairingDigests) (history : PoolHistory) (botId : BotId)
    (digest : String) (value : PendingCode) (i : Nat) (issue : IssuedCode) : Prop where
  last : history.lastIdx? (PoolEvent.issues digests botId digest) = some i
  issued : history[i]? = some (.issued issue)
  bot : issue.botId = botId
  code : digests.code botId issue.code = digest
  owner : issue.owner = value.owner
  tab : issue.tabId = value.tabId
  expires : issue.expiresAt = value.expiresAt
  unclaimed : ∀ (c : Nat) (claim : ClaimedCode), history[c]? = some (.claimed claim) → claim.issue ≠ some i
  current : NotAdvancedSince history botId i

/-- A claim in the file was made at place `c`, with the code issued at place `i`. -/
structure WaitingClaim (digests : PairingDigests) (history : PoolHistory) (botId : BotId)
    (pairingId : PairingId) (value : StoredClaim) (i c : Nat) (issue : IssuedCode)
    (claim : ClaimedCode) : Prop where
  last : history.lastIdx? (PoolEvent.claims botId pairingId) = some c
  consumed : ConsumedCode digests history botId i c issue claim
  pairing : claim.pairingId = pairingId
  owner : issue.owner = value.owner
  tab : issue.tabId = value.tabId
  sender : claim.senderOpenId = value.senderOpenId
  chat : claim.chatId = value.chatId
  word : digests.confirm botId pairingId claim.word = value.confirmDigest
  expires : claim.expiresAt = value.expiresAt
  current : NotAdvancedSince history botId i

/-- The history attests everything that a live Bot holds. -/
structure BotAttested (digests : PairingDigests) (history : PoolHistory) (botId : BotId)
    (bot : LiveBot) : Prop where
  pending : ∀ digest value, bot.pending.lookup digest = some value →
    ∃ i issue, WaitingCode digests history botId digest value i issue
  claims : ∀ pairingId value, bot.claims.lookup pairingId = some value →
    ∃ i c issue claim, WaitingClaim digests history botId pairingId value i c issue claim
  binding : ∀ binding, bot.binding = some binding →
    Authorized digests history botId binding.owner binding.tabId binding.senderOpenId
      binding.chatId

structure Attested (digests : PairingDigests) (history : PoolHistory) (state : PoolState) :
    Prop where
  bots : ∀ botId bot, state.bots.lookup botId = some (.live bot) →
    BotAttested digests history botId bot
  lawful : Lawful digests history

section

variable {digests : PairingDigests} {history : PoolHistory} {event : PoolEvent} {botId : BotId}
  {i c a : Nat} {issue : IssuedCode} {claim : ClaimedCode} {confirmation : ConfirmedClaim}

theorem NotAdvancedSince.concat (h : NotAdvancedSince history botId i)
    (hevent : event ≠ .advanced botId) : NotAdvancedSince (history ++ [event]) botId i := by
  intro j hj hat
  rcases List.getElem?_concat_eq_some.mp hat with hold | ⟨-, heq⟩
  · exact h j hj hold
  · exact hevent heq

theorem notAdvancedSince_length (history : PoolHistory) (botId : BotId) (event : PoolEvent) :
    NotAdvancedSince (history ++ [event]) botId history.length := by
  intro j hj hat
  rcases List.getElem?_concat_eq_some.mp hat with hold | ⟨heq, -⟩
  · exact absurd (List.getElem?_eq_some_iff.mp hold).1 (by omega)
  · omega

theorem ConsumedCode.concat (h : ConsumedCode digests history botId i c issue claim)
    (hevent : ∀ claim, event = .claimed claim → claim.issue ≠ some i) :
    ConsumedCode digests (history ++ [event]) botId i c issue claim where
  issued := List.getElem?_append_of_some _ h.issued
  issuedBot := h.issuedBot
  claimed := List.getElem?_append_of_some _ h.claimed
  claimedBot := h.claimedBot
  order := h.order
  consumes := h.consumes
  code := h.code
  inTime := h.inTime
  once := fun c' claim' hat hissue => by
    rcases List.getElem?_concat_eq_some.mp hat with hold | ⟨-, heq⟩
    · exact h.once c' claim' hold hissue
    · exact absurd hissue (hevent claim' heq)

theorem ConfirmedBy.concat {owner : OwnerIdentity} {tabId : TabId} {sender chat : String}
    (h : ConfirmedBy digests history botId owner tabId sender chat i c a issue claim confirmation)
    (hadvanced : event ≠ .advanced botId)
    (hclaimed : ∀ claim, event = .claimed claim → claim.issue ≠ some i) :
    ConfirmedBy digests (history ++ [event]) botId owner tabId sender chat i c a issue claim
      confirmation :=
  { h with
    consumed := h.consumed.concat hclaimed
    confirmed := List.getElem?_append_of_some _ h.confirmed
    current := h.current.concat hadvanced }

variable {digest : String} {value : PendingCode}

theorem WaitingCode.concat (h : WaitingCode digests history botId digest value i issue)
    (hadvanced : event ≠ .advanced botId) (hissued : event.issues digests botId digest = false)
    (hclaimed : ∀ claim, event = .claimed claim → claim.issue ≠ some i) :
    WaitingCode digests (history ++ [event]) botId digest value i issue :=
  { h with
    last := by
      rw [List.lastIdx?_append_of_forall (by simpa using hissued)]
      exact h.last
    issued := List.getElem?_append_of_some _ h.issued
    unclaimed := fun c claim hat => by
      rcases List.getElem?_concat_eq_some.mp hat with hold | ⟨-, heq⟩
      · exact h.unclaimed c claim hold
      · exact hclaimed claim heq
    current := h.current.concat hadvanced }

theorem WaitingClaim.concat {pairingId : PairingId} {value : StoredClaim}
    (h : WaitingClaim digests history botId pairingId value i c issue claim)
    (hadvanced : event ≠ .advanced botId) (hclaims : event.claims botId pairingId = false)
    (hclaimed : ∀ claim, event = .claimed claim → claim.issue ≠ some i) :
    WaitingClaim digests (history ++ [event]) botId pairingId value i c issue claim :=
  { h with
    last := by
      rw [List.lastIdx?_append_of_forall (by simpa using hclaims)]
      exact h.last
    consumed := h.consumed.concat hclaimed
    current := h.current.concat hadvanced }

theorem WaitingCode.ne_consumed {i' : Nat} {issue' : IssuedCode} {botId' : BotId}
    (h : WaitingCode digests history botId digest value i issue)
    (h' : ConsumedCode digests history botId' i' c issue' claim) : i ≠ i' := by
  rintro rfl
  exact h.unclaimed c claim h'.claimed h'.consumes

theorem WaitingCode.place {digest' : String} {value' : PendingCode} {issue' : IssuedCode}
    {botId' : BotId} (h : WaitingCode digests history botId digest value i issue)
    (h' : WaitingCode digests history botId' digest' value' i issue') :
    botId = botId' ∧ digest = digest' := by
  obtain rfl := PoolEvent.issued.inj (Option.some.inj (h.issued.symm.trans h'.issued))
  obtain rfl := h.bot.symm.trans h'.bot
  exact ⟨rfl, h.code.symm.trans h'.code⟩

theorem RedeemsAt.concat (h : RedeemsAt digests history c claim i issue) (event : PoolEvent)
    (hplace : c ≤ history.length) : RedeemsAt digests (history ++ [event]) c claim i issue :=
  { h with
    issued := List.getElem?_append_of_some _ h.issued
    kept := fun j hij hjc hat => by
      rcases List.getElem?_concat_eq_some.mp hat with hold | ⟨heq, -⟩
      · exact h.kept j hij hjc hold
      · omega }

theorem ConfirmsAt.concat (h : ConfirmsAt digests history a confirmation c claim)
    (event : PoolEvent) (hplace : a ≤ history.length) :
    ConfirmsAt digests (history ++ [event]) a confirmation c claim :=
  { h with
    claimed := List.getElem?_append_of_some _ h.claimed
    kept := fun j hcj hja hat => by
      rcases List.getElem?_concat_eq_some.mp hat with hold | ⟨heq, -⟩
      · exact h.kept j hcj hja hold
      · omega }

theorem Lawful.concat (h : Lawful digests history)
    (hclaimed : ∀ claim, event = .claimed claim →
      ∃ i issue, RedeemsAt digests history history.length claim i issue)
    (hconfirmed : ∀ confirmation, event = .confirmed confirmation →
      ∃ c claim, ConfirmsAt digests history history.length confirmation c claim) :
    Lawful digests (history ++ [event]) := by
  constructor
  · intro c claim hat
    rcases List.getElem?_concat_eq_some.mp hat with hold | ⟨rfl, heq⟩
    · obtain ⟨i, issue, hredeems⟩ := h.claimed c claim hold
      exact ⟨i, issue, hredeems.concat event (List.getElem?_eq_some_iff.mp hold).1.le⟩
    · obtain ⟨i, issue, hredeems⟩ := hclaimed claim heq
      exact ⟨i, issue, hredeems.concat event le_rfl⟩
  · intro a confirmation hat
    rcases List.getElem?_concat_eq_some.mp hat with hold | ⟨rfl, heq⟩
    · obtain ⟨c, claim, hconfirms⟩ := h.confirmed a confirmation hold
      exact ⟨c, claim, hconfirms.concat event (List.getElem?_eq_some_iff.mp hold).1.le⟩
    · obtain ⟨c, claim, hconfirms⟩ := hconfirmed confirmation heq
      exact ⟨c, claim, hconfirms.concat event le_rfl⟩

end

section

variable {digests : PairingDigests} {history : PoolHistory} {event : PoolEvent}
  {botId other : BotId} {bot next : LiveBot}

theorem LiveBot.Bare.attested (h : bot.Bare) : BotAttested digests history botId bot where
  pending := by simp [h.pending]
  claims := by simp [h.claims]
  binding := by simp [h.binding]

theorem BotAttested.within (h : BotAttested digests history botId bot)
    (hwithin : bot.Within next) : BotAttested digests history botId next where
  pending := fun digest value hvalue => h.pending digest value (hwithin.pending digest value hvalue)
  claims := fun pairingId value hvalue =>
    h.claims pairingId value (hwithin.claims pairingId value hvalue)
  binding := fun binding hbinding => h.binding binding (hwithin.binding ▸ hbinding)

theorem BotAttested.concat (h : BotAttested digests history other bot)
    (hadvanced : event ≠ .advanced other)
    (hissues : ∀ digest, event.issues digests other digest = false)
    (hclaims : ∀ pairingId, event.claims other pairingId = false)
    (hclaimed : ∀ claim, event = .claimed claim → botId ≠ other ∧
      ∃ i digest value issue, claim.issue = some i ∧
        WaitingCode digests history botId digest value i issue) :
    BotAttested digests (history ++ [event]) other bot where
  pending := fun digest value hvalue => by
    obtain ⟨i, issue, hwaiting⟩ := h.pending digest value hvalue
    refine ⟨i, issue, hwaiting.concat hadvanced (hissues digest) fun claim heq hissue => ?_⟩
    obtain ⟨hother, i', digest', value', issue', hredeems, hwaiting'⟩ := hclaimed claim heq
    cases hredeems.symm.trans hissue
    exact hother (hwaiting'.place hwaiting).1
  claims := fun pairingId value hvalue => by
    obtain ⟨i, c, issue, claim, hwaiting⟩ := h.claims pairingId value hvalue
    refine ⟨i, c, issue, claim, hwaiting.concat hadvanced (hclaims pairingId)
      fun claim heq hissue => ?_⟩
    obtain ⟨-, i', digest', value', issue', hredeems, hwaiting'⟩ := hclaimed claim heq
    cases hredeems.symm.trans hissue
    exact hwaiting'.ne_consumed hwaiting.consumed rfl
  binding := fun binding hbinding => by
    obtain ⟨i, c, a, issue, claim, confirmation, hconfirmed⟩ := h.binding binding hbinding
    refine ⟨i, c, a, issue, claim, confirmation, hconfirmed.concat hadvanced
      fun claim heq hissue => ?_⟩
    obtain ⟨-, i', digest', value', issue', hredeems, hwaiting'⟩ := hclaimed claim heq
    cases hredeems.symm.trans hissue
    exact hwaiting'.ne_consumed hconfirmed.consumed rfl

end

section

variable {digests : PairingDigests} {history : PoolHistory} {state state' ready next : PoolState}
  {botId : BotId} {note : PoolNote} {now : Time}

theorem Attested.within (h : Attested digests history state)
    (hlive : ∀ botId next, state'.bots.lookup botId = some (.live next) →
      next.Bare ∨ ∃ bot, state.bots.lookup botId = some (.live bot) ∧ bot.Within next) :
    Attested digests history state' := by
  refine ⟨fun botId next hnext => ?_, h.lawful⟩
  rcases hlive botId next hnext with hbare | ⟨bot, hbot, hwithin⟩
  · exact hbare.attested
  · exact (h.bots botId bot hbot).within hwithin

theorem Attested.advanced (h : Attested digests history state) (botId : BotId)
    (hbare : ∀ bot, state.bots.lookup botId = some (.live bot) → bot.Bare) :
    Attested digests (history ++ [.advanced botId]) state := by
  refine ⟨fun other bot hbot => ?_, h.lawful.concat (by simp) (by simp)⟩
  by_cases hother : botId = other
  · subst hother
    exact (hbare bot hbot).attested
  · have hnone : ∀ claim, PoolEvent.advanced botId = .claimed claim → botId ≠ other ∧
        ∃ i digest value issue, claim.issue = some i ∧
          WaitingCode digests history botId digest value i issue := by simp
    exact (h.bots other bot hbot).concat (by simpa using hother) (fun _ => rfl) (fun _ => rfl) hnone

theorem Attested.advances (h : Attested digests history state') (before : PoolState)
    (hbare : ∀ botId bot, state'.bots.lookup botId = some (.live bot) →
      bot.Bare ∨ ∃ old, before.bots.lookup botId = some (.live old) ∧
        bot.generation = old.generation) :
    Attested digests (history ++ before.advances state') state' := by
  have hall : ∀ event ∈ before.advances state', ∃ botId, event = .advanced botId ∧
      ∀ bot, state'.bots.lookup botId = some (.live bot) → bot.Bare := by
    intro event hevent
    obtain ⟨⟨botId, record⟩, hmem, hentry⟩ := List.mem_filterMap.mp hevent
    split at hentry
    · rename_i hchanged
      refine ⟨botId, (Option.some.inj hentry).symm, fun bot hbot => ?_⟩
      refine (hbare botId bot hbot).resolve_right ?_
      rintro ⟨old, hold, hsame⟩
      refine hchanged.2 ?_
      cases (Dict.lookup_eq_some.mpr hmem).symm.trans hold
      simp [hbot, BotRecord.liveGeneration?, hsame]
    · contradiction
  generalize before.advances state' = events at hall
  induction events generalizing history with
  | nil =>
    rw [List.append_nil]
    exact h
  | cons event events ih =>
    obtain ⟨botId, rfl, hnone⟩ := hall event (by simp)
    rw [List.append_cons]
    exact ih (h.advanced botId hnone) fun event hevent => hall event (List.mem_cons_of_mem _ hevent)

theorem Attested.prepared (h : Attested digests history state) (call : PoolCall)
    (environ : Environ) (now : Time) :
    Attested digests (history ++ state.advances (call.ready state environ now))
      (call.ready state environ now) := by
  refine (h.within fun botId next => PoolCall.ready_live).advances state fun botId bot hbot => ?_
  rcases PoolCall.ready_live hbot with hbare | ⟨old, hold, hwithin⟩
  · exact .inl hbare
  · exact .inr ⟨old, hold, hwithin.generation⟩

variable {bot : LiveBot}

theorem BotMove.generation {next : LiveBot}
    (hmove : BotMove digests botId now bot note (.live next)) :
    next.Bare ∨ next.generation = bot.generation := by
  cases hmove with
  | kept hkeeps => exact .inr hkeeps.generation
  | advanced happId hadvances =>
    exact .inl ⟨hadvances.pending, hadvances.claims, hadvances.binding⟩
  | _ => exact .inr rfl

theorem BotMove.within {next : LiveBot} (hnote : note = .edited ∨ note = .spent)
    (hmove : BotMove digests botId now bot note (.live next)) : next.Bare ∨ bot.Within next := by
  cases hmove with
  | kept hkeeps =>
    refine .inr ⟨hkeeps.generation, ?_, ?_, hkeeps.binding⟩
    · rw [hkeeps.pending]
      exact fun _ _ h => h
    · rw [hkeeps.claims]
      exact fun _ _ h => h
  | advanced happId hadvances =>
    exact .inl ⟨hadvances.pending, hadvances.claims, hadvances.binding⟩
  | spent =>
    refine .inr ⟨rfl, fun digest value h => ?_, fun _ _ h => h, rfl⟩
    rw [Dict.lookup_erase] at h
    split at h
    · contradiction
    · exact h
  | _ => simp at hnote

theorem Attested.unchanged (h : Attested digests history ready)
    (hnote : note = .edited ∨ note = .spent)
    (hchange : PoolChange digests ready botId now note next) : Attested digests history next := by
  refine h.within fun other bot hbot => ?_
  rcases PoolState.change_live hchange hbot with ⟨hbare, -⟩ | ⟨-, hkept⟩ | ⟨rfl, old, hold, hmove⟩
  · exact .inl hbare
  · exact .inr ⟨bot, hkept, .refl bot⟩
  · exact (hmove.within hnote).imp_right fun hwithin => ⟨old, hold, hwithin⟩

/-! ## Codes, claims and confirmations -/

theorem Lawful.unclaimed_length (h : Lawful digests history) (c : Nat) (claim : ClaimedCode)
    (hat : history[c]? = some (.claimed claim)) : claim.issue ≠ some history.length := by
  intro hissue
  obtain ⟨i, issue, hredeems⟩ := h.claimed c claim hat
  cases hredeems.redeems.symm.trans hissue
  have horder := hredeems.order
  have hlength := (List.getElem?_eq_some_iff.mp hat).1
  omega

theorem BotAttested.issued (h : BotAttested digests history botId bot)
    (hlawful : Lawful digests history) (code : String) (record : PendingCode) (now : Time) :
    BotAttested digests
      (history ++ [.issued ⟨botId, code, record.owner, record.tabId, record.issuedAt,
        record.expiresAt⟩]) botId
      ({ bot with pending := bot.pending.set (digests.code botId code) record }.touch now) where
  pending := fun digest value hvalue => by
    rw [LiveBot.touch, Dict.lookup_set] at hvalue
    split at hvalue
    · rename_i heq
      subst heq
      cases hvalue
      refine ⟨history.length, ⟨botId, code, record.owner, record.tabId, record.issuedAt,
        record.expiresAt⟩, ?_⟩
      exact {
        last := List.lastIdx?_concat (by simp [PoolEvent.issues])
        issued := List.getElem?_concat_eq_some.mpr (.inr ⟨rfl, rfl⟩)
        bot := rfl
        code := rfl
        owner := rfl
        tab := rfl
        expires := rfl
        unclaimed := fun c claim hat => by
          rcases List.getElem?_concat_eq_some.mp hat with hold | ⟨-, heq⟩
          · exact hlawful.unclaimed_length c claim hold
          · contradiction
        current := notAdvancedSince_length history botId _ }
    · rename_i hdigest
      obtain ⟨i, issue, hwaiting⟩ := h.pending digest value hvalue
      refine ⟨i, issue, hwaiting.concat (by simp) ?_ (by simp)⟩
      simpa [PoolEvent.issues] using fun heq => hdigest heq.symm
  claims := fun pairingId value hvalue => by
    obtain ⟨i, c, issue, claim, hwaiting⟩ := h.claims pairingId value hvalue
    exact ⟨i, c, issue, claim, hwaiting.concat (by simp) rfl (by simp)⟩
  binding := fun binding hbinding => by
    obtain ⟨i, c, a, issue, claim, confirmation, hconfirmed⟩ := h.binding binding hbinding
    exact ⟨i, c, a, issue, claim, confirmation, hconfirmed.concat (by simp) (by simp)⟩

variable {pairingId : PairingId} {value : StoredClaim}

theorem BotAttested.missed (h : BotAttested digests history botId bot)
    (hvalue : bot.claims.lookup pairingId = some value) (now : Time) :
    BotAttested digests (history ++ [.missed botId pairingId]) botId
      ({ bot with claims := PoolState.missClaim bot.claims pairingId value }.touch now) where
  pending := fun digest found hfound => by
    obtain ⟨i, issue, hwaiting⟩ := h.pending digest found hfound
    exact ⟨i, issue, hwaiting.concat (by simp) rfl (by simp)⟩
  claims := fun other found hfound => by
    rcases PoolState.missClaim_lookup hfound with ⟨-, hkept⟩ | ⟨rfl, -, rfl⟩
    · obtain ⟨i, c, issue, claim, hwaiting⟩ := h.claims other found hkept
      exact ⟨i, c, issue, claim, hwaiting.concat (by simp) rfl (by simp)⟩
    · obtain ⟨i, c, issue, claim, hwaiting⟩ := h.claims other value hvalue
      have hnext : WaitingClaim digests (history ++ [.missed botId other]) botId other value i c
          issue claim := hwaiting.concat (by simp) rfl (by simp)
      exact ⟨i, c, issue, claim, hnext.last, hnext.consumed, hnext.pairing, hnext.owner,
        hnext.tab, hnext.sender, hnext.chat, hnext.word, hnext.expires, hnext.current⟩
  binding := fun binding hbinding => by
    obtain ⟨i, c, a, issue, claim, confirmation, hconfirmed⟩ := h.binding binding hbinding
    exact ⟨i, c, a, issue, claim, confirmation, hconfirmed.concat (by simp) (by simp)⟩

variable {digest : String} {i : Nat} {issue : IssuedCode} {claim : ClaimedCode}

theorem WaitingCode.consume {value : PendingCode}
    (h : WaitingCode digests history botId digest value i issue) (hbot : claim.botId = botId)
    (hissue : claim.issue = some i) (hcode : digests.code botId claim.code = digest)
    (hlive : claim.claimedAt < value.expiresAt) :
    ConsumedCode digests (history ++ [.claimed claim]) botId i history.length issue claim where
  issued := List.getElem?_append_of_some _ h.issued
  issuedBot := h.bot
  claimed := List.getElem?_concat_eq_some.mpr (.inr ⟨rfl, rfl⟩)
  claimedBot := hbot
  order := (List.getElem?_eq_some_iff.mp h.issued).1
  consumes := hissue
  code := hcode.trans h.code.symm
  inTime := h.expires ▸ hlive
  once := fun c claim' hat hsame => by
    rcases List.getElem?_concat_eq_some.mp hat with hold | ⟨hlength, -⟩
    · exact absurd hsame (h.unclaimed c claim' hold)
    · exact hlength

theorem BotAttested.claimed (h : BotAttested digests history botId bot) {value : PendingCode}
    {record : StoredClaim} (hwaiting : WaitingCode digests history botId digest value i issue)
    (hbot : claim.botId = botId) (hissue : claim.issue = some i)
    (hcode : digests.code botId claim.code = digest) (hlive : claim.claimedAt < value.expiresAt)
    (howner : record.owner = value.owner) (htab : record.tabId = value.tabId)
    (hsender : claim.senderOpenId = record.senderOpenId) (hchat : claim.chatId = record.chatId)
    (hword : record.confirmDigest = digests.confirm botId claim.pairingId claim.word)
    (hexpires : claim.expiresAt = record.expiresAt) (now : Time) :
    BotAttested digests (history ++ [.claimed claim]) botId
      ({ bot with
        pending := bot.pending.erase digest
        claims := bot.claims.set claim.pairingId record }.touch now) where
  pending := fun other found hfound => by
    rw [LiveBot.touch, Dict.lookup_erase] at hfound
    split at hfound
    · contradiction
    · rename_i hother
      obtain ⟨i', issue', hwaiting'⟩ := h.pending other found hfound
      refine ⟨i', issue', hwaiting'.concat (by simp) rfl fun claim' heq hsame => hother ?_⟩
      cases heq
      cases hissue.symm.trans hsame
      exact (hwaiting'.place hwaiting).2
  claims := fun pairingId found hfound => by
    rw [LiveBot.touch, Dict.lookup_set] at hfound
    split at hfound
    · rename_i heq
      subst heq
      cases hfound
      refine ⟨i, history.length, issue, claim, ?_⟩
      exact {
        last := List.lastIdx?_concat (by simp [PoolEvent.claims, hbot])
        consumed := hwaiting.consume hbot hissue hcode hlive
        pairing := rfl
        owner := hwaiting.owner.trans howner.symm
        tab := hwaiting.tab.trans htab.symm
        sender := hsender
        chat := hchat
        word := hword.symm
        expires := hexpires
        current := hwaiting.current.concat (by simp) }
    · rename_i hother
      obtain ⟨i', c, issue', claim', hwaiting'⟩ := h.claims pairingId found hfound
      refine ⟨i', c, issue', claim', hwaiting'.concat (by simp) ?_ fun claim' heq hsame => ?_⟩
      · simpa [PoolEvent.claims, hbot] using fun heq => hother heq.symm
      · cases heq
        cases hissue.symm.trans hsame
        exact hwaiting.ne_consumed hwaiting'.consumed rfl
  binding := fun binding hbinding => by
    obtain ⟨i', c, a, issue', claim', confirmation, hconfirmed⟩ := h.binding binding hbinding
    refine ⟨i', c, a, issue', claim', confirmation, hconfirmed.concat (by simp)
      fun claim' heq hsame => ?_⟩
    cases heq
    cases hissue.symm.trans hsame
    exact hwaiting.ne_consumed hconfirmed.consumed rfl

theorem WaitingCode.redeems {value : PendingCode}
    (h : WaitingCode digests history botId digest value i issue) (hbot : claim.botId = botId)
    (hissue : claim.issue = some i) (hcode : digests.code botId claim.code = digest)
    (hlive : claim.claimedAt < value.expiresAt) :
    RedeemsAt digests history history.length claim i issue where
  redeems := hissue
  order := (List.getElem?_eq_some_iff.mp h.issued).1
  issued := h.issued
  bot := h.bot.trans hbot.symm
  code := by
    rw [hbot]
    exact hcode.trans h.code.symm
  inTime := h.expires ▸ hlive
  kept := fun j hij _ => by
    rw [hbot]
    exact h.current j hij

theorem WaitingClaim.confirms {c : Nat} {confirmation : ConfirmedClaim}
    (h : WaitingClaim digests history botId pairingId value i c issue claim)
    (hbot : confirmation.botId = botId) (hclaim : confirmation.claim = some c)
    (hword : value.confirmDigest = digests.confirm botId pairingId confirmation.word)
    (hlive : confirmation.confirmedAt < value.expiresAt) :
    ConfirmsAt digests history history.length confirmation c claim where
  confirms := hclaim
  order := (List.getElem?_eq_some_iff.mp h.consumed.claimed).1
  claimed := h.consumed.claimed
  bot := h.consumed.claimedBot.trans hbot.symm
  word := by
    rw [h.consumed.claimedBot, h.pairing]
    exact (h.word.trans hword).symm
  inTime := h.expires ▸ hlive
  kept := fun j hcj _ => by
    rw [hbot]
    exact h.current j (h.consumed.order.trans hcj)

theorem BotAttested.activated {c : Nat} {confirmation : ConfirmedClaim} {binding : StoredBinding}
    (hwaiting : WaitingClaim digests history botId pairingId value i c issue claim)
    (hbot : confirmation.botId = botId) (hclaim : confirmation.claim = some c)
    (hword : value.confirmDigest = digests.confirm botId pairingId confirmation.word)
    (hlive : confirmation.confirmedAt < value.expiresAt)
    (hactor : confirmation.actor.kind = value.owner.kind ∧
        confirmation.actor.openId = value.owner.openId)
    (howner : binding.owner = value.owner) (htab : binding.tabId = value.tabId)
    (hsender : binding.senderOpenId = value.senderOpenId) (hchat : binding.chatId = value.chatId)
    (now : Time) :
    BotAttested digests (history ++ [.confirmed confirmation]) botId
      ({ bot with
        binding := some binding, claims := Table.empty, pending := Table.empty }.touch now) where
  pending := by simp [LiveBot.touch]
  claims := by simp [LiveBot.touch]
  binding := fun found hfound => by
    obtain rfl : binding = found := Option.some.inj hfound
    have hconfirms := hwaiting.confirms hbot hclaim hword hlive
    refine ⟨i, c, history.length, issue, claim, confirmation, ?_⟩
    exact {
      consumed := hwaiting.consumed.concat (by simp)
      confirmed := List.getElem?_concat_eq_some.mpr (.inr ⟨rfl, rfl⟩)
      confirmedBot := hbot
      order := hconfirms.order
      confirms := hclaim
      actor := hwaiting.owner ▸ hactor
      word := by
        rw [hwaiting.pairing]
        exact (hwaiting.word.trans hword).symm
      inTime := hconfirms.inTime
      owner := hwaiting.owner.trans howner.symm
      tab := hwaiting.tab.trans htab.symm
      sender := hwaiting.sender.trans hsender.symm
      chat := hwaiting.chat.trans hchat.symm
      current := hwaiting.current.concat (by simp) }

theorem Attested.concat {event : PoolEvent} {record : BotRecord}
    (h : Attested digests history ready) (hlawful : Lawful digests (history ++ [event]))
    (hrecord : ∀ bot, record = .live bot → BotAttested digests (history ++ [event]) botId bot)
    (hadvanced : ∀ other, event ≠ .advanced other)
    (hissues : ∀ other digest, botId ≠ other → event.issues digests other digest = false)
    (hclaims : ∀ other pairingId, botId ≠ other → event.claims other pairingId = false)
    (hclaimed : ∀ claim, event = .claimed claim → ∃ i digest value issue, claim.issue = some i ∧
      WaitingCode digests history botId digest value i issue) :
    Attested digests (history ++ [event]) (ready.setRecord botId record) := by
  refine ⟨fun other bot hbot => ?_, hlawful⟩
  rw [PoolState.setRecord_lookup] at hbot
  split at hbot
  · rename_i heq
    subst heq
    exact hrecord bot (Option.some.inj hbot)
  · rename_i hother
    have hne : botId ≠ other := fun heq => hother heq.symm
    exact (h.bots other bot hbot).concat (hadvanced other) (fun digest => hissues other digest hne)
      (fun pairingId => hclaims other pairingId hne) fun claim heq => ⟨hne, hclaimed claim heq⟩

theorem Attested.issued (h : Attested digests history ready)
    (hbot : ready.bots.lookup botId = some (.live bot)) (code : String) (record : PendingCode)
    (now : Time) :
    Attested digests (history ++ (PoolNote.issued code record).events digests history botId now)
      (ready.setRecord botId (.live ({ bot with
        pending := bot.pending.set (digests.code botId code) record }.touch now))) := by
  refine h.concat (h.lawful.concat (by simp) (by simp)) (fun next heq => ?_) (by simp)
    (fun other digest hne => by simp [PoolEvent.issues, hne]) (fun _ _ _ => rfl) (by simp)
  cases heq
  exact (h.bots botId bot hbot).issued h.lawful code record now

theorem Attested.change (h : Attested digests history ready)
    (hunexpired : note = .edited ∨ ∀ botId bot pairingId value,
      ready.bots.lookup botId = some (.live bot) → bot.claims.lookup pairingId = some value →
        now < value.expiresAt)
    (hchange : PoolChange digests ready botId now note next) :
    Attested digests (history ++ note.events digests history botId now) next := by
  by_cases hnote : note = .edited ∨ note = .spent
  · have hevents : note.events digests history botId now = [] := by
      rcases hnote with rfl | rfl <;> rfl
    rw [hevents, List.append_nil]
    exact h.unchanged hnote hchange
  cases hchange with
  | same => simp at hnote
  | created => simp at hnote
  | issued code record hbot =>
    have hissued := h.issued hbot code record now
    exact ⟨hissued.bots, hissued.lawful⟩
  | @moved bot record note hbot hmove hissued =>
    have hattested := h.bots botId bot hbot
    cases hmove with
    | kept => simp at hnote
    | advanced => simp at hnote
    | deleted => simp at hnote
    | spent => simp at hnote
    | issued code value => exact absurd rfl (hissued code value)
    | claimed code word pairingId value record hvalue hlive howner htab hgeneration hword =>
      obtain ⟨i, issue, hwaiting⟩ := hattested.pending _ value hvalue
      refine h.concat (h.lawful.concat (fun claim heq => ?_) (by simp)) (fun next heq => ?_)
        (by simp) (fun _ _ _ => rfl) (fun other pairingId hne => by simp [PoolEvent.claims, hne])
        fun claim heq => ?_
      · cases heq
        exact ⟨i, issue, hwaiting.redeems rfl hwaiting.last rfl hlive⟩
      · cases heq
        exact hattested.claimed hwaiting rfl hwaiting.last rfl hlive howner htab rfl rfl hword
          rfl now
      · cases heq
        exact ⟨i, _, value, issue, hwaiting.last, hwaiting⟩
    | missed pairingId value hvalue =>
      refine h.concat (h.lawful.concat (by simp) (by simp)) (fun next heq => ?_) (by simp)
        (fun _ _ _ => rfl) (fun _ _ _ => rfl) (by simp)
      cases heq
      exact hattested.missed hvalue now
    | activated pairingId actor word value binding hvalue hactor hword hfree howner htab hsender
        hchat =>
        obtain ⟨i, c, issue, claim, hwaiting⟩ := hattested.claims pairingId value hvalue
        have hlive : now < value.expiresAt :=
          hunexpired.resolve_left (by simp) botId bot pairingId value hbot hvalue
        refine h.concat (h.lawful.concat (by simp) fun confirmation heq => ?_) (fun next heq => ?_)
          (by simp) (fun _ _ _ => rfl) (fun _ _ _ => rfl) (by simp)
        · cases heq
          exact ⟨c, claim, hwaiting.confirms rfl hwaiting.last hword hlive⟩
        · cases heq
          exact .activated hwaiting rfl hwaiting.last hword hlive hactor howner htab hsender
            hchat now

end

namespace PoolSystem

variable {digests : PairingDigests} {system after start : PoolSystem} {op : PoolOp}
  {ops : List PoolOp}

/-- The history attests whatever can be loaded. -/
structure Attested (digests : PairingDigests) (system : PoolSystem) : Prop where
  lawful : Lawful digests system.history
  loaded : ∀ now state, system.disk.load now = .ok state →
    ClaudeHub.Attested digests system.history state

theorem Attested.step (h : system.Attested digests) (hstep : system.step digests op = some after) :
    after.Attested digests := by
  cases step_stepped hstep with
  | unsaved => exact ⟨h.lawful, h.loaded⟩
  | @saved state next note hload hchange hpruned =>
    have hready := (h.loaded op.now state hload).prepared op.call op.environ op.now
    have hnext := hready.change (hpruned.imp_right fun heq botId bot pairingId value hbot hvalue =>
      PoolState.prepare_unexpired (heq ▸ hbot) hvalue) hchange
    have hrecorded := hnext.advances (op.call.ready state op.environ op.now)
      fun botId bot hbot => by
        rcases PoolState.change_live hchange hbot with hbare | ⟨-, hkept⟩ |
          ⟨rfl, old, hold, hmove⟩
        · exact .inl hbare.1
        · exact .inr ⟨bot, hkept, rfl⟩
        · exact hmove.generation.imp_right fun hsame => ⟨old, hold, hsame⟩
    refine ⟨hrecorded.lawful, fun now stored hstored => ?_⟩
    obtain ⟨_, -, rfl⟩ := Except.map_ok_iff.mp hstored
    exact ⟨hrecorded.bots, hrecorded.lawful⟩

theorem attested_start (hpool : start.disk.pool = none) (hhistory : start.history = []) :
    start.Attested digests := by
  have hlawful : Lawful digests start.history := by
    rw [hhistory]
    constructor <;> simp
  refine ⟨hlawful, fun now state hload => ⟨fun botId bot hbot => ?_, hlawful⟩⟩
  rcases PoolDisk.load_live hload hbot with hstored | hbare
  · rw [hpool] at hstored
    contradiction
  · exact hbare.attested

end PoolSystem

/-! ## Routes -/

namespace PoolState

variable {state : PoolState} {botId : BotId} {environ : Environ} {now : Time}

theorem synced_result {α : Type} (state : PoolState) (environ : Environ) (now : Time)
    (read : PoolState → Except PoolError α) :
    (state.synced environ now read).result = read (state.syncEnvEntry environ now).1 := by
  unfold synced
  dsimp only
  split
  · rfl
  · cases read (state.syncEnvEntry environ now).1 <;> rfl

variable {binding : BotBinding}

theorem bindingFromDict_ok {value : StoredBinding} (h : bindingFromDict botId value = .ok binding) :
    binding.owner = value.owner ∧ binding.tabId = value.tabId ∧
      binding.senderOpenId = value.senderOpenId ∧ binding.chatId = value.chatId := by
  obtain ⟨pairingId, -, h⟩ := Except.bind_ok_iff.mp h
  obtain ⟨owner, howner, h⟩ := Except.bind_ok_iff.mp h
  obtain ⟨tabId, htab, h⟩ := Except.bind_ok_iff.mp h
  obtain ⟨workspaceId, -, h⟩ := Except.bind_ok_iff.mp h
  obtain ⟨sender, hsender, h⟩ := Except.bind_ok_iff.mp h
  obtain ⟨chat, hchat, h⟩ := Except.bind_ok_iff.mp h
  obtain ⟨createdAt, -, h⟩ := Except.bind_ok_iff.mp h
  obtain rfl := Except.pure_ok_iff.mp h
  exact ⟨ownerFromDict_ok howner, asText_ok htab, asText_ok hsender, asText_ok hchat⟩

theorem mapM_ok {α β : Type} {f : α → Except PoolError β} {value : Option α} {result : β}
    (h : value.mapM f = .ok (some result)) : ∃ a, value = some a ∧ f a = .ok result := by
  cases value with
  | none =>
    have hnone : (.ok none : Except PoolError (Option β)) = .ok (some result) := h
    simp at hnone
  | some a =>
    obtain ⟨found, hfound, hsome⟩ := Except.map_ok_iff.mp h
    cases hsome
    exact ⟨a, rfl, hfound⟩

theorem entryView_binding {bot : LiveBot} {config : Option FeishuBotConfig} {entry : BotEntry}
    (h : entryView botId bot config now = .ok entry) (hbinding : entry.binding = some binding) :
    ∃ value, bot.binding = some value ∧ bindingFromDict botId value = .ok binding := by
  obtain ⟨_, -, h⟩ := Except.bind_ok_iff.mp h
  obtain ⟨shown, hshown, h⟩ := Except.bind_ok_iff.mp h
  obtain ⟨_, -, h⟩ := Except.bind_ok_iff.mp h
  obtain ⟨_, -, h⟩ := Except.bind_ok_iff.mp h
  obtain ⟨_, -, h⟩ := Except.bind_ok_iff.mp h
  split at h
  · contradiction
  obtain ⟨_, -, h⟩ := Except.bind_ok_iff.mp h
  obtain ⟨_, -, h⟩ := Except.bind_ok_iff.mp h
  obtain ⟨_, -, h⟩ := Except.bind_ok_iff.mp h
  obtain ⟨_, -, h⟩ := Except.bind_ok_iff.mp h
  obtain ⟨_, -, h⟩ := Except.bind_ok_iff.mp h
  obtain ⟨_, -, h⟩ := Except.bind_ok_iff.mp h
  obtain rfl := Except.pure_ok_iff.mp h
  obtain ⟨rfl, -⟩ := Option.filter_eq_some_iff.mp hbinding
  exact mapM_ok hshown

theorem route_ok {sender : String} {chat : Option String}
    (h : state.route botId sender chat environ now = .ok (some binding)) :
    ∃ bot value, state.bots.lookup botId = some (.live bot) ∧ bot.binding = some value ∧
      bindingFromDict botId value = .ok binding ∧ binding.senderOpenId = sender ∧
      ∀ chatId, chat = some chatId → binding.chatId = chatId := by
  unfold route at h
  split at h
  case h_2 => cases Except.pure_ok_iff.mp h
  rename_i bot hbot
  obtain ⟨entry, hentry, h⟩ := Except.bind_ok_iff.mp h
  split at h
  · cases Except.pure_ok_iff.mp h
  rename_i found hfound
  obtain ⟨value, hvalue, hread⟩ := entryView_binding hentry hfound
  split at h
  · cases Except.pure_ok_iff.mp h
  obtain ⟨same, hsame, h⟩ := Except.bind_ok_iff.mp h
  split at h
  · cases Except.pure_ok_iff.mp h
  rename_i hsender
  obtain rfl : same = true := by simpa using hsender
  cases chat with
  | none =>
    cases Except.pure_ok_iff.mp h
    exact ⟨bot, value, hbot, hvalue, hread, compareDigest_ok hsame, by simp⟩
  | some =>
    obtain ⟨same, hchat, h⟩ := Except.bind_ok_iff.mp h
    split at h
    · cases Except.pure_ok_iff.mp h
    rename_i htrue
    obtain rfl : same = true := by simpa using htrue
    cases Except.pure_ok_iff.mp h
    refine ⟨bot, value, hbot, hvalue, hread, compareDigest_ok hsame, fun chat heq => ?_⟩
    cases heq
    exact compareDigest_ok hchat

end PoolState

theorem Attested.routed {digests : PairingDigests} {history : PoolHistory} {state : PoolState}
    {environ : Environ} {now : Time} {botId : BotId} {sender : String} {chat : Option String}
    {binding : BotBinding} (h : Attested digests history state)
    (hroute : (state.synced environ now fun state =>
      state.route botId sender chat environ now).result = .ok (some binding)) :
    binding.senderOpenId = sender ∧ (∀ chatId, chat = some chatId → binding.chatId = chatId) ∧
      Authorized digests (history ++ state.advances (state.syncEnvEntry environ now).1) botId
        binding.owner binding.tabId sender binding.chatId := by
  rw [PoolState.synced_result] at hroute
  obtain ⟨bot, value, hbot, hvalue, hread, hsender, hchat⟩ := PoolState.route_ok hroute
  obtain ⟨howner, htab, hsame, hchatId⟩ := PoolState.bindingFromDict_ok hread
  have hready := (h.prepared .read environ now).bots botId bot hbot
  have hauthorized := hready.binding value hvalue
  rw [← howner, ← htab, ← hsame, ← hchatId, hsender] at hauthorized
  exact ⟨hsender, hchat, hauthorized⟩

/-- Whatever the clock and the environment show and whichever saves raise: a binding is routed only
to the sender and the chat of a code that its owner has issued and confirmed since the generation
last advanced. -/
theorem routed_authorized {digests : PairingDigests} {start after : PoolSystem}
    {ops : List PoolOp} (hpool : start.disk.pool = none) (hhistory : start.history = [])
    (hrun : Run (PoolSystem.step digests) (fun _ _ => True) start ops after) :
    (∀ now state environ botId sender chat binding, after.disk.load now = .ok state →
      (state.routedBinding botId sender chat environ now).result = .ok (some binding) →
        Authorized digests (after.history ++ state.advances (state.syncEnvEntry environ now).1)
          botId binding.owner binding.tabId sender chat) ∧
      (∀ now state environ botId sender binding, after.disk.load now = .ok state →
        (state.routedBindingForSender botId sender environ now).result = .ok (some binding) →
          Authorized digests (after.history ++ state.advances (state.syncEnvEntry environ now).1)
            botId binding.owner binding.tabId sender binding.chatId) ∧
      Lawful digests after.history := by
  have hattested : after.Attested digests :=
    hrun.invariant (P := fun s => s.Attested digests) (PoolSystem.attested_start hpool hhistory)
      fun s op t h _ hstep => h.step hstep
  refine ⟨?_, ?_, hattested.lawful⟩
  · intro now state environ botId sender chat binding hload hroute
    obtain ⟨-, hchat, hauthorized⟩ := (hattested.loaded now state hload).routed hroute
    exact hchat chat rfl ▸ hauthorized
  · intro now state environ botId sender binding hload hroute
    obtain ⟨-, -, hauthorized⟩ := (hattested.loaded now state hload).routed hroute
    exact hauthorized

private def pairedDigests : PairingDigests where
  code := fun botId code =>
    if botId = "5f0c9a3e7d214b86" ∧ code = "CH-QW7E2RT9AA" then
      "263635177bd333f91ee7df14f7cd2b5389d7553d460e64d8c7dcdf767e2b357a"
    else ""
  confirm := fun botId pairingId word =>
    if botId = "5f0c9a3e7d214b86" ∧ pairingId = "9b1d4c7e2f6a80531c0e9d8b7a6f5e42" ∧ word = "K7M2QX" then
      "55ed29513b80c65b937830a62a194eb5f5fd59ce01c096d9f58f9a059ad2b652"
    else ""

private def pairingOwner : OwnerIdentity := ⟨"ou_owner", "owner@example.com", .oauth⟩

private def pairing : List PoolOp :=
  [{ call := .createBot "Assistant" ⟨"cli_paired", "secret"⟩ {} "5f0c9a3e7d214b86"
     now := 1000 * second },
   { call := .issueCode "5f0c9a3e7d214b86" pairingOwner "tab" none 0 "CH-QW7E2RT9AA"
     now := 1010 * second },
   { call := .claimCode "5f0c9a3e7d214b86" "CH-QW7E2RT9AA" "ou_sender" "oc_chat"
       "9b1d4c7e2f6a80531c0e9d8b7a6f5e42" "K7M2QX"
     now := 1020 * second },
   { call := .activateClaim "5f0c9a3e7d214b86" "9b1d4c7e2f6a80531c0e9d8b7a6f5e42" "K7M2QX"
       pairingOwner 2 "4d3c2b1a4d3c2b1a4d3c2b1a4d3c2b1a"
     now := 1030 * second }]

theorem routed_authorized_paired :
    ∃ after state binding, Run (PoolSystem.step pairedDigests) (fun _ _ => True) {} pairing after ∧
      after.disk.load (1040 * second) = .ok state ∧
      (state.routedBinding "5f0c9a3e7d214b86" "ou_sender" "oc_chat" {} (1040 * second)).result =
        .ok (some binding) ∧
      Authorized pairedDigests
        (after.history ++ state.advances (state.syncEnvEntry {} (1040 * second)).1)
        "5f0c9a3e7d214b86" binding.owner binding.tabId "ou_sender" "oc_chat" ∧
      Lawful pairedDigests after.history := by
  have hruns : (execOk (PoolSystem.step pairedDigests) (fun _ _ => True) {} pairing).map
      (fun after => (after.disk.load (1040 * second) >>= fun state =>
        (state.routedBinding "5f0c9a3e7d214b86" "ou_sender" "oc_chat" {} (1040 * second)).result).map
          fun found => found.map BotBinding.tabId) = some (.ok (some "tab")) := by
    decide +kernel
  obtain ⟨after, hafter, hroutes⟩ := Option.map_eq_some_iff.mp hruns
  obtain ⟨found, hfound, htab⟩ := Except.map_ok_iff.mp hroutes
  obtain ⟨binding, rfl, -⟩ := Option.map_eq_some_iff.mp htab
  obtain ⟨state, hload, hroute⟩ := Except.bind_ok_iff.mp hfound
  have hrun := Run.of_execOk hafter
  obtain ⟨hrouted, -, hlawful⟩ := routed_authorized rfl rfl hrun
  exact ⟨after, state, binding, hrun, hload, hroute,
    hrouted (1040 * second) state {} _ _ _ binding hload hroute, hlawful⟩

/-- Whatever can be loaded in a run goes back to what owners did: a waiting code was issued, never
consumed and not revoked since, a waiting claim has consumed such a code, once and in time, and a
binding is authorized. -/
theorem pool_file_attested {digests : PairingDigests} {start after : PoolSystem}
    {ops : List PoolOp} (hpool : start.disk.pool = none) (hhistory : start.history = [])
    (hrun : Run (PoolSystem.step digests) (fun _ _ => True) start ops after) (now : Time)
    (state : PoolState) (hload : after.disk.load now = .ok state) (botId : BotId) (bot : LiveBot)
    (hbot : state.bots.lookup botId = some (.live bot)) :
    BotAttested digests after.history botId bot := by
  have hattested : after.Attested digests :=
    hrun.invariant (P := fun s => s.Attested digests) (PoolSystem.attested_start hpool hhistory)
      fun s op t h _ hstep => h.step hstep
  exact (hattested.loaded now state hload).bots botId bot hbot

theorem pool_file_attested_issued :
    ∃ after state bot, Run (PoolSystem.step pairedDigests) (fun _ _ => True) {} (pairing.take 2)
        after ∧ after.disk.load (1020 * second) = .ok state ∧
      state.bots.lookup "5f0c9a3e7d214b86" = some (.live bot) ∧ bot.pending.rows ≠ [] ∧
      BotAttested pairedDigests after.history "5f0c9a3e7d214b86" bot := by
  have hruns : (execOk (PoolSystem.step pairedDigests) (fun _ _ => True) {} (pairing.take 2)).map
      (fun after => (after.disk.load (1020 * second)).map fun state =>
        (state.liveEntry "5f0c9a3e7d214b86").map (·.pending.rows.length)) =
      some (.ok (.ok 1)) := by
    decide +kernel
  obtain ⟨after, hafter, hload⟩ := Option.map_eq_some_iff.mp hruns
  obtain ⟨state, hstate, hentry⟩ := Except.map_ok_iff.mp hload
  have hrun := Run.of_execOk hafter
  obtain ⟨bot, hbot, hcount⟩ := Except.map_ok_iff.mp hentry
  have hlookup := PoolState.liveEntry_ok hbot
  refine ⟨after, state, bot, hrun, hstate, hlookup, fun hnil => by simp [hnil] at hcount, ?_⟩
  exact pool_file_attested rfl rfl hrun _ state hstate _ bot hlookup

end ClaudeHub
