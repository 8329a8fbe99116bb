import ClaudeHub.BotPool.Run
import ClaudeHub.Lib.Except

/-! # What a saved call does to the pool

Pruning and the environment change the state before a call looks at it; the call then
changes one Bot. `BotMove` lists what may happen to that Bot, with the checks under which
it does, and everything that is proved about runs is proved for these changes.
-/

namespace ClaudeHub

/-- Nothing is paired and nothing waits to be. -/
structure LiveBot.Bare (bot : LiveBot) : Prop where
  pending : bot.pending = Table.empty
  claims : bot.claims = Table.empty
  binding : bot.binding = none

/-- No more than the expired codes and claims are lost. -/
structure LiveBot.Within (bot next : LiveBot) : Prop where
  generation : next.generation = bot.generation
  pending : ∀ digest value, next.pending.lookup digest = some value →
    bot.pending.lookup digest = some value
  claims : ∀ pairingId value, next.claims.lookup pairingId = some value →
    bot.claims.lookup pairingId = some value
  binding : next.binding = bot.binding

theorem LiveBot.Within.refl (bot : LiveBot) : bot.Within bot :=
  ⟨rfl, fun _ _ h => h, fun _ _ h => h, rfl⟩

theorem LiveBot.within_prune (bot : LiveBot) (now : Time) : bot.Within (bot.prune now) where
  generation := rfl
  pending := fun digest value h => by
    rw [prune, Dict.lookup_filter] at h
    exact (Option.filter_eq_some_iff.mp h).1
  claims := fun pairingId value h => by
    rw [prune, Dict.lookup_filter] at h
    exact (Option.filter_eq_some_iff.mp h).1
  binding := rfl

theorem LiveBot.prune_unexpired {bot : LiveBot} {now : Time} {pairingId : PairingId}
    {value : StoredClaim} (h : (bot.prune now).claims.lookup pairingId = some value) :
    now < value.expiresAt := by
  rw [prune, Dict.lookup_filter] at h
  have hkept := (Option.filter_eq_some_iff.mp h).2
  exact (of_decide_eq_true hkept).1

/-- The app identity and the pairing state are kept. -/
structure LiveBot.Keeps (bot next : LiveBot) : Prop where
  appId : next.appId = bot.appId
  revision : bot.revision ≤ next.revision
  generation : next.generation = bot.generation
  pending : next.pending = bot.pending
  claims : next.claims = bot.claims
  binding : next.binding = bot.binding

/-- The generation advances and nothing is left of the pairing state. -/
structure LiveBot.Advances (bot next : LiveBot) : Prop where
  revision : bot.revision ≤ next.revision
  generation : next.generation = bot.generation + 1
  pending : next.pending = Table.empty
  claims : next.claims = Table.empty
  binding : next.binding = none

/-- What a saved call does to the live Bot that it is about. -/
inductive BotMove (digests : PairingDigests) (botId : BotId) (now : Time) (bot : LiveBot) :
    PoolNote → BotRecord → Prop
  | kept {next : LiveBot} (hkeeps : bot.Keeps next) :
      BotMove digests botId now bot .edited (.live next)
  | advanced {next : LiveBot} (happId : next.appId = bot.appId) (hadvances : bot.Advances next) :
      BotMove digests botId now bot .edited (.live next)
  | deleted :
      BotMove digests botId now bot .edited
        (.revoked ⟨bot.revision + 1, bot.generation + 1, now⟩)
  | issued (code : String) (record : PendingCode) (hgeneration : record.generation = bot.generation) :
      BotMove digests botId now bot (.issued code record)
        (.live ({ bot with
          pending := bot.pending.set (digests.code botId code) record }.touch now))
  | spent (digest : String) :
      BotMove digests botId now bot .spent
        (.live { bot with pending := bot.pending.erase digest })
  | claimed (code word : String) (pairingId : PairingId) (value : PendingCode)
      (record : StoredClaim)
      (hvalue : bot.pending.lookup (digests.code botId code) = some value)
      (hlive : now < value.expiresAt) (howner : record.owner = value.owner)
      (htab : record.tabId = value.tabId) (hgeneration : record.generation = bot.generation)
      (hword : record.confirmDigest = digests.confirm botId pairingId word)
      (hattempts : record.confirmAttempts = 0) :
      BotMove digests botId now bot (.claimed code word pairingId record)
        (.live ({ bot with
          pending := bot.pending.erase (digests.code botId code)
          claims := bot.claims.set pairingId record }.touch now))
  | missed (pairingId : PairingId) (value : StoredClaim)
      (hvalue : bot.claims.lookup pairingId = some value) :
      BotMove digests botId now bot (.missed pairingId)
        (.live ({ bot with
          claims := PoolState.missClaim bot.claims pairingId value }.touch now))
  | activated (pairingId : PairingId) (actor : OwnerIdentity) (word : String)
      (value : StoredClaim) (binding : StoredBinding)
      (hvalue : bot.claims.lookup pairingId = some value)
      (hactor : actor.kind = value.owner.kind ∧ actor.openId = value.owner.openId)
      (hword : value.confirmDigest = digests.confirm botId pairingId word)
      (hfree : bot.binding = none) (howner : binding.owner = value.owner)
      (htab : binding.tabId = value.tabId) (hsender : binding.senderOpenId = value.senderOpenId)
      (hchat : binding.chatId = value.chatId) (hgeneration : binding.generation = bot.generation) :
      BotMove digests botId now bot (.activated pairingId actor word)
        (.live ({ bot with
          binding := some binding, claims := Table.empty, pending := Table.empty }.touch now))

/-- What a call saves. A new Bot has an app id of its own, and a Bot is bound to a tab that
no other Bot is bound to. -/
inductive PoolChange (digests : PairingDigests) (state : PoolState) (botId : BotId) (now : Time) :
    PoolNote → PoolState → Prop
  | same : PoolChange digests state botId now .edited state
  | created (bot : LiveBot) (hfree : state.bots.lookup botId = none)
      (happId : ¬ state.UsesAppId bot.appId none) (hpending : bot.pending = Table.empty)
      (hclaims : bot.claims = Table.empty) (hbinding : bot.binding = none) :
      PoolChange digests state botId now .edited (state.setRecord botId (.live bot))
  | moved {bot : LiveBot} {record : BotRecord} {note : PoolNote}
      (hbot : state.bots.lookup botId = some (.live bot))
      (hmove : BotMove digests botId now bot note record)
      (hissued : ∀ code value, note ≠ .issued code value)
      (htab : ∀ tabId, record.boundTab? = some tabId →
        bot.binding.map StoredBinding.tabId = some tabId ∨ ¬ state.BindsTab tabId botId) :
      PoolChange digests state botId now note (state.setRecord botId record)
  | issued {bot : LiveBot} (code : String) (record : PendingCode)
      (hbot : state.bots.lookup botId = some (.live bot))
      (hgeneration : record.generation = bot.generation) (hissuedAt : record.issuedAt = now)
      (hrate : ((state.rateLimits.lookup record.owner.openId).getD []).length < rateMax) :
      PoolChange digests state botId now (.issued code record)
        { state.setRecord botId (.live ({ bot with
            pending := bot.pending.set (digests.code botId code) record }.touch now)) with
          rateLimits := state.rateLimits.set record.owner.openId
            ((state.rateLimits.lookup record.owner.openId).getD [] ++ [now]) }

/-! ## The calls -/

namespace PoolOutcome

variable {α β : Type} {next : PoolState} {note : PoolNote}

theorem check_saved {passed : Except PoolError β} {rest : β → PoolOutcome α}
    (h : (check passed rest).saved = some (next, note)) :
    ∃ value, passed = .ok value ∧ (rest value).saved = some (next, note) := by
  cases passed with
  | error => contradiction
  | ok value => exact ⟨value, rfl, h⟩

theorem saves_saved {state : PoolState} {note' : PoolNote} {result : Except PoolError α}
    (h : (saves state note' result).saved = some (next, note)) : state = next ∧ note' = note := by
  simpa [saved] using h

end PoolOutcome

theorem asText_ok {value name text : String} {limit : Nat} (h : asText value name limit = .ok text) :
    text = value := by
  unfold asText at h
  split at h
  · contradiction
  · exact (Except.ok.inj h).symm

theorem ownerFromDict_ok {owner result : OwnerIdentity} {name : String}
    (h : ownerFromDict owner name = .ok result) : result = owner := by
  unfold ownerFromDict at h
  split at h
  · contradiction
  · obtain ⟨_, -, rfl⟩ := Except.map_ok_iff.mp h
    rfl

theorem compareDigest_ok {left right : String} (h : compareDigest left right = .ok true) :
    left = right := by
  unfold compareDigest at h
  split at h
  · simpa using h
  · contradiction

theorem ownsPairing_ok {owner actor : OwnerIdentity}
    (h : PoolState.ownsPairing owner actor = .ok true) :
    actor.kind = owner.kind ∧ actor.openId = owner.openId := by
  unfold PoolState.ownsPairing at h
  split at h
  · simp at h
  · rename_i hkind
    exact ⟨(not_not.mp hkind).symm, (compareDigest_ok h).symm⟩

namespace PoolState

variable {digests : PairingDigests} {state next : PoolState} {botId : BotId} {now : Time}
  {note : PoolNote} {bot : LiveBot}

theorem liveEntry_ok (h : state.liveEntry botId = .ok bot) :
    state.bots.lookup botId = some (.live bot) := by
  unfold liveEntry at h
  split at h
  · rename_i hbot
    rw [hbot, Except.ok.inj h]
  · contradiction

variable {expected : Nat}

theorem revised_ok (h : state.revised botId expected = .ok bot) :
    state.bots.lookup botId = some (.live bot) := by
  obtain ⟨found, hfound, hrest⟩ := Except.bind_ok_iff.mp h
  obtain ⟨_, -, hsame⟩ := Except.bind_ok_iff.mp hrest
  obtain rfl := Except.pure_ok_iff.mp hsame
  exact liveEntry_ok hfound

theorem requireAppIdFree_ok {appId : String} {exclude : Option BotId}
    (h : state.requireAppIdFree appId exclude = .ok ()) : ¬ state.UsesAppId appId exclude := by
  unfold requireAppIdFree at h
  split at h
  · contradiction
  · assumption

variable {tabId : TabId}

theorem requireTabFree_ok (h : state.requireTabFree tabId botId = .ok ()) :
    ¬ state.BindsTab tabId botId := by
  unfold requireTabFree at h
  split at h
  · contradiction
  · assumption

theorem change_unbound {record : BotRecord} (hbot : state.bots.lookup botId = some (.live bot))
    (hmove : BotMove digests botId now bot note record)
    (hissued : ∀ code value, note ≠ .issued code value)
    (hbinding : ∀ tabId, record.boundTab? = some tabId →
      bot.binding.map StoredBinding.tabId = some tabId) :
    PoolChange digests state botId now note (state.setRecord botId record) :=
  .moved hbot hmove hissued fun tabId htab => .inl (hbinding tabId htab)

variable {profile : FeishuProfile}

theorem createBot_change {name : String} {config : FeishuBotConfig}
    (hfree : state.idTaken botId = false)
    (h : (state.createBot name config profile botId now).saved = some (next, note)) :
    PoolChange digests state botId now note next := by
  unfold createBot at h
  split at h
  · contradiction
  obtain ⟨_, hunused, h⟩ := PoolOutcome.check_saved h
  obtain ⟨rfl, rfl⟩ := PoolOutcome.saves_saved h
  refine .created _ ?_ (requireAppIdFree_ok hunused) rfl rfl rfl
  simp only [idTaken, Bool.or_eq_false_iff] at hfree
  simpa using hfree.1.1

theorem rotateSecrets_change {appSecret : String}
    (h : (state.rotateSecrets botId appSecret profile expected now).saved = some (next, note)) :
    PoolChange digests state botId now note next := by
  obtain ⟨bot, hbot, h⟩ := PoolOutcome.check_saved h
  split at h
  · contradiction
  obtain ⟨_, -, h⟩ := PoolOutcome.check_saved h
  obtain ⟨rfl, rfl⟩ := PoolOutcome.saves_saved h
  exact change_unbound (liveEntry_ok hbot) (.kept ⟨rfl, Nat.le_succ _, rfl, rfl, rfl, rfl⟩)
    (by simp) fun _ htab => htab

theorem configureCallbacks_change {callbackEnabled : Bool}
    {verificationToken encryptKey expectedTenantKey : Option String}
    (h : (state.configureCallbacks botId callbackEnabled verificationToken encryptKey
        expectedTenantKey expected now).saved = some (next, note)) :
    PoolChange digests state botId now note next := by
  obtain ⟨bot, hbot, h⟩ := PoolOutcome.check_saved h
  obtain ⟨callbacks, -, h⟩ := PoolOutcome.check_saved h
  obtain ⟨rfl, rfl⟩ := PoolOutcome.saves_saved h
  exact change_unbound (revised_ok hbot) (.kept ⟨rfl, Nat.le_succ _, rfl, rfl, rfl, rfl⟩)
    (by simp) fun _ htab => htab

theorem updateProfile_change
    (h : (state.updateProfile botId profile expected now).saved = some (next, note)) :
    PoolChange digests state botId now note next := by
  obtain ⟨bot, hbot, h⟩ := PoolOutcome.check_saved h
  split at h
  · contradiction
  obtain ⟨rfl, rfl⟩ := PoolOutcome.saves_saved h
  exact change_unbound (revised_ok hbot) (.kept ⟨rfl, Nat.le_refl _, rfl, rfl, rfl, rfl⟩)
    (by simp) fun _ htab => htab

theorem advanceGeneration_advances (bot : LiveBot) (now : Time) :
    bot.Advances (bot.advanceGeneration.touch now) :=
  ⟨Nat.le_succ _, rfl, rfl, rfl, rfl⟩

theorem updateBot_change {name : Option String} {enabled : Option Bool}
    (h : (state.updateBot botId name enabled expected now).saved = some (next, note)) :
    PoolChange digests state botId now note next := by
  obtain ⟨bot, hbot, h⟩ := PoolOutcome.check_saved h
  obtain ⟨rfl, rfl⟩ := PoolOutcome.saves_saved h
  have hlive := revised_ok hbot
  cases enabled with
  | none =>
    exact change_unbound hlive (.kept ⟨rfl, Nat.le_succ _, rfl, rfl, rfl, rfl⟩)
      (by simp) fun _ htab => htab
  | some =>
    dsimp only
    split
    · exact change_unbound hlive (.kept ⟨rfl, Nat.le_succ _, rfl, rfl, rfl, rfl⟩)
        (by simp) fun _ htab => htab
    split
    · exact change_unbound hlive (.kept ⟨rfl, Nat.le_succ _, rfl, rfl, rfl, rfl⟩)
        (by simp) fun _ htab => htab
    · exact change_unbound hlive (.advanced rfl ⟨Nat.le_succ _, rfl, rfl, rfl, rfl⟩)
        (by simp) fun _ htab => by contradiction

theorem deleteBot_change (h : (state.deleteBot botId expected now).saved = some (next, note)) :
    PoolChange digests state botId now note next := by
  obtain ⟨bot, hbot, h⟩ := PoolOutcome.check_saved h
  split at h
  · contradiction
  obtain ⟨_, -, h⟩ := PoolOutcome.check_saved h
  obtain ⟨rfl, rfl⟩ := PoolOutcome.saves_saved h
  exact change_unbound (liveEntry_ok hbot) .deleted (by simp) fun _ htab => by contradiction

theorem issueCode_change {owner : OwnerIdentity} {workspaceId : Option String} {code : String}
    (h : (issueCode digests state botId owner tabId workspaceId expected code now).saved =
        some (next, note)) :
    PoolChange digests state botId now note next := by
  obtain ⟨bot, hbot, h⟩ := PoolOutcome.check_saved h
  split at h
  · contradiction
  split at h
  · contradiction
  obtain ⟨_, -, h⟩ := PoolOutcome.check_saved h
  dsimp only at h
  split at h
  · obtain ⟨rfl, rfl⟩ := PoolOutcome.saves_saved h
    exact .same
  rename_i hrate
  split at h
  · contradiction
  obtain ⟨rfl, rfl⟩ := PoolOutcome.saves_saved h
  refine .issued code _ (revised_ok hbot) rfl rfl ?_
  exact not_le.mp hrate

variable {pairingId : PairingId}

theorem claimCode_change {code senderOpenId chatId : String} {word : String}
    (h : (claimCode digests state botId code senderOpenId chatId pairingId word now).saved =
        some (next, note)) :
    PoolChange digests state botId now note next := by
  obtain ⟨bot, hbot, h⟩ := PoolOutcome.check_saved h
  have hlive := liveEntry_ok hbot
  have hspent : PoolChange digests state botId now .spent (state.setRecord botId
      (.live { bot with pending := bot.pending.erase (digests.code botId code) })) :=
    change_unbound hlive (.spent _) (by simp) fun _ htab => htab
  split at h
  · contradiction
  split at h
  · contradiction
  rename_i value hvalue
  dsimp only at h
  split at h
  · obtain ⟨rfl, rfl⟩ := PoolOutcome.saves_saved h
    exact hspent
  rename_i hexpires
  split at h
  · obtain ⟨rfl, rfl⟩ := PoolOutcome.saves_saved h
    exact hspent
  split at h
  · obtain ⟨rfl, rfl⟩ := PoolOutcome.saves_saved h
    exact hspent
  obtain ⟨owner, howner, h⟩ := PoolOutcome.check_saved h
  obtain ⟨rfl, rfl⟩ := PoolOutcome.saves_saved h
  obtain rfl := ownerFromDict_ok howner
  exact change_unbound hlive
    (.claimed code word pairingId value _ hvalue (not_le.mp hexpires) rfl rfl rfl rfl rfl)
    (by simp) fun _ htab => htab

theorem activateClaim_change {confirmWord : String} {actor : OwnerIdentity} {bindingId : PairingId}
    (h : (activateClaim digests state botId pairingId confirmWord actor expected bindingId
        now).saved = some (next, note)) :
    PoolChange digests state botId now note next := by
  obtain ⟨bot, hbot, h⟩ := PoolOutcome.check_saved h
  have hlive := revised_ok hbot
  split at h
  · contradiction
  split at h
  · contradiction
  rename_i value hvalue
  obtain ⟨owner, howner, h⟩ := PoolOutcome.check_saved h
  obtain rfl := ownerFromDict_ok howner
  obtain ⟨owned, howned, h⟩ := PoolOutcome.check_saved h
  split at h
  · contradiction
  rename_i hactor
  obtain rfl : owned = true := by simpa using hactor
  obtain ⟨same, hsame, h⟩ := PoolOutcome.check_saved h
  split at h
  · obtain ⟨rfl, rfl⟩ := PoolOutcome.saves_saved h
    exact change_unbound hlive (.missed pairingId value hvalue) (by simp) fun _ htab => htab
  rename_i hword
  obtain rfl : same = true := by simpa using hword
  split at h
  · contradiction
  rename_i hfree
  obtain ⟨tabId, htabId, h⟩ := PoolOutcome.check_saved h
  obtain rfl := asText_ok htabId
  obtain ⟨_, htab, h⟩ := PoolOutcome.check_saved h
  obtain ⟨rfl, rfl⟩ := PoolOutcome.saves_saved h
  refine .moved hlive (.activated pairingId actor confirmWord value _ hvalue
    (ownsPairing_ok howned) (compareDigest_ok hsame) (by simpa using hfree) rfl rfl rfl rfl rfl)
    (by simp) fun tab hbound => .inr ?_
  obtain rfl : value.tabId = tab := Option.some.inj hbound
  exact requireTabFree_ok htab

theorem releaseBinding_change
    (h : (state.releaseBinding botId expected now).saved = some (next, note)) :
    PoolChange digests state botId now note next := by
  obtain ⟨bot, hbot, h⟩ := PoolOutcome.check_saved h
  obtain ⟨_, -, h⟩ := PoolOutcome.check_saved h
  obtain ⟨rfl, rfl⟩ := PoolOutcome.saves_saved h
  exact change_unbound (revised_ok hbot) (.advanced rfl (advanceGeneration_advances bot now))
    (by simp) fun _ htab => by contradiction

theorem dropBinding_change (h : (state.dropBinding botId pairingId now).saved = some (next, note)) :
    PoolChange digests state botId now note next := by
  unfold dropBinding at h
  split at h
  · rename_i bot hbot
    split at h
    · obtain ⟨rfl, rfl⟩ := PoolOutcome.saves_saved h
      exact change_unbound hbot (.advanced rfl (advanceGeneration_advances bot now))
        (by simp) fun _ htab => by contradiction
    · contradiction
  · contradiction

theorem usesAppId_iff {appId : String} {exclude : Option BotId} :
    state.UsesAppId appId exclude ↔
      ∃ other record, state.bots.lookup other = some record ∧ some other ≠ exclude ∧
        record.appId? = some appId := by
  constructor
  · rintro ⟨⟨other, record⟩, hmem, hother, happId⟩
    exact ⟨other, record, Dict.lookup_eq_some.mpr hmem, hother, happId⟩
  · rintro ⟨other, record, hlookup, hother, happId⟩
    exact ⟨(other, record), Dict.lookup_eq_some.mp hlookup, hother, happId⟩

theorem bindsTab_iff :
    state.BindsTab tabId botId ↔
      ∃ other record, state.bots.lookup other = some record ∧ other ≠ botId ∧
        record.boundTab? = some tabId := by
  constructor
  · rintro ⟨⟨other, record⟩, hmem, hother, htab⟩
    exact ⟨other, record, Dict.lookup_eq_some.mpr hmem, hother, htab⟩
  · rintro ⟨other, record, hlookup, hother, htab⟩
    exact ⟨(other, record), Dict.lookup_eq_some.mp hlookup, hother, htab⟩

theorem setRecord_lookup (state : PoolState) (botId other : BotId) (record : BotRecord) :
    (state.setRecord botId record).bots.lookup other =
      if other = botId then some record else state.bots.lookup other :=
  Dict.lookup_set _ _ _ _

theorem prune_lookup (state : PoolState) (now : Time) (botId : BotId) :
    (state.prune now).bots.lookup botId =
      ((state.bots.lookup botId).filter fun record => !record.expired now).map
        fun record => record.prune now := by
  refine (Dict.lookup_map _ (fun entry : BotId × BotRecord => entry.2.prune now) botId).trans ?_
  rw [Dict.lookup_filter]

theorem prune_live (h : (state.prune now).bots.lookup botId = some (.live bot)) :
    ∃ before, state.bots.lookup botId = some (.live before) ∧ bot = before.prune now := by
  rw [prune_lookup] at h
  obtain ⟨record, hrecord, hpruned⟩ := Option.map_eq_some_iff.mp h
  obtain ⟨hlookup, -⟩ := Option.filter_eq_some_iff.mp hrecord
  cases record with
  | revoked => contradiction
  | live before => exact ⟨before, hlookup, (BotRecord.live.inj hpruned).symm⟩

theorem acceptedAppId_spec (state : PoolState) (environ : Environ) :
    state.acceptedAppId environ = "" ∨
      ¬ state.UsesAppId (state.acceptedAppId environ) (some envBotId) := by
  unfold acceptedAppId
  split
  · exact .inl rfl
  · split
    · exact .inl rfl
    · exact .inr (by assumption)

/-- What the environment does to the pool: nothing, or it adds its Bot, or it takes the
authority of its Bot away. -/
inductive Synced (state : PoolState) : PoolState → Prop
  | same : Synced state state
  | added (bot : LiveBot) (hfree : state.bots.lookup envBotId = none)
      (happId : bot.appId = "" ∨ ¬ state.UsesAppId bot.appId (some envBotId))
      (hpending : bot.pending = Table.empty) (hclaims : bot.claims = Table.empty)
      (hbinding : bot.binding = none) : Synced state (state.setRecord envBotId (.live bot))
  | advanced {bot : LiveBot} (next : LiveBot)
      (hbot : state.bots.lookup envBotId = some (.live bot))
      (happId : next.appId = "" ∨ ¬ state.UsesAppId next.appId (some envBotId))
      (hadvances : bot.Advances next) : Synced state (state.setRecord envBotId (.live next))

theorem syncEnvEntry_synced (state : PoolState) (environ : Environ) (now : Time) :
    state.Synced (state.syncEnvEntry environ now).1 := by
  have happId := state.acceptedAppId_spec environ
  unfold syncEnvEntry
  dsimp only
  split
  · rename_i hfree
    split
    · exact .added _ hfree happId rfl rfl rfl
    · exact .same
  · exact .same
  · rename_i bot hbot
    split
    · exact .same
    · exact .advanced _ hbot happId ⟨Nat.le_succ _, rfl, rfl, rfl, rfl⟩

theorem Synced.live {ready : PoolState} (hsynced : state.Synced ready)
    (h : ready.bots.lookup botId = some (.live bot)) :
    bot.Bare ∨ state.bots.lookup botId = some (.live bot) := by
  cases hsynced with
  | same => exact .inr h
  | added new hfree happId hpending hclaims hbinding =>
    rw [setRecord_lookup] at h
    split at h
    · obtain rfl : new = bot := BotRecord.live.inj (Option.some.inj h)
      exact .inl ⟨hpending, hclaims, hbinding⟩
    · exact .inr h
  | advanced new hbot happId hadvances =>
    rw [setRecord_lookup] at h
    split at h
    · obtain rfl : new = bot := BotRecord.live.inj (Option.some.inj h)
      exact .inl ⟨hadvances.pending, hadvances.claims, hadvances.binding⟩
    · exact .inr h

theorem Synced.rateLimits {ready : PoolState} (hsynced : state.Synced ready) :
    ready.rateLimits = state.rateLimits := by
  cases hsynced with
  | _ => rfl

theorem prepare_unexpired {environ : Environ} {value : StoredClaim}
    (h : (state.prepare environ now).bots.lookup botId = some (.live bot))
    (hvalue : bot.claims.lookup pairingId = some value) : now < value.expiresAt := by
  rcases ((state.prune now).syncEnvEntry_synced environ now).live h with hbare | hkept
  · simp [hbare.claims] at hvalue
  · obtain ⟨before, -, rfl⟩ := prune_live hkept
    exact LiveBot.prune_unexpired hvalue

theorem change_live {other : BotId} {next' : LiveBot}
    (hchange : PoolChange digests state botId now note next)
    (h : next.bots.lookup other = some (.live next')) :
    (next'.Bare ∧ note = .edited) ∨
      ((other ≠ botId ∨ note = .edited) ∧ state.bots.lookup other = some (.live next')) ∨
      (other = botId ∧ ∃ bot, state.bots.lookup botId = some (.live bot) ∧
        BotMove digests botId now bot note (.live next')) := by
  cases hchange with
  | same => exact .inr (.inl ⟨.inr rfl, h⟩)
  | created bot hfree happId hpending hclaims hbinding =>
    rw [setRecord_lookup] at h
    split at h
    · obtain rfl : bot = next' := BotRecord.live.inj (Option.some.inj h)
      exact .inl ⟨⟨hpending, hclaims, hbinding⟩, rfl⟩
    · exact .inr (.inl ⟨.inr rfl, h⟩)
  | moved hbot hmove =>
    rw [setRecord_lookup] at h
    split at h
    · cases h
      exact .inr (.inr ⟨by assumption, _, hbot, hmove⟩)
    · exact .inr (.inl ⟨.inl (by assumption), h⟩)
  | issued code record hbot hgeneration =>
    have hlookup := (setRecord_lookup state botId other _).symm.trans h
    split at hlookup
    · obtain rfl := BotRecord.live.inj (Option.some.inj hlookup)
      exact .inr (.inr ⟨by assumption, _, hbot, .issued code record hgeneration⟩)
    · exact .inr (.inl ⟨.inl (by assumption), hlookup⟩)

end PoolState

theorem PoolCall.saved_note {digests : PairingDigests} {call : PoolCall}
    {state next : PoolState} {environ : Environ} {now : Time} {note : PoolNote}
    (h : call.saved digests state environ now = some (next, note)) :
    note = .edited ∨ call.ready state environ now = state.prepare environ now := by
  cases call with
  | dropBinding botId pairingId =>
    have hsaved : (state.dropBinding botId pairingId now).saved = some (next, note) := h
    unfold PoolState.dropBinding at hsaved
    split at hsaved
    · split at hsaved
      · exact .inl (PoolOutcome.saves_saved hsaved).2.symm
      · contradiction
    · contradiction
  | read =>
    have hsaved : (state.synced environ now fun _ => .ok ()).saved = some (next, note) := h
    unfold PoolState.synced at hsaved
    dsimp only at hsaved
    split at hsaved
    · exact .inl (PoolOutcome.saves_saved hsaved).2.symm
    · contradiction
  | _ => exact .inr rfl

theorem PoolCall.ready_cases (call : PoolCall) (state : PoolState) (environ : Environ)
    (now : Time) :
    state.Synced (call.ready state environ now) ∨
      (state.prune now).Synced (call.ready state environ now) := by
  cases call with
  | dropBinding => exact .inl .same
  | read => exact .inl (state.syncEnvEntry_synced environ now)
  | _ => exact .inr ((state.prune now).syncEnvEntry_synced environ now)

theorem PoolCall.ready_live {call : PoolCall} {state : PoolState} {environ : Environ}
    {now : Time} {botId : BotId} {next : LiveBot}
    (h : (call.ready state environ now).bots.lookup botId = some (.live next)) :
    next.Bare ∨ ∃ bot, state.bots.lookup botId = some (.live bot) ∧ bot.Within next := by
  rcases call.ready_cases state environ now with hsynced | hsynced
  · rcases hsynced.live h with hbare | hkept
    · exact .inl hbare
    · exact .inr ⟨next, hkept, .refl next⟩
  · rcases hsynced.live h with hbare | hkept
    · exact .inl hbare
    · obtain ⟨bot, hbot, rfl⟩ := PoolState.prune_live hkept
      exact .inr ⟨bot, hbot, bot.within_prune now⟩

theorem PoolCall.saved_change {digests : PairingDigests} {call : PoolCall}
    {state next : PoolState} {environ : Environ} {now : Time} {note : PoolNote}
    (hdrawn : call.drawn (call.ready state environ now) = true)
    (h : call.saved digests state environ now = some (next, note)) :
    PoolChange digests (call.ready state environ now) call.botId now note next := by
  cases call with
  | createBot =>
    exact PoolState.createBot_change (by simpa [drawn, botId] using hdrawn) h
  | rotateSecrets => exact PoolState.rotateSecrets_change h
  | configureCallbacks => exact PoolState.configureCallbacks_change h
  | updateProfile => exact PoolState.updateProfile_change h
  | updateBot => exact PoolState.updateBot_change h
  | deleteBot => exact PoolState.deleteBot_change h
  | issueCode => exact PoolState.issueCode_change h
  | claimCode => exact PoolState.claimCode_change h
  | activateClaim => exact PoolState.activateClaim_change h
  | releaseBinding => exact PoolState.releaseBinding_change h
  | dropBinding => exact PoolState.dropBinding_change h
  | read =>
    have hsaved : (state.synced environ now fun _ => .ok ()).saved = some (next, note) := h
    unfold PoolState.synced at hsaved
    dsimp only at hsaved
    split at hsaved
    · obtain ⟨rfl, rfl⟩ := PoolOutcome.saves_saved hsaved
      exact .same
    · contradiction

namespace PoolSystem

variable {digests : PairingDigests} {system after : PoolSystem} {op : PoolOp}

/-- What a step does: only the clock goes on, or a call has saved. -/
inductive Stepped (digests : PairingDigests) (system : PoolSystem) (op : PoolOp) :
    PoolSystem → Prop
  | unsaved : Stepped digests system op { system with clock := op.now }
  | saved {state next : PoolState} {note : PoolNote} (hload : system.disk.load op.now = .ok state)
      (hchange : PoolChange digests (op.call.ready state op.environ op.now) op.call.botId op.now
        note next)
      (hpruned : note = .edited ∨
        op.call.ready state op.environ op.now = state.prepare op.environ op.now) :
      Stepped digests system op {
        disk := { system.disk with pool := some next.numbered }
        clock := op.now
        history := record digests system.history state (op.call.ready state op.environ op.now)
          next op.call.botId note op.now }

theorem step_stepped (h : system.step digests op = some after) :
    Stepped digests system op after := by
  unfold step at h
  split at h
  · cases h
    exact .unsaved
  rename_i state hload
  dsimp only at h
  split at h
  · contradiction
  rename_i hdrawn
  split at h
  · cases h
    exact .unsaved
  rename_i next note hsaved
  split at h
  · cases h
    exact .unsaved
  · cases h
    exact .saved hload (PoolCall.saved_change (by simpa using hdrawn) hsaved)
      (PoolCall.saved_note hsaved)

end PoolSystem

end ClaudeHub
