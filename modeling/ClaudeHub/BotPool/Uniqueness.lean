import ClaudeHub.BotPool.Moves

/-! # What the records of the pool never lose

The app ids and the tabs of the live Bots are told apart, claims and bindings carry the
generation of their Bot, and a record that is kept only moves on: its counters grow and a
tombstone stays one.
-/

namespace ClaudeHub

/-! ## Uniqueness -/

/-- The binding and the claims of a Bot carry its generation. -/
structure LiveBot.Stamped (bot : LiveBot) : Prop where
  binding : ∀ binding, bot.binding = some binding → binding.generation = bot.generation
  claims : ∀ pairingId claim, bot.claims.lookup pairingId = some claim →
    claim.generation = bot.generation

namespace PoolState

variable {digests : PairingDigests} {state next ready : PoolState} {botId : BotId} {now : Time}
  {note : PoolNote} {bot : LiveBot} {record : BotRecord}

structure Unique (state : PoolState) : Prop where
  appIds : ∀ botId other record otherRecord appId, state.bots.lookup botId = some record →
    state.bots.lookup other = some otherRecord → record.appId? = some appId →
      otherRecord.appId? = some appId → appId ≠ "" → botId = other
  tabs : ∀ botId other record otherRecord tabId, state.bots.lookup botId = some record →
    state.bots.lookup other = some otherRecord → record.boundTab? = some tabId →
      otherRecord.boundTab? = some tabId → botId = other
  stamped : ∀ botId bot, state.bots.lookup botId = some (.live bot) → bot.Stamped

theorem Unique.setRecord (h : state.Unique)
    (happId : ∀ appId, record.appId? = some appId → appId ≠ "" →
      ¬ state.UsesAppId appId (some botId))
    (htab : ∀ tabId, record.boundTab? = some tabId → ¬ state.BindsTab tabId botId)
    (hstamped : ∀ bot, record = .live bot → bot.Stamped) :
    (state.setRecord botId record).Unique := by
  refine ⟨?_, ?_, ?_⟩
  · intro id other r r' appId hr hr' hid hid' hne
    rw [setRecord_lookup] at hr hr'
    split at hr <;> split at hr'
    · simp_all
    · rename_i heq hother
      cases hr
      exact absurd (usesAppId_iff.mpr ⟨other, r', hr', by simpa using hother, hid'⟩)
        (happId appId hid hne)
    · rename_i hother heq
      cases hr'
      exact absurd (usesAppId_iff.mpr ⟨id, r, hr, by simpa using hother, hid⟩)
        (happId appId hid' hne)
    · exact h.appIds id other r r' appId hr hr' hid hid' hne
  · intro id other r r' tabId hr hr' hid hid'
    rw [setRecord_lookup] at hr hr'
    split at hr <;> split at hr'
    · simp_all
    · rename_i heq hother
      cases hr
      exact absurd (bindsTab_iff.mpr ⟨other, r', hr', hother, hid'⟩) (htab tabId hid)
    · rename_i hother heq
      cases hr'
      exact absurd (bindsTab_iff.mpr ⟨id, r, hr, hother, hid⟩) (htab tabId hid')
    · exact h.tabs id other r r' tabId hr hr' hid hid'
  · intro id bot hbot
    rw [setRecord_lookup] at hbot
    split at hbot
    · exact hstamped bot (Option.some.inj hbot)
    · exact h.stamped id bot hbot

theorem Unique.appId_free (h : state.Unique) (hbot : state.bots.lookup botId = some record)
    {appId : String} (happId : record.appId? = some appId) (hne : appId ≠ "") :
    ¬ state.UsesAppId appId (some botId) := by
  intro huses
  obtain ⟨other, otherRecord, hlookup, hother, hid⟩ := usesAppId_iff.mp huses
  exact hother (congrArg some (h.appIds _ _ _ _ _ hlookup hbot hid happId hne))

theorem Unique.tab_free (h : state.Unique) (hbot : state.bots.lookup botId = some record)
    {tabId : TabId} (htab : record.boundTab? = some tabId) : ¬ state.BindsTab tabId botId := by
  intro hbinds
  obtain ⟨other, otherRecord, hlookup, hother, hid⟩ := bindsTab_iff.mp hbinds
  exact hother (h.tabs _ _ _ _ _ hlookup hbot hid htab)

theorem stamped_bare (hclaims : bot.claims = Table.empty) (hbinding : bot.binding = none) :
    bot.Stamped := by
  constructor
  · simp [hbinding]
  · simp [hclaims]

theorem Unique.prune (h : state.Unique) (now : Time) : (state.prune now).Unique := by
  have hrecord : ∀ botId record, (state.prune now).bots.lookup botId = some record →
      ∃ before, state.bots.lookup botId = some before ∧ record.appId? = before.appId? ∧
        record.boundTab? = before.boundTab? := by
    intro botId record hlookup
    rw [prune_lookup] at hlookup
    obtain ⟨before, hbefore, rfl⟩ := Option.map_eq_some_iff.mp hlookup
    refine ⟨before, (Option.filter_eq_some_iff.mp hbefore).1, ?_⟩
    cases before <;> exact ⟨rfl, rfl⟩
  refine ⟨?_, ?_, ?_⟩
  · intro botId other record otherRecord appId hlookup hother hid hid' hne
    obtain ⟨before, hbefore, hsame, -⟩ := hrecord botId record hlookup
    obtain ⟨before', hbefore', hsame', -⟩ := hrecord other otherRecord hother
    exact h.appIds _ _ _ _ _ hbefore hbefore' (hsame ▸ hid) (hsame' ▸ hid') hne
  · intro botId other record otherRecord tabId hlookup hother hid hid'
    obtain ⟨before, hbefore, -, hsame⟩ := hrecord botId record hlookup
    obtain ⟨before', hbefore', -, hsame'⟩ := hrecord other otherRecord hother
    exact h.tabs _ _ _ _ _ hbefore hbefore' (hsame ▸ hid) (hsame' ▸ hid')
  · intro botId bot hlookup
    obtain ⟨before, hbefore, rfl⟩ := prune_live hlookup
    have hstamped := h.stamped botId before hbefore
    refine ⟨hstamped.binding, fun pairingId claim hclaim => ?_⟩
    rw [LiveBot.prune, Dict.lookup_filter] at hclaim
    exact hstamped.claims pairingId claim (Option.filter_eq_some_iff.mp hclaim).1

theorem Unique.synced (h : state.Unique) (hsynced : state.Synced ready) : ready.Unique := by
  cases hsynced with
  | same => exact h
  | added bot hfree happId hpending hclaims hbinding =>
    refine h.setRecord (fun appId hid hne => ?_) (fun tabId htab => ?_) (fun other heq => ?_)
    · obtain rfl : bot.appId = appId := Option.some.inj hid
      exact happId.resolve_left hne
    · simp [BotRecord.boundTab?, hbinding] at htab
    · cases heq
      exact stamped_bare hclaims hbinding
  | advanced next hbot happId hadvances =>
    refine h.setRecord (fun appId hid hne => ?_) (fun tabId htab => ?_) (fun other heq => ?_)
    · obtain rfl : next.appId = appId := Option.some.inj hid
      exact happId.resolve_left hne
    · simp [BotRecord.boundTab?, hadvances.binding] at htab
    · cases heq
      exact stamped_bare hadvances.claims hadvances.binding

end PoolState

theorem PoolState.missClaim_lookup {claims : Dict PairingId StoredClaim}
    {pairingId other : PairingId} {value claim : StoredClaim}
    (h : (PoolState.missClaim claims pairingId value).lookup other = some claim) :
    (other ≠ pairingId ∧ claims.lookup other = some claim) ∨
      (other = pairingId ∧ value.confirmAttempts + 1 < confirmMaxAttempts ∧
        claim = { value with confirmAttempts := value.confirmAttempts + 1 }) := by
  unfold missClaim at h
  split at h
  · rw [Dict.lookup_erase] at h
    split at h
    · contradiction
    · exact .inl ⟨by assumption, h⟩
  · rename_i hattempts
    rw [Dict.lookup_set] at h
    split at h
    · exact .inr ⟨by assumption, not_le.mp hattempts, (Option.some.inj h).symm⟩
    · exact .inl ⟨by assumption, h⟩

namespace BotMove

variable {digests : PairingDigests} {botId : BotId} {now : Time} {bot : LiveBot}
  {note : PoolNote} {record : BotRecord}

theorem appId (hmove : BotMove digests botId now bot note record) {appId : String}
    (h : record.appId? = some appId) : bot.appId = appId := by
  cases hmove with
  | kept hkeeps => exact hkeeps.appId ▸ Option.some.inj h
  | advanced happId => exact happId ▸ Option.some.inj h
  | deleted => contradiction
  | _ => exact Option.some.inj h

theorem stamped (hmove : BotMove digests botId now bot note record) (h : bot.Stamped)
    {next : LiveBot} (hnext : record = .live next) : next.Stamped := by
  cases hmove with
  | kept hkeeps =>
    cases hnext
    constructor
    · rw [hkeeps.binding, hkeeps.generation]
      exact h.binding
    · rw [hkeeps.claims, hkeeps.generation]
      exact h.claims
  | advanced happId hadvances =>
    cases hnext
    exact PoolState.stamped_bare hadvances.claims hadvances.binding
  | deleted => contradiction
  | claimed code word pairingId value claim hvalue hlive howner htab hgeneration =>
    cases hnext
    refine ⟨h.binding, fun other found hfound => ?_⟩
    rw [LiveBot.touch, Dict.lookup_set] at hfound
    split at hfound
    · exact Option.some.inj hfound ▸ hgeneration
    · exact h.claims other found hfound
  | missed pairingId value hvalue =>
    cases hnext
    refine ⟨h.binding, fun other found hfound => ?_⟩
    rcases PoolState.missClaim_lookup hfound with ⟨-, hold⟩ | ⟨-, -, rfl⟩
    · exact h.claims other found hold
    · exact h.claims pairingId value hvalue
  | activated pairingId actor word value binding hvalue hactor hword hfree howner htab hsender
      hchat hgeneration =>
      cases hnext
      refine ⟨fun found hfound => ?_, by simp [LiveBot.touch]⟩
      obtain rfl : binding = found := Option.some.inj hfound
      exact hgeneration
  | _ =>
    cases hnext
    exact ⟨h.binding, h.claims⟩

end BotMove

namespace PoolState

variable {digests : PairingDigests} {state next ready : PoolState} {botId : BotId} {now : Time}
  {note : PoolNote} {bot : LiveBot} {record : BotRecord}

theorem Unique.move (h : state.Unique) (hbot : state.bots.lookup botId = some (.live bot))
    (hmove : BotMove digests botId now bot note record)
    (htab : ∀ tabId, record.boundTab? = some tabId →
      bot.binding.map StoredBinding.tabId = some tabId ∨ ¬ state.BindsTab tabId botId) :
    (state.setRecord botId record).Unique := by
  refine h.setRecord (fun appId hid hne => ?_) (fun tabId hbound => ?_)
    fun next hnext => hmove.stamped (h.stamped botId bot hbot) hnext
  · exact h.appId_free hbot (congrArg some (hmove.appId hid)) hne
  · exact (htab tabId hbound).elim (fun hold => h.tab_free hbot hold) fun hfree => hfree

theorem Unique.change (h : state.Unique) (hchange : PoolChange digests state botId now note next) :
    next.Unique := by
  cases hchange with
  | same => exact h
  | created bot hfree happId hpending hclaims hbinding =>
    refine h.setRecord (fun appId hid hne huses => ?_) (fun tabId htab => ?_) fun other heq => ?_
    · obtain rfl : bot.appId = appId := Option.some.inj hid
      obtain ⟨other, otherRecord, hlookup, -, hsame⟩ := usesAppId_iff.mp huses
      exact happId (usesAppId_iff.mpr ⟨other, otherRecord, hlookup, by simp, hsame⟩)
    · simp [BotRecord.boundTab?, hbinding] at htab
    · cases heq
      exact stamped_bare hclaims hbinding
  | moved hbot hmove hissued htab => exact h.move hbot hmove htab
  | issued code record hbot hgeneration =>
    have hmove : BotMove digests botId now _ (.issued code record) _ :=
      .issued code record hgeneration
    have hmoved := h.move hbot hmove fun tabId htab => .inl htab
    exact ⟨hmoved.appIds, hmoved.tabs, hmoved.stamped⟩

end PoolState

/-- What becomes of a record as long as it is kept. -/
structure BotRecord.Ages (record next : BotRecord) : Prop where
  revision : record.revision ≤ next.revision
  generation : record.generation ≤ next.generation
  revoked : ∀ tombstone, record = .revoked tombstone → ∃ later, next = .revoked later

theorem BotRecord.Ages.refl (record : BotRecord) : record.Ages record :=
  ⟨Nat.le_refl _, Nat.le_refl _, fun tombstone h => ⟨tombstone, h⟩⟩

theorem BotRecord.Ages.trans {record next last : BotRecord} (h : record.Ages next)
    (h' : next.Ages last) : record.Ages last where
  revision := h.revision.trans h'.revision
  generation := h.generation.trans h'.generation
  revoked := fun tombstone heq => by
    obtain ⟨later, hlater⟩ := h.revoked tombstone heq
    exact h'.revoked later hlater

theorem BotRecord.Ages.of_live {bot next : LiveBot} (hrevision : bot.revision ≤ next.revision)
    (hgeneration : bot.generation ≤ next.generation) :
    (BotRecord.live bot).Ages (.live next) :=
  ⟨hrevision, hgeneration, by simp⟩

theorem BotMove.ages {digests : PairingDigests} {botId : BotId} {now : Time} {bot : LiveBot}
    {note : PoolNote} {record : BotRecord} (hmove : BotMove digests botId now bot note record) :
    (BotRecord.live bot).Ages record := by
  cases hmove with
  | kept hkeeps => exact .of_live hkeeps.revision (Nat.le_of_eq hkeeps.generation.symm)
  | advanced happId hadvances =>
    exact .of_live hadvances.revision (hadvances.generation ▸ Nat.le_succ _)
  | deleted => exact ⟨Nat.le_succ _, Nat.le_succ _, by simp⟩
  | spent => exact .of_live (Nat.le_refl _) (Nat.le_refl _)
  | _ => exact .of_live (Nat.le_succ _) (Nat.le_refl _)

theorem BotMove.not_expired {digests : PairingDigests} {botId : BotId} {now : Time}
    {bot : LiveBot} {note : PoolNote} {record : BotRecord}
    (hmove : BotMove digests botId now bot note record) : record.expired now = false := by
  cases hmove with
  | deleted => simp [BotRecord.expired, Tombstone.expired]
  | _ => rfl

namespace PoolState

variable {digests : PairingDigests} {state next ready : PoolState} {botId : BotId} {now : Time}
  {note : PoolNote} {bot : LiveBot} {record : BotRecord}

/-- Every record is kept and ages, but for the tombstones that have expired. -/
def Retains (now : Time) (state next : PoolState) : Prop :=
  ∀ botId record, state.bots.lookup botId = some record → record.expired now = false →
    ∃ later, next.bots.lookup botId = some later ∧ later.expired now = false ∧ record.Ages later

theorem Retains.refl (now : Time) (state : PoolState) : state.Retains now state :=
  fun _ record hrecord hkept => ⟨record, hrecord, hkept, .refl record⟩

theorem Retains.trans (h : state.Retains now ready) (h' : ready.Retains now next) :
    state.Retains now next := by
  intro botId record hrecord hkept
  obtain ⟨later, hlater, hkept', hages⟩ := h botId record hrecord hkept
  obtain ⟨last, hlast, hkept'', hages'⟩ := h' botId later hlater hkept'
  exact ⟨last, hlast, hkept'', hages.trans hages'⟩

theorem Retains.same (h : state.Retains now ready) (hbots : next.bots = ready.bots) :
    state.Retains now next := by
  unfold Retains
  rw [hbots]
  exact h

theorem retains_setRecord (hkept : record.expired now = false)
    (h : ∀ before, state.bots.lookup botId = some before → before.Ages record) :
    state.Retains now (state.setRecord botId record) := by
  intro other before hbefore hlive
  rw [setRecord_lookup]
  split
  · rename_i heq
    subst heq
    exact ⟨record, rfl, hkept, h before hbefore⟩
  · exact ⟨before, hbefore, hlive, .refl before⟩

theorem retains_move (hbot : state.bots.lookup botId = some (.live bot))
    (hmove : BotMove digests botId now bot note record) :
    state.Retains now (state.setRecord botId record) := by
  refine retains_setRecord hmove.not_expired fun before hbefore => ?_
  cases hbefore.symm.trans hbot
  exact hmove.ages

theorem retains_prune (state : PoolState) (now : Time) : state.Retains now (state.prune now) := by
  intro botId record hrecord hkept
  have hpruned : (state.prune now).bots.lookup botId = some (record.prune now) := by
    rw [prune_lookup, hrecord]
    simp [Option.filter_some, hkept]
  refine ⟨record.prune now, hpruned, ?_, ?_⟩
  · cases record with
    | live => rfl
    | revoked => exact hkept
  · cases record with
    | live => exact .of_live (Nat.le_refl _) (Nat.le_refl _)
    | revoked => exact .refl _

theorem retains_synced (hsynced : state.Synced ready) : state.Retains now ready := by
  cases hsynced with
  | same => exact Retains.refl now state
  | added bot hfree =>
    exact retains_setRecord rfl fun before hbefore => by simp [hfree] at hbefore
  | advanced next hbot happId hadvances =>
    refine retains_setRecord rfl fun before hbefore => ?_
    cases hbefore.symm.trans hbot
    exact .of_live hadvances.revision (hadvances.generation ▸ Nat.le_succ _)

theorem retains_change (hchange : PoolChange digests state botId now note next) :
    state.Retains now next := by
  cases hchange with
  | same => exact Retains.refl now state
  | created bot hfree =>
    exact retains_setRecord rfl fun before hbefore => by simp [hfree] at hbefore
  | moved hbot hmove => exact retains_move hbot hmove
  | issued code record hbot hgeneration =>
    have hmove : BotMove digests botId now _ (.issued code record) _ :=
      .issued code record hgeneration
    exact (retains_move hbot hmove).same rfl

end PoolState

theorem PoolCall.retains_ready (call : PoolCall) (state : PoolState) (environ : Environ)
    (now : Time) : state.Retains now (call.ready state environ now) := by
  rcases call.ready_cases state environ now with hsynced | hsynced
  · exact PoolState.retains_synced hsynced
  · exact (state.retains_prune now).trans (PoolState.retains_synced hsynced)

theorem PoolCall.unique_ready {state : PoolState} (h : state.Unique) (call : PoolCall)
    (environ : Environ) (now : Time) : (call.ready state environ now).Unique := by
  rcases call.ready_cases state environ now with hsynced | hsynced
  · exact h.synced hsynced
  · exact (h.prune now).synced hsynced

namespace PoolDisk

variable {disk : PoolDisk} {now later : Time} {state state' : PoolState}

/-- The pool file holds a state whose records are told apart. -/
def Unique (disk : PoolDisk) : Prop := ∀ state, disk.pool = some state → state.Unique

theorem load_cases (h : disk.load now = .ok state) :
    disk.pool = some state ∨ (disk.pool = none ∧ state.rateLimits = Table.empty ∧
      (state.bots = Table.empty ∨ ∃ record, state.bots = Dict.set Table.empty legacyBotId record ∧
        ∀ bot, record = .live bot →
          bot.pending = Table.empty ∧ bot.claims = Table.empty ∧ bot.binding = none)) := by
  unfold load at h
  split at h
  · rename_i stored hpool
    obtain ⟨_, -, rfl⟩ := Except.map_ok_iff.mp h
    exact .inl hpool
  rename_i hpool
  refine .inr ⟨hpool, ?_⟩
  split at h
  · rename_i file hlegacy
    obtain ⟨updatedAt, -, h⟩ := Except.bind_ok_iff.mp h
    split at h
    · obtain rfl := Except.pure_ok_iff.mp h
      exact ⟨rfl, .inr ⟨_, rfl, by simp⟩⟩
    · split at h
      · contradiction
      · obtain rfl := Except.pure_ok_iff.mp h
        refine ⟨rfl, .inr ⟨_, rfl, fun bot hbot => ?_⟩⟩
        cases hbot
        exact ⟨rfl, rfl, rfl⟩
  · cases h
    exact ⟨rfl, .inl rfl⟩

theorem load_live {botId : BotId} {bot : LiveBot} (h : disk.load now = .ok state)
    (hbot : state.bots.lookup botId = some (.live bot)) : disk.pool = some state ∨ bot.Bare := by
  rcases load_cases h with hpool | ⟨-, -, hbots | ⟨record, hbots, hbare⟩⟩
  · exact .inl hpool
  · simp [hbots] at hbot
  · rw [hbots, Dict.lookup_set] at hbot
    split at hbot
    · obtain ⟨hpending, hclaims, hbinding⟩ := hbare bot (Option.some.inj hbot)
      exact .inr ⟨hpending, hclaims, hbinding⟩
    · simp at hbot

theorem Unique.load (hdisk : disk.Unique) (h : disk.load now = .ok state) : state.Unique := by
  have hempty : ({} : PoolState).Unique := by
    constructor <;> simp
  rcases load_cases h with hpool | ⟨-, -, hbots | ⟨record, hbots, hbare⟩⟩
  · exact hdisk state hpool
  · exact ⟨by simp [hbots], by simp [hbots], by simp [hbots]⟩
  · have hunique : (({} : PoolState).setRecord legacyBotId record).Unique := by
      refine hempty.setRecord (fun appId _ _ huses => ?_) (fun tabId _ hbinds => ?_)
        fun bot hbot => PoolState.stamped_bare (hbare bot hbot).2.1 (hbare bot hbot).2.2
      · obtain ⟨_, _, hlookup, _⟩ := PoolState.usesAppId_iff.mp huses
        contradiction
      · obtain ⟨_, _, hlookup, _⟩ := PoolState.bindsTab_iff.mp hbinds
        contradiction
    have hsame : (({} : PoolState).setRecord legacyBotId record).bots = state.bots := hbots.symm
    exact ⟨hsame ▸ hunique.appIds, hsame ▸ hunique.tabs, hsame ▸ hunique.stamped⟩

end PoolDisk

end ClaudeHub
