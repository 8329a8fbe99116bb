import ClaudeHub.BotPool.Common

/-! # Reading the pool, and what every operation does first

`_load` reads the file, or converts the file of before the pool. Every mutation then
drops what has expired and brings the environment Bot in line with the environment.
-/

namespace ClaudeHub

/-- `_migrate_legacy`: only the credentials migrate. -/
def LegacyBotFile.migrate (file : LegacyBotFile) (now : Time) : Except PoolError PoolState := do
  let updatedAt ← asOptionalFloat file.updatedAt "legacy.updated_at"
  let state : PoolState := {}
  match file.config with
  | none =>
    -- an explicit disable stays a tombstone
    return { state with
      bots := state.bots.set legacyBotId
        (.revoked ⟨file.revision, file.bindingGeneration, updatedAt.getD now⟩) }
  | some config =>
    if config.appId = "" ∨ config.appSecret = "" then
      .error (.legacy "Incomplete legacy Feishu Bot configuration")
    else
      return { state with
        bots := state.bots.set legacyBotId
          (.live {
            botId := legacyBotId
            name := "Feishu Bot"
            appId := config.appId
            credentials := some config.appSecret
            revision := file.revision
            generation := file.bindingGeneration
            createdAt := updatedAt
            updatedAt }) }

structure PoolDisk where
  pool : Option PoolState := none
  legacy : Option LegacyBotFile := none
  deriving DecidableEq

/-- `_load`. Once the pool file exists it is the only authority. -/
def PoolDisk.load (disk : PoolDisk) (now : Time) : Except PoolError PoolState :=
  match disk.pool with
  | some state => state.checkNumbers.map fun _ => state
  | none =>
    match disk.legacy with
    | some file => file.migrate now
    | none => .ok {}

/-- What `_save` writes. -/
def PoolState.numbered (state : PoolState) : PoolState :=
  { state with poolRevision := state.poolRevision + 1 }

def newEntry (botId name : String) (appId : String) (now : Time) : LiveBot where
  botId := botId
  name := name
  appId := appId
  createdAt := some now
  updatedAt := some now

namespace LiveBot

def touch (bot : LiveBot) (now : Time) : LiveBot :=
  { bot with revision := bot.revision + 1, updatedAt := some now }

def advanceGeneration (bot : LiveBot) : LiveBot :=
  { bot with
    generation := bot.generation + 1
    pending := Table.empty
    claims := Table.empty
    binding := none }

def prune (bot : LiveBot) (now : Time) : LiveBot :=
  { bot with
    pending := bot.pending.filter fun entry =>
      decide (now < entry.2.expiresAt ∧ entry.2.generation = bot.generation)
    claims := bot.claims.filter fun entry =>
      decide (now < entry.2.expiresAt ∧ entry.2.generation = bot.generation) }

end LiveBot

def Tombstone.expired (tombstone : Tombstone) (now : Time) : Bool :=
  tombstone.revokedAt + tombstoneRetention < now

namespace BotRecord

def expired (record : BotRecord) (now : Time) : Bool :=
  match record with
  | live _ => false
  | revoked tombstone => tombstone.expired now

def prune (record : BotRecord) (now : Time) : BotRecord :=
  match record with
  | live bot => live (bot.prune now)
  | revoked tombstone => revoked tombstone

end BotRecord

namespace PoolState

def prune (state : PoolState) (now : Time) : PoolState :=
  { state with
    rateLimits :=
      (state.rateLimits.map
        (fun entry => (entry.1, entry.2.filter fun stamp => decide (now ≤ stamp + rateWindow)))
        fun _ => rfl).filter fun entry => !entry.2.isEmpty
    bots :=
      (state.bots.filter fun entry => !entry.2.expired now).map
        (fun entry => (entry.1, entry.2.prune now)) fun _ => rfl }

def liveEntry (state : PoolState) (botId : BotId) : Except PoolError LiveBot :=
  match state.bots.lookup botId with
  | some (.live bot) => .ok bot
  | _ => .error (.notFound botId)

def setRecord (state : PoolState) (botId : BotId) (record : BotRecord) : PoolState :=
  { state with bots := state.bots.set botId record }

def UsesAppId (state : PoolState) (appId : String) (exclude : Option BotId) : Prop :=
  ∃ entry ∈ state.bots.rows, some entry.1 ≠ exclude ∧ entry.2.appId? = some appId

instance (state : PoolState) (appId : String) (exclude : Option BotId) :
    Decidable (state.UsesAppId appId exclude) :=
  inferInstanceAs (Decidable (∃ entry ∈ state.bots.rows, _ ∧ _))

def BindsTab (state : PoolState) (tabId : TabId) (exclude : BotId) : Prop :=
  ∃ entry ∈ state.bots.rows, entry.1 ≠ exclude ∧ entry.2.boundTab? = some tabId

instance (state : PoolState) (tabId : TabId) (exclude : BotId) :
    Decidable (state.BindsTab tabId exclude) :=
  inferInstanceAs (Decidable (∃ entry ∈ state.bots.rows, _ ∧ _))

def requireAppIdFree (state : PoolState) (appId : String) (exclude : Option BotId) :
    Except PoolError Unit :=
  if state.UsesAppId appId exclude then .error (.appIdConflict appId) else .ok ()

def requireTabFree (state : PoolState) (tabId : TabId) (exclude : BotId) : Except PoolError Unit :=
  if state.BindsTab tabId exclude then .error (.chatOccupied tabId) else .ok ()

def acceptedAppId (state : PoolState) (environ : Environ) : String :=
  match environmentConfig environ with
  | none => ""
  | some config => if state.UsesAppId config.appId (some envBotId) then "" else config.appId

/-- `_sync_env_entry`: revoke a changed or conflicting environment identity once. The
second component says whether the state has changed. -/
def syncEnvEntry (state : PoolState) (environ : Environ) (now : Time) : PoolState × Bool :=
  let appId := state.acceptedAppId environ
  match state.bots.lookup envBotId with
  | none =>
    if environmentPresent environ then
      (state.setRecord envBotId (.live (newEntry envBotId "Environment Bot" appId now)), true)
    else (state, false)
  | some (.revoked _) => (state, false)
  | some (.live bot) =>
    -- compared with the accepted identity, not with the rejected environment value
    if bot.appId = appId then (state, false)
    else
      (state.setRecord envBotId
        (.live (({ bot with appId, feishu := {} }.advanceGeneration).touch now)), true)

/-- What a mutation starts from. -/
def prepare (state : PoolState) (environ : Environ) (now : Time) : PoolState :=
  ((state.prune now).syncEnvEntry environ now).1

end PoolState

def LiveBot.checkRevision (bot : LiveBot) (expected : Nat) : Except PoolError Unit :=
  if bot.revision ≠ expected then .error (.revisionConflict bot.botId) else .ok ()

def PoolState.revised (state : PoolState) (botId : BotId) (expected : Nat) :
    Except PoolError LiveBot := do
  let bot ← state.liveEntry botId
  bot.checkRevision expected
  return bot

structure PairingClaim where
  pairingId : PairingId
  botId : BotId
  owner : OwnerIdentity
  tabId : TabId
  workspaceId : Option String
  senderOpenId : String
  chatId : String
  createdAt : Time
  expiresAt : Time
  generation : Nat
  deriving DecidableEq, Repr

def claimFromDict (botId : BotId) (pairingId : PairingId) (value : StoredClaim) :
    Except PoolError PairingClaim := do
  let name := "claims[" ++ pairingId ++ "]"
  return {
    pairingId
    botId
    owner := ← ownerFromDict value.owner name
    tabId := ← asText value.tabId (name ++ ".tab_id") maxIdChars
    workspaceId := ← asOptionalText value.workspaceId (name ++ ".workspace_id") maxIdChars
    senderOpenId := ← asText value.senderOpenId (name ++ ".sender_open_id") maxIdChars
    chatId := ← asText value.chatId (name ++ ".chat_id") maxIdChars
    createdAt := ← asFloat value.createdAt (name ++ ".created_at")
    expiresAt := ← asFloat value.expiresAt (name ++ ".expires_at")
    generation := value.generation }

structure BotBinding where
  pairingId : PairingId
  botId : BotId
  owner : OwnerIdentity
  tabId : TabId
  workspaceId : Option String
  senderOpenId : String
  chatId : String
  createdAt : Time
  generation : Nat
  deriving DecidableEq, Repr

def bindingFromDict (botId : BotId) (value : StoredBinding) : Except PoolError BotBinding := do
  return {
    pairingId := ← asText value.pairingId "binding.pairing_id" maxIdChars
    botId
    owner := ← ownerFromDict value.owner "binding"
    tabId := ← asText value.tabId "binding.tab_id" maxIdChars
    workspaceId := ← asOptionalText value.workspaceId "binding.workspace_id" maxIdChars
    senderOpenId := ← asText value.senderOpenId "binding.sender_open_id" maxIdChars
    chatId := ← asText value.chatId "binding.chat_id" maxIdChars
    createdAt := ← asFloat value.createdAt "binding.created_at"
    generation := value.generation }

def entryConfig (bot : LiveBot) (config : Option FeishuBotConfig) :
    Except PoolError (Option FeishuBotConfig) :=
  if bot.botId = envBotId then .ok (config.filter fun config => bot.appId = config.appId)
  else
    match bot.credentials with
    | none => .ok none
    | some secret => do
        let appId ← asText bot.appId "app_id" maxIdChars
        let appSecret ← asText secret "app_secret" maxSecretChars
        return some ⟨appId, appSecret⟩

structure BotEntry where
  botId : BotId
  name : String
  feishu : FeishuProfile
  config : Option FeishuBotConfig
  enabled : Bool
  revision : Nat
  generation : Nat
  createdAt : Option Time
  updatedAt : Option Time
  claims : List PairingClaim
  binding : Option BotBinding
  callbacks : BotCallbacks
  deriving DecidableEq, Repr

def BotCallbacks.complete (callbacks : BotCallbacks) : Bool :=
  [callbacks.verificationToken, callbacks.encryptKey, callbacks.expectedTenantKey].all fun value =>
    value.any fun text => text ≠ ""

def callbacksIncomplete : String := "Enabled callbacks require protected credentials and tenant"

/-- `_entry_view`. A stale claim or binding is not shown. -/
def entryView (botId : BotId) (bot : LiveBot) (environ : Option FeishuBotConfig) (now : Time) :
    Except PoolError BotEntry := do
  let config ← entryConfig bot environ
  let claims := bot.claims.rows.filterMap fun entry =>
    (claimFromDict botId entry.1 entry.2).toOption.filter fun claim =>
      now < claim.expiresAt ∧ claim.generation = bot.generation
  let binding ← bot.binding.mapM (bindingFromDict botId)
  discard (asOptionalText bot.callbacks.verificationToken "verification_token" maxSecretChars)
  discard (asOptionalText bot.callbacks.encryptKey "encrypt_key" maxSecretChars)
  discard (asOptionalText bot.callbacks.expectedTenantKey "expected_tenant_key" maxIdChars)
  if bot.callbacks.callbackEnabled && !bot.callbacks.complete then
    .error (.state callbacksIncomplete)
  else
    return {
      botId
      name := ← asText bot.name "name" maxNameChars
      feishu := {
        name := ← asOptionalText bot.feishu.name "feishu_name" maxNameChars
        avatarUrl := ← asOptionalText bot.feishu.avatarUrl "feishu_avatar_url" maxSecretChars
        openId := ← asOptionalText bot.feishu.openId "feishu_open_id" maxIdChars }
      config
      enabled := bot.enabled
      revision := bot.revision
      generation := bot.generation
      createdAt := ← asOptionalFloat bot.createdAt "created_at"
      updatedAt := ← asOptionalFloat bot.updatedAt "updated_at"
      claims
      binding := binding.filter fun binding => binding.generation = bot.generation
      callbacks := bot.callbacks }

end ClaudeHub
