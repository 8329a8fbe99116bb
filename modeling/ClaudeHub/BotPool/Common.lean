import ClaudeHub.Lib.Lines
import ClaudeHub.Lib.Table
import ClaudeHub.Models.Enums

/-! # The records of the Feishu Bot pool

One file holds the credentials of every Bot together with its pairing state: the codes
that wait to be claimed, the claims that wait for their confirmation word, and the active
binding. A deleted Bot leaves a tombstone.
-/

namespace ClaudeHub

abbrev BotId := String
abbrev PairingId := String

def envBotId : BotId := "env"

def legacyBotId : BotId := "legacy"

def second : Time := 1000000

def codeTtl : Time := 600 * second
def claimTtl : Time := 600 * second
def rateWindow : Time := 60 * second
def tombstoneRetention : Time := 30 * 24 * 60 * 60 * second
def maxTimestamp : Time := 4102444800 * second
def confirmMaxAttempts : Nat := 5
def rateMax : Nat := 5
def maxPendingPerBot : Nat := 8
def maxClaimsPerBot : Nat := 8
def maxBots : Nat := 32
def maxNameChars : Nat := 64
def maxSecretChars : Nat := 4096
def maxIdChars : Nat := 128

inductive PoolError
  | state (field : String)
  | legacy (message : String)
  | notFound (botId : BotId)
  | revoked (botId : BotId)
  | readOnly (botId : BotId)
  | revisionConflict (botId : BotId)
  | appIdConflict (appId : String)
  | occupied (botId : BotId)
  | chatOccupied (tabId : TabId)
  | full (what : String)
  | pairingNotFound (pairingId : PairingId)
  | pairingNotOwned (pairingId : PairingId)
  | pairingMismatch (pairingId : PairingId)
  | bindingCode (reason : String)
  | rateLimited (openId : String)
  | value (message : String)
  /-- `hmac.compare_digest` of texts that are not ASCII. -/
  | type
  | storage
  deriving DecidableEq, Repr

/-! ## Records -/

inductive OwnerKind
  | oauth | local
  deriving DecidableEq, Repr

structure OwnerIdentity where
  openId : String
  email : String
  kind : OwnerKind
  deriving DecidableEq, Repr

structure FeishuBotConfig where
  appId : String
  appSecret : String
  deriving DecidableEq, Repr

structure PendingCode where
  owner : OwnerIdentity
  tabId : TabId
  workspaceId : Option String
  issuedAt : Time
  expiresAt : Time
  generation : Nat
  deriving DecidableEq, Repr

structure StoredClaim where
  owner : OwnerIdentity
  tabId : TabId
  workspaceId : Option String
  senderOpenId : String
  chatId : String
  createdAt : Time
  expiresAt : Time
  generation : Nat
  confirmDigest : String
  confirmAttempts : Nat := 0
  deriving DecidableEq, Repr

structure StoredBinding where
  owner : OwnerIdentity
  pairingId : PairingId
  tabId : TabId
  workspaceId : Option String
  senderOpenId : String
  chatId : String
  createdAt : Time
  generation : Nat
  deriving DecidableEq, Repr

structure FeishuProfile where
  name : Option String := none
  avatarUrl : Option String := none
  openId : Option String := none
  deriving DecidableEq, Repr

structure BotCallbacks where
  verificationToken : Option String := none
  encryptKey : Option String := none
  expectedTenantKey : Option String := none
  callbackEnabled : Bool := false
  deriving DecidableEq, Repr

structure LiveBot where
  botId : BotId
  name : String
  appId : String
  /-- `credentials`, which hold the app secret. -/
  credentials : Option String := none
  feishu : FeishuProfile := {}
  callbacks : BotCallbacks := {}
  revision : Nat := 0
  generation : Nat := 0
  enabled : Bool := true
  createdAt : Option Time := none
  updatedAt : Option Time := none
  pending : Dict String PendingCode := Table.empty
  claims : Dict PairingId StoredClaim := Table.empty
  binding : Option StoredBinding := none
  deriving DecidableEq

structure Tombstone where
  revision : Nat
  generation : Nat
  revokedAt : Time
  deriving DecidableEq, Repr

inductive BotRecord
  | live (bot : LiveBot)
  | revoked (tombstone : Tombstone)
  deriving DecidableEq

namespace BotRecord

def revision : BotRecord → Nat
  | live bot => bot.revision
  | revoked tombstone => tombstone.revision

def generation : BotRecord → Nat
  | live bot => bot.generation
  | revoked tombstone => tombstone.generation

def appId? : BotRecord → Option String
  | live bot => some bot.appId
  | revoked _ => none

def boundTab? : BotRecord → Option TabId
  | live bot => bot.binding.map StoredBinding.tabId
  | revoked _ => none

end BotRecord

structure PoolState where
  poolRevision : Nat := 0
  bots : Dict BotId BotRecord := Table.empty
  rateLimits : Dict String (List Time) := Table.empty
  deriving DecidableEq

structure LegacyBotFile where
  revision : Nat
  bindingGeneration : Nat
  updatedAt : Option Time
  config : Option FeishuBotConfig
  deriving DecidableEq, Repr

/-- The stripped values of the two variables that configure the environment Bot, empty
where a variable is not set. -/
structure Environ where
  appId : String := ""
  appSecret : String := ""
  deriving DecidableEq, Repr

def environmentConfig (environ : Environ) : Option FeishuBotConfig :=
  if environ.appId = "" ∨ environ.appSecret = "" then none
  else some ⟨environ.appId, environ.appSecret⟩

def environmentPresent (environ : Environ) : Bool :=
  environ.appId ≠ "" || environ.appSecret ≠ ""

/-- SHA-256 in the two places that the pool uses it: of a Bot and a stripped, upper-cased
code, and of a Bot, a pairing and a stripped, upper-cased word. -/
structure PairingDigests where
  code : BotId → String → String
  confirm : BotId → PairingId → String → String

def asText (value name : String) (limit : Nat) : Except PoolError String :=
  if (Lines.strip value.toList).isEmpty || decide (limit < value.length) then .error (.state name)
  else .ok value

def asOptionalText (value : Option String) (name : String) (limit : Nat) :
    Except PoolError (Option String) :=
  match value with
  | none => .ok none
  | some value => (asText value name limit).map some

def asFloat (time : Time) (name : String) : Except PoolError Time :=
  if time ≤ maxTimestamp then .ok time else .error (.state name)

def asOptionalFloat (time : Option Time) (name : String) : Except PoolError (Option Time) :=
  match time with
  | none => .ok none
  | some time => (asFloat time name).map some

def isAscii (text : String) : Bool := text.toList.all fun c => c.toNat < 128

def compareDigest (left right : String) : Except PoolError Bool :=
  if isAscii left && isAscii right then .ok (left = right) else .error .type

def ownerFromDict (owner : OwnerIdentity) (name : String) : Except PoolError OwnerIdentity :=
  if maxIdChars < owner.email.length then .error (.state (name ++ ".owner_email"))
  else (asText owner.openId (name ++ ".owner_open_id") maxIdChars).map fun _ => owner

/-- `_validate_pool_numbers` on the moments of one Bot; its counters are natural numbers. -/
def BotRecord.checkNumbers : BotRecord → Except PoolError Unit
  | revoked tombstone => do discard (asFloat tombstone.revokedAt "bot.revoked_at")
  | live bot => do
      discard (asOptionalFloat bot.createdAt "bot.created_at")
      discard (asOptionalFloat bot.updatedAt "bot.updated_at")
      bot.pending.rows.forM fun entry => do
        discard (asFloat entry.2.issuedAt "pending.issued_at")
        discard (asFloat entry.2.expiresAt "pending.expires_at")
      bot.claims.rows.forM fun entry => do
        discard (asFloat entry.2.createdAt "claims.created_at")
        discard (asFloat entry.2.expiresAt "claims.expires_at")
      bot.binding.forM fun binding => do
        discard (asFloat binding.createdAt "binding.created_at")

/-- `_validate_pool_numbers` -/
def PoolState.checkNumbers (state : PoolState) : Except PoolError Unit := do
  state.rateLimits.rows.forM fun entry =>
    entry.2.forM fun stamp => do discard (asFloat stamp "rate_limits.timestamp")
  state.bots.rows.forM fun entry => entry.2.checkNumbers

end ClaudeHub
