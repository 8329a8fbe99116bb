import ClaudeHub.BotPool.Store
import ClaudeHub.Lib.LastIndex

/-! # Runs of the Bot pool

Every call loads the file and may save it. A save may raise before it replaces the file or
behind it. What was saved is recorded in a history, together with every advance of a
Bot's generation.
-/

namespace ClaudeHub

structure IssuedCode where
  botId : BotId
  code : String
  owner : OwnerIdentity
  tabId : TabId
  issuedAt : Time
  expiresAt : Time
  deriving DecidableEq, Repr

/-- A code that a sender has consumed: `issue` is the place of its issue in the history. -/
structure ClaimedCode where
  botId : BotId
  issue : Option Nat
  code : String
  word : String
  pairingId : PairingId
  senderOpenId : String
  chatId : String
  claimedAt : Time
  expiresAt : Time
  deriving DecidableEq, Repr

/-- A claim that was confirmed: `claim` is its place in the history. -/
structure ConfirmedClaim where
  botId : BotId
  claim : Option Nat
  actor : OwnerIdentity
  word : String
  confirmedAt : Time
  deriving DecidableEq, Repr

inductive PoolEvent
  | issued (issue : IssuedCode)
  | claimed (claim : ClaimedCode)
  | missed (botId : BotId) (pairingId : PairingId)
  | confirmed (confirmation : ConfirmedClaim)
  | advanced (botId : BotId)
  deriving DecidableEq, Repr

abbrev PoolHistory := List PoolEvent

namespace PoolEvent

def issues (digests : PairingDigests) (botId : BotId) (digest : String) : PoolEvent → Bool
  | issued issue => issue.botId = botId && digests.code botId issue.code = digest
  | _ => false

def claims (botId : BotId) (pairingId : PairingId) : PoolEvent → Bool
  | claimed claim => claim.botId = botId && claim.pairingId = pairingId
  | _ => false

end PoolEvent

def PoolNote.events (digests : PairingDigests) (history : PoolHistory) (botId : BotId)
    (now : Time) : PoolNote → PoolHistory
  | .issued code record =>
    [.issued ⟨botId, code, record.owner, record.tabId, record.issuedAt, record.expiresAt⟩]
  | .claimed code word pairingId record =>
    [.claimed {
      botId, code, word, pairingId
      issue := history.lastIdx? (PoolEvent.issues digests botId (digests.code botId code))
      senderOpenId := record.senderOpenId
      chatId := record.chatId
      claimedAt := now
      expiresAt := record.expiresAt }]
  | .missed pairingId => [.missed botId pairingId]
  | .activated pairingId actor word =>
    [.confirmed {
      botId, actor, word
      claim := history.lastIdx? (PoolEvent.claims botId pairingId)
      confirmedAt := now }]
  | .edited | .spent => []

def BotRecord.liveGeneration? : BotRecord → Option Nat
  | live bot => some bot.generation
  | revoked _ => none

def PoolState.advances (before after : PoolState) : PoolHistory :=
  before.bots.rows.filterMap fun entry =>
    if entry.2.liveGeneration? ≠ none ∧
        (after.bots.lookup entry.1).bind BotRecord.liveGeneration? ≠ entry.2.liveGeneration? then
      some (.advanced entry.1)
    else none

inductive PoolCall
  | createBot (name : String) (config : FeishuBotConfig) (profile : FeishuProfile) (botId : BotId)
  | rotateSecrets (botId : BotId) (appSecret : String) (profile : FeishuProfile) (expected : Nat)
  | configureCallbacks (botId : BotId) (callbackEnabled : Bool)
      (verificationToken encryptKey expectedTenantKey : Option String) (expected : Nat)
  | updateProfile (botId : BotId) (profile : FeishuProfile) (expected : Nat)
  | updateBot (botId : BotId) (name : Option String) (enabled : Option Bool) (expected : Nat)
  | deleteBot (botId : BotId) (expected : Nat)
  | issueCode (botId : BotId) (owner : OwnerIdentity) (tabId : TabId)
      (workspaceId : Option String) (expected : Nat) (code : String)
  | claimCode (botId : BotId) (code senderOpenId chatId : String) (pairingId : PairingId)
      (word : String)
  | activateClaim (botId : BotId) (pairingId : PairingId) (confirmWord : String)
      (actor : OwnerIdentity) (expected : Nat) (bindingId : PairingId)
  | releaseBinding (botId : BotId) (expected : Nat)
  | dropBinding (botId : BotId) (pairingId : PairingId)
  /-- `snapshot`, `effective`, `routed_binding` and `routed_binding_for_sender`. -/
  | read
  deriving DecidableEq

namespace PoolCall

def botId : PoolCall → BotId
  | createBot _ _ _ botId | rotateSecrets botId .. | configureCallbacks botId ..
  | updateProfile botId .. | updateBot botId .. | deleteBot botId _ | issueCode botId ..
  | claimCode botId .. | activateClaim botId .. | releaseBinding botId _ | dropBinding botId _ =>
    botId
  | read => envBotId

def ready (call : PoolCall) (state : PoolState) (environ : Environ) (now : Time) : PoolState :=
  match call with
  | dropBinding .. => state
  | read => (state.syncEnvEntry environ now).1
  | _ => state.prepare environ now

def saved (digests : PairingDigests) (call : PoolCall) (state : PoolState) (environ : Environ)
    (now : Time) : Option (PoolState × PoolNote) :=
  let ready := call.ready state environ now
  match call with
  | createBot name config profile botId => (ready.createBot name config profile botId now).saved
  | rotateSecrets botId appSecret profile expected =>
    (ready.rotateSecrets botId appSecret profile expected now).saved
  | configureCallbacks botId callbackEnabled verificationToken encryptKey expectedTenantKey
      expected =>
      (ready.configureCallbacks botId callbackEnabled verificationToken encryptKey
        expectedTenantKey expected now).saved
  | updateProfile botId profile expected => (ready.updateProfile botId profile expected now).saved
  | updateBot botId name enabled expected =>
    (ready.updateBot botId name enabled expected now).saved
  | deleteBot botId expected => (ready.deleteBot botId expected now).saved
  | issueCode botId owner tabId workspaceId expected code =>
    (PoolState.issueCode digests ready botId owner tabId workspaceId expected code now).saved
  | claimCode botId code senderOpenId chatId pairingId word =>
    (PoolState.claimCode digests ready botId code senderOpenId chatId pairingId word now).saved
  | activateClaim botId pairingId confirmWord actor expected bindingId =>
    (PoolState.activateClaim digests ready botId pairingId confirmWord actor expected bindingId
      now).saved
  | releaseBinding botId expected => (ready.releaseBinding botId expected now).saved
  | dropBinding botId pairingId => (ready.dropBinding botId pairingId now).saved
  | read => (state.synced environ now fun _ => .ok ()).saved

def drawn (call : PoolCall) (ready : PoolState) : Bool :=
  match call with
  | createBot _ _ _ botId => !ready.idTaken botId
  | _ => true

end PoolCall

inductive SaveFate
  | saved
  | lost
  | late
  deriving DecidableEq, Repr

structure PoolOp where
  call : PoolCall
  environ : Environ := {}
  now : Time
  fate : SaveFate := .saved
  deriving DecidableEq

structure PoolSystem where
  disk : PoolDisk := {}
  clock : Time := 0
  history : PoolHistory := []
  deriving DecidableEq

namespace PoolSystem

def record (digests : PairingDigests) (history : PoolHistory) (state ready next : PoolState)
    (botId : BotId) (note : PoolNote) (now : Time) : PoolHistory :=
  let synced := history ++ state.advances ready
  synced ++ note.events digests synced botId now ++ ready.advances next

def step (digests : PairingDigests) (system : PoolSystem) (op : PoolOp) : Option PoolSystem :=
  match system.disk.load op.now with
  | .error _ => some { system with clock := op.now }
  | .ok state =>
    let ready := op.call.ready state op.environ op.now
    if !op.call.drawn ready then none
    else
      match op.call.saved digests state op.environ op.now with
      | none => some { system with clock := op.now }
      | some (next, note) =>
        if op.fate = .lost then some { system with clock := op.now }
        else
          some {
            disk := { system.disk with pool := some next.numbered }
            clock := op.now
            history :=
              record digests system.history state ready next op.call.botId note op.now }

end PoolSystem

end ClaudeHub
