import ClaudeHub.BotPool.State

/-! # The operations of the Feishu Bot pool

Each operation is a function of the state that it works on, after the file was loaded,
pruned and brought in line with the environment. The random ids, codes and words that it
draws are arguments.
-/

namespace ClaudeHub

inductive PoolNote
  | edited
  | issued (code : String) (record : PendingCode)
  | spent
  | claimed (code word : String) (pairingId : PairingId) (record : StoredClaim)
  | missed (pairingId : PairingId)
  | activated (pairingId : PairingId) (actor : OwnerIdentity) (word : String)
  deriving DecidableEq

/-- How an operation ends: it raises before it saves, it saves and then returns or raises,
or it returns without a save. -/
inductive PoolOutcome (α : Type)
  | raises (error : PoolError)
  | saves (state : PoolState) (note : PoolNote) (result : Except PoolError α)
  | returns (value : α)

namespace PoolOutcome

variable {α β : Type}

def saved : PoolOutcome α → Option (PoolState × PoolNote)
  | saves state note _ => some (state, note)
  | _ => none

def result : PoolOutcome α → Except PoolError α
  | raises error => .error error
  | saves _ _ result => result
  | returns value => .ok value

def check (passed : Except PoolError β) (rest : β → PoolOutcome α) : PoolOutcome α :=
  match passed with
  | .error error => raises error
  | .ok value => rest value

end PoolOutcome

namespace PoolState

def liveCount (state : PoolState) : Nat :=
  state.bots.rows.countP fun entry => entry.2.appId?.isSome

def idTaken (state : PoolState) (botId : BotId) : Bool :=
  (state.bots.lookup botId).isSome || botId = envBotId || botId = legacyBotId

/-- `botId` is the id at which the draw ends. -/
def createBot (state : PoolState) (name : String) (config : FeishuBotConfig)
    (profile : FeishuProfile) (botId : BotId) (now : Time) : PoolOutcome BotId :=
  if maxBots ≤ state.liveCount then .raises (.full "pool")
  else
    .check (state.requireAppIdFree config.appId none) fun _ =>
      .saves
        (state.setRecord botId
          (.live { newEntry botId name config.appId now with
            credentials := some config.appSecret
            feishu := profile }))
        .edited (.ok botId)

def rotateSecrets (state : PoolState) (botId : BotId) (appSecret : String)
    (profile : FeishuProfile) (expected : Nat) (now : Time) : PoolOutcome Unit :=
  .check (state.liveEntry botId) fun bot =>
    if botId = envBotId then .raises (.readOnly botId)
    else
      .check (bot.checkRevision expected) fun _ =>
        .saves
          (state.setRecord botId
            (.live ({ bot with credentials := some appSecret, feishu := profile }.touch now)))
          .edited (.ok ())

/-- The callback settings that `configure_callbacks` makes of the old ones. -/
def mergeCallbacks (callbacks : BotCallbacks) (callbackEnabled : Bool)
    (verificationToken encryptKey expectedTenantKey : Option String) :
    Except PoolError BotCallbacks := do
  let token ← asOptionalText verificationToken "verification_token" maxSecretChars
  let key ← asOptionalText encryptKey "encrypt_key" maxSecretChars
  let tenant ← asOptionalText expectedTenantKey "expected_tenant_key" maxIdChars
  let merged : BotCallbacks :=
    { callbacks with
      verificationToken := token.or callbacks.verificationToken
      encryptKey := key.or callbacks.encryptKey
      expectedTenantKey := tenant.or callbacks.expectedTenantKey }
  if callbackEnabled && !merged.complete then .error (.value callbacksIncomplete)
  else return { merged with callbackEnabled }

def configureCallbacks (state : PoolState) (botId : BotId) (callbackEnabled : Bool)
    (verificationToken encryptKey expectedTenantKey : Option String) (expected : Nat)
    (now : Time) : PoolOutcome Unit :=
  .check (state.revised botId expected) fun bot =>
    .check
      (mergeCallbacks bot.callbacks callbackEnabled verificationToken encryptKey
        expectedTenantKey) fun callbacks =>
      .saves (state.setRecord botId (.live ({ bot with callbacks }.touch now))) .edited (.ok ())

def updateProfile (state : PoolState) (botId : BotId) (profile : FeishuProfile)
    (expected : Nat) (now : Time) : PoolOutcome Unit :=
  .check (state.revised botId expected) fun bot =>
    if bot.feishu = profile then .returns ()
    else
      .saves
        (state.setRecord botId (.live { bot with feishu := profile, updatedAt := some now }))
        .edited (.ok ())

def updateBot (state : PoolState) (botId : BotId) (name : Option String)
    (enabled : Option Bool) (expected : Nat) (now : Time) : PoolOutcome Unit :=
  .check (state.revised botId expected) fun bot =>
    let bot := { bot with name := name.getD bot.name }
    let bot :=
      match enabled with
      | none => bot
      | some enabled =>
        if enabled = bot.enabled then bot
        else if enabled then { bot with enabled }
        else { bot with enabled }.advanceGeneration
    .saves (state.setRecord botId (.live (bot.touch now))) .edited (.ok ())

def deleteBot (state : PoolState) (botId : BotId) (expected : Nat) (now : Time) :
    PoolOutcome Unit :=
  .check (state.liveEntry botId) fun bot =>
    if botId = envBotId then .raises (.readOnly botId)
    else
      .check (bot.checkRevision expected) fun _ =>
        .saves
          (state.setRecord botId (.revoked ⟨bot.revision + 1, bot.generation + 1, now⟩))
          .edited (.ok ())

def issueCode (digests : PairingDigests) (state : PoolState) (botId : BotId)
    (owner : OwnerIdentity) (tabId : TabId) (workspaceId : Option String) (expected : Nat)
    (code : String) (now : Time) : PoolOutcome (String × Time × Nat) :=
  .check (state.revised botId expected) fun bot =>
    if !bot.enabled then .raises (.revoked botId)
    else if bot.binding.isSome then .raises (.occupied botId)
    else
      .check (state.requireTabFree tabId botId) fun _ =>
        -- the allowance is one per Hub identity, not one per Bot
        let stamps := (state.rateLimits.lookup owner.openId).getD []
        if rateMax ≤ stamps.length then .saves state .edited (.error (.rateLimited owner.openId))
        else if maxPendingPerBot ≤ bot.pending.rows.length then .raises (.full "pending")
        else
          let record : PendingCode :=
            { owner, tabId, workspaceId, issuedAt := now, expiresAt := now + codeTtl
              generation := bot.generation }
          let next := { bot with
            pending := bot.pending.set (digests.code botId code) record }.touch now
          .saves
            { state.setRecord botId (.live next) with
              rateLimits := state.rateLimits.set owner.openId (stamps ++ [now]) }
            (.issued code record) (.ok (code, now + codeTtl, next.revision))

def claimCode (digests : PairingDigests) (state : PoolState) (botId : BotId) (code : String)
    (senderOpenId chatId : String) (pairingId : PairingId) (word : String) (now : Time) :
    PoolOutcome (PairingClaim × String) :=
  .check (state.liveEntry botId) fun bot =>
    if !bot.enabled then .raises (.revoked botId)
    else
      match bot.pending.lookup (digests.code botId code) with
      | none => .raises (.bindingCode "unknown")
      | some value =>
        let popped := { bot with pending := bot.pending.erase (digests.code botId code) }
        let spent := state.setRecord botId (.live popped)
        if value.expiresAt ≤ now then .saves spent .spent (.error (.bindingCode "expired"))
        else if value.generation ≠ bot.generation then
          .saves spent .spent (.error (.bindingCode "superseded"))
        else if maxClaimsPerBot ≤ bot.claims.rows.length then
          .saves spent .spent (.error (.full "claims"))
        else
          .check (ownerFromDict value.owner "pending") fun owner =>
            let record : StoredClaim :=
              { owner, tabId := value.tabId, workspaceId := value.workspaceId
                senderOpenId, chatId, createdAt := now, expiresAt := now + claimTtl
                generation := bot.generation
                confirmDigest := digests.confirm botId pairingId word }
            .saves
              (state.setRecord botId
                (.live ({ popped with claims := popped.claims.set pairingId record }.touch now)))
              (.claimed code word pairingId record)
              ((claimFromDict botId pairingId record).map fun claim => (claim, word))

def missClaim (claims : Dict PairingId StoredClaim) (pairingId : PairingId)
    (value : StoredClaim) : Dict PairingId StoredClaim :=
  if confirmMaxAttempts ≤ value.confirmAttempts + 1 then claims.erase pairingId
  else claims.set pairingId { value with confirmAttempts := value.confirmAttempts + 1 }

def ownsPairing (owner actor : OwnerIdentity) : Except PoolError Bool :=
  if owner.kind ≠ actor.kind then .ok false else compareDigest owner.openId actor.openId

def activateClaim (digests : PairingDigests) (state : PoolState) (botId : BotId)
    (pairingId : PairingId) (confirmWord : String) (actor : OwnerIdentity) (expected : Nat)
    (bindingId : PairingId) (now : Time) : PoolOutcome BotBinding :=
  .check (state.revised botId expected) fun bot =>
    if !bot.enabled then .raises (.revoked botId)
    else
      match bot.claims.lookup pairingId with
      | none => .raises (.pairingNotFound pairingId)
      | some value =>
        .check (ownerFromDict value.owner "claim") fun owner =>
        .check (ownsPairing owner actor) fun owned =>
          if !owned then .raises (.pairingNotOwned pairingId)
          else
            .check (compareDigest value.confirmDigest
              (digests.confirm botId pairingId confirmWord)) fun same =>
              if !same then
                .saves
                  (state.setRecord botId
                    (.live ({ bot with
                      claims := missClaim bot.claims pairingId value }.touch now)))
                  (.missed pairingId) (.error (.pairingMismatch pairingId))
              else if bot.binding.isSome then .raises (.occupied botId)
              else
                .check (asText value.tabId "claim.tab_id" maxIdChars) fun tabId =>
                .check (state.requireTabFree tabId botId) fun _ =>
                  let binding : StoredBinding :=
                    { owner, pairingId := bindingId, tabId, workspaceId := value.workspaceId
                      senderOpenId := value.senderOpenId, chatId := value.chatId
                      createdAt := now, generation := bot.generation }
                  .saves
                    (state.setRecord botId
                      (.live ({ bot with
                        binding := some binding
                        claims := Table.empty
                        pending := Table.empty }.touch now)))
                    (.activated pairingId actor confirmWord) (bindingFromDict botId binding)

def releaseBinding (state : PoolState) (botId : BotId) (expected : Nat) (now : Time) :
    PoolOutcome (Option BotBinding) :=
  .check (state.revised botId expected) fun bot =>
    .check (bot.binding.mapM (bindingFromDict botId)) fun released =>
      .saves (state.setRecord botId (.live (bot.advanceGeneration.touch now))) .edited
        (.ok released)

def dropBinding (state : PoolState) (botId : BotId) (pairingId : PairingId) (now : Time) :
    PoolOutcome Bool :=
  match state.bots.lookup botId with
  | some (.live bot) =>
    if bot.binding.map StoredBinding.pairingId = some pairingId then
      .saves (state.setRecord botId (.live (bot.advanceGeneration.touch now))) .edited (.ok true)
    else .returns false
  | _ => .returns false

/-- `_load_synced`, and what is read off the state. -/
def synced {α : Type} (state : PoolState) (environ : Environ) (now : Time)
    (read : PoolState → Except PoolError α) : PoolOutcome α :=
  let (next, changed) := state.syncEnvEntry environ now
  if changed then .saves next .edited (read next)
  else
    match read next with
    | .error error => .raises error
    | .ok value => .returns value

def route (state : PoolState) (botId : BotId) (senderOpenId : String) (chatId : Option String)
    (environ : Environ) (now : Time) : Except PoolError (Option BotBinding) := do
  match state.bots.lookup botId with
  | some (.live bot) =>
    let entry ← entryView botId bot (environmentConfig environ) now
    match entry.binding with
    | none => return none
    | some binding =>
      if !entry.enabled then return none
      else if !(← compareDigest binding.senderOpenId senderOpenId) then return none
      else
        match chatId with
        | none => return some binding
        | some chatId =>
          if !(← compareDigest binding.chatId chatId) then return none
          else return some binding
  | _ => return none

def routedBinding (state : PoolState) (botId : BotId) (senderOpenId chatId : String)
    (environ : Environ) (now : Time) : PoolOutcome (Option BotBinding) :=
  state.synced environ now fun state => state.route botId senderOpenId (some chatId) environ now

def routedBindingForSender (state : PoolState) (botId : BotId) (senderOpenId : String)
    (environ : Environ) (now : Time) : PoolOutcome (Option BotBinding) :=
  state.synced environ now fun state => state.route botId senderOpenId none environ now

end PoolState

end ClaudeHub
