import ClaudeHub.Lib.Lines
import ClaudeHub.Lib.Table
import ClaudeHub.Models.Enums

/-! # Delivery evidence of a managed Chat

The sidecar file of a session has one record for each message that was handed to the
provider, or was about to be. Digests are carried as what they digest.
-/

namespace ClaudeHub

abbrev ImageBytes := List UInt8

def maxImageBytes : Nat := 20 * 1024 * 1024

/-- `detect_image_mime`: the type that the first bytes tell. -/
def detectImageMime (data : ImageBytes) : Option String :=
  if data = [] ∨ maxImageBytes < data.length then none
  else if [0x89, 0x50, 0x4E, 0x47, 0x0D, 0x0A, 0x1A, 0x0A] <+: data then some "image/png"
  else if [0xFF, 0xD8, 0xFF] <+: data then some "image/jpeg"
  else if [0x47, 0x49, 0x46, 0x38, 0x37, 0x61] <+: data ∨
      [0x47, 0x49, 0x46, 0x38, 0x39, 0x61] <+: data then some "image/gif"
  else if data.take 4 = [0x52, 0x49, 0x46, 0x46] ∧
      (data.take 12).drop 8 = [0x57, 0x45, 0x42, 0x50] then some "image/webp"
  else if [0x42, 0x4D] <+: data then some "image/bmp"
  else none

def imageMimeTypes : List String := ["image/png", "image/jpeg", "image/gif", "image/webp"]

/-- The reasons of a `ValueError`. -/
inductive ChatValueError
  | terminalSession
  | blankCallId
  | emptyMessage
  | attachmentUnavailable (filename : String)
  | attachmentDataUrl (text : String)
  | attachmentMimeMismatch (filename : String)
  | attachmentTooLarge (filename : String)
  | attachmentUnsupported (filename : String)
  | differentPayload (callId : String)
  deriving DecidableEq, Repr

/-- An attachment with its bytes: read from where the workspace stored it, or decoded from
its data URL together with the type that the URL names. -/
inductive ChatAttachment
  | stored (filename mimeType : String) (data : Option ImageBytes)
  | created (filename mimeType : String) (decoded : Except String (String × ImageBytes))

structure ImageIdentity where
  filename : String
  mimeType : String
  sha256 : ImageBytes
  sizeBytes : Nat
  deriving DecidableEq, Repr

def validatedImage (filename declaredMime : String) (data : ImageBytes) :
    Except ChatValueError ImageIdentity :=
  if maxImageBytes < data.length then .error (.attachmentTooLarge filename)
  else if declaredMime ∉ imageMimeTypes ∨ detectImageMime data ≠ some declaredMime then
    .error (.attachmentUnsupported filename)
  else .ok ⟨filename, declaredMime, data, data.length⟩

def ChatAttachment.identity : ChatAttachment → Except ChatValueError ImageIdentity
  | .stored filename mimeType data =>
    match data with
    | none => .error (.attachmentUnavailable filename)
    | some data => validatedImage filename mimeType data
  | .created filename mimeType decoded =>
    match decoded with
    | .error text => .error (.attachmentDataUrl text)
    | .ok (encodedMime, data) =>
      if encodedMime ≠ mimeType then .error (.attachmentMimeMismatch filename)
      else validatedImage filename mimeType data

/-- `_prepare_attachments`, of which only the identities matter here. -/
def prepareAttachments (attachments : List ChatAttachment) :
    Except ChatValueError (List ImageIdentity) :=
  attachments.mapM ChatAttachment.identity

/-- What `_payload_digest` digests. -/
structure ChatPayload where
  text : String
  attachments : List ImageIdentity
  deriving DecidableEq, Repr

inductive AttemptState
  | sending | accepted | uncertain | other
  deriving DecidableEq, Repr

structure DeliveryAttempt where
  payloadSha256 : Option ChatPayload
  processToken : Option String
  state : AttemptState
  turnId : Option String
  deriving DecidableEq, Repr

inductive AttemptRecord
  | attempt (record : DeliveryAttempt)
  | malformed
  deriving DecidableEq, Repr

abbrev Attempts := Dict String AttemptRecord

inductive EvidenceFile
  | absent
  | attempts (records : Attempts)
  | unreadable
  | invalid
  deriving DecidableEq

inductive ProviderException
  | nativeInputNotSubmitted | exception | cancelled
  deriving DecidableEq, Repr

/-- What `send_message` raises. -/
inductive ChatSendError
  | valueError (reason : ChatValueError)
  | alreadySending (callId : String)
  | deliveryUncertain (callId : String)
  | evidenceUnreadable
  | evidenceInvalid
  | writeFailed
  | raised (exc : ProviderException)
  deriving DecidableEq, Repr

namespace EvidenceFile

def readAttempts : EvidenceFile → Except ChatSendError Attempts
  | .absent => .ok Table.empty
  | .attempts records => .ok records
  | .unreadable => .error .evidenceUnreadable
  | .invalid => .error .evidenceInvalid

def writeAttempts (file : EvidenceFile) (records : Attempts) : SaveOutcome → EvidenceFile
  | .notReplaced => file
  | .saved | .replacedThenRaised => .attempts records

end EvidenceFile

inductive ChatDeliveryState
  | notSent | sending | accepted | uncertain
  deriving DecidableEq, Repr

def recordDeliveryState (delivered : List String) (token callId : String) :
    Option AttemptRecord → ChatDeliveryState
  | record =>
    if callId ∈ delivered then .accepted
    else
      match record with
      | some (.attempt attempt) =>
        match attempt.state with
        | .accepted => .accepted
        | .uncertain => .uncertain
        | .sending => if attempt.processToken = some token then .sending else .uncertain
        | .other => .uncertain
      | _ => .notSent

namespace Attempts

def mark (records : Attempts) (callId : String) (state : AttemptState) : Attempts :=
  match records.lookup callId with
  | some (.attempt attempt) => records.set callId (.attempt { attempt with state := state })
  | _ => records

theorem lookup_mark (records : Attempts) (callId : String) (state : AttemptState) (key : String) :
    (records.mark callId state).lookup key =
      if key = callId then
        (records.lookup key).map fun record =>
          match record with
          | .attempt attempt => .attempt { attempt with state := state }
          | .malformed => .malformed
      else records.lookup key := by
  unfold mark
  split
  next attempt hlookup =>
    rw [Dict.lookup_set]
    split
    next heq => simp [heq, hlookup]
    · rfl
  next hnone =>
    split
    next heq =>
      subst heq
      cases hlookup : records.lookup key with
      | none => rfl
      | some record =>
        cases record with
        | attempt attempt => exact absurd hlookup (hnone attempt)
        | malformed => rfl
    · rfl

end Attempts

end ClaudeHub
