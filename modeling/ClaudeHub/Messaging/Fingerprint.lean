import ClaudeHub.GoalProtocol.Letters
import ClaudeHub.Lib.Lines
import ClaudeHub.Lib.Separated
import Mathlib.Data.List.Forall2
import Mathlib.Data.Set.Function

/-! # Fingerprints of payloads

A fingerprint digests a message and its attachments as they are sent. For calls from before there
were fingerprints it is computed of what is stored, where the names of files are made safe.
-/

namespace ClaudeHub

open Lines

structure WorkspaceAttachmentCreate where
  filename : List Char
  mimeType : List Char
  dataUrl : List Char
  deriving DecidableEq, Repr

structure PreparedAttachment where
  filename : List Char
  mimeType : List Char
  content : List UInt8
  deriving DecidableEq, Repr

structure SentPayload where
  message : List Char
  attachments : List WorkspaceAttachmentCreate
  deriving DecidableEq, Repr

inductive Base64Error
  /-- A letter that is not ASCII: `ValueError` -/
  | letters
  /-- `binascii.Error` -/
  | invalid
  deriving DecidableEq, Repr

def base64Bits (c : Char) : Option Nat :=
  if c.isUpper then some (c.toNat - 'A'.toNat)
  else if c.isLower then some (c.toNat - 'a'.toNat + 26)
  else if c.isDigit then some (c.toNat - '0'.toNat + 52)
  else if c = '+' then some 62
  else if c = '/' then some 63
  else none

def base64Groups : List Char → Option (List UInt8)
  | [] => some []
  | [a, b, '=', '='] => do
      let a ← base64Bits a
      let b ← base64Bits b
      return [UInt8.ofNat (a * 4 + b / 16)]
  | [a, b, c, '='] => do
      let a ← base64Bits a
      let b ← base64Bits b
      let c ← base64Bits c
      return [UInt8.ofNat (a * 4 + b / 16), UInt8.ofNat (b % 16 * 16 + c / 4)]
  | a :: b :: c :: d :: rest => do
      let a ← base64Bits a
      let b ← base64Bits b
      let c ← base64Bits c
      let d ← base64Bits d
      let bytes ← base64Groups rest
      return UInt8.ofNat (a * 4 + b / 16) :: UInt8.ofNat (b % 16 * 16 + c / 4) ::
        UInt8.ofNat (c % 4 * 64 + d) :: bytes
  | _ => none

/-- `base64.b64decode` with `validate=True` -/
def b64decode (text : List Char) : Except Base64Error (List UInt8) :=
  if text.any fun c => 128 ≤ c.toNat then .error .letters
  else
    match base64Groups text with
    | none => .error .invalid
    | some bytes => .ok bytes

def pathComponents (path : List Char) : List (List Char) → List (List Char)
  | components =>
    match path with
    | [] => components
    | c :: cs =>
      if c = '/' then pathComponents cs (components ++ [[]])
      else pathComponents cs (components.dropLast ++ [components.getLastD [] ++ [c]])

/-- `Path.name` -/
def pathName (path : List Char) : List Char :=
  ((pathComponents path [[]]).filter fun part => part ≠ [] ∧ part ≠ ['.']).getLastD []

/-- `Path.stem` -/
def pathStem (path : List Char) : List Char :=
  let name := pathName path
  let suffix := name.reverse.takeWhile (· ≠ '.')
  let i := name.length - suffix.length - 1
  if suffix.length < name.length ∧ 0 < i ∧ suffix ≠ [] then name.take i else name

def isSlugLetter (c : Char) : Bool :=
  c.isAlpha || c.isDigit || c = '.' || c = '_' || c = '-'

def dashRuns : List Char → List Char
  | [] => []
  | c :: cs =>
    if isSlugLetter c then c :: dashRuns cs
    else
      match cs with
      | [] => ['-']
      | d :: _ => if isSlugLetter d then '-' :: dashRuns cs else dashRuns cs

def stripDots (text : List Char) : List Char :=
  let outer := fun c : Char => c = '.' || c = '-'
  ((text.dropWhile outer).reverse.dropWhile outer).reverse

def safeAttachmentFilename (value suffix : List Char) : List Char :=
  let slug := stripDots (dashRuns (pathStem (if value = [] then "attachment".toList else value)))
  (if slug = [] then "attachment".toList else slug) ++ suffix

def imageAttachmentTypes : List (List Char × List Char) :=
  [("image/gif".toList, ".gif".toList), ("image/jpeg".toList, ".jpg".toList),
    ("image/png".toList, ".png".toList), ("image/webp".toList, ".webp".toList),
    ("image/bmp".toList, ".bmp".toList)]

def imageAttachmentSignatures : List (List Char × List (List UInt8)) :=
  [("image/png".toList, [[0x89, 0x50, 0x4E, 0x47, 0x0D, 0x0A, 0x1A, 0x0A]]),
    ("image/jpeg".toList, [[0xFF, 0xD8, 0xFF]]),
    ("image/gif".toList,
      [[0x47, 0x49, 0x46, 0x38, 0x37, 0x61], [0x47, 0x49, 0x46, 0x38, 0x39, 0x61]]),
    ("image/webp".toList, [[0x52, 0x49, 0x46, 0x46]]), ("image/bmp".toList, [[0x42, 0x4D]])]

def attachmentMaxBytes : Nat := 8 * 1024 * 1024

def validateImageSignature (mimeType : List Char) (content : List UInt8) : Except String Unit :=
  match imageAttachmentSignatures.lookup mimeType with
  | none => .error ("Unsupported attachment type: " ++ String.ofList mimeType)
  | some signatures =>
    if signatures.any fun signature => signature.isPrefixOf content then
      if mimeType = "image/webp".toList ∧
          (content.length < 12 ∨ (content.drop 8).take 4 ≠ [0x57, 0x45, 0x42, 0x50]) then
        .error "Attachment bytes do not match declared image type image/webp"
      else .ok ()
    else
      .error ("Attachment bytes do not match declared image type " ++ String.ofList mimeType)

section Prepare

variable (table : LowerTable)

def normalizedMime (mimeType : List Char) : List Char := table.lower (strip mimeType)

/-- The part of `_prepare_attachments` that reads the bytes of one attachment -/
def readAttachment (mimeType dataUrl : List Char) : Except String (List UInt8) :=
  let header := "data:".toList ++ mimeType ++ ";base64,".toList
  if header.isPrefixOf dataUrl then
    match b64decode (dataUrl.drop header.length) with
    | .error .letters => .error "string argument should contain only ASCII characters"
    | .error .invalid => .error "Invalid attachment data"
    | .ok content =>
      if content = [] then .error "Attachment data is empty"
      else if attachmentMaxBytes < content.length then .error "Attachment exceeds the 8 MB limit"
      else (validateImageSignature mimeType content).map fun _ => content
  else .error "Attachment data must be a matching base64 data URL"

/-- The loop body of `_prepare_attachments` -/
def prepareAttachment (item : WorkspaceAttachmentCreate) : Except String PreparedAttachment :=
  let mimeType := normalizedMime table item.mimeType
  match imageAttachmentTypes.lookup mimeType with
  | none => .error ("Unsupported attachment type: " ++ String.ofList item.mimeType)
  | some suffix =>
    (readAttachment mimeType item.dataUrl).map fun content =>
      ⟨safeAttachmentFilename item.filename suffix, mimeType, content⟩

/-- `_prepare_attachments` -/
def prepareWorkspaceAttachments (items : List WorkspaceAttachmentCreate) :
    Except String (List PreparedAttachment) :=
  items.mapM (prepareAttachment table)

end Prepare

def nul : Char := '\x00'

/-- `str.encode` with UTF-8 -/
def utf8 (text : List Char) : List UInt8 := text.flatMap String.utf8EncodeChar

def hexLetter (n : Nat) : Char := if n < 10 then Char.ofNat (48 + n) else Char.ofNat (87 + n)

/-- `hexdigest`, of the bytes of a digest -/
def hexdigest (digest : List UInt8) : List Char :=
  digest.flatMap fun byte => [hexLetter (byte.toNat / 16), hexLetter (byte.toNat % 16)]

section Fingerprint

variable (table : LowerTable) (sha256 : List UInt8 → List UInt8)

def attachmentBytes (item : WorkspaceAttachmentCreate) : List UInt8 :=
  match item.dataUrl.dropWhile (· ≠ ',') with
  | [] => []
  | _ :: text =>
    match b64decode text with
    | .error _ => []
    | .ok bytes => bytes

def attachmentFields (filename mimeType : List Char) (content : List UInt8) : List UInt8 :=
  0 :: (utf8 filename ++ 0 :: (utf8 (normalizedMime table mimeType) ++ 0 :: sha256 content))

def payloadEncoding (payload : SentPayload) : List UInt8 :=
  utf8 payload.message ++ payload.attachments.flatMap fun item =>
    attachmentFields table sha256 item.filename item.mimeType (attachmentBytes item)

def computePayloadFingerprint (payload : SentPayload) : List Char :=
  hexdigest (sha256 (payloadEncoding table sha256 payload))

def persistedEncoding (message : List Char) (attachments : List PreparedAttachment) : List UInt8 :=
  utf8 message ++ attachments.flatMap fun item =>
    attachmentFields table sha256 item.filename item.mimeType item.content

/-- `_compute_persisted_payload_fingerprint`, of files that can be read -/
def computePersistedPayloadFingerprint (message : List Char)
    (attachments : List PreparedAttachment) : List Char :=
  hexdigest (sha256 (persistedEncoding table sha256 message attachments))

end Fingerprint

end ClaudeHub
