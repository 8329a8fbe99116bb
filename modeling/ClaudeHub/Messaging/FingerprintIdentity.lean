import ClaudeHub.Lib.Except
import ClaudeHub.Messaging.Fingerprint

/-! # What a fingerprint tells apart

Fields end at zero bytes and digests have a fixed length, so a payload without the character NUL is
read back from what is digested. The persisted form agrees as far as its file names do.
-/

namespace ClaudeHub

open Lines Separated

theorem utf8_injective {a b : List Char} (h : utf8 a = utf8 b) : a = b := by
  have hbytes : a.utf8Encode = b.utf8Encode := congrArg List.toByteArray h
  have hread := congrArg ByteArray.utf8Decode? hbytes
  rw [List.utf8Decode?_utf8Encode, List.utf8Decode?_utf8Encode, Option.some.injEq] at hread
  exact List.toArray_inj hread

theorem utf8_append (a b : List Char) : utf8 (a ++ b) = utf8 a ++ utf8 b := List.flatMap_append

theorem utf8_cons_nul (text : List Char) : utf8 (nul :: text) = 0 :: utf8 text := rfl

theorem zero_mem_utf8EncodeChar {c : Char} (h : (0 : UInt8) ∈ String.utf8EncodeChar c) :
    c = nul := by
  have hmod : ∀ n : Nat, (0 : UInt8) = UInt8.ofNat n → n % 256 = 0 := by
    intro n hn
    have hnat := congrArg UInt8.toNat hn
    simpa using hnat.symm
  have hhigh : ∀ n : Nat, n % 256 ≠ 0 → (0 : UInt8) ≠ UInt8.ofNat n :=
    fun n hne heq => hne (hmod n heq)
  revert h
  fun_cases String.utf8EncodeChar c
  · next v hle =>
      intro h
      rw [List.mem_singleton] at h
      have hv := hmod v h
      have hval : c.val.toNat = 0 := by omega
      exact Char.ext (UInt32.toNat_inj.mp hval)
  · intro h
    simp only [List.mem_cons, List.not_mem_nil, or_false] at h
    rcases h with h | h <;> exact absurd h (hhigh _ (by omega))
  · intro h
    simp only [List.mem_cons, List.not_mem_nil, or_false] at h
    rcases h with h | h | h <;> exact absurd h (hhigh _ (by omega))
  · intro h
    simp only [List.mem_cons, List.not_mem_nil, or_false] at h
    rcases h with h | h | h | h <;> exact absurd h (hhigh _ (by omega))

theorem zero_not_mem_utf8 {text : List Char} (h : nul ∉ text) : (0 : UInt8) ∉ utf8 text := by
  intro hmem
  obtain ⟨c, hc, hzero⟩ := List.mem_flatMap.mp hmem
  rw [zero_mem_utf8EncodeChar hzero] at hc
  exact h hc

theorem hexLetter_injective {m n : Nat} (hm : m < 16) (hn : n < 16)
    (h : hexLetter m = hexLetter n) : m = n := by
  have hall : ∀ m n : Fin 16, hexLetter m = hexLetter n → m = n := by decide
  exact Fin.mk.inj (hall ⟨m, hm⟩ ⟨n, hn⟩ h)

theorem hexdigest_injective {a b : List UInt8} (h : hexdigest a = hexdigest b) : a = b := by
  induction a generalizing b with
  | nil =>
    cases b with
    | nil => rfl
    | cons => exact absurd h (by simp [hexdigest])
  | cons x a ih =>
    cases b with
    | nil => exact absurd h (by simp [hexdigest])
    | cons y =>
      simp only [hexdigest, List.flatMap_cons, List.cons_append, List.nil_append,
        List.cons.injEq] at h
      obtain ⟨hhigh, hlow, hrest⟩ := h
      have hx := UInt8.toNat_lt x
      have hy := UInt8.toNat_lt y
      have hdiv := hexLetter_injective (by omega) (by omega) hhigh
      have hmod := hexLetter_injective (by omega) (by omega) hlow
      have hsame : x.toNat = y.toNat := by omega
      rw [UInt8.toNat_inj.mp hsame, ih hrest]

/-- The bytes of the fields of one attachment: its name, its type and its digest. -/
structure FieldBytes where
  name : List UInt8
  mime : List UInt8
  digest : List UInt8

namespace FieldBytes

def encode (fields : FieldBytes) : List UInt8 :=
  0 :: (fields.name ++ 0 :: (fields.mime ++ 0 :: fields.digest))

/-- The name and the type have no zero byte, and the digest is a digest. -/
structure Plain (fields : FieldBytes) : Prop where
  name : (0 : UInt8) ∉ fields.name
  mime : (0 : UInt8) ∉ fields.mime
  digest : fields.digest.length = 32

theorem encode_injective {xs ys : List FieldBytes} (hx : ∀ x ∈ xs, x.Plain) (hy : ∀ y ∈ ys, y.Plain)
    (h : xs.flatMap encode = ys.flatMap encode) : xs = ys := by
  induction xs generalizing ys with
  | nil =>
    cases ys with
    | nil => rfl
    | cons => exact absurd h (by simp [encode])
  | cons x xs ih =>
    cases ys with
    | nil => exact absurd h (by simp [encode])
    | cons y =>
      have hxp := hx x List.mem_cons_self
      have hyp := hy y List.mem_cons_self
      simp only [List.flatMap_cons, encode, List.cons_append, List.append_assoc,
        List.cons.injEq, true_and] at h
      obtain ⟨hname, hrest⟩ := append_sep_inj hxp.name hyp.name h
      obtain ⟨hmime, hrest⟩ := append_sep_inj hxp.mime hyp.mime hrest
      obtain ⟨hdigest, hrest⟩ :=
        List.append_inj hrest (hxp.digest.trans hyp.digest.symm)
      have htail := ih (fun z hz => hx z (List.mem_cons_of_mem _ hz))
        (fun z hz => hy z (List.mem_cons_of_mem _ hz)) hrest
      obtain ⟨name, mime, digest⟩ := x
      rw [htail]
      dsimp only at hname hmime hdigest
      rw [hname, hmime, hdigest]

theorem text_injective {a b : List UInt8} {xs ys : List FieldBytes} (ha : (0 : UInt8) ∉ a)
    (hb : (0 : UInt8) ∉ b) (hx : ∀ x ∈ xs, x.Plain) (hy : ∀ y ∈ ys, y.Plain)
    (h : a ++ xs.flatMap encode = b ++ ys.flatMap encode) : a = b ∧ xs = ys := by
  have hsplit : a = b ∧ xs.flatMap encode = ys.flatMap encode := by
    cases xs with
    | nil =>
      cases ys with
      | nil =>
        simp only [List.flatMap_nil, List.append_nil] at h
        exact ⟨h, rfl⟩
      | cons =>
        apply absurd ha
        rw [not_not]
        rw [List.flatMap_nil, List.append_nil] at h
        rw [h]
        simp [encode]
    | cons =>
      cases ys with
      | nil =>
        apply absurd hb
        rw [not_not]
        rw [List.flatMap_nil, List.append_nil] at h
        rw [← h]
        simp [encode]
      | cons =>
        simp only [List.flatMap_cons, encode, List.cons_append] at h ⊢
        obtain ⟨hab, hrest⟩ := append_sep_inj ha hb h
        exact ⟨hab, congrArg _ hrest⟩
  exact ⟨hsplit.1, encode_injective hx hy hsplit.2⟩

end FieldBytes

section Accepted

variable {table : LowerTable} {item : WorkspaceAttachmentCreate} {prepared : PreparedAttachment}

theorem lower_eq_self {text : List Char}
    (h : (text.all fun c => decide (c.toNat < 128 ∧ c.toLower = c)) = true) :
    table.lower text = text := by
  induction text with
  | nil => rfl
  | cons c text ih =>
    rw [List.all_cons, Bool.and_eq_true] at h
    obtain ⟨hascii, hlower⟩ := of_decide_eq_true h.1
    have hc : table.lowerChar c = [c] := by
      rw [LowerTable.lowerChar, if_pos hascii, hlower]
    have htext := ih h.2
    rw [LowerTable.lower] at htext ⊢
    rw [List.flatMap_cons, htext, hc]
    rfl

theorem imageType_plain {mimeType suffix : List Char}
    (h : imageAttachmentTypes.lookup mimeType = some suffix) :
    normalizedMime table mimeType = mimeType ∧ ',' ∉ mimeType ∧ nul ∉ mimeType ∧ nul ∉ suffix := by
  have hmem : (mimeType, suffix) ∈ imageAttachmentTypes := by
    obtain ⟨front, rest, hsplit, -⟩ := List.lookup_eq_some_iff.mp h
    rw [hsplit]
    simp
  have hall : imageAttachmentTypes.all (fun entry => (strip entry.1 == entry.1) &&
      (entry.1.all fun c => decide (c.toNat < 128 ∧ c.toLower = c)) &&
      !entry.1.contains ',' && !entry.1.contains nul && !entry.2.contains nul) = true := by
    decide +kernel
  have hentry := List.all_eq_true.mp hall _ hmem
  simp only [Bool.and_eq_true, Bool.not_eq_true', beq_iff_eq] at hentry
  obtain ⟨⟨⟨⟨hstrip, hlower⟩, hcomma⟩, hnul⟩, hsuffix⟩ := hentry
  refine ⟨?_, ?_, ?_, ?_⟩
  · rw [normalizedMime, hstrip, lower_eq_self hlower]
  · simpa using hcomma
  · simpa using hnul
  · simpa using hsuffix

theorem dropWhile_ne_comma {front rest : List Char} (h : ',' ∉ front) :
    (front ++ ',' :: rest).dropWhile (· ≠ ',') = ',' :: rest := by
  induction front with
  | nil => rfl
  | cons c front ih =>
    rw [List.mem_cons, not_or] at h
    have hc : c ≠ ',' := fun heq => h.1 heq.symm
    rw [List.cons_append, List.dropWhile_cons_of_pos (by simpa using hc), ih h.2]

/-- What it takes for an attachment to be accepted, and what it is stored as. -/
structure Accepted (table : LowerTable) (item : WorkspaceAttachmentCreate)
    (prepared : PreparedAttachment) : Prop where
  image : ∃ suffix, imageAttachmentTypes.lookup (normalizedMime table item.mimeType) = some suffix ∧
    prepared.filename = safeAttachmentFilename item.filename suffix
  mimeType : prepared.mimeType = normalizedMime table item.mimeType
  content : prepared.content = attachmentBytes item

theorem readAttachment_ok {mimeType dataUrl : List Char} {content : List UInt8}
    (h : readAttachment mimeType dataUrl = .ok content) :
    ∃ text, dataUrl = ("data:".toList ++ mimeType ++ ";base64".toList) ++ ',' :: text ∧
      b64decode text = .ok content := by
  unfold readAttachment at h
  dsimp only at h
  split at h
  · next hheader =>
      obtain ⟨text, rfl⟩ := List.isPrefixOf_iff_prefix.mp hheader
      rw [List.drop_left] at h
      refine ⟨text, by simp, ?_⟩
      split at h
      · exact nomatch h
      · exact nomatch h
      · next content' hdecode =>
          split at h
          · exact nomatch h
          · split at h
            · exact nomatch h
            · obtain ⟨_, -, rfl⟩ := Except.map_ok_iff.1 h
              exact hdecode
  · exact nomatch h

theorem accepted_of_prepare (h : prepareAttachment table item = .ok prepared) :
    Accepted table item prepared := by
  unfold prepareAttachment at h
  dsimp only at h
  split at h
  · contradiction
  · next suffix hlookup =>
      obtain ⟨content, hread, rfl⟩ := Except.map_ok_iff.1 h
      obtain ⟨text, hurl, hdecode⟩ := readAttachment_ok hread
      refine ⟨⟨suffix, hlookup, rfl⟩, rfl, ?_⟩
      have hcomma : ',' ∉ "data:".toList ++ normalizedMime table item.mimeType ++
          ";base64".toList := by
        have hmime := (@imageType_plain table _ _ hlookup).2.1
        simp only [List.mem_append, not_or]
        exact ⟨⟨by decide, hmime⟩, by decide⟩
      rw [attachmentBytes, hurl, dropWhile_ne_comma hcomma]
      dsimp only
      rw [hdecode]

theorem prepare_renamed (h : prepareAttachment table item = .ok prepared) (filename : List Char) :
    ∃ renamed, prepareAttachment table { item with filename := filename } = .ok renamed := by
  unfold prepareAttachment at h ⊢
  dsimp only at h ⊢
  split at h
  · contradiction
  · next suffix hlookup =>
      obtain ⟨content, hread, -⟩ := Except.map_ok_iff.1 h
      rw [hread]
      exact ⟨_, rfl⟩

end Accepted

theorem slug_dashRuns {text : List Char} : ∀ c ∈ dashRuns text, c ≠ nul := by
  induction text with
  | nil => exact fun c hc => absurd hc List.not_mem_nil
  | cons d text ih =>
    intro c hc
    unfold dashRuns at hc
    split at hc
    · next hletter =>
        rcases List.mem_cons.mp hc with rfl | hrest
        · intro heq
          rw [heq] at hletter
          exact absurd hletter (by decide)
        · exact ih c hrest
    · cases text with
      | nil =>
        rw [List.mem_singleton.mp hc]
        decide
      | cons =>
        dsimp only at hc
        split at hc
        · rcases List.mem_cons.mp hc with rfl | hrest
          · decide
          · exact ih c hrest
        · exact ih c hc

theorem nul_not_mem_safe (value : List Char) {suffix : List Char} (h : nul ∉ suffix) :
    nul ∉ safeAttachmentFilename value suffix := by
  rw [safeAttachmentFilename]
  generalize (if value = [] then "attachment".toList else value) = named
  rw [List.mem_append, not_or]
  refine ⟨?_, h⟩
  split
  · decide
  · intro hmem
    have hinner := (List.dropWhile_sublist _).mem (List.mem_reverse.mp hmem)
    have hslug := (List.dropWhile_sublist _).mem (List.mem_reverse.mp hinner)
    exact slug_dashRuns nul hslug rfl

/-! ## Payloads -/

structure AttachmentContents where
  filename : List Char
  mimeType : List Char
  content : List UInt8
  deriving DecidableEq

namespace AttachmentContents

/-- The character that separates fields is not in the name or the type. -/
structure Plain (part : AttachmentContents) : Prop where
  filename : nul ∉ part.filename
  mimeType : nul ∉ part.mimeType

def fieldBytes (sha256 : List UInt8 → List UInt8) (part : AttachmentContents) : FieldBytes where
  name := utf8 part.filename
  mime := utf8 part.mimeType
  digest := sha256 part.content

variable {sha256 : List UInt8 → List UInt8} {xs ys : List AttachmentContents}

theorem fieldBytes_plain (hlength : ∀ bytes, (sha256 bytes).length = 32)
    (h : ∀ x ∈ xs, x.Plain) : ∀ fields ∈ xs.map (fieldBytes sha256), fields.Plain := by
  intro fields hfields
  obtain ⟨x, hmem, rfl⟩ := List.mem_map.mp hfields
  exact ⟨zero_not_mem_utf8 (h x hmem).filename, zero_not_mem_utf8 (h x hmem).mimeType, hlength _⟩

theorem fieldBytes_injective {s : Set (List UInt8)} (hinj : Set.InjOn sha256 s)
    (hx : ∀ x ∈ xs, x.content ∈ s) (hy : ∀ y ∈ ys, y.content ∈ s)
    (h : xs.map (fieldBytes sha256) = ys.map (fieldBytes sha256)) : xs = ys := by
  induction xs generalizing ys with
  | nil => exact (List.map_eq_nil_iff.mp h.symm).symm
  | cons x xs ih =>
    cases ys with
    | nil => exact absurd h (by simp)
    | cons y =>
      rw [List.map_cons, List.map_cons, List.cons.injEq] at h
      have hname := utf8_injective (congrArg FieldBytes.name h.1)
      have hmime := utf8_injective (congrArg FieldBytes.mime h.1)
      have hcontent := hinj (hx x List.mem_cons_self) (hy y List.mem_cons_self)
        (congrArg FieldBytes.digest h.1)
      have hrest := ih (fun z hz => hx z (List.mem_cons_of_mem _ hz))
        (fun z hz => hy z (List.mem_cons_of_mem _ hz)) h.2
      obtain ⟨filename, mimeType, content⟩ := x
      rw [hrest]
      dsimp only at hname hmime hcontent
      rw [hname, hmime, hcontent]

theorem read_back {s : Set (List UInt8)} (hlength : ∀ bytes, (sha256 bytes).length = 32)
    (hinj : Set.InjOn sha256 s) (hx : ∀ x ∈ xs, x.Plain ∧ x.content ∈ s)
    (hy : ∀ y ∈ ys, y.Plain ∧ y.content ∈ s)
    (h : (xs.map (fieldBytes sha256)).flatMap FieldBytes.encode =
      (ys.map (fieldBytes sha256)).flatMap FieldBytes.encode) : xs = ys := by
  apply fieldBytes_injective hinj (fun x hmem => (hx x hmem).2) fun y hmem => (hy y hmem).2
  exact FieldBytes.encode_injective (fieldBytes_plain hlength fun x hmem => (hx x hmem).1)
    (fieldBytes_plain hlength fun y hmem => (hy y hmem).1) h

end AttachmentContents

def PreparedAttachment.contents (table : LowerTable) (item : PreparedAttachment) :
    AttachmentContents :=
  ⟨item.filename, normalizedMime table item.mimeType, item.content⟩

namespace SentPayload

variable (table : LowerTable)

def parts (payload : SentPayload) : List AttachmentContents :=
  payload.attachments.map fun item =>
    ⟨item.filename, normalizedMime table item.mimeType, attachmentBytes item⟩

def contents (payload : SentPayload) : List Char × List AttachmentContents :=
  (payload.message, payload.parts table)

/-- The character that separates fields is in no name of a file. -/
def PlainNames (payload : SentPayload) : Prop :=
  ∀ item ∈ payload.attachments, nul ∉ item.filename

def SafeNames (payload : SentPayload) : Prop :=
  ∀ item ∈ payload.attachments, ∀ suffix,
    imageAttachmentTypes.lookup (normalizedMime table item.mimeType) = some suffix →
      safeAttachmentFilename item.filename suffix = item.filename

/-- The separator is in the message or in the name of the first file. -/
def SplitsEarly (payload : SentPayload) : Prop :=
  ∃ item rest, payload.attachments = item :: rest ∧ (nul ∈ payload.message ∨ nul ∈ item.filename)

end SentPayload

section Payloads

variable {table : LowerTable} {sha256 : List UInt8 → List UInt8} {payload other : SentPayload}
  {prepared : List PreparedAttachment}

def digested (table : LowerTable) (sha256 : List UInt8 → List UInt8) (payload : SentPayload)
    (prepared : List PreparedAttachment) : List (List UInt8) :=
  payloadEncoding table sha256 payload ::
    persistedEncoding table sha256 payload.message prepared ::
      payload.attachments.map attachmentBytes

theorem payloadEncoding_eq (payload : SentPayload) : payloadEncoding table sha256 payload =
    utf8 payload.message ++
      ((payload.parts table).map (AttachmentContents.fieldBytes sha256)).flatMap
        FieldBytes.encode := by
  rw [payloadEncoding, SentPayload.parts, List.map_map, List.flatMap_map]
  rfl

theorem persistedEncoding_eq (message : List Char) (attachments : List PreparedAttachment) :
    persistedEncoding table sha256 message attachments = utf8 message ++
      ((attachments.map (PreparedAttachment.contents table)).map
        (AttachmentContents.fieldBytes sha256)).flatMap FieldBytes.encode := by
  rw [persistedEncoding, List.map_map, List.flatMap_map]
  rfl

theorem accepted_all (h : prepareWorkspaceAttachments table payload.attachments = .ok prepared) :
    List.Forall₂ (Accepted table) payload.attachments prepared :=
  (Except.mapM_ok_iff.1 h).imp fun _ _ => accepted_of_prepare

theorem digested_content {item : WorkspaceAttachmentCreate} (h : item ∈ payload.attachments) :
    attachmentBytes item ∈ digested table sha256 payload prepared :=
  List.mem_cons_of_mem _ (List.mem_cons_of_mem _ (List.mem_map_of_mem h))

section

variable (h : prepareWorkspaceAttachments table payload.attachments = .ok prepared)
include h

theorem parts_plain (hnames : payload.PlainNames) : ∀ part ∈ payload.parts table,
      part.Plain ∧ part.content ∈ digested table sha256 payload prepared := by
  intro part hpart
  obtain ⟨item, hitem, rfl⟩ := List.mem_map.mp hpart
  have hmime : nul ∉ normalizedMime table item.mimeType := by
    have hall := accepted_all h
    clear h
    generalize payload.attachments = items at hall hitem
    induction hall with
    | nil => exact absurd hitem List.not_mem_nil
    | cons hfirst _ ih =>
      rcases List.mem_cons.mp hitem with rfl | hrest
      · obtain ⟨suffix, hlookup, -⟩ := hfirst.image
        exact (@imageType_plain table _ _ hlookup).2.2.1
      · exact ih hrest
  exact ⟨⟨hnames item hitem, hmime⟩, digested_content hitem⟩

theorem stored_plain : ∀ part ∈ prepared.map (PreparedAttachment.contents table),
      part.Plain ∧ part.content ∈ digested table sha256 payload prepared := by
  intro part hpart
  obtain ⟨stored, hstored, rfl⟩ := List.mem_map.mp hpart
  have hitem : ∃ item ∈ payload.attachments, Accepted table item stored := by
    have hall := accepted_all h
    clear h hpart
    generalize payload.attachments = items at hall ⊢
    induction hall with
    | nil => exact absurd hstored List.not_mem_nil
    | cons hfirst _ ih =>
      rcases List.mem_cons.mp hstored with rfl | hrest
      · exact ⟨_, List.mem_cons_self, hfirst⟩
      · obtain ⟨item, hitem, haccepted⟩ := ih hrest
        exact ⟨item, List.mem_cons_of_mem _ hitem, haccepted⟩
  obtain ⟨item, hmem, haccepted⟩ := hitem
  obtain ⟨suffix, hlookup, hname⟩ := haccepted.image
  obtain ⟨hnormal, -, hmime, hsuffix⟩ := @imageType_plain table _ _ hlookup
  refine ⟨⟨?_, ?_⟩, ?_⟩
  · rw [PreparedAttachment.contents, hname]
    exact nul_not_mem_safe _ hsuffix
  · rw [PreparedAttachment.contents, haccepted.mimeType, hnormal]
    exact hmime
  · rw [PreparedAttachment.contents, haccepted.content]
    exact digested_content hmem

theorem stored_eq_iff : prepared.map (PreparedAttachment.contents table) = payload.parts table ↔
      payload.SafeNames table := by
  have hall := accepted_all h
  rw [SentPayload.parts, SentPayload.SafeNames]
  clear h
  generalize payload.attachments = items at hall ⊢
  induction hall with
  | nil => simp
  | @cons item stored items storeds hfirst _ ih =>
    obtain ⟨suffix, hlookup, hname⟩ := hfirst.image
    obtain ⟨hnormal, -⟩ := @imageType_plain table _ _ hlookup
    have hhead : stored.contents table =
        ⟨safeAttachmentFilename item.filename suffix, normalizedMime table item.mimeType,
          attachmentBytes item⟩ := by
      rw [PreparedAttachment.contents, hname, hfirst.mimeType, hnormal, hfirst.content]
    rw [List.map_cons, List.map_cons, List.cons.injEq, List.forall_mem_cons, hhead,
      AttachmentContents.mk.injEq]
    constructor
    · rintro ⟨⟨hsafe, -⟩, hrest⟩
      refine ⟨fun other hother => ?_, ih.mp hrest⟩
      rw [hlookup, Option.some.injEq] at hother
      rw [← hother, hsafe]
    · rintro ⟨hsafe, hrest⟩
      exact ⟨⟨hsafe suffix hlookup, rfl, rfl⟩, ih.mpr hrest⟩

end

theorem encoding_eq_of_contents (h : payload.contents table = other.contents table) :
    payloadEncoding table sha256 payload = payloadEncoding table sha256 other := by
  rw [SentPayload.contents, SentPayload.contents, Prod.mk.injEq] at h
  rw [payloadEncoding_eq, payloadEncoding_eq, h.1, h.2]

theorem exists_collision (h : prepareWorkspaceAttachments table payload.attachments = .ok prepared)
    (hsplit : payload.SplitsEarly) : ∃ other otherPrepared,
      prepareWorkspaceAttachments table other.attachments = .ok otherPrepared ∧
        payloadEncoding table sha256 other = payloadEncoding table sha256 payload ∧
          other.message ≠ payload.message := by
  obtain ⟨item, rest, hitems, hnul⟩ := hsplit
  obtain ⟨message, attachments⟩ := payload
  dsimp only at hitems hnul h ⊢
  subst hitems
  have hall := Except.mapM_ok_iff.1 h
  obtain ⟨stored, storeds, hfirst, hrest, rfl⟩ := List.forall₂_cons_left_iff.mp hall
  have hshifted (front back name : List Char)
      (hsame : utf8 front ++ 0 :: utf8 back = utf8 message ++ 0 :: utf8 item.filename)
      (hne : front ≠ message) : ∃ other otherPrepared,
      prepareWorkspaceAttachments table other.attachments = .ok otherPrepared ∧
        payloadEncoding table sha256 other =
          payloadEncoding table sha256 ⟨message, item :: rest⟩ ∧ other.message ≠ message := by
    obtain ⟨renamed, hrenamed⟩ := prepare_renamed hfirst back
    refine ⟨⟨front, { item with filename := back } :: rest⟩, renamed :: storeds, ?_, ?_, hne⟩
    · exact Except.mapM_ok_iff.2 (.cons hrenamed hrest)
    · have hleft : attachmentBytes { item with filename := back } = attachmentBytes item := rfl
      simp only [payloadEncoding, attachmentFields, List.flatMap_cons, hleft]
      have hcongr := congrArg (· ++ (0 :: (utf8 (normalizedMime table item.mimeType) ++
        0 :: sha256 (attachmentBytes item)) ++ rest.flatMap fun item =>
          attachmentFields table sha256 item.filename item.mimeType (attachmentBytes item))) hsame
      simpa [attachmentFields] using hcongr
  rcases hnul with hmessage | hname
  · obtain ⟨front, back, rfl⟩ := List.append_of_mem hmessage
    apply hshifted front (back ++ nul :: item.filename) item.filename
    · simp [utf8_append, utf8_cons_nul]
    · simp
  · obtain ⟨front, back, hback⟩ := List.append_of_mem hname
    apply hshifted (message ++ nul :: front) back item.filename
    · simp [utf8_append, utf8_cons_nul, hback]
    · simp

end Payloads

private def asciiTable : LowerTable := ⟨id, fun _ h => h⟩

private def shot (filename : String) : SentPayload :=
  ⟨"look".toList,
    [⟨filename.toList, "image/gif".toList, "data:image/gif;base64,R0lGODlh".toList⟩]⟩

private def storedShot : List PreparedAttachment :=
  [⟨"my-shot.gif".toList, "image/gif".toList, [71, 73, 70, 56, 57, 97]⟩]

private def shotEncoding (filename : String) (digest : List UInt8) : List UInt8 :=
  utf8 "look".toList ++ 0 :: (utf8 filename.toList ++ 0 :: (utf8 "image/gif".toList ++ 0 :: digest))

private def gifDigest : List UInt8 :=
  [97, 15, 90, 228, 215, 110, 51, 38, 54, 161, 123, 211, 87, 253, 108, 233, 144, 41, 49, 106, 153,
    211, 32, 40, 13, 77, 119, 167, 70, 191, 41, 232]

private def spacedDigest : List UInt8 :=
  [242, 46, 42, 243, 209, 238, 168, 197, 21, 208, 221, 171, 38, 199, 196, 108, 179, 34, 28, 71, 127,
    165, 162, 49, 242, 19, 131, 87, 135, 199, 52, 50]

private def dashedDigest : List UInt8 :=
  [141, 180, 236, 50, 181, 240, 177, 77, 191, 44, 57, 119, 244, 74, 110, 242, 33, 67, 231, 175, 15,
    229, 27, 85, 251, 236, 107, 78, 49, 46, 36, 100]

private def shotSha (bytes : List UInt8) : List UInt8 :=
  if bytes = [71, 73, 70, 56, 57, 97] then gifDigest
  else if bytes = shotEncoding "my shot.gif" gifDigest then spacedDigest
  else if bytes = shotEncoding "my-shot.gif" gifDigest then dashedDigest
  else List.replicate 32 0

private theorem shotSha_length (bytes : List UInt8) : (shotSha bytes).length = 32 := by
  unfold shotSha
  split
  · rfl
  · split
    · rfl
    · split
      · rfl
      · exact List.length_replicate

private theorem shot_prepared (filename : String)
    (h : safeAttachmentFilename filename.toList ".gif".toList = "my-shot.gif".toList) :
    prepareWorkspaceAttachments asciiTable (shot filename).attachments = .ok storedShot := by
  have hmime : normalizedMime asciiTable "image/gif".toList = "image/gif".toList := by
    decide +kernel
  have hread : readAttachment "image/gif".toList "data:image/gif;base64,R0lGODlh".toList =
      .ok [71, 73, 70, 56, 57, 97] := by decide +kernel
  simp only [shot, prepareWorkspaceAttachments, List.mapM_cons, List.mapM_nil, prepareAttachment,
    hmime]
  have hlookup : imageAttachmentTypes.lookup "image/gif".toList = some ".gif".toList := by
    decide +kernel
  rw [hlookup, hread]
  dsimp only [Except.map]
  rw [h]
  rfl

private theorem shotSha_injOn : Set.InjOn shotSha
    {bytes | bytes ∈ digested asciiTable shotSha (shot "my shot.gif") storedShot ∨
      bytes ∈ digested asciiTable shotSha (shot "my-shot.gif") storedShot} := by
  have hall : ∀ a ∈ digested asciiTable shotSha (shot "my shot.gif") storedShot ++
      digested asciiTable shotSha (shot "my-shot.gif") storedShot,
      ∀ b ∈ digested asciiTable shotSha (shot "my shot.gif") storedShot ++
        digested asciiTable shotSha (shot "my-shot.gif") storedShot,
          shotSha a = shotSha b → a = b := by
    decide +kernel
  intro a ha b hb h
  exact hall a (List.mem_append.mpr ha) b (List.mem_append.mpr hb) h

end ClaudeHub
