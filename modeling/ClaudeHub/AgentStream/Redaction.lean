import ClaudeHub.AgentStream.Coalescer
import ClaudeHub.Lib.Lines
import ClaudeHub.Lib.TextPattern

/-! # Redaction of text deltas

Every delta is redacted on its own, before the coalescer merges it with its neighbours: known
token patterns are masked and a long text is cut short.
-/

namespace ClaudeHub

open TextPattern

/-- The characters that `\b` counts to words: the Unicode table beyond ASCII is a parameter. -/
structure WordChars where
  isWord : Char → Bool
  ascii : ∀ c : Char, c.toNat < 128 → isWord c = (c.isAlphanum || c = '_')

/-- `[a-zA-Z0-9]` and some more characters -/
def alnumOr (more : String) (c : Char) : Bool := c.isAlphanum || more.toList.contains c

def tokenPattern (name more : String) (least : Nat) : Pattern :=
  .boundary :: (literal name ++ [.many (alnumOr more) least none, .boundary])

def tokenPatterns : List Pattern :=
  [ tokenPattern "sk-" "" 10,
    tokenPattern "sk-ant-" "_-" 10,
    tokenPattern "ghp_" "" 20,
    tokenPattern "gho_" "" 20,
    tokenPattern "ghs_" "" 20,
    tokenPattern "plat_" "_-" 10,
    .boundary :: (literal "xox" ++ [.one fun c => "abprs".toList.contains c] ++ literal "-" ++
      [.many (alnumOr "-") 10 none, .boundary]),
    .boundary :: (literal "AKIA" ++
      [.many (fun c => c.isDigit || c.isUpper) 16 (some 16), .boundary]),
    .boundary :: (literal "Bearer" ++
      [.many Lines.isSpace 1 none, .many (alnumOr "._~+/=-") 10 none, .boundary]),
    .boundary :: (literal "ANTHROPIC_AUTH_TOKEN" ++
      [.many Lines.isSpace 0 none, .one (· = '='), .many Lines.isSpace 0 none,
        .many (fun c => !Lines.isSpace c) 1 none]) ]

def redactedMask : List Char := "[REDACTED]".toList

def maxFieldChars : Nat := 4000

def truncationMarker : List Char := "…[truncated]".toList

variable (word : WordChars)

def maskString (value : List Char) : List Char :=
  tokenPatterns.foldl (fun masked pattern =>
    substitute word.isWord pattern redactedMask masked.length none masked) value

/-- `_redact_value` of a text -/
def redactText (value : List Char) : List Char :=
  let masked := maskString word value
  if maxFieldChars < masked.length then
    masked.take (maxFieldChars - truncationMarker.length) ++ truncationMarker
  else masked

/-- `redact_event` of a delta, in whose payload only the text has something to redact -/
def redactDelta (event : StreamEvent) : StreamEvent :=
  { event with payload :=
    { event.payload with text := String.ofList (redactText word event.payload.text.toList) } }

def NoToken (text : List Char) : Prop :=
  ∀ pattern ∈ tokenPatterns, ¬ FoundIn word.isWord pattern text

variable {word}

/-! ## The patterns -/

theorem wordAt_closing : wordAt word.isWord (some ']') = wordAt word.isWord none := by
  simp only [wordAt]
  rw [word.ascii ']' (by decide)]
  decide

theorem ten_lt_minLength : ∀ pattern ∈ tokenPatterns, 10 < minLength pattern := by
  decide +kernel

def tokenInitials : List Char := "sgpxAB".toList

variable {pattern : Pattern} {next : Option Char} {text : List Char}

theorem matches_head (hpattern : pattern ∈ tokenPatterns) {prev : Option Char}
    (h : Matches word.isWord pattern prev text next) :
    ∃ c tail, text = c :: tail ∧ c ∈ tokenInitials := by
  have hstart : ∀ (c : Char) (rest : Pattern), c ∈ tokenInitials →
      Matches word.isWord (.boundary :: .one (· = c) :: rest) prev text next →
        ∃ c tail, text = c :: tail ∧ c ∈ tokenInitials := by
    rintro c rest hc ⟨-, d, tail, rfl, hd, -⟩
    obtain rfl : d = c := by simpa using hd
    exact ⟨d, tail, rfl, hc⟩
  simp only [tokenPatterns, List.mem_cons, List.not_mem_nil, or_false] at hpattern
  rcases hpattern with rfl | rfl | rfl | rfl | rfl | rfl | rfl | rfl | rfl | rfl
  · exact hstart 's' _ (by decide) h
  · exact hstart 's' _ (by decide) h
  · exact hstart 'g' _ (by decide) h
  · exact hstart 'g' _ (by decide) h
  · exact hstart 'g' _ (by decide) h
  · exact hstart 'p' _ (by decide) h
  · exact hstart 'x' _ (by decide) h
  · exact hstart 'A' _ (by decide) h
  · exact hstart 'B' _ (by decide) h
  · exact hstart 'A' _ (by decide) h

theorem not_takes_ellipsis : ∀ pattern ∈ tokenPatterns.dropLast,
    pattern.all (fun atom => !atom.takes '…') = true := by
  decide +kernel

variable {before after : List Char}

theorem matches_cut_at_ellipsis (hpattern : pattern ∈ tokenPatterns) {prev : Option Char}
    (h : Matches word.isWord pattern prev (before ++ '…' :: after) next) :
    Matches word.isWord pattern prev (before ++ ['…']) (some '[') := by
  have hmem : '…' ∈ before ++ '…' :: after := by simp
  by_cases hearly : pattern ∈ tokenPatterns.dropLast
  · exact absurd hmem (h.not_mem (not_takes_ellipsis pattern hearly))
  · obtain ⟨name, rfl, hname⟩ : ∃ name : Pattern,
        pattern = name ++ [.many (fun c => !Lines.isSpace c) 1 none] ∧
          name.all (fun atom => !atom.takes '…') = true := by
      have hlast : pattern ∈ tokenPatterns.dropLast ++ [tokenPatterns.getLast (by decide)] := by
        rw [List.dropLast_append_getLast]
        exact hpattern
      rcases List.mem_append.mp hlast with hmem | hmem
      · exact absurd hmem hearly
      · refine ⟨.boundary :: (literal "ANTHROPIC_AUTH_TOKEN" ++
          [.many Lines.isSpace 0 none, .one (· = '='), .many Lines.isSpace 0 none]), ?_, ?_⟩
        · rw [List.mem_singleton.mp hmem]
          rfl
        · decide +kernel
    obtain ⟨left, right, htext, hleft, run, tail, rfl, hrun, -, -, rfl⟩ := matches_append.mp h
    have hnot := hleft.not_mem hname
    rw [List.append_nil] at htext hleft
    rcases List.append_eq_append_iff.mp htext with ⟨gap, rfl, hgap⟩ | ⟨gap, rfl, rfl⟩
    · cases gap with
      | nil =>
        obtain rfl : '…' :: after = run := by simpa using hgap
        rw [List.append_nil] at hleft
        exact matches_append.mpr ⟨before, ['…'], rfl, hleft, ['…'], [], rfl,
          List.all_eq_true.mp (by decide), by decide, by simp, rfl⟩
      | cons =>
        obtain ⟨rfl, -⟩ := List.cons.inj hgap
        exact absurd (by simp) hnot
    · have hall : ∀ c ∈ gap ++ ['…'], (!Lines.isSpace c) = true := by
        intro c hc
        apply hrun
        rcases List.mem_append.mp hc with hc | hc
        · exact List.mem_append_left _ hc
        · rw [List.mem_singleton.mp hc]
          simp
      rw [List.append_assoc]
      refine matches_append.mpr ⟨left, gap ++ ['…'], rfl, ?_, gap ++ ['…'], [], by simp, hall,
        by simp, by simp, rfl⟩
      cases gap with
      | nil => exact hleft
      | cons => exact hleft

theorem foundIn_behind_marker {kept gap found : List Char}
    (h : Matches word.isWord pattern (kept ++ truncationMarker ++ gap).getLast? found
        after.head?) :
    FoundIn word.isWord pattern (gap ++ (found ++ after)) := by
  refine ⟨gap, found, after, rfl, ?_⟩
  rw [List.getLast?_append] at h
  cases hlast : gap.getLast? with
  | none =>
    rw [hlast, Option.none_or, List.getLast?_append] at h
    exact h.congr_prev wordAt_closing
  | some => rwa [hlast, Option.some_or] at h

/-- A match that starts before the end of a truncation mark starts before the mark, and the
text up to the mark has one too. -/
theorem foundIn_before_marker {kept gap more : List Char} (hpattern : pattern ∈ tokenPatterns)
    (hgap : kept ++ truncationMarker = before ++ gap) (hne : gap ≠ [])
    (h : Matches word.isWord pattern before.getLast? (gap ++ more) next) :
    FoundIn word.isWord pattern (kept ++ truncationMarker) := by
  obtain ⟨first, tail, hfound, hfirst⟩ := matches_head hpattern h
  rcases List.append_eq_append_iff.mp hgap with ⟨inner, rfl, hmarker⟩ | ⟨start, rfl, rfl⟩
  · -- it would start inside the mark
    have hmem : first ∈ truncationMarker := by
      rw [hmarker]
      cases gap with
      | nil => exact absurd rfl hne
      | cons =>
        obtain ⟨rfl, -⟩ := List.cons.inj hfound
        simp
    have hall : (truncationMarker.all fun c => !tokenInitials.contains c) = true := by
      decide
    have hnot := List.all_eq_true.mp hall first hmem
    simp only [Bool.not_eq_true', List.contains_eq_mem, decide_eq_false_iff_not] at hnot
    exact absurd hfirst hnot
  · have hsplit : start ++ truncationMarker ++ more =
        start ++ '…' :: ("[truncated]".toList ++ more) := by
      rw [List.append_assoc]
      rfl
    rw [hsplit] at h
    refine ⟨before, start ++ ['…'], "[truncated]".toList, ?_, matches_cut_at_ellipsis hpattern h⟩
    simp only [List.append_assoc]
    rfl

theorem noToken_behind_marker {kept rest : List Char}
    (hkept : NoToken word (kept ++ truncationMarker)) (hrest : NoToken word rest) :
    NoToken word (kept ++ truncationMarker ++ rest) := by
  rintro pattern hpattern ⟨before, found, after, htext, hmatches⟩
  rcases List.append_eq_append_iff.mp htext with ⟨gap, rfl, rfl⟩ | ⟨gap, hgap, hover⟩
  · exact hrest pattern hpattern (foundIn_behind_marker hmatches)
  · by_cases hnil : gap = []
    · obtain rfl : before = kept ++ truncationMarker := by simpa [hnil] using hgap.symm
      obtain rfl : found ++ after = rest := by simpa [hnil] using hover
      rw [← List.append_nil (kept ++ truncationMarker)] at hmatches
      exact hrest pattern hpattern (foundIn_behind_marker hmatches)
    · apply hkept pattern hpattern
      rcases List.append_eq_append_iff.mp hover with ⟨more, rfl, rfl⟩ | ⟨more, rfl, rfl⟩
      · cases more with
        | nil =>
          rw [List.append_nil] at hgap hnil
          rw [← List.append_nil found] at hmatches
          exact foundIn_before_marker hpattern hgap hnil hmatches
        | cons c more => exact ⟨before, found, c :: more, hgap, hmatches⟩
      · exact foundIn_before_marker hpattern hgap hnil hmatches

/-- No part of a text holds a token when it is read on its own, neither as it is nor where it
is cut short. -/
structure TokenFree (word : WordChars) (text : List Char) : Prop where
  parts : ∀ part, part <:+: text → NoToken word part
  cuts : ∀ kept dropped, kept ++ dropped <:+: text →
    maxFieldChars - truncationMarker.length ≤ kept.length →
    truncationMarker.length < dropped.length → NoToken word (kept ++ truncationMarker)

theorem maskString_eq_self (h : NoToken word text) : maskString word text = text := by
  have hfold : ∀ patterns : List Pattern, (∀ pattern ∈ patterns, pattern ∈ tokenPatterns) →
      patterns.foldl (fun masked pattern =>
        substitute word.isWord pattern redactedMask masked.length none masked) text = text := by
    intro patterns
    induction patterns with
    | nil => exact fun _ => rfl
    | cons pattern patterns ih =>
      intro hall
      have hnone : ¬ FoundIn word.isWord pattern ([] ++ text) :=
        h pattern (hall pattern List.mem_cons_self)
      have hself : substitute word.isWord pattern redactedMask text.length none text = text :=
        substitute_eq_self text.length hnone
      rw [List.foldl_cons, hself]
      exact ih fun pattern' hmem => hall pattern' (List.mem_cons_of_mem pattern hmem)
  exact hfold tokenPatterns fun _ hmem => hmem

theorem redactText_of_noToken (h : NoToken word text) : redactText word text =
      if maxFieldChars < text.length then
        text.take (maxFieldChars - truncationMarker.length) ++ truncationMarker else text := by
  rw [redactText, maskString_eq_self h]

theorem noToken_of_length_le (h : text.length ≤ 10) : NoToken word text := by
  rintro pattern hpattern ⟨before, found, after, rfl, hmatches⟩
  have hleast := ten_lt_minLength pattern hpattern
  have hfound := hmatches.minLength_le
  simp only [List.length_append] at h
  omega

theorem redactText_short (h : text.length ≤ 10) : redactText word text = text := by
  have hsmall : ¬ maxFieldChars < text.length := by
    unfold maxFieldChars
    omega
  rw [redactText_of_noToken (noToken_of_length_le h), if_neg hsmall]

theorem TokenFree.redacted (h : TokenFree word text) (texts : List (List Char))
    (visible : List Char) (hpart : visible ++ texts.flatten <:+: text) :
    NoToken word (visible ++ (texts.map (redactText word)).flatten) := by
  induction texts generalizing visible with
  | nil => exact h.parts _ (by simpa using hpart)
  | cons delta texts ih =>
    rw [List.flatten_cons] at hpart
    have hdelta : delta <:+: text :=
      List.IsInfix.trans ⟨visible, texts.flatten, List.append_assoc ..⟩ hpart
    rw [List.map_cons, List.flatten_cons, redactText_of_noToken (h.parts delta hdelta)]
    by_cases hlong : maxFieldChars < delta.length
    · rw [if_pos hlong]
      let kept := delta.take (maxFieldChars - truncationMarker.length)
      let dropped := delta.drop (maxFieldChars - truncationMarker.length)
      have hcut : (visible ++ kept) ++ (dropped ++ texts.flatten) =
          visible ++ (delta ++ texts.flatten) := by
        simp only [kept, dropped, List.append_assoc]
        rw [← List.append_assoc (delta.take _), List.take_append_drop]
      have hmark : NoToken word ((visible ++ kept) ++ truncationMarker) := by
        apply h.cuts (visible ++ kept) (dropped ++ texts.flatten)
        · rwa [hcut]
        · simp only [List.length_append, kept, List.length_take]
          omega
        · simp only [List.length_append, dropped, List.length_drop]
          have hmarker : truncationMarker.length = 12 := rfl
          unfold maxFieldChars at hlong ⊢
          omega
      have hrest : NoToken word (texts.map (redactText word)).flatten := by
        apply ih []
        exact List.IsInfix.trans ⟨visible ++ delta, [], by simp⟩ hpart
      have hall := noToken_behind_marker hmark hrest
      simpa only [List.append_assoc] using hall
    · rw [if_neg hlong, ← List.append_assoc]
      apply ih (visible ++ delta)
      simpa using hpart

/-! ## What is stored of a stream -/

structure DeltaStream where
  thinking : Bool := false
  runEpoch : Option Int := none
  turnId : Option TurnId := none
  messageId : Option String := none
  plan : Option String := none
  planKind : Option String := none
  rest : String := ""
  createdAt : Time := 0

def DeltaStream.delta (stream : DeltaStream) (text : List Char) : StreamEvent where
  type := if stream.thinking then .thinkingDelta else .textDelta
  runEpoch := stream.runEpoch
  turnId := stream.turnId
  messageId := stream.messageId
  payload :=
    { text := String.ofList text
      plan := stream.plan
      planKind := stream.planKind
      rest := stream.rest }
  createdAt := stream.createdAt

/-- The events that the flushes of a stream hand to the store, where each flush finds one batch
of redacted deltas in the buffer. -/
def persistedDeltas (word : WordChars) (stream : DeltaStream)
    (batches : List (List (List Char))) : List StreamEvent :=
  batches.flatMap fun batch =>
    collapse (batch.map fun text => redactDelta word (stream.delta text))

def joinedDeltas (word : WordChars) (stream : DeltaStream) (texts : List (List Char)) :
    List Char :=
  texts.flatMap fun text => (redactDelta word (stream.delta text)).payload.text.toList

/-- However a text is split into deltas and the deltas into batches, no token is stored or put
together. -/
def SplitSafe (word : WordChars) (stream : DeltaStream) (text : List Char) : Prop :=
  ∀ batches : List (List (List Char)), batches.flatten.flatten = text →
    (∀ event ∈ persistedDeltas word stream batches, NoToken word event.payload.text.toList) ∧
      NoToken word (joinedDeltas word stream batches.flatten)

@[simp] theorem redactDelta_delta (stream : DeltaStream) (text : List Char) :
    redactDelta word (stream.delta text) = stream.delta (redactText word text) := by
  simp [redactDelta, DeltaStream.delta]

theorem joinedDeltas_eq (stream : DeltaStream) (texts : List (List Char)) :
    joinedDeltas word stream texts = (texts.map (redactText word)).flatten := by
  simp only [joinedDeltas, List.flatMap_def, redactDelta_delta]
  simp [DeltaStream.delta]

theorem DeltaStream.merge_delta (stream : DeltaStream) (text more : List Char) :
    (stream.delta text).merge (stream.delta more) = some (stream.delta (text ++ more)) := by
  simp [StreamEvent.merge, StreamEvent.key, DeltaStream.delta]

theorem DeltaStream.collapse_deltas (stream : DeltaStream) (text : List Char)
    (texts : List (List Char)) :
    collapse ((text :: texts).map stream.delta) =
      [stream.delta (text :: texts).flatten] := by
  have hfold : ∀ done : List Char,
      (texts.map stream.delta).foldl collapseOne [stream.delta done] =
        [stream.delta (done ++ texts.flatten)] := by
    induction texts with
    | nil => simp
    | cons more texts ih =>
      intro done
      have hone : collapseOne [stream.delta done] (stream.delta more) =
          [stream.delta (done ++ more)] := by
        simp [collapseOne, stream.merge_delta]
      rw [List.map_cons, List.foldl_cons, hone, ih (done ++ more)]
      simp
  rw [collapse, List.map_cons, List.foldl_cons]
  exact hfold text

variable {stream : DeltaStream}

theorem mem_persistedDeltas {batches : List (List (List Char))} {event : StreamEvent} :
    event ∈ persistedDeltas word stream batches ↔
      ∃ batch ∈ batches, batch ≠ [] ∧
        event = stream.delta (batch.map (redactText word)).flatten := by
  have hbatch : ∀ batch : List (List Char),
      batch.map (fun text => redactDelta word (stream.delta text)) =
        (batch.map (redactText word)).map stream.delta := by
    intro batch
    simp
  simp only [persistedDeltas, List.mem_flatMap, hbatch]
  refine exists_congr fun batch => and_congr_right fun _ => ?_
  cases batch with
  | nil => simp [collapse]
  | cons =>
    rw [List.map_cons, stream.collapse_deltas]
    simp

theorem TokenFree.splitSafe (h : TokenFree word text) (stream : DeltaStream) :
    SplitSafe word stream text := by
  rintro batches rfl
  constructor
  · intro event hevent
    obtain ⟨batch, hbatch, -, rfl⟩ := mem_persistedDeltas.1 hevent
    have hpart : batch.flatten <:+: batches.flatten.flatten := by
      obtain ⟨before, after, rfl⟩ := List.append_of_mem hbatch
      exact ⟨before.flatten.flatten, after.flatten.flatten, by simp⟩
    simpa [DeltaStream.delta] using h.redacted batch [] hpart
  · rw [joinedDeltas_eq]
    exact h.redacted batches.flatten [] (List.infix_refl _)

theorem SplitSafe.stored {texts : List (List Char)}
    (h : SplitSafe word stream (before ++ texts.flatten ++ after)) (hne : texts ≠ []) :
    NoToken word (texts.map (redactText word)).flatten := by
  have hbatches := h [[before], texts, [after]] (by simp)
  have hevent : stream.delta (texts.map (redactText word)).flatten ∈
      persistedDeltas word stream [[before], texts, [after]] :=
    mem_persistedDeltas.2 ⟨texts, by simp, hne, rfl⟩
  simpa [DeltaStream.delta] using hbatches.1 _ hevent

theorem flatten_singles (text : List Char) : (text.map fun c => [c]).flatten = text := by
  induction text with
  | nil => rfl
  | cons c text ih => simpa using ih

theorem redacted_singles (text : List Char) :
    ((text.map fun c => [c]).map (redactText word)).flatten = text := by
  have hone : ∀ c : Char, redactText word [c] = [c] := fun c => redactText_short (by simp)
  induction text with
  | nil => rfl
  | cons c text ih => rw [List.map_cons, List.map_cons, List.flatten_cons, hone, ih]; rfl

theorem SplitSafe.noToken {text part : List Char} (h : SplitSafe word stream text)
    (hpart : part <:+: text) : NoToken word part := by
  by_cases hshort : part.length ≤ 10
  · exact noToken_of_length_le hshort
  · obtain ⟨before, after, rfl⟩ := hpart
    rw [← flatten_singles part] at h
    have hstored := h.stored (by
      intro hnil
      rw [List.map_eq_nil_iff] at hnil
      simp [hnil] at hshort)
    rwa [redacted_singles] at hstored

theorem SplitSafe.tokenFree (h : SplitSafe word stream text) : TokenFree word text := by
  refine ⟨fun part => h.noToken, fun kept dropped hpart hkept hdropped => ?_⟩
  let early := kept.take (kept.length - (maxFieldChars - truncationMarker.length))
  let late := kept.drop (kept.length - (maxFieldChars - truncationMarker.length))
  have hsplit : early ++ late = kept := List.take_append_drop ..
  have hlate : late.length = maxFieldChars - truncationMarker.length := by
    simp only [late, List.length_drop]
    omega
  have hcut : redactText word (late ++ dropped) = late ++ truncationMarker := by
    have hinner : late ++ dropped <:+: text := by
      apply List.IsInfix.trans _ hpart
      exact ⟨early, [], by rw [← List.append_assoc, hsplit, List.append_nil]⟩
    have hlong : maxFieldChars < (late ++ dropped).length := by
      have hmarker : truncationMarker.length = 12 := rfl
      rw [List.length_append, hlate]
      unfold maxFieldChars
      omega
    rw [redactText_of_noToken (h.noToken hinner), if_pos hlong, ← hlate, List.take_left]
  obtain ⟨before, after, rfl⟩ := hpart
  have htexts : before ++ ((early.map fun c => [c]) ++ [late ++ dropped]).flatten ++ after =
      before ++ (kept ++ dropped) ++ after := by
    rw [List.flatten_append, flatten_singles, ← hsplit]
    simp
  rw [← htexts] at h
  have hstored := h.stored (by simp)
  rw [List.map_append, List.flatten_append, redacted_singles] at hstored
  rw [← hsplit, List.append_assoc]
  simpa [hcut] using hstored

/-- Redaction keeps tokens out of every split of a text exactly where no part of the text reads
as one. -/
theorem split_redaction_iff (word : WordChars) (stream : DeltaStream) (text : List Char) :
    SplitSafe word stream text ↔ TokenFree word text :=
  ⟨SplitSafe.tokenFree, fun h => h.splitSafe stream⟩

private def asciiWord : WordChars where
  isWord := fun c => c.isAlphanum || c = '_'
  ascii := fun _ _ => rfl

/-- Two deltas of an assistant message, neither of which holds a token, are stored as one that
does. -/
theorem split_token_stored :
    (persistedDeltas asciiWord {} [["sk-abcde".toList, "fghij".toList]]).map
        (fun event => event.payload.text) = ["sk-abcdefghij"] ∧
      FoundIn asciiWord.isWord (tokenPattern "sk-" "" 10) "sk-abcdefghij".toList ∧
      ¬ SplitSafe asciiWord {} "sk-abcdefghij".toList := by
  have hmatch : matchAt asciiWord.isWord (tokenPattern "sk-" "" 10) none
      "sk-abcdefghij".toList = some ("sk-abcdefghij".toList, []) := by
    decide +kernel
  have hfound : FoundIn asciiWord.isWord (tokenPattern "sk-" "" 10) "sk-abcdefghij".toList := by
    have hstart : FoundIn asciiWord.isWord (tokenPattern "sk-" "" 10)
        ([] ++ "sk-abcdefghij".toList) := foundIn_of_matchAt hmatch
    simpa using hstart
  refine ⟨by decide +kernel, hfound, fun hsafe => ?_⟩
  exact hsafe.noToken (List.infix_refl _) _ (by simp [tokenPatterns]) hfound

end ClaudeHub
