import ClaudeHub.Lib.Lists
import Mathlib.Data.List.Induction

/-! # Markdown files that a Chat refers to

A temporary file may be read where the assistant's text has a link to it. The texts of messages are
put together from their deltas in a table of 64 entries; one more drops the oldest entry, whose text
is looked at as it stands then. What a Markdown text links to is a parameter.
-/

namespace ClaudeHub

namespace MarkdownReferences

/-- What the scan reads of a payload; a text that is no string is missing, and any other role stands
by its spelling. -/
structure Payload where
  role : Option String := none
  text : Option (List Char) := none
  assistantText : Option (List Char) := none
  snapshot : Bool := false
  deriving DecidableEq

/-- What the scan reads of an event; a payload that is no object, or a session id that is no string,
is missing. -/
structure Event where
  sessionId : Option String
  kind : String
  runEpoch : String := "None"
  turnId : String := "None"
  messageId : String := ""
  payload : Option Payload := some {}
  deriving DecidableEq

inductive Line
  | unreadable
  | unparsable
  | event (read : Event)
  deriving DecidableEq

structure MessageKey where
  runEpoch : String
  turnId : String
  messageId : String
  deriving DecidableEq

inductive Edge
  | completed (assistantText : List Char)
  | delta (key : MessageKey) (text : List Char) (snapshot : Bool)
  deriving DecidableEq

def Event.edge (sessionId : String) (event : Event) : Option Edge :=
  if event.sessionId ≠ some sessionId then none
  else
    match event.payload with
    | none => none
    | some payload =>
      if payload.role.getD "assistant" ≠ "assistant" then none
      else if ":user".toList.isSuffixOf event.messageId.toList then none
      else if event.kind = "turn_completed" then payload.assistantText.map .completed
      else if event.kind = "text_delta" then
        payload.text.map fun text =>
          .delta ⟨event.runEpoch, event.turnId, event.messageId⟩ text payload.snapshot
      else none

def Line.edge (sessionId : String) : Line → Option Edge
  | event read => read.edge sessionId
  | _ => none

def maxMessageChars : Nat := 1024 * 1024

def maxBuffers : Nat := 64

/-- `_references_path`, with what the parsed Markdown links to -/
def referencesPath (links : List Char → Bool) (text : List Char) : Bool :=
  text.length ≤ maxMessageChars && links text

/-- The table of texts, the oldest entry first; a message that has grown too long has none. -/
abbrev Buffers := List (MessageKey × Option (List Char))

def Buffers.put (buffers : Buffers) (key : MessageKey) (text : Option (List Char)) : Buffers :=
  if buffers.any fun entry => entry.1 = key then
    buffers.map fun entry => if entry.1 = key then (key, text) else entry
  else buffers ++ [(key, text)]

def grow (previous text : List Char) (snapshot : Bool) : List Char :=
  if snapshot then text else previous ++ text

def bounded (text : List Char) : Option (List Char) :=
  if text.length ≤ maxMessageChars then some text else none

def scan (sessionId : String) (links : List Char → Bool) : Buffers → List Line → Bool
  | buffers, [] => buffers.any fun entry => entry.2.any (referencesPath links)
  | buffers, line :: lines =>
    if line = .unreadable then false
    else
      match line.edge sessionId with
      | none => scan sessionId links buffers lines
      | some (.completed text) =>
        referencesPath links text || scan sessionId links buffers lines
      | some (.delta key text snapshot) =>
        let previous := (buffers.lookup key).getD (some [])
        if previous = none ∧ snapshot = false then scan sessionId links buffers lines
        else
          let next := buffers.put key (bounded (grow (previous.getD []) text snapshot))
          if maxBuffers < next.length then
            next.head?.any (fun entry => entry.2.any (referencesPath links)) ||
              scan sessionId links next.tail lines
          else scan sessionId links next lines

/-- `referenced_temporary_markdown`; `real` is what `_temporary_file` makes of the path. -/
def referencedTemporaryMarkdown {Path : Type} (sessionId : String) (real : Option Path)
    (links : Path → List Char → Bool) (lines : List Line) : Option Path :=
  real.filter fun path => scan sessionId (links path) [] lines

def deltasOf (key : MessageKey) (edges : List Edge) : List (List Char × Bool) :=
  edges.filterMap fun
    | .delta other text snapshot => if other = key then some (text, snapshot) else none
    | .completed _ => none

def messageText (key : MessageKey) (edges : List Edge) : List Char :=
  (deltasOf key edges).foldl (fun previous delta => grow previous delta.1 delta.2) []

def begun (edges : List Edge) : List MessageKey :=
  edges.foldl
    (fun keys edge =>
      match edge with
      | .delta key _ _ => if key ∈ keys then keys else keys ++ [key]
      | .completed _ => keys)
    []

/-- A whole text of the assistant has a link. -/
def Refers (links : List Char → Bool) (edges : List Edge) : Prop :=
  (∃ text, .completed text ∈ edges ∧ referencesPath links text) ∨
    ∃ key ∈ begun edges, referencesPath links (messageText key edges)

/-- No message goes on once 64 others have begun after it. -/
def Settled (edges : List Edge) : Prop :=
  ∀ before key text snapshot after, edges = before ++ .delta key text snapshot :: after →
    key ∈ begun before → key ∈ (begun before).keepLast maxBuffers

/-! ## What the table has -/

variable {edges done later : List Edge} {key : MessageKey} {links : List Char → Bool}

theorem begun_concat (edges : List Edge) (edge : Edge) :
    begun (edges ++ [edge]) =
      match edge with
      | .delta key _ _ => if key ∈ begun edges then begun edges else begun edges ++ [key]
      | .completed _ => begun edges :=
  List.foldl_append ..

theorem begun_append (done later : List Edge) : begun done <+: begun (done ++ later) := by
  induction later using List.reverseRecOn with
  | nil => simp
  | append_singleton later edge ih =>
    rw [← List.append_assoc, begun_concat]
    refine ih.trans ?_
    cases edge with
    | completed => exact List.prefix_rfl
    | delta =>
      dsimp only
      split
      · exact List.prefix_rfl
      · exact List.prefix_append _ _

theorem nodup_begun (edges : List Edge) : (begun edges).Nodup := by
  induction edges using List.reverseRecOn with
  | nil => exact List.nodup_nil
  | append_singleton edges edge ih =>
    rw [begun_concat]
    cases edge with
    | completed => exact ih
    | delta =>
      dsimp only
      split
      · exact ih
      · next hnew => exact ih.append_new hnew

theorem messageText_append (key : MessageKey) (done later : List Edge) :
    messageText key (done ++ later) =
      (deltasOf key later).foldl (fun previous delta => grow previous delta.1 delta.2)
        (messageText key done) := by
  rw [messageText, deltasOf, List.filterMap_append, List.foldl_append]
  rfl

theorem messageText_concat_self (text : List Char) (snapshot : Bool) :
    messageText key (done ++ [.delta key text snapshot]) =
      grow (messageText key done) text snapshot := by
  rw [messageText_append]
  simp [deltasOf]

theorem messageText_concat_other {other : MessageKey} (text : List Char) (snapshot : Bool)
    (h : other ≠ key) :
    messageText other (done ++ [.delta key text snapshot]) = messageText other done := by
  rw [messageText_append]
  simp [deltasOf, h.symm]

theorem mem_begun (edges : List Edge) {text : List Char} {snapshot : Bool}
    (h : .delta key text snapshot ∈ edges) : key ∈ begun edges := by
  obtain ⟨before, after, rfl⟩ := List.append_of_mem h
  have hprefix := begun_append (before ++ [.delta key text snapshot]) after
  rw [List.append_assoc] at hprefix
  refine hprefix.subset ?_
  rw [begun_concat]
  dsimp only
  split
  · assumption
  · exact List.mem_append_right _ (List.mem_singleton_self _)

theorem messageText_of_not_begun (h : key ∉ begun edges) : messageText key edges = [] := by
  have hnone : deltasOf key edges = [] := by
    refine List.filterMap_eq_nil_iff.mpr fun edge hmem => ?_
    cases edge with
    | completed => rfl
    | delta =>
      refine if_neg fun heq => h ?_
      rw [← heq]
      exact mem_begun edges hmem
  rw [messageText, hnone]
  rfl

def kept (edges : List Edge) : List MessageKey := (begun edges).keepLast maxBuffers

def table (edges : List Edge) : Buffers :=
  (kept edges).map fun key => (key, bounded (messageText key edges))

theorem lookup_table (h : key ∈ kept edges) :
    (table edges).lookup key = some (bounded (messageText key edges)) := by
  unfold table
  generalize kept edges = keys at h ⊢
  induction keys with
  | nil => exact absurd h List.not_mem_nil
  | cons other keys ih =>
    rw [List.map_cons, List.lookup_cons]
    by_cases hsame : key = other
    · subst hsame
      simp
    · rw [beq_false_of_ne hsame]
      exact ih ((List.mem_cons.mp h).resolve_left hsame)

theorem lookup_table_none (h : key ∉ kept edges) : (table edges).lookup key = none := by
  rw [List.lookup_eq_none_iff]
  intro entry hentry
  obtain ⟨other, hother, rfl⟩ := List.mem_map.mp hentry
  have hne : key ≠ other := fun heq => h (heq ▸ hother)
  exact bne_iff_ne.mpr hne

theorem bounded_grow_append {previous : List Char} (h : bounded previous = none)
    (text : List Char) : bounded (grow previous text false) = none := by
  unfold bounded at h ⊢
  split at h
  · exact absurd h (Option.some_ne_none _)
  · rw [if_neg]
    simp only [grow, Bool.false_eq_true, if_false, List.length_append]
    omega

theorem kept_concat_old (hkey : key ∈ kept done) (text : List Char) (snapshot : Bool) :
    kept (done ++ [.delta key text snapshot]) = kept done := by
  have hbegun : begun (done ++ [.delta key text snapshot]) = begun done := by
    rw [begun_concat]
    exact if_pos (List.mem_of_mem_drop hkey)
  rw [kept, kept, hbegun]

theorem put_table (hkey : key ∈ kept done) (text : List Char) (snapshot : Bool) :
    (table done).put key (bounded (grow (messageText key done) text snapshot)) =
      table (done ++ [.delta key text snapshot]) := by
  have hany : (table done).any fun entry => entry.1 = key := by
    rw [table, List.any_map, List.any_eq_true]
    exact ⟨key, hkey, by simp⟩
  rw [Buffers.put, if_pos hany, table, table, kept_concat_old hkey, List.map_map]
  refine List.map_congr_left fun other _ => ?_
  dsimp only [Function.comp]
  split
  · next hsame => rw [hsame, messageText_concat_self]
  · next hne => rw [messageText_concat_other text snapshot hne]

theorem table_skipped (hkey : key ∈ kept done) (hlong : bounded (messageText key done) = none)
    (text : List Char) : table (done ++ [.delta key text false]) = table done := by
  rw [table, table, kept_concat_old hkey]
  refine List.map_congr_left fun other _ => ?_
  by_cases hsame : other = key
  · rw [hsame, messageText_concat_self, bounded_grow_append hlong, hlong]
  · rw [messageText_concat_other text false hsame]

theorem put_table_new (hkey : key ∉ begun done) (text : List Char) (snapshot : Bool) :
    (table done).put key (bounded (grow [] text snapshot)) =
      (kept done ++ [key]).map fun other =>
        (other, bounded (messageText other (done ++ [.delta key text snapshot]))) := by
  have hnot : key ∉ kept done := fun hmem => hkey (List.mem_of_mem_drop hmem)
  have hany : ¬ (table done).any fun entry => entry.1 = key := by
    rw [table, List.any_map, List.any_eq_true]
    intro h
    obtain ⟨other, hother, heq⟩ := h
    have hsame : other = key := of_decide_eq_true heq
    exact hnot (hsame ▸ hother)
  rw [Buffers.put, if_neg hany, List.map_append, List.map_singleton, messageText_concat_self,
    messageText_of_not_begun hkey]
  congr 1
  refine List.map_congr_left fun other hother => ?_
  have hne : other ≠ key := fun heq => hnot (heq ▸ hother)
  rw [messageText_concat_other text snapshot hne]

theorem kept_of_begun (hmem : key ∈ begun done) (h : key ∈ kept (done ++ later)) :
    key ∈ kept done :=
  List.mem_keepLast_of_sublist (nodup_begun _) (begun_append done later).sublist hmem h

theorem length_kept_le (edges : List Edge) : (kept edges).length ≤ maxBuffers := by
  rw [kept, List.keepLast, List.length_drop]
  omega

theorem kept_concat_new (hkey : key ∉ begun done) (text : List Char) (snapshot : Bool) :
    kept (done ++ [.delta key text snapshot]) =
      if maxBuffers < (kept done).length + 1 then (kept done ++ [key]).tail
      else kept done ++ [key] := by
  have hbegun : begun (done ++ [.delta key text snapshot]) = begun done ++ [key] := by
    rw [begun_concat]
    exact if_neg hkey
  rw [kept, kept, hbegun, List.keepLast, List.keepLast, List.length_append, List.length_singleton,
    List.length_drop]
  have hdrop : ∀ count ≤ (begun done).length,
      (begun done ++ [key]).drop count = (begun done).drop count ++ [key] :=
    fun count hle => List.drop_append_of_le_length hle
  split
  · next hfull =>
      rw [show (begun done).length + 1 - maxBuffers = (begun done).length - maxBuffers + 1 by omega,
        ← List.tail_drop, hdrop _ (Nat.sub_le _ _)]
  · next hroom =>
      rw [show (begun done).length + 1 - maxBuffers = 0 by omega,
        show (begun done).length - maxBuffers = 0 by omega, hdrop 0 (Nat.zero_le _)]

theorem Settled.text_of_dropped (h : Settled (done ++ later)) (hmem : key ∈ begun done)
    (hdropped : key ∉ kept done) : messageText key (done ++ later) = messageText key done := by
  have hnone : deltasOf key later = [] := by
    refine List.filterMap_eq_nil_iff.mpr fun edge hedge => ?_
    cases edge with
    | completed => rfl
    | delta other text snapshot =>
      refine if_neg fun heq => hdropped ?_
      subst heq
      obtain ⟨before, after, rfl⟩ := List.append_of_mem hedge
      exact kept_of_begun hmem (h (done ++ before) other text snapshot after
        (List.append_assoc ..).symm ((begun_append done before).subset hmem))
  rw [messageText_append, hnone]
  rfl

theorem table_completed (done : List Edge) (text : List Char) :
    table (done ++ [.completed text]) = table done := by
  have hbegun : begun (done ++ [.completed text]) = begun done := begun_concat ..
  have htext : ∀ key, messageText key (done ++ [.completed text]) = messageText key done := by
    intro key
    rw [messageText_append]
    rfl
  rw [table, table, kept, hbegun]
  exact List.map_congr_left fun key _ => by rw [htext]

theorem grow_bounded {previous text : List Char} {snapshot : Bool}
    (h : ¬ (bounded previous = none ∧ snapshot = false)) :
    grow ((bounded previous).getD []) text snapshot = grow previous text snapshot := by
  cases snapshot with
  | true => rfl
  | false =>
    have hsome : bounded previous ≠ none := fun hnone => h ⟨hnone, rfl⟩
    unfold bounded at hsome ⊢
    split
    · rfl
    · next hlong => exact absurd (if_neg hlong) hsome

theorem refers_of_bounded {text : List Char} (h : (bounded text).any (referencesPath links) = true) :
    referencesPath links text = true := by
  unfold bounded at h
  split at h
  · exact h
  · exact absurd h Bool.false_ne_true

/-! ## What grants access -/

variable {sessionId : String}

theorem refers_of_dropped {text : List Char} {snapshot : Bool}
    (hsettled : Settled (done ++ [.delta key text snapshot] ++ later)) (hkey : key ∉ begun done)
    (hnext : kept (done ++ [.delta key text snapshot]) = (kept done ++ [key]).tail)
    (hrefers : (((kept done ++ [key]).map fun other =>
      (other, bounded (messageText other (done ++ [.delta key text snapshot])))).head?.any
        fun entry => entry.2.any (referencesPath links)) = true) :
    Refers links (done ++ [.delta key text snapshot] ++ later) := by
  have hnodup : (kept done ++ [key]).Nodup :=
    ((nodup_begun done).sublist (List.drop_sublist _ _)).append_new fun hmem =>
      hkey (List.mem_of_mem_drop hmem)
  have hsub : ∀ other ∈ kept done ++ [key], other ∈ begun (done ++ [.delta key text snapshot]) := by
    intro other hmem
    rcases List.mem_append.mp hmem with hold | hnew
    · exact (begun_append done _).subset (List.mem_of_mem_drop hold)
    · rw [List.mem_singleton.mp hnew]
      exact mem_begun _ (List.mem_append_right _ (List.mem_singleton_self _))
  cases hall : kept done ++ [key] with
  | nil => exact absurd hall (by simp)
  | cons oldest =>
    rw [hall] at hrefers hnext hnodup hsub
    have hdropped : oldest ∉ kept (done ++ [.delta key text snapshot]) := by
      rw [hnext]
      exact (List.nodup_cons.mp hnodup).1
    have hwhole := hsettled.text_of_dropped (hsub oldest (List.mem_cons_self ..)) hdropped
    refine .inr ⟨oldest, (begun_append _ later).subset (hsub oldest (List.mem_cons_self ..)), ?_⟩
    rw [hwhole]
    exact refers_of_bounded hrefers

theorem scan_refers (lines : List Line) (done : List Edge)
    (hsettled : Settled (done ++ lines.filterMap (Line.edge sessionId)))
    (hscan : scan sessionId links (table done) lines = true) :
    Refers links (done ++ lines.filterMap (Line.edge sessionId)) := by
  induction lines generalizing done with
  | nil =>
    rw [scan, List.any_eq_true] at hscan
    obtain ⟨entry, hentry, hrefers⟩ := hscan
    obtain ⟨key, hkey, rfl⟩ := List.mem_map.mp hentry
    rw [List.filterMap_nil, List.append_nil]
    exact .inr ⟨key, List.mem_of_mem_drop hkey, refers_of_bounded hrefers⟩
  | cons line lines ih =>
    rw [scan] at hscan
    split at hscan
    · exact absurd hscan Bool.false_ne_true
    cases hedge : line.edge sessionId with
    | none =>
      rw [hedge] at hscan
      rw [List.filterMap_cons_none hedge] at hsettled ⊢
      exact ih done hsettled hscan
    | some edge =>
      rw [hedge] at hscan
      rw [List.filterMap_cons_some hedge, List.append_cons] at hsettled ⊢
      cases edge with
      | completed text =>
        rcases Bool.or_eq_true_iff.mp hscan with hrefers | hscan
        · exact .inl ⟨text, by simp, hrefers⟩
        · rw [← table_completed done text] at hscan
          exact ih _ hsettled hscan
      | delta key text snapshot =>
        dsimp only at hscan
        by_cases hkey : key ∈ begun done
        · have hkept : key ∈ kept done := hsettled done key text snapshot _
            (List.append_cons ..).symm hkey
          rw [lookup_table hkept, Option.getD_some] at hscan
          split at hscan
          · next hskip =>
              obtain ⟨hlong, rfl⟩ := hskip
              rw [← table_skipped hkept hlong text] at hscan
              exact ih _ hsettled hscan
          · next hgo =>
              rw [grow_bounded hgo, put_table hkept text snapshot, if_neg (by
                rw [table, List.length_map]
                exact Nat.not_lt.mpr (length_kept_le _))] at hscan
              exact ih _ hsettled hscan
        · have hnot : key ∉ kept done := fun hmem => hkey (List.mem_of_mem_drop hmem)
          rw [lookup_table_none hnot, Option.getD_none,
            if_neg (fun h => absurd h.1 (Option.some_ne_none _)), Option.getD_some,
            put_table_new hkey, List.length_map, List.length_append,
            List.length_singleton] at hscan
          have hnext := kept_concat_new hkey text snapshot
          split at hscan
          · next hfull =>
              rw [if_pos hfull] at hnext
              rcases Bool.or_eq_true_iff.mp hscan with hrefers | hscan
              · exact refers_of_dropped hsettled hkey hnext hrefers
              · rw [← List.map_tail, ← hnext] at hscan
                exact ih _ hsettled hscan
          · next hroom =>
              rw [if_neg hroom] at hnext
              rw [← hnext] at hscan
              exact ih _ hsettled hscan

theorem settled_of_few (h : (begun edges).length ≤ maxBuffers) : Settled edges := by
  rintro before key text snapshot after rfl hmem
  have hle := (begun_append before (.delta key text snapshot :: after)).length_le
  rwa [List.keepLast, Nat.sub_eq_zero_of_le (Nat.le_trans hle h)]

private def link : List Char := "[x](/tmp/a.md)".toList

private def delta (id : String) (text : List Char) : Line :=
  .event
    { sessionId := some "s1"
      kind := "text_delta"
      messageId := id
      payload := some { text := some text } }

private def crowdedLog : List Line :=
  delta "m" "```\n".toList ::
    (List.range maxBuffers).map (fun n => delta (String.ofList (List.replicate n 'n')) []) ++
      [delta "m" link]

end MarkdownReferences

end ClaudeHub
