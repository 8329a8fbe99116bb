import ClaudeHub.GoalProtocol.Letters
import ClaudeHub.Lib.Lines

/-! # The terminal signal of a Goal turn

The tailer ends a turn whose text passes a regular expression; the controller takes the signal
from the last tag that it finds in the lower-cased text.
-/

namespace ClaudeHub.GoalProtocol

open TextSearch Lines

def statusName : List Char := "<goal-status".toList

def statusCloser : List Char := "</goal-status>".toList

def signalWords : List (List Char) :=
  ["continue".toList, "complete".toList, "blocked".toList, "needs_input".toList]

/-- `_GOAL_TAIL_SCAN_CHARS`, and the window of the controller -/
def tailScanChars : Nat := 64 * 1024 + 4096

def isQuote (c : Char) : Bool := c == '"' || c == '\''

def dropOne (p : Char → Bool) : List Char → Option (List Char)
  | [] => none
  | c :: cs => if p c then some cs else none

/-- `(continue|complete|blocked|needs_input)` and what follows. No word starts another one. -/
def dropSignalWord (text : List Char) : Option (List Char × List Char) :=
  signalWords.findSome? fun word =>
    (dropSpelled ignoresCase word text).map fun rest => (text.take word.length, rest)

/-- `<goal-status\s+state=["\'](state)["\']\s*>` and what follows -/
def dropStatusOpener (dropState : List Char → Option (List Char × List Char))
    (text : List Char) : Option (List Char × List Char) := do
  let rest ← dropSpelled ignoresCase statusName text
  let rest ← dropOne isSpace rest
  let rest ← dropSpelled ignoresCase "state=".toList (rest.dropWhile isSpace)
  let rest ← dropOne isQuote rest
  let (state, rest) ← dropState rest
  let rest ← dropOne isQuote rest
  let rest ← dropOne (· == '>') (rest.dropWhile isSpace)
  some (state, rest)

/-- `</goal-status>\s*$` -/
def closesHere (text : List Char) : Bool :=
  match dropSpelled ignoresCase statusCloser text with
  | some blank => blank.all isSpace
  | none => false

/-- `.*?</goal-status>\s*$`: the length of the body -/
def bodyLength (text : List Char) : Option Nat := findAt closesHere text

def goalTail (text : List Char) : List Char := text.drop (text.length - tailScanChars)

def statusBlockHere (text : List Char) : Bool :=
  match dropStatusOpener dropSignalWord text with
  | some (_, rest) => (bodyLength rest).isSome
  | none => false

/-- `_GOAL_STATUS_TERMINAL_RE.search` on the tail of the text -/
def goalStatusTerminal (text : List Char) : Bool := (findAt statusBlockHere (goalTail text)).isSome

structure StatusSignal where
  signal : List Char
  message : Option (List Char)
  deriving DecidableEq, Repr

/-- `_STATUS_RE.fullmatch` -/
def fullmatchStatus (table : LowerTable) (text : List Char) : Option StatusSignal := do
  let (word, rest) ← dropStatusOpener dropSignalWord text
  let length ← bodyLength rest
  let message := strip (rest.take length)
  some { signal := table.lower word, message := if message = [] then none else some message }

/-- The signal that `_on_turn_completed_locked` finds -/
def extractSignal (table : LowerTable) (text : List Char) : Option StatusSignal := do
  let tail := goalTail text
  let start ← rfindAt (startsWith (· == ·) statusName) (table.lower tail)
  fullmatchStatus table (tail.drop start)

/-! ## A status block at the end of a text -/

/-- A well-formed opening tag starts at this place. -/
def OpensAt (text : List Char) (place : Nat) : Prop :=
  (dropStatusOpener dropSignalWord (text.drop place)).isSome = true

/-- Behind a well-formed opening tag the text ends in a closing tag, white space apart. -/
def EndsInBlock (text : List Char) : Prop :=
  ∃ before block word body closer blank,
    text = before ++ block ∧
      dropStatusOpener dropSignalWord block = some (word, body ++ (closer ++ blank)) ∧
      Spelled ignoresCase statusCloser closer ∧ blank.all isSpace = true

/-- The text goes on to `rest` without another bracket. -/
def Skips (text rest : List Char) : Prop := ∃ skipped, text = skipped ++ rest ∧ '<' ∉ skipped

variable {text rest : List Char} {dropState : List Char → Option (List Char × List Char)}
  {word : List Char} {table : LowerTable}

theorem Skips.trans {middle : List Char} (h : Skips text middle) (hrest : Skips middle rest) :
    Skips text rest := by
  obtain ⟨first, rfl, hfirst⟩ := h
  obtain ⟨second, rfl, hsecond⟩ := hrest
  refine ⟨first ++ second, (List.append_assoc ..).symm, ?_⟩
  rw [List.mem_append, not_or]
  exact ⟨hfirst, hsecond⟩

theorem dropSpelled_skips {needle : List Char} (hneedle : '<' ∉ needle)
    (h : dropSpelled ignoresCase needle text = some rest) : Skips text rest := by
  obtain ⟨found, hfound, rfl⟩ := dropSpelled_eq_some.mp h
  exact ⟨found, rfl, bracket_not_mem hfound hneedle⟩

theorem dropOne_eq_some {p : Char → Bool} :
    dropOne p text = some rest ↔ ∃ c, p c = true ∧ text = c :: rest := by
  cases text with
  | nil => simp [dropOne]
  | cons c =>
    by_cases hc : p c = true
    · rw [dropOne, if_pos hc]
      constructor
      · intro h
        exact ⟨c, hc, by rw [Option.some.inj h]⟩
      · rintro ⟨d, -, h⟩
        rw [(List.cons.inj h).2]
    · rw [dropOne, if_neg hc]
      constructor
      · intro h
        contradiction
      · rintro ⟨d, hd, h⟩
        obtain ⟨rfl, -⟩ := List.cons.inj h
        exact absurd hd hc

theorem dropOne_skips {p : Char → Bool} (hp : p '<' = false) (h : dropOne p text = some rest) :
    Skips text rest := by
  obtain ⟨c, hc, rfl⟩ := dropOne_eq_some.1 h
  refine ⟨[c], rfl, ?_⟩
  rw [List.mem_singleton]
  rintro rfl
  rw [hp] at hc
  contradiction

theorem dropWhile_skips : Skips text (text.dropWhile isSpace) := by
  refine ⟨text.takeWhile isSpace, List.takeWhile_append_dropWhile.symm, ?_⟩
  intro hmem
  have hspace := List.mem_takeWhile_imp hmem
  exact absurd hspace (by decide)

theorem dropSignalWord_skips (h : dropSignalWord text = some (word, rest)) : Skips text rest := by
  obtain ⟨name, hname, hmap⟩ := List.exists_of_findSome?_eq_some h
  obtain ⟨rest', hrest, heq⟩ := Option.map_eq_some_iff.mp hmap
  obtain ⟨-, rfl⟩ := Prod.mk.inj heq
  have hbracket : ∀ name ∈ signalWords, '<' ∉ name := by decide
  exact dropSpelled_skips (hbracket name hname) hrest

theorem dropStatusOpener_skips
    (hstate : ∀ {text word rest}, dropState text = some (word, rest) → Skips text rest)
    (h : dropStatusOpener dropState text = some (word, rest)) :
    ∃ g tail, text = '<' :: g :: tail ∧ ignoresCase 'g' g = true ∧ Skips (g :: tail) rest := by
  simp only [dropStatusOpener, Option.bind_eq_bind, Option.bind_eq_some_iff] at h
  obtain ⟨named, hnamed, spaced, hspaced, stated, hstated, quoted, hquoted, ⟨state, worded⟩,
    hworded, unquoted, hunquoted, closed, hclosed, heq⟩ := h
  obtain ⟨-, rfl⟩ := Prod.mk.inj (Option.some.inj heq)
  have hrest : Skips named closed :=
    (dropOne_skips (by decide) hspaced).trans (dropWhile_skips.trans
      ((dropSpelled_skips (by decide) hstated).trans ((dropOne_skips (by decide) hquoted).trans
        ((hstate hworded).trans ((dropOne_skips (by decide) hunquoted).trans
          (dropWhile_skips.trans (dropOne_skips (by decide) hclosed)))))))
  obtain ⟨found, hfound, rfl⟩ := dropSpelled_eq_some.mp hnamed
  rw [show statusName = '<' :: 'g' :: "oal-status".toList by decide] at hfound
  cases hfound with
  | cons hbracket hname =>
    cases hname with
    | @cons _ g _ name hg hname =>
      obtain rfl := eq_of_ignoresCase (by decide) hbracket
      refine ⟨g, name ++ named, rfl, hg, ?_⟩
      have hspelled : Spelled ignoresCase ('g' :: "oal-status".toList) (g :: name) :=
        .cons hg hname
      exact Skips.trans ⟨g :: name, rfl, bracket_not_mem hspelled (by decide)⟩ hrest

theorem closesHere_iff : closesHere text = true ↔ ∃ closer blank, text = closer ++ blank ∧
    Spelled ignoresCase statusCloser closer ∧ blank.all isSpace = true := by
  unfold closesHere
  constructor
  · intro h
    split at h
    · rename_i blank hblank
      obtain ⟨closer, hcloser, htext⟩ := dropSpelled_eq_some.mp hblank
      exact ⟨closer, blank, htext, hcloser, h⟩
    · contradiction
  · rintro ⟨closer, blank, rfl, hcloser, hblank⟩
    rw [dropSpelled_eq_some.mpr ⟨closer, hcloser, rfl⟩]
    exact hblank

theorem closesHere_eq (h : closesHere text = true) :
    ∃ tail, text = '<' :: '/' :: tail ∧ '<' ∉ tail := by
  obtain ⟨closer, blank, rfl, hcloser, hblank⟩ := closesHere_iff.1 h
  have hspace : '<' ∉ blank := by
    intro hmem
    exact absurd (List.all_eq_true.mp hblank '<' hmem) (by decide)
  rw [show statusCloser = '<' :: '/' :: "goal-status>".toList by decide] at hcloser
  cases hcloser with
  | cons hbracket hcloser =>
    cases hcloser with
    | @cons _ _ _ name hslash hname =>
      obtain rfl := eq_of_ignoresCase (by decide) hbracket
      obtain rfl := eq_of_ignoresCase (by decide) hslash
      refine ⟨name ++ blank, rfl, ?_⟩
      rw [List.mem_append, not_or]
      exact ⟨bracket_not_mem hname (by decide), hspace⟩

theorem ignoresCase_g_slash : ignoresCase 'g' '/' = false := by decide

theorem closes_behind {before block front : List Char} (hcloses : closesHere block = true)
    (hopens : dropStatusOpener dropSignalWord text = some (word, rest))
    (htext : before ++ block = front ++ text) : (bodyLength rest).isSome = true := by
  obtain ⟨tail, rfl, htail⟩ := closesHere_eq hcloses
  obtain ⟨g, name, rfl, hg, skipped, hskipped, hfree⟩ :=
    dropStatusOpener_skips dropSignalWord_skips hopens
  have hdifferent : g ≠ '/' := by
    rintro rfl
    rw [ignoresCase_g_slash] at hg
    contradiction
  rcases List.append_eq_append_iff.mp htext with ⟨gap, -, hblock⟩ | ⟨gap, -, hopener⟩
  · -- the opening tag would start inside the closing tag or behind it
    cases gap with
    | nil =>
      have hhead := (List.cons.inj (List.cons.inj hblock).2).1
      exact absurd hhead.symm hdifferent
    | cons =>
      have hinside : '<' ∈ '/' :: tail := by
        rw [(List.cons.inj hblock).2]
        simp
      rcases List.mem_cons.mp hinside with hslash | hmem
      · exact absurd hslash (by decide)
      · exact absurd hmem htail
  · cases gap with
    | nil =>
      have hhead := (List.cons.inj (List.cons.inj hopener).2).1
      exact absurd hhead hdifferent
    | cons c gap =>
      have hboth : gap ++ '<' :: '/' :: tail = skipped ++ rest := by
        rw [← hskipped, (List.cons.inj hopener).2]
        rfl
      rw [bodyLength, isSome_findAt]
      rcases List.append_eq_append_iff.mp hboth with ⟨inner, rfl, hrest⟩ | ⟨inner, -, hrest⟩
      · -- the closing tag would start inside the opening tag
        cases inner with
        | nil =>
          refine ⟨0, Nat.zero_le _, ?_⟩
          rw [List.drop_zero, ← List.nil_append rest, ← hrest]
          exact hcloses
        | cons =>
          obtain ⟨rfl, -⟩ := List.cons.inj hrest
          exact absurd (by simp) hfree
      · refine ⟨inner.length, ?_, ?_⟩
        · rw [hrest]
          simp
        · rw [hrest, List.drop_left]
          exact hcloses

theorem statusBlockHere_iff : statusBlockHere text = true ↔
    ∃ word rest, dropStatusOpener dropSignalWord text = some (word, rest) ∧
      (bodyLength rest).isSome = true := by
  unfold statusBlockHere
  cases h : dropStatusOpener dropSignalWord text with
  | none => simp
  | some found =>
    obtain ⟨word, rest⟩ := found
    simp

theorem goalStatusTerminal_iff :
    goalStatusTerminal text = true ↔ EndsInBlock (goalTail text) := by
  rw [goalStatusTerminal, isSome_findAt]
  constructor
  · rintro ⟨i, -, hblock⟩
    obtain ⟨word, rest, hopens, hbody⟩ := statusBlockHere_iff.1 hblock
    obtain ⟨n, -, hcloses⟩ := isSome_findAt.mp hbody
    obtain ⟨closer, blank, hdrop, hcloser, hblank⟩ := closesHere_iff.1 hcloses
    refine ⟨(goalTail text).take i, (goalTail text).drop i, word, rest.take n, closer, blank,
      (List.take_append_drop i _).symm, ?_, hcloser, hblank⟩
    rw [hopens, ← hdrop, List.take_append_drop]
  · rintro ⟨before, block, word, body, closer, blank, htext, hopens, hcloser, hblank⟩
    refine ⟨before.length, ?_, ?_⟩
    · rw [htext]
      simp
    · rw [htext, List.drop_left]
      refine statusBlockHere_iff.2 ⟨word, _, hopens, isSome_findAt.mpr ⟨body.length, ?_, ?_⟩⟩
      · simp
      · rw [List.drop_left]
        exact closesHere_iff.2 ⟨closer, blank, rfl, hcloser, hblank⟩

theorem isSome_fullmatchStatus : (fullmatchStatus table text).isSome = true ↔
    statusBlockHere text = true := by
  rw [statusBlockHere_iff, fullmatchStatus, Option.bind_eq_bind]
  cases hopens : dropStatusOpener dropSignalWord text with
  | none => simp
  | some found =>
    obtain ⟨word, rest⟩ := found
    cases hbody : bodyLength rest with
    | none => simp [hbody]
    | some => simp [hbody]

theorem statusName_tagName : TagName statusName :=
  ⟨all_ascii (by decide), by decide, by decide⟩

def lastNamed (text : List Char) : Option Nat := rfindAt (startsWith lowersTo statusName) text

/-- Where the controller looks for the tag: a `İ` in front of the last name counts twice. -/
theorem isSome_extractSignal : (extractSignal table text).isSome = true ↔
    ∃ place, lastNamed (goalTail text) = some place ∧
      statusBlockHere ((goalTail text).drop
        (place + ((goalTail text).take place).count dottedCapitalI)) = true := by
  rw [extractSignal, Option.bind_eq_bind, rfindAt_lower statusName_tagName]
  show _ ↔ ∃ place, rfindAt (startsWith lowersTo statusName) (goalTail text) = some place ∧ _
  cases hplace : rfindAt (startsWith lowersTo statusName) (goalTail text) with
  | none => simp
  | some =>
    obtain ⟨hle, -, -⟩ := rfindAt_spec hplace
    rw [Option.map_some, Option.bind_some, isSome_fullmatchStatus, length_lower,
      List.length_take, Nat.min_eq_left hle]
    simp

/-- The tailer's test and the controller's reading of one text say the same. -/
def SignalsAgree (table : LowerTable) (text : List Char) : Prop :=
  goalStatusTerminal text = true ↔ (extractSignal table text).isSome = true

/-- The two readings of a text agree if and only if the text does not end in a status block, or
a well-formed opening tag starts at the last name in it, moved on by the number of `İ` that the
tail has in front of that name. -/
theorem signals_agree_iff (table : LowerTable) (text : List Char) :
    SignalsAgree table text ↔
      (EndsInBlock (goalTail text) →
        ∃ place, lastNamed (goalTail text) = some place ∧
          OpensAt (goalTail text)
            (place + ((goalTail text).take place).count dottedCapitalI)) := by
  rw [SignalsAgree, goalStatusTerminal_iff, isSome_extractSignal]
  constructor
  · intro hagree hends
    obtain ⟨place, hplace, hblock⟩ := hagree.mp hends
    obtain ⟨word, rest, hopens, -⟩ := statusBlockHere_iff.1 hblock
    exact ⟨place, hplace, by rw [OpensAt, hopens]; rfl⟩
  · intro hopen
    constructor
    · intro hends
      obtain ⟨place, hplace, hopens⟩ := hopen hends
      obtain ⟨⟨word, rest⟩, hopens⟩ := Option.isSome_iff_exists.mp hopens
      obtain ⟨before, block, _, body, closer, blank, htext, hblock, hcloser, hblank⟩ := hends
      obtain ⟨g, name, rfl, -, skipped, hskipped, -⟩ :=
        dropStatusOpener_skips dropSignalWord_skips hblock
      refine ⟨place, hplace, statusBlockHere_iff.2 ⟨word, rest, hopens, ?_⟩⟩
      have hcloses : closesHere (closer ++ blank) = true :=
        closesHere_iff.2 ⟨closer, blank, rfl, hcloser, hblank⟩
      refine @closes_behind _ rest word (before ++ '<' :: skipped ++ body) (closer ++ blank)
        ((goalTail text).take (place + ((goalTail text).take place).count dottedCapitalI))
        hcloses hopens ?_
      rw [List.take_append_drop, htext, hskipped]
      simp
    · rintro ⟨place, -, hblock⟩
      rw [← goalStatusTerminal_iff, goalStatusTerminal, isSome_findAt]
      refine ⟨_, ?_, hblock⟩
      apply Nat.le_of_not_lt
      intro hbehind
      rw [List.drop_eq_nil_of_le (Nat.le_of_lt hbehind)] at hblock
      contradiction

private def namedAgain : List Char :=
  "<goal-status state=\"complete\">The <goal-status> tag is written.</goal-status>".toList

private def shifted : List Char := "İ<goal-status state=\"complete\">Done.</goal-status>".toList

private def asciiLower : LowerTable := ⟨id, fun _ h => h⟩

theorem signals_differ :
    ¬ SignalsAgree asciiLower namedAgain ∧ ¬ SignalsAgree asciiLower shifted := by
  have hnamed : goalStatusTerminal namedAgain = true ∧
      (extractSignal asciiLower namedAgain).isSome = false := by decide +kernel
  have hshifted : goalStatusTerminal shifted = true ∧
      (extractSignal asciiLower shifted).isSome = false := by decide +kernel
  constructor
  · intro hagree
    have hsignal := hagree.mp hnamed.1
    rw [hnamed.2] at hsignal
    exact Bool.false_ne_true hsignal
  · intro hagree
    have hsignal := hagree.mp hshifted.1
    rw [hshifted.2] at hsignal
    exact Bool.false_ne_true hsignal

end ClaudeHub.GoalProtocol
