import ClaudeHub.GoalProtocol.Letters
import ClaudeHub.Lib.Lines

/-! # The sanitizer of a Goal turn

Deltas of the assistant's text are fed one after the other; control blocks are dropped, and only
what may be the start of a tag is held back between two deltas.
-/

namespace ClaudeHub.GoalProtocol

open TextSearch Lines

inductive ControlTag
  | checkpoint
  | status
  deriving DecidableEq, Repr

namespace ControlTag

/-- The key of `_CLOSERS` -/
def word : ControlTag → List Char
  | checkpoint => "checkpoint".toList
  | status => "status".toList

/-- A member of `_OPENERS` -/
def name (tag : ControlTag) : List Char := "<goal-".toList ++ tag.word

/-- A value of `_CLOSERS` -/
def closer (tag : ControlTag) : List Char := "</goal-".toList ++ tag.word ++ ['>']

end ControlTag

def controlTags : List ControlTag := [.checkpoint, .status]

/-- `self._CLOSERS[self._inside]`; a key that it does not have raises -/
def closerOf (inside : List Char) : Option (List Char) :=
  (controlTags.find? fun tag => tag.word = inside).map ControlTag.closer

/-- An opening tag: what the first group of the expression takes, and what follows the name. -/
structure Opening where
  tag : ControlTag
  word : List Char
  rest : List Char
  deriving DecidableEq, Repr

def opensTag (c : Char) : Bool := isSpace c || c == '>'

def openingAs (tag : ControlTag) (text : List Char) : Option Opening :=
  match dropSpelled ignoresCase tag.name text with
  | some rest =>
    if rest.head?.any opensTag then some ⟨tag, (text.drop 6).take tag.word.length, rest⟩
    else none
  | none => none

/-- `<goal-(checkpoint|status)(?=[\s>])` -/
def openingHere (text : List Char) : Option Opening := controlTags.findSome? (openingAs · text)

/-- `_OPENING_TAG.search` -/
def findOpening (text : List Char) : Option (Nat × Opening) :=
  (findAt (fun rest => (openingHere rest).isSome) text).bind fun i =>
    (openingHere (text.drop i)).map fun opening => (i, opening)

/-- `_GoalProtocolSanitizer`, without `trailing_only` -/
structure Sanitizer where
  pending : List Char := []
  inside : Option (List Char) := none
  deriving DecidableEq, Repr

variable (table : LowerTable)

def possibleOpenerSuffix (text : List Char) : Nat :=
  let lowered := table.lower text
  (controlTags.flatMap fun tag =>
    (List.range' 1 (min lowered.length tag.name.length)).filter fun length =>
      (tag.name.take length).isSuffixOf lowered).foldl max 0

/-- The loop of `feed`, which ends because every turn shortens the pending text; without a value
it has raised. -/
def feedLoop (final : Bool) : Nat → Sanitizer → Option (List Char × Sanitizer)
  | 0, sanitizer => some ([], sanitizer)
  | fuel + 1, ⟨pending, inside⟩ =>
    if pending = [] then some ([], ⟨pending, inside⟩)
    else
      match inside with
      | some key =>
        match closerOf key with
        | none => none
        | some closer =>
          match findAt (startsWith (· == ·) closer) (table.lower pending) with
          | none =>
            let keep := min pending.length (closer.length - 1)
            some ([], ⟨pending.drop (pending.length - keep), inside⟩)
          | some closeAt => feedLoop final fuel ⟨pending.drop (closeAt + closer.length), none⟩
      | none =>
        match findOpening pending with
        | some (i, opening) =>
          (feedLoop final fuel ⟨opening.rest, some (table.lower opening.word)⟩).map
            fun fed => (pending.take i ++ fed.1, fed.2)
        | none =>
          let emitEnd := pending.length - possibleOpenerSuffix table pending
          some (pending.take emitEnd,
            ⟨if final then [] else pending.drop emitEnd, inside⟩)

def Sanitizer.feed (sanitizer : Sanitizer) (text : List Char) (final : Bool) :
    Option (List Char × Sanitizer) :=
  let pending := sanitizer.pending ++ text
  feedLoop table final pending.length { sanitizer with pending }

/-- What a reply shows that arrives in these deltas; the last one is fed as the final one. -/
def Sanitizer.feedAll (sanitizer : Sanitizer) : List (List Char) → Option (List Char)
  | [] => some []
  | [delta] => (sanitizer.feed table delta true).map Prod.fst
  | delta :: next :: deltas => do
      let (visible, sanitizer) ← sanitizer.feed table delta false
      let more ← sanitizer.feedAll (next :: deltas)
      some (visible ++ more)

/-- The body of a block whose opening tag has been read, and what follows its closing tag. -/
def splitBody (tag : ControlTag) (text : List Char) : Option (List Char × List Char) :=
  (findAt (startsWith lowersTo tag.closer) text).map fun i =>
    (text.take i, text.drop (i + tag.closer.length))

def isTruncated (text : List Char) : Bool :=
  controlTags.any fun tag =>
    decide (text.length ≤ tag.name.length) && startsWith lowersTo (tag.name.take text.length) text

def withoutTruncated (text : List Char) : List Char :=
  text.take ((findAt isTruncated text).getD text.length)

def visibleWithin : Nat → List Char → List Char
  | 0, _ => []
  | fuel + 1, text =>
    match findOpening text with
    | none => withoutTruncated text
    | some (i, opening) =>
      text.take i ++
        match splitBody opening.tag opening.rest with
        | none => []
        | some (_, rest) => visibleWithin fuel rest

def visibleText (text : List Char) : List Char := visibleWithin (text.length + 1) text

end ClaudeHub.GoalProtocol
