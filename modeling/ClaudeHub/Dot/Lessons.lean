import ClaudeHub.Lib.Acyclic
import ClaudeHub.Lib.Lines
import ClaudeHub.Lib.Lists

/-! # Lessons and their votes

Dot keeps its lessons in one file. A vote for a lesson that was merged goes to the lesson it was
merged into. What is kept of a lesson's strength and of its times is left out: no vote depends on
it.
-/

namespace ClaudeHub

open Lines

structure Lesson where
  id : String
  rule : String
  votes : Nat
  tasks : List String
  dropped : Bool := false
  mergedInto : Option String := none
  deriving DecidableEq, Repr

inductive LessonError
  | value (message : String)
  /-- `KeyError` -/
  | key (id : String)
  deriving DecidableEq, Repr

def lessonRuleLimit : Nat := 200

def lessonTaskLimit : Nat := 20

/-- `str.split`, without a separator -/
def words : List Char → List (List Char)
  | [] => []
  | c :: cs =>
    if isSpace c then words cs
    else
      match cs with
      | [] => [[c]]
      | d :: _ =>
        if isSpace d then [c] :: words cs
        else
          match words cs with
          | [] => [[c]]
          | word :: rest => (c :: word) :: rest

def cleanRule (rule : String) : Except LessonError String :=
  let clean := String.intercalate " " ((words rule.toList).map String.ofList)
  if clean = "" ∨ lessonRuleLimit < clean.length then
    .error (.value "a lesson is one rule of 1-200 characters")
  else .ok clean

namespace Lessons

def byId (lessons : List Lesson) (id : String) : Option Lesson :=
  lessons.reverse.find? fun lesson => lesson.id = id

def amendFirst (id : String) (change : Lesson → Lesson) : List Lesson → List Lesson
  | [] => []
  | lesson :: lessons =>
    if lesson.id = id then change lesson :: lessons else lesson :: amendFirst id change lessons

def amendLast (id : String) (change : Lesson → Lesson) (lessons : List Lesson) : List Lesson :=
  (amendFirst id change lessons.reverse).reverse

def given (taskId : Option String) : Option String := taskId.filter fun id => id ≠ ""

/-- `add_lesson`; `hex` is the random part of the new id. -/
def addLesson (lessons : List Lesson) (rule : String) (taskId : Option String) (hex : String) :
    Except LessonError (List Lesson × Lesson) := do
  let clean ← cleanRule rule
  let lesson : Lesson :=
    { id := "l-" ++ hex, rule := clean, votes := 1, tasks := (given taskId).toList }
  return (lessons ++ [lesson], lesson)

/-- The loop of `vote_lesson` with the hops that it has left. -/
def followMerges (lessons : List Lesson) : Nat → Option Lesson → Option Lesson
  | 0, lesson => lesson
  | _ + 1, none => none
  | hops + 1, some lesson =>
    match lesson.mergedInto with
    | none => some lesson
    | some next => followMerges lessons hops (byId lessons next)

def voted (taskId : Option String) (lesson : Lesson) : Lesson :=
  { lesson with
    votes := lesson.votes + 1
    tasks :=
      match given taskId with
      | none => lesson.tasks
      | some task => List.keepLast lessonTaskLimit (lesson.tasks ++ [task]) }

def voteLesson (lessons : List Lesson) (lessonId : String) (taskId : Option String) :
    Except LessonError (List Lesson × Option Lesson) :=
  match followMerges lessons lessons.length (byId lessons lessonId) with
  | none => .ok (lessons, none)
  | some lesson =>
    if lesson.dropped then
      .error (.value ("lesson " ++ lesson.id ++ " is dropped; write a new rule instead"))
    else if (given taskId).any (· ∈ lesson.tasks) then .ok (lessons, some lesson)
    else .ok (amendLast lesson.id (voted taskId) lessons, some (voted taskId lesson))

/-- What `update_lesson` does to its lesson. -/
def updated (rule : Option String) (dropped : Option Bool) (lesson : Lesson) : Lesson :=
  { lesson with
    rule := rule.getD lesson.rule
    dropped := dropped.getD lesson.dropped }

def updateLesson (lessons : List Lesson) (lessonId : String) (rule : Option String)
    (dropped : Option Bool) : Except LessonError (List Lesson × Option Lesson) := do
  let clean ← rule.mapM cleanRule
  match lessons.find? fun lesson => lesson.id = lessonId with
  | none => return (lessons, none)
  | some lesson =>
    return (amendFirst lessonId (updated clean dropped) lessons,
      some (updated clean dropped lesson))

def absorbed (other keep : Lesson) : Lesson :=
  { keep with
    votes := keep.votes + other.votes
    tasks := List.keepLast lessonTaskLimit (([] : List String).addNew (keep.tasks ++ other.tasks)) }

def mergedAway (keepId : String) (other : Lesson) : Lesson :=
  { other with dropped := true, mergedInto := some keepId }

/-- The loop body of `merge_lessons` -/
def mergeOne (keepId : String) (lessons : List Lesson) (otherId : String) : List Lesson :=
  match byId lessons otherId with
  | none => lessons
  | some other =>
    if other.dropped then lessons
    else amendLast otherId (mergedAway keepId) (amendLast keepId (absorbed other) lessons)

def otherLessons (keepId : String) (otherIds : List String) : List String :=
  (([] : List String).addNew otherIds).filter fun other => other ≠ keepId

def mergeLessons (lessons : List Lesson) (keepId : String) (otherIds : List String) :
    Except LessonError (List Lesson × Option Lesson) :=
  let others := otherLessons keepId otherIds
  match byId lessons keepId with
  | none => .error (.key keepId)
  | some keep =>
    match others.find? fun other => (byId lessons other).isNone with
    | some missing => .error (.key missing)
    | none =>
      if keep.dropped then
        .error (.value (match keep.mergedInto with
          | some target => keepId ++ " was merged into " ++ target ++ "; merge into that"
          | none => keepId ++ " is dropped; keep a live lesson"))
      else
        let merged := others.foldl (mergeOne keepId) lessons
        .ok (merged, byId merged keepId)

end Lessons

structure Ballot where
  lessonId : String
  taskId : String
  deriving DecidableEq, Repr

/-- The lessons, and the votes of tasks that they have counted; no step depends on these. -/
structure LessonRun where
  lessons : List Lesson := []
  ballots : List Ballot := []
  deriving DecidableEq, Repr

inductive LessonOp
  | add (rule : String) (taskId : Option String) (hex : String)
  | vote (lessonId : String) (taskId : Option String)
  | update (lessonId : String) (rule : Option String) (dropped : Option Bool)
  | merge (keepId : String) (otherIds : List String)
  deriving DecidableEq, Repr

namespace LessonRun

open Lessons

def ballotFor (lessons : List Lesson) (lessonId : String) (taskId : Option String) :
    List Ballot :=
  match followMerges lessons lessons.length (byId lessons lessonId), given taskId with
  | some lesson, some task =>
    if lesson.dropped ∨ task ∈ lesson.tasks then [] else [⟨lesson.id, task⟩]
  | _, _ => []

def step (run : LessonRun) : LessonOp → Option LessonRun
  | .add rule taskId hex =>
    match addLesson run.lessons rule taskId hex with
    | .error _ => some run
    | .ok (lessons, lesson) =>
      some ⟨lessons, run.ballots ++ (given taskId).toList.map fun task => ⟨lesson.id, task⟩⟩
  | .vote lessonId taskId =>
    match voteLesson run.lessons lessonId taskId with
    | .error _ => some run
    | .ok (lessons, _) =>
      some ⟨lessons, run.ballots ++ ballotFor run.lessons lessonId taskId⟩
  | .update lessonId rule dropped =>
    match updateLesson run.lessons lessonId rule dropped with
    | .error _ => some run
    | .ok (lessons, _) => some { run with lessons := lessons }
  | .merge keepId otherIds =>
    match mergeLessons run.lessons keepId otherIds with
    | .error _ => some run
    | .ok (lessons, _) => some { run with lessons := lessons }

end LessonRun

end ClaudeHub
