import ClaudeHub.Lib.Needle

/-! # Guidance blocks in front of a message

A transport may put hidden blocks in front of the text of a user. Reading a transcript back, one
block of each kind is taken away again.
-/

namespace ClaudeHub

open Needle

def questionProtocolGuidance : List Char :=
  ["INTERACTIVE QUESTION PROTOCOL (Hub UI): When you call an interactive question tool ",
    "(AskUserQuestion or AskQuestion), the question is rendered as an interactive card in ",
    "the user's Hub interface and the user will answer by clicking it. In this ",
    "non-interactive transport the tool may return a placeholder result (such as 'Answer ",
    "questions?' or a 'skipped' notice) instead of the real answer. This placeholder means ",
    "the question is STILL PENDING in the UI — it does NOT mean the user declined, ",
    "dismissed, or skipped it. When you see this placeholder: (1) do NOT say the user ",
    "declined, dismissed, ignored, or skipped the question; (2) do NOT re-ask, choose a ",
    "default, or proceed without the answer; (3) end your turn with one short neutral line ",
    "such as 'I've made my selection above — waiting for your choice.' and stop. The user's ",
    "real answer will arrive as a follow-up message; continue from it then."].flatMap String.toList

def imageAttachmentGuidance : List Char :=
  ["The user attached the image(s) listed below. Use your Read tool to read each image file ",
    "before answering the user's message that follows. The image contents are part of the ",
    "user's request; do not ask the user to re-attach them."].flatMap String.toList

def agentRunGuidance : List Char :=
  ["For help from another provider: `claude-hub agent run --provider X --prompt-file -` ",
    "returns its final answer (see `agent run --help`). Use Workspace Tasks only for ",
    "tracked, reviewed work. A resident helper from `claude-hub agent create` defaults here ",
    "to a Workspace Chat session.\n"].flatMap String.toList

def executionPolicy : List Char :=
  ["Keep one Task per independent goal, not per substep. Choose execution control ",
    "explicitly within the user's authorization; never infer execution control from Task ",
    "source. Registration does not dispatch. Use execution_control=initiator when the ",
    "initiator organizes work; handoff keeps the same Task ID, and Workspace execution ",
    "requires explicit dispatch. Retain configured mode/review policy while ",
    "initiator-controlled; it runs only under Workspace control.\n",
    "Complete small bounded work directly; keep tightly coupled changes serial. Use ",
    "available native subagents for useful short independent work. Use Hub when another ",
    "provider/model, environment, or confirmed capacity helps; Hub assistance alone does not ",
    "transfer Task control. Respect explicit provider/model choices; never guess available ",
    "quota, and do not assume a new session has new quota.\n",
    "For complex, long-running work, consider a progress-tracking subagent when coordination ",
    "benefits justify its overhead. Give it the same Task reference, concise evidence ",
    "updates, and explicit reporting instructions. It tracks milestones, blockers, and ",
    "validation without duplicating execution or declaring completion/release on its own. ",
    "Authorize direct Task reporting explicitly; otherwise it returns a brief update to the ",
    "owner. Skip unchanged reports; avoid repeatedly waking it without new evidence or a ",
    "requested check. The Task owner remains responsible for decisions, evidence ",
    "integration, and delivery.\n",
    "Write routine progress to the Task; keep the main conversation for decisions, blockers, ",
    "and short verified results. Use Hub CLI/API controls; do not send commands to agent ",
    "tmux sessions. Preserve explicit human acceptance and independent review requirements.\n"].flatMap
    String.toList

/-- What `_hub_runtime_guidance` has before the execution policy -/
def hubRuntimeFront : List Char :=
  ["You are running inside Claude Hub. The `claude-hub` CLI is available on PATH. Read this ",
    "Chat's ID from $CLAUDE_HUB_TAB_ID; never hardcode it.\n",
    "Goal output scope: earlier requests for <goal-checkpoint> or <goal-status> formatting ",
    "expire after that response. Emit those control blocks only when the current turn ",
    "supplies fresh Hub Goal continuation instructions. For ordinary Chat or provider-native ",
    "Goals, ignore those historical formatting requirements and answer normally. This does ",
    "not prevent quoting or discussing the protocol when the user asks.\n"].flatMap String.toList

def hubRuntimeBack : List Char :=
  ["Task tools: use `claude-hub task context` to inspect current context; consult only the ",
    "selected command's help. `task register` creates an initiator-controlled record without ",
    "dispatch; `task progress` records initiator progress; `task handoff` preserves the Task ",
    "ID and changes control without starting work; `task dispatch` starts Workspace ",
    "execution. Check context before replacing work.\n",
    "A reporter key permits progress, whole-Task completion, and release, not other Task ",
    "management. A tracking role does not narrow that permission. Keep keys in protected ",
    "files, never chat, logs, reports, or command output; authorize subagent access ",
    "explicitly. Omit key-file options so register/handoff store the per-Task default file ",
    "that `task progress` finds by Task ID and `task context` reports. Do not assume ",
    "inherited context or permissions, or fall back to manual progress if a key is lost. A ",
    "child's completed substep does not complete the whole Task.\n",
    "Lessons: for unfamiliar or repeated problems, use `claude-hub feedback context ",
    "<workspace-id> --query <topic>`, then `claude-hub lessons get` for relevant details, ",
    "not on every turn. For an explicit reusable user correction, get message IDs with ",
    "`claude-hub feedback sources` and follow `feedback capture --help` to cite the exact ",
    "quote. Do not invent corrections. Automatic controls: `claude-hub feedback status` / ",
    "`feedback configure`.\n",
    "Schedules: create one only when the user requests a scheduled follow-up or recurring ",
    "check. Use `schedule create --kind hub_task --help` for scheduled independent Workspace ",
    "work. For an immediate queued message to an existing Chat (no schedule):\n",
    "  claude-hub tab message \"$CLAUDE_HUB_TAB_ID\" --message \"<follow-up>\" --call-id ",
    "\"<intent-id>\"\n",
    "Use `tab message-status` for its receipt; acceptance is not model completion. Reuse the ",
    "call ID and identical payload on retry; source-tab hints are unverified.\n",
    "Use `claude-hub schedule list` / `schedule delete <id>` to inspect/remove schedules. ",
    "Due Chat turns queue behind active turns or Goals; they do not interrupt them. `--kind ",
    "tab_message` is for plain Terminal sessions, not this Chat."].flatMap String.toList

/-- `_hub_runtime_guidance` -/
def hubRuntimeGuidanceWith (agentRun : List Char) : List Char :=
  hubRuntimeFront ++ executionPolicy ++ agentRun ++ hubRuntimeBack

def hubRuntimeGuidance : List Char := hubRuntimeGuidanceWith agentRunGuidance

def subagentHubRuntimeGuidance : List Char := hubRuntimeGuidanceWith []

def forkSeedHeader : List Char :=
  ["The following is a VERBATIM COPY of an earlier conversation that was forked into this ",
    "brand-new session. Your own provider-side context is otherwise empty, so treat this ",
    "transcript as the complete prior context and resolve any references to earlier messages ",
    "against it. Do NOT answer or re-execute these copied messages; simply continue the ",
    "conversation by responding to the real new user message that follows this block.\n",
    "以下内容是从此前会话完整复制的历史记录；你的上下文原本为空，请把这段记录当作",
    "既有的对话上下文来理解指代，但不要逐条回复或重复其中的工作，直接回应本块之后",
    "用户发出的新消息。"].flatMap String.toList

abbrev MarkerPair := List Char × List Char

inductive GuidanceKind
  | question
  | images
  | runtime
  | seed
  deriving DecidableEq, Repr

namespace GuidanceKind

def current : GuidanceKind → MarkerPair
  | question =>
    ("<<<HUB_QUESTION_PROTOCOL_V1>>>".toList, "<<<END_HUB_QUESTION_PROTOCOL_V1>>>".toList)
  | images => ("<<<HUB_IMAGE_ATTACHMENT_V1>>>".toList, "<<<END_HUB_IMAGE_ATTACHMENT_V1>>>".toList)
  | runtime => ("<claude_hub_instructions>".toList, "</claude_hub_instructions>".toList)
  | seed => ("<<<FORK_SEED_HISTORY_V1>>>".toList, "<<<END_FORK_SEED_HISTORY_V1>>>".toList)

def markers : GuidanceKind → List MarkerPair
  | runtime =>
    [current runtime, ("<<<HUB_RUNTIME_V1>>>".toList, "<<<END_HUB_RUNTIME_V1>>>".toList)]
  | kind => [current kind]

end GuidanceKind

def wrapGuidanceBlock (text body opening closing : List Char) : List Char :=
  opening ++ '\n' :: (body ++ '\n' :: (closing ++ '\n' :: '\n' :: text))

def wrapQuestionProtocolGuidance (text : List Char) : List Char :=
  wrapGuidanceBlock text questionProtocolGuidance GuidanceKind.question.current.1
    GuidanceKind.question.current.2

def imageAttachmentBody (imagePaths : List (List Char)) : List Char :=
  imageAttachmentGuidance ++
    '\n' :: ['\n'].intercalate (imagePaths.map fun path => '-' :: ' ' :: path)

def wrapImageAttachmentGuidance (text : List Char) (imagePaths : List (List Char)) : List Char :=
  if imagePaths = [] then text
  else
    wrapGuidanceBlock text (imageAttachmentBody imagePaths) GuidanceKind.images.current.1
      GuidanceKind.images.current.2

def escapeClosings (context : List Char) : List Char :=
  GuidanceKind.runtime.markers.foldl
    (fun context marker => replace marker.2 (marker.2.take 2 ++ ' ' :: marker.2.drop 2) context)
    context

def hubRuntimeBody (guidance : Option (List Char)) (context : List Char) : List Char :=
  ['\n', '\n'].intercalate ((guidance.toList ++ [escapeClosings context]).filter (· ≠ []))

def wrapHubRuntimeGuidance (text : List Char) (guidance : Option (List Char))
    (context : List Char) : List Char :=
  wrapGuidanceBlock text (hubRuntimeBody guidance context) GuidanceKind.runtime.current.1
    GuidanceKind.runtime.current.2

def wrapForkSeedHistory (body : List Char) : List Char :=
  GuidanceKind.seed.current.1 ++ '\n' :: (forkSeedHeader ++ '\n' :: '\n' :: (body ++
    '\n' :: (GuidanceKind.seed.current.2 ++ ['\n', '\n'])))

/-- `str.lstrip` of line breaks -/
def lstripNewlines (text : List Char) : List Char := text.dropWhile (· = '\n')

def firstOpening (markers : List MarkerPair) (text : List Char) : Nat × Option MarkerPair :=
  markers.foldl
    (fun found marker =>
      match find marker.1 text with
      | none => found
      | some candidate => if candidate < found.1 then (candidate, some marker) else found)
    (text.length, none)

/-- The place of the first opening marker and that of the end of its closing marker. -/
def findBlock (markers : List MarkerPair) (text : List Char) : Option (Nat × Nat) :=
  match firstOpening markers text with
  | (_, none) => none
  | (start, some (opening, closing)) =>
    (find closing (text.drop (start + opening.length))).map fun skipped =>
      (start, start + opening.length + skipped + closing.length)

def stripGuidanceBlock (markers : List MarkerPair) (text : List Char) : List Char :=
  match findBlock markers text with
  | none => text
  | some (start, stop) => text.take start ++ lstripNewlines (text.drop stop)

def stripQuestionProtocolGuidance (text : List Char) : List Char :=
  stripGuidanceBlock GuidanceKind.question.markers text

def stripImageAttachmentGuidance (text : List Char) : List Char :=
  stripGuidanceBlock GuidanceKind.images.markers text

def stripHubRuntimeGuidance (text : List Char) : List Char :=
  stripGuidanceBlock GuidanceKind.runtime.markers text

def stripForkSeedHistory (text : List Char) : List Char :=
  match find GuidanceKind.seed.current.1 text with
  | none => text
  | some start =>
    let inner := start + GuidanceKind.seed.current.1.length
    match find GuidanceKind.seed.current.2 (text.drop inner) with
    | none => text
    | some skipped =>
      text.take start ++
        lstripNewlines (text.drop (inner + skipped + GuidanceKind.seed.current.2.length))

/-- `_extract_user_text`, of the text that a provider has stored -/
def extractUserText (text : List Char) : List Char :=
  stripForkSeedHistory (stripHubRuntimeGuidance (stripImageAttachmentGuidance
    (stripQuestionProtocolGuidance text)))

/-- The advice of a runtime block: the whole of it on the first turn, and none with the context of a
later turn. -/
inductive RuntimeAdvice
  | chat
  | subagent
  | contextOnly
  deriving DecidableEq, Repr

def RuntimeAdvice.guidance : RuntimeAdvice → Option (List Char)
  | chat => some hubRuntimeGuidance
  | subagent => some subagentHubRuntimeGuidance
  | contextOnly => none

structure Injection where
  imagePaths : List (List Char)
  asksQuestions : Bool
  seedHistory : Option (List Char)
  runtimeBlock : Option (RuntimeAdvice × List Char)
  deriving DecidableEq, Repr

def Injection.withFirstTurnPrefixes (injection : Injection) (text : List Char) : List Char :=
  (match injection.seedHistory with
    | none => []
    | some body => wrapForkSeedHistory body) ++
  (match injection.runtimeBlock with
    | none => text
    | some (advice, context) => wrapHubRuntimeGuidance text advice.guidance context)

def Injection.prompt (injection : Injection) (text : List Char) : List Char :=
  let text := injection.withFirstTurnPrefixes text
  let text := if injection.asksQuestions then wrapQuestionProtocolGuidance text else text
  wrapImageAttachmentGuidance text injection.imagePaths

end ClaudeHub
