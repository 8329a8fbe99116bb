import ClaudeHub.Lib.Lists
import ClaudeHub.Lib.Runs

/-! # What goes before a first turn

A provider session puts the Hub guidance before the first prompt of a conversation that has text,
and the history of a fork before the first message that has text. It notes the guidance as given
while it puts the prompt together, and the history once the provider has it. The send lock lets one
call end before the next begins.
-/

namespace ClaudeHub

open StepSystem

structure ChatPrompt where
  conversation : Nat
  seedHistory : Option String := none
  guidance : Bool := false
  turnContext : String := ""
  text : String
  deriving DecidableEq

def ChatPrompt.hasText (prompt : ChatPrompt) : Bool :=
  prompt.text ≠ "" || prompt.turnContext ≠ ""

structure ProviderSession where
  turnInFlight : Bool := false
  conversation : Nat := 0
  hubRuntimeGuidanceInjected : Bool := false
  seedHistory : Option String := none
  seedHistoryInjected : Bool := false
  accepted : List ChatPrompt := []

inductive Rotation
  | raised
  | notAssociated
  | adopted

inductive DotPlan
  | notDot
  | failed
  | cancelled
  | ready (rotation : Option Rotation) (turnContext : String)

/-- What `_send_text` comes to. -/
inductive SentTurn
  | accepted
  | failed
  /-- It is cancelled, or raises and leaves the delivery uncertain. -/
  | interrupted (taken : Bool)
  deriving DecidableEq

def SentTurn.taken : SentTurn → Bool
  | .accepted => true
  | .failed => false
  | .interrupted taken => taken

structure TurnSend where
  text : String
  /-- Preparation, admission and the staging of images went through. -/
  admitted : Bool := true
  plan : DotPlan := .notDot
  sent : SentTurn := .accepted
  /-- `_on_turn_sent` was not cancelled. -/
  acknowledged : Bool := true

namespace ProviderSession

def start (seedHistory : Option String) : ProviderSession :=
  { seedHistory := seedHistory.filter (· ≠ "") }

def rotate (session : ProviderSession) : ProviderSession :=
  { session with conversation := session.conversation + 1, hubRuntimeGuidanceInjected := false }

/-- `_prepare_turn_context`, where it does not raise; a preparation that fails is only logged. -/
def prepareTurnContext (session : ProviderSession) : DotPlan → Option (ProviderSession × String)
  | .notDot | .failed => some (session, "")
  | .cancelled => none
  | .ready none turnContext => some (session, turnContext)
  | .ready (some .adopted) turnContext => some (session.rotate, turnContext)
  | .ready (some _) _ => none

/-- `_with_first_turn_prefixes`, once the context of the turn is there. -/
def withFirstTurnPrefixes (session : ProviderSession) (text turnContext : String) :
    ProviderSession × ChatPrompt :=
  let seedHistory :=
    if text ≠ "" ∧ session.seedHistoryInjected = false then session.seedHistory else none
  if text = "" ∧ turnContext = "" then
    (session, { conversation := session.conversation, text := text })
  else
    ({ session with hubRuntimeGuidanceInjected := true },
      { conversation := session.conversation
        seedHistory := seedHistory
        guidance := !session.hubRuntimeGuidanceInjected
        turnContext := turnContext
        text := text })

/-- A call up to its prompt; one that ends before has released the turn again. -/
def compose (session : ProviderSession) (call : TurnSend) :
    Option (ProviderSession × ChatPrompt) :=
  if call.admitted = false ∨ session.turnInFlight then none
  else (session.prepareTurnContext call.plan).map fun (prepared, turnContext) =>
    prepared.withFirstTurnPrefixes call.text turnContext

def markSeedDelivered (session : ProviderSession) : ProviderSession :=
  if session.seedHistoryInjected ∨ session.seedHistory = none then session
  else { session with seedHistoryInjected := true, seedHistory := none }

def sendMessage (session : ProviderSession) (call : TurnSend) : ProviderSession :=
  match session.compose call with
  | none => session
  | some (composed, prompt) =>
    match call.sent with
    | .failed => composed
    | .interrupted taken =>
      { composed with
        turnInFlight := true
        accepted := if taken then composed.accepted ++ [prompt] else composed.accepted }
    | .accepted =>
      let sent :=
        { composed with turnInFlight := true, accepted := composed.accepted ++ [prompt] }
      if call.acknowledged ∧ prompt.seedHistory.isSome then sent.markSeedDelivered else sent

inductive ProviderOp
  | sendMessage (call : TurnSend)
  | turnEnded

def step (session : ProviderSession) : ProviderOp → Option ProviderSession
  | .sendMessage call => some (session.sendMessage call)
  | .turnEnded => some { session with turnInFlight := false }

/-- A prompt with the guidance reaches the provider, and one with the history is marked if it does. -/
def undisturbed (session : ProviderSession) : ProviderOp → Bool
  | .sendMessage call => (session.compose call).all fun (_, prompt) =>
    (!prompt.guidance || call.sent.taken) &&
      (!prompt.seedHistory.isSome || !call.sent.taken ||
        (call.sent = .accepted && call.acknowledged))
  | .turnEnded => true

/-! ## What a session keeps -/

def promptsIn (session : ProviderSession) (conversation : Nat) : List ChatPrompt :=
  session.accepted.filter (·.conversation = conversation)

def takesSeed (seed : Option String) (prompt : ChatPrompt) : Bool :=
  seed.isSome && prompt.text ≠ ""

structure Once (seed : Option String) (session : ProviderSession) : Prop where
  conversations : ∀ prompt ∈ session.accepted, prompt.conversation ≤ session.conversation
  guidance : ∀ conversation,
    List.MarksFirst ChatPrompt.hasText ChatPrompt.guidance (session.promptsIn conversation)
  injected : session.hubRuntimeGuidanceInjected =
    (session.promptsIn session.conversation).any ChatPrompt.hasText
  seeds : List.MarksFirst (takesSeed seed) (fun prompt => prompt.seedHistory.isSome) session.accepted
  given : session.seedHistoryInjected = session.accepted.any (takesSeed seed)
  pending : session.seedHistory = if session.seedHistoryInjected then none else seed
  same : ∀ prompt ∈ session.accepted, ∀ history,
    prompt.seedHistory = some history → seed = some history

variable {seed : Option String} {session composed next : ProviderSession} {prompt : ChatPrompt}
  {call : TurnSend}

theorem once_start (seedHistory : Option String) :
    Once (seedHistory.filter (· ≠ "")) (start seedHistory) where
  conversations := nofun
  guidance _ := rfl
  injected := rfl
  seeds := rfl
  given := rfl
  pending := rfl
  same := nofun

theorem Once.rotate (h : Once seed session) : Once seed session.rotate := by
  refine { h with conversations := fun prompt hmem => ?_, injected := ?_ }
  · exact Nat.le_succ_of_le (h.conversations prompt hmem)
  · -- no prompt was taken in the new conversation
    refine (List.any_eq_false.mpr fun prompt hmem => ?_).symm
    obtain ⟨hmem, hsame⟩ := List.mem_filter.mp hmem
    have hle := h.conversations prompt hmem
    have heq : prompt.conversation = session.conversation + 1 := of_decide_eq_true hsame
    omega

theorem withFirstTurnPrefixes_spec {text turnContext : String}
    (h : session.withFirstTurnPrefixes text turnContext = (composed, prompt)) :
    composed = { session with
        hubRuntimeGuidanceInjected := session.hubRuntimeGuidanceInjected || prompt.hasText } ∧
      prompt.conversation = session.conversation ∧
      prompt.guidance = (prompt.hasText && !session.hubRuntimeGuidanceInjected) ∧
      prompt.seedHistory = if prompt.text ≠ "" ∧ session.seedHistoryInjected = false
        then session.seedHistory else none := by
  unfold withFirstTurnPrefixes at h
  simp only at h
  split at h
  next hempty =>
    obtain ⟨rfl, rfl⟩ := Prod.mk.inj h
    simp [ChatPrompt.hasText, hempty.1]
  next hnonempty =>
    obtain ⟨rfl, rfl⟩ := Prod.mk.inj h
    have htext : (decide (text ≠ "") || decide (turnContext ≠ "")) = true := by
      simpa [Decidable.imp_iff_not_or] using hnonempty
    simp only [ChatPrompt.hasText, htext, Bool.or_true, Bool.true_and, and_self]

theorem Once.accept (h : Once seed session)
    (hconversation : prompt.conversation = session.conversation)
    (hguidance : prompt.guidance = (prompt.hasText && !session.hubRuntimeGuidanceInjected))
    (hseed : prompt.seedHistory = if prompt.text ≠ "" ∧ session.seedHistoryInjected = false
      then session.seedHistory else none)
    (haccepted : next.accepted = session.accepted ++ [prompt])
    (hsame : next.conversation = session.conversation)
    (hinjected : next.hubRuntimeGuidanceInjected =
      (session.hubRuntimeGuidanceInjected || prompt.hasText))
    (hgiven : next.seedHistoryInjected =
      (session.seedHistoryInjected || prompt.seedHistory.isSome))
    (hpending : next.seedHistory = if prompt.seedHistory.isSome then none
      else session.seedHistory) : Once seed next := by
  have hpromptsIn : ∀ conversation, next.promptsIn conversation = session.promptsIn conversation ++
      if conversation = session.conversation then [prompt] else [] := by
    intro conversation
    rw [promptsIn, haccepted, List.filter_append, List.filter_singleton, hconversation, promptsIn]
    by_cases heq : conversation = session.conversation
    · simp [heq]
    · simp [heq, Ne.symm heq]
  have hfirst : prompt.seedHistory.isSome =
      (takesSeed seed prompt && !session.accepted.any (takesSeed seed)) := by
    rw [hseed, ← h.given, h.pending, takesSeed]
    cases session.seedHistoryInjected <;> by_cases htext : prompt.text = "" <;> simp [htext]
  refine ⟨fun other hother => ?_, fun conversation => ?_, ?_, ?_, ?_, ?_, ?_⟩
  · rw [haccepted, List.mem_append, List.mem_singleton] at hother
    rw [hsame]
    rcases hother with hold | rfl
    · exact h.conversations other hold
    · exact Nat.le_of_eq hconversation
  · rw [hpromptsIn]
    split
    next heq =>
      subst heq
      exact (h.guidance _).concat (by rw [hguidance, h.injected])
    · rw [List.append_nil]
      exact h.guidance conversation
  · rw [hinjected, hsame, hpromptsIn, if_pos rfl, List.any_append, h.injected]
    simp
  · rw [haccepted]
    exact h.seeds.concat hfirst
  · rw [hgiven, haccepted, List.any_append, ← h.given, hfirst, ← h.given]
    cases session.seedHistoryInjected <;> simp
  · rw [hpending, hgiven, h.pending]
    cases session.seedHistoryInjected <;> cases prompt.seedHistory.isSome <;> rfl
  · intro other hother history hhistory
    rw [haccepted, List.mem_append, List.mem_singleton] at hother
    rcases hother with hold | rfl
    · exact h.same other hold history hhistory
    · rw [hseed, h.pending] at hhistory
      split at hhistory
      · split at hhistory
        · cases hhistory
        · exact hhistory
      · cases hhistory

theorem injected_of_no_guidance
    (hguidance : prompt.guidance = (prompt.hasText && !session.hubRuntimeGuidanceInjected))
    (hnone : prompt.guidance = false) :
    (session.hubRuntimeGuidanceInjected || prompt.hasText) = session.hubRuntimeGuidanceInjected := by
  rw [hnone] at hguidance
  cases hinjected : session.hubRuntimeGuidanceInjected with
  | true => rfl
  | false =>
    rw [hinjected] at hguidance
    simpa using hguidance.symm

/-- What a call that leaves the provider without its prompt leaves to be sent. -/
def StillArmed (session next : ProviderSession) : Prop :=
  (session.hubRuntimeGuidanceInjected = false → next.hubRuntimeGuidanceInjected = false) ∧
    next.seedHistory = session.seedHistory ∧
    next.seedHistoryInjected = session.seedHistoryInjected

theorem unmarked_of_carried (hseed : prompt.seedHistory =
      if prompt.text ≠ "" ∧ session.seedHistoryInjected = false then session.seedHistory else none)
    (hcarried : prompt.seedHistory.isSome = true) :
    ¬ (session.seedHistoryInjected = true ∨ session.seedHistory = none) := by
  rw [hseed] at hcarried
  split at hcarried
  next hfresh =>
    intro h
    rcases h with hinjected | hnone
    · rw [hfresh.2] at hinjected
      cases hinjected
    · rw [hnone] at hcarried
      cases hcarried
  · cases hcarried

theorem compose_cases (h : session.compose call = some (composed, prompt)) :
    ∃ prepared turnContext, (prepared = session ∨ prepared = session.rotate) ∧
      prepared.withFirstTurnPrefixes call.text turnContext = (composed, prompt) := by
  unfold compose at h
  split at h
  · cases h
  · obtain ⟨⟨prepared, turnContext⟩, hprepared, hprefixes⟩ := Option.map_eq_some_iff.mp h
    refine ⟨prepared, turnContext, ?_, hprefixes⟩
    unfold prepareTurnContext at hprepared
    split at hprepared <;> cases hprepared
    · exact .inl rfl
    · exact .inl rfl
    · exact .inl rfl
    · exact .inr rfl

theorem Once.sendMessage (h : Once seed session) (call : TurnSend)
    (hok : session.undisturbed (.sendMessage call) = true) :
    Once seed (session.sendMessage call) ∧
      ((session.sendMessage call).accepted = session.accepted →
        session.StillArmed (session.sendMessage call)) := by
  unfold ProviderSession.sendMessage
  cases hcompose : session.compose call with
  | none => exact ⟨h, fun _ => ⟨id, rfl, rfl⟩⟩
  | some found =>
    obtain ⟨composed, prompt⟩ := found
    obtain ⟨prepared, turnContext, hprepared, hprefixes⟩ := compose_cases hcompose
    obtain ⟨hcomposed, hconversation, hguidance, hseed⟩ := withFirstTurnPrefixes_spec hprefixes
    have hstart : Once seed prepared := by
      rcases hprepared with rfl | rfl
      · exact h
      · exact h.rotate
    have harmed : session.StillArmed prepared := by
      rcases hprepared with rfl | rfl
      · exact ⟨id, rfl, rfl⟩
      · exact ⟨fun _ => rfl, rfl, rfl⟩
    have hlonger : ¬ prepared.accepted ++ [prompt] = session.accepted := by
      rcases hprepared with rfl | rfl <;> simp [ProviderSession.rotate]
    simp only [undisturbed, hcompose, Option.all_some, Bool.and_eq_true, Bool.or_eq_true,
      Bool.not_eq_true'] at hok
    obtain ⟨hsent, hmarked⟩ := hok
    -- without its guidance a prompt that is lost has changed nothing
    have hlost (htaken : call.sent.taken = false) :=
      injected_of_no_guidance hguidance (hsent.resolve_right (by simp [htaken]))
    subst hcomposed
    have htaken (hnone : prompt.seedHistory.isSome = false) : Once seed { prepared with
        turnInFlight := true
        hubRuntimeGuidanceInjected := prepared.hubRuntimeGuidanceInjected || prompt.hasText
        accepted := prepared.accepted ++ [prompt] } := by
      refine hstart.accept hconversation hguidance hseed rfl rfl rfl ?_ ?_
      · rw [hnone, Bool.or_false]
      · rw [hnone]
        rfl
    dsimp only
    cases hcase : call.sent with
    | failed =>
      dsimp only
      rw [hlost (by rw [hcase]; rfl)]
      exact ⟨hstart, fun _ => harmed⟩
    | interrupted taken =>
      cases taken with
      | false =>
        dsimp only
        rw [hlost (by rw [hcase]; rfl)]
        exact ⟨{ hstart with }, fun _ => harmed⟩
      | true =>
        have hnone : prompt.seedHistory.isSome = false := by
          simpa [hcase, SentTurn.taken] using hmarked
        exact ⟨htaken hnone, fun hsame => absurd hsame hlonger⟩
    | accepted =>
      dsimp only
      split
      next hmark =>
        rw [markSeedDelivered, if_neg (unmarked_of_carried hseed hmark.2)]
        refine ⟨hstart.accept hconversation hguidance hseed rfl rfl rfl ?_ ?_, fun hsame => ?_⟩
        · rw [hmark.2, Bool.or_true]
        · rw [hmark.2]
          rfl
        · exact absurd hsame hlonger
      next hmark =>
        refine ⟨htaken ?_, fun hsame => absurd hsame hlonger⟩
        cases hsome : prompt.seedHistory.isSome with
        | false => rfl
        | true =>
          rw [hsome, hcase] at hmarked
          exact absurd ⟨by simpa [SentTurn.taken] using hmarked, hsome⟩ hmark

/-- Where every prompt with the guidance is taken and every history that is taken gets marked, the
first prompt with text of each conversation has the guidance, the first message has the history, and
no other prompt has either. -/
theorem first_turn_context_once (seedHistory : Option String) (ops : List ProviderOp)
    (session : ProviderSession)
    (hrun : Run step (fun session op => session.undisturbed op = true) (start seedHistory) ops
      session) :
    (∀ conversation,
      List.MarksFirst ChatPrompt.hasText ChatPrompt.guidance (session.promptsIn conversation)) ∧
    List.MarksFirst (takesSeed (seedHistory.filter (· ≠ ""))) (fun prompt => prompt.seedHistory.isSome)
      session.accepted ∧
    (∀ prompt ∈ session.accepted, ∀ history, prompt.seedHistory = some history →
      seedHistory.filter (· ≠ "") = some history) ∧
    ∀ call, session.undisturbed (.sendMessage call) = true →
      (session.sendMessage call).accepted = session.accepted →
        session.StillArmed (session.sendMessage call) := by
  have honce : Once (seedHistory.filter (· ≠ "")) session := by
    refine hrun.invariant (once_start seedHistory) fun before op after h hok hstep => ?_
    cases op with
    | sendMessage call =>
      cases hstep
      exact (h.sendMessage call hok).1
    | turnEnded =>
      cases hstep
      exact { h with }
  exact ⟨honce.guidance, honce.seeds, honce.same, fun call hok => (honce.sendMessage call hok).2⟩

/-- An image alone, a preparation that is cancelled, the first message, and one after a rotation. -/
theorem first_turn_context_once_rotated : ∃ session : ProviderSession,
    session.accepted.map (fun prompt => (prompt.guidance, prompt.seedHistory)) =
      [(false, none), (true, some "seed"), (true, none)] ∧
    ∀ conversation,
      List.MarksFirst ChatPrompt.hasText ChatPrompt.guidance (session.promptsIn conversation) := by
  have hrun : Run step (fun session op => session.undisturbed op = true) (start (some "seed"))
      [.sendMessage { text := "" }, .turnEnded,
        .sendMessage { text := "Hello", plan := .cancelled }, .sendMessage { text := "Hello" },
        .turnEnded, .sendMessage { text := "Again", plan := .ready (some .adopted) "" }] _ :=
    .of_execOk rfl
  exact ⟨_, by decide, (first_turn_context_once _ _ _ hrun).1⟩

/-- The first delivery fails once the guidance is noted as given; the retry goes without. -/
theorem first_turn_guidance_lost : ¬ ∀ ops session,
    exec step (start none) ops = some session → ∀ conversation,
      List.MarksFirst ChatPrompt.hasText ChatPrompt.guidance (session.promptsIn conversation) := by
  intro h
  have hfirst := h [.sendMessage { text := "Hello", sent := .failed },
    .sendMessage { text := "Hello" }] _ rfl 0
  exact absurd hfirst (by unfold List.MarksFirst; decide)

end ProviderSession

end ClaudeHub
