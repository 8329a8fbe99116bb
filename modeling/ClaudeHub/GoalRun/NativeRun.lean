import ClaudeHub.GoalRun.NativeRequests

/-! # Runs of the native coordinator

Over any run of calls, each with any script, the provider calls of a request are begun by
one call, a repeat is answered from its receipt, and, while the clock moves forward, a
cancelled record stays cancelled and a tab has one unfinished record at most.
-/

namespace ClaudeHub

open Attempt StepSystem NativeWorld

def NativeCall.request? : NativeCall → Option NativeRequest
  | .refresh _ => none
  | .create tabId request => some (Native.createOrigin tabId request)
  | .mutate args => some args.origin

namespace NativeGoals

def load (store : NativeGoalStore) : NativeGoals := { store := store }

/-- The ids of the records that the call may create are new. -/
def Fresh (goals : NativeGoals) (op : NativeOp) : Prop :=
  (op.births.map NativeBirth.id).Nodup ∧
    ∀ newborn ∈ op.births, goals.store.goals.get? newborn.id = none

instance (goals : NativeGoals) (op : NativeOp) : Decidable (goals.Fresh op) :=
  inferInstanceAs (Decidable (_ ∧ _))

/-- And their stamps are later than those of the records before them. -/
def Forward (goals : NativeGoals) (op : NativeOp) : Prop :=
  goals.Fresh op ∧ op.births.Pairwise (fun a b => a.createdAt < b.createdAt) ∧
    ∀ newborn ∈ op.births, ∀ goal ∈ goals.store.goals.rows, goal.createdAt < newborn.createdAt

instance (goals : NativeGoals) (op : NativeOp) : Decidable (goals.Forward op) :=
  inferInstanceAs (Decidable (_ ∧ _))

variable {orderly : Prop} {goals : NativeGoals} {op : NativeOp}

theorem sound_world (hfresh : goals.Fresh op)
    (horderly : orderly → goals.Forward op ∧ goals.store.Kept) :
    Sound orderly (goals.world op) where
  fresh := ⟨hfresh.1, hfresh.2⟩
  ahead := fun ho => ⟨(horderly ho).1.2.1, (horderly ho).1.2.2⟩
  kept := fun ho => (horderly ho).2

theorem keeps_refresh (tabId : TabId) {world : NativeWorld} :
    Keeps (Sound orderly) (Acts orderly .confirms) (Native.refresh tabId) world
      (fun _ _ => True) := by
  apply (Native.keeps_connect tabId).bind
  intro answer first _ _ _
  cases answer with
  | none =>
    apply Keeps.bind (Keeps.reads (Q := fun _ _ => True) trivial)
    exact fun _ _ _ _ _ => Keeps.pure trivial
  | some snapshot =>
    apply (Native.keeps_synchronize tabId snapshot).bind
    exact fun _ _ _ _ _ => Keeps.pure trivial

/-- What one call leaves: it kept the invariant, and it began no provider call or its own
under a receipt that it claimed. -/
theorem invoke_claims (hsound : Sound orderly (goals.world op)) :
    Sound orderly (goals.invoke op).2 ∧
      (Acts orderly .confirms (goals.world op) (goals.invoke op).2 ∨
        ∃ request, op.call.request? = some request ∧
          Claims orderly request (goals.world op) (goals.invoke op).2) := by
  obtain ⟨call, replies, saves, births, now⟩ := op
  cases call with
  | refresh tabId =>
    obtain ⟨hafter, hacts⟩ := (keeps_refresh tabId).state hsound
    exact ⟨hafter, .inl hacts⟩
  | create tabId request =>
    obtain ⟨hafter, hclaims⟩ := (Native.keeps_create tabId request).state hsound
    exact ⟨hafter, .inr ⟨_, rfl, hclaims⟩⟩
  | mutate args =>
    obtain ⟨hafter, hclaims⟩ := (Native.keeps_mutate args).state hsound
    exact ⟨hafter, .inr ⟨_, rfl, hclaims⟩⟩

/-- One call, whatever its script: receipts stay, and the provider calls that it begins are
of a request that had none and has one now. -/
structure Invoked (orderly : Prop) (goals : NativeGoals) (op : NativeOp) (after : NativeWorld) :
    Prop where
  cancelled : orderly → ∀ id goal, goals.store.goals.get? id = some goal →
    goal.status = .cancelled →
      ∃ later, after.store.goals.get? id = some later ∧ later.status = .cancelled
  holds : ∀ request, goals.store.Holds request → after.store.Holds request
  started : ∃ more, after.started = goals.started ++ more ∧ ∀ effect ∈ more,
    effect.call = goals.calls ∧ op.call.request? = some effect.request ∧
      ¬ goals.store.Knows effect.request.key ∧ after.store.Holds effect.request

theorem invoked_of_acts {deed : NativeDeed} {after : NativeWorld}
    (h : Acts orderly deed (goals.world op) after)
    (hstarts : ∀ request, deed = .starts request → op.call.request? = some request ∧
      ¬ goals.store.Knows request.key ∧ after.store.Holds request) :
    Invoked orderly goals op after where
  cancelled := by
    intro ho id goal hget hstatus
    obtain ⟨later, hlater, -, -, -, hcancelled⟩ := h.records id goal hget
    exact ⟨later, hlater, hcancelled ho hstatus⟩
  holds := fun request hrequest => h.holds hrequest
  started := by
    obtain ⟨more, hmore, heach⟩ := h.started
    refine ⟨more, hmore, fun effect heffect => ?_⟩
    obtain ⟨hcall, hdeed⟩ := heach effect heffect
    exact ⟨hcall, hstarts effect.request hdeed⟩

theorem invoke_spec (hsound : Sound orderly (goals.world op)) :
    Sound orderly (goals.invoke op).2 ∧ Invoked orderly goals op (goals.invoke op).2 := by
  obtain ⟨hafter, hquiet | ⟨request, hrequest, hquiet | ⟨hnew, hacts, hholds⟩⟩⟩ :=
    invoke_claims hsound
  · exact ⟨hafter, invoked_of_acts hquiet nofun⟩
  · exact ⟨hafter, invoked_of_acts hquiet nofun⟩
  · refine ⟨hafter, invoked_of_acts hacts fun other hother => ?_⟩
    obtain rfl : request = other := NativeDeed.starts.inj hother
    exact ⟨hrequest, hnew, hholds⟩

/-- The provider calls of a request were begun by one call, under a receipt for its content. -/
structure RequestsOnce (goals : NativeGoals) : Prop where
  once : ∀ a ∈ goals.started, ∀ b ∈ goals.started, a.request.key = b.request.key → a.call = b.call
  held : ∀ effect ∈ goals.started, goals.store.Holds effect.request

theorem RequestsOnce.step {after : NativeGoals} (h : goals.RequestsOnce) (hfresh : goals.Fresh op)
    (hstep : goals.step op = some after) : after.RequestsOnce := by
  have hsound : Sound False (goals.world op) := sound_world hfresh False.elim
  obtain ⟨-, -, hholds, more, hmore, heach⟩ := invoke_spec hsound
  cases hstep
  constructor
  · intro a ha b hb hkey
    dsimp only at ha hb
    rw [hmore] at ha hb
    rcases List.mem_append.mp ha with hold | hnew <;> rcases List.mem_append.mp hb with hold' | hnew'
    · exact h.once a hold b hold' hkey
    · obtain ⟨-, -, hunknown, -⟩ := heach b hnew'
      exact absurd (hkey ▸ (h.held a hold).knows) hunknown
    · obtain ⟨-, -, hunknown, -⟩ := heach a hnew
      exact absurd (hkey ▸ (h.held b hold').knows) hunknown
    · exact (heach a hnew).1.trans (heach b hnew').1.symm
  · intro effect heffect
    dsimp only at heffect
    rw [hmore] at heffect
    rcases List.mem_append.mp heffect with hold | hnew
    · exact hholds _ (h.held effect hold)
    · exact (heach effect hnew).2.2.2

variable {ops : List NativeOp} {last : NativeGoals}

theorem requestsOnce_of_run {store : NativeGoalStore} (hrun : Run step Fresh (load store) ops last) :
    last.RequestsOnce :=
  hrun.invariant ⟨by simp [load], by simp [load]⟩ fun _ _ _ h hfresh hstep => h.step hfresh hstep

/-- What a call that returns a goal found where an earlier call had left its outcome open. -/
def Confirmed (goals : NativeGoals) (op : NativeOp) (goal : NativeGoalRun) : Prop :=
  match op.call with
  | .refresh _ => True
  | .create _ request => ∀ id prior baseline,
      goals.store.createRequests.lookup (.client request.clientRequestId) = some id →
        goals.store.goals.get? id = some prior →
          prior.receipt request.clientRequestId = some (.pendingCreate baseline) →
            ∃ snapshot, op.replies.head? = some (.snapshot (some snapshot)) ∧
              Native.CreateReflected snapshot request baseline goal
  | .mutate args => ∀ prior, goals.store.goals.get? args.goalId = some prior →
      prior.receipt args.requestId = some (.pending args.fingerprint) →
        ∃ snapshot, op.replies.head? = some (.snapshot (some snapshot)) ∧
          Native.MutationReflected snapshot args goal

/-- How a repeat is answered: it begins no provider call, with another content it returns no
goal, and while the outcome is open it returns one only as the snapshot shows it. -/
structure Answers (goals : NativeGoals) (op : NativeOp) : Prop where
  silent : ∀ request, op.call.request? = some request → goals.store.Knows request.key →
    (goals.invoke op).2.started = goals.started
  refused : ∀ request held, op.call.request? = some request → goals.store.Holds held →
    held.key = request.key → held ≠ request →
      ∀ goal, (goals.invoke op).1 ≠ .returned (.goal goal)
  confirmed : ∀ goal, (goals.invoke op).1 = .returned (.goal goal) → goals.Confirmed op goal

theorem invoke_eq {result : Outcome NativeFault NativeResult} (h : (goals.invoke op).1 = result) :
    op.call.run (goals.world op) = (result, (goals.invoke op).2) := by
  rw [← h]
  rfl

theorem answers (hfresh : goals.Fresh op) : goals.Answers op := by
  have hsound : Sound False (goals.world op) := sound_world hfresh False.elim
  constructor
  · intro request hrequest hknows
    obtain ⟨-, -, -, more, hmore, heach⟩ := invoke_spec hsound
    have hnil : more = [] := by
      apply List.eq_nil_iff_forall_not_mem.mpr
      intro effect heffect
      obtain ⟨-, howner, hunknown, -⟩ := heach effect heffect
      cases hrequest.symm.trans howner
      exact hunknown hknows
    rw [hmore, hnil, List.append_nil]
  · intro request held hrequest hheld hkey hother goal hresult
    have hrun := invoke_eq hresult
    obtain ⟨call, replies, saves, births, now⟩ := op
    cases call with
    | refresh => cases hrequest
    | create tabId create =>
      cases hrequest
      have hreplay := (Native.keeps_create tabId create).returned hsound hrun goal rfl
      cases held with
      | mutation => cases hkey
      | create requestId input =>
        obtain rfl : requestId = create.clientRequestId := RequestKey.create.inj hkey
        obtain ⟨id, hid, hinput⟩ := hheld
        exact hother (congrArg _ (hreplay.input id hid input hinput))
    | mutate args =>
      cases hrequest
      have hreplay := (Native.keeps_mutate args).returned hsound hrun goal rfl
      cases held with
      | create => cases hkey
      | mutation =>
        obtain ⟨rfl, rfl⟩ := RequestKey.mutation.inj hkey
        exact hother (congrArg _ (Option.some.inj (hreplay.same _ hheld)))
  · intro goal hresult
    have hrun := invoke_eq hresult
    obtain ⟨call, replies, saves, births, now⟩ := op
    cases call with
    | refresh => trivial
    | create tabId create =>
      have hreplay := (Native.keeps_create tabId create).returned hsound hrun goal rfl
      intro id prior baseline hid hprior hreceipt
      obtain ⟨snapshot, hanswer, hreflected⟩ :=
        hreplay.confirmed id prior baseline hid hprior hreceipt
      exact ⟨snapshot, hanswer snapshot rfl, hreflected⟩
    | mutate args =>
      have hreplay := (Native.keeps_mutate args).returned hsound hrun goal rfl
      intro prior hprior hreceipt
      obtain ⟨snapshot, hanswer, hreflected⟩ := hreplay.confirmed prior hprior hreceipt
      exact ⟨snapshot, hanswer snapshot rfl, hreflected⟩

/-! ## While the clock moves forward -/

theorem forward_step {after : NativeGoals} (hforward : goals.Forward op)
    (hkept : goals.store.Kept) (hstep : goals.step op = some after) :
    after.store.Kept ∧ ∀ id goal, goals.store.goals.get? id = some goal →
      goal.status = .cancelled →
        ∃ later, after.store.goals.get? id = some later ∧ later.status = .cancelled := by
  have hsound : Sound True (goals.world op) := sound_world hforward.1 fun _ => ⟨hforward, hkept⟩
  obtain ⟨hafter, hinvoked⟩ := invoke_spec hsound
  cases hstep
  exact ⟨hafter.kept trivial, hinvoked.cancelled trivial⟩

theorem kept_of_run (hkept : goals.store.Kept) (hrun : Run step Forward goals ops last) :
    last.store.Kept :=
  hrun.invariant (P := fun goals => goals.store.Kept) hkept
    fun _ _ _ hkept hforward hstep => (forward_step hforward hkept hstep).1

theorem cancelled_of_run (hkept : goals.store.Kept) (hrun : Run step Forward goals ops last)
    {id : GoalId} {goal : NativeGoalRun} (hget : goals.store.goals.get? id = some goal)
    (hstatus : goal.status = .cancelled) :
    ∃ later, last.store.goals.get? id = some later ∧ later.status = .cancelled := by
  induction hrun generalizing goal with
  | nil => exact ⟨goal, hget, hstatus⟩
  | cons hforward hstep _ ih =>
    obtain ⟨hnext, hcancelled⟩ := forward_step hforward hkept hstep
    obtain ⟨later, hlater, hlaterStatus⟩ := hcancelled id goal hget hstatus
    exact ih hnext hlater hlaterStatus

/-- A request begins its provider calls once for its id, and once for its Goal where it is a
mutation. As long as each new record is stamped later than those before it, a cancelled record stays
cancelled and a tab has one unfinished record at most. -/
theorem native_requests_at_most_once {store : NativeGoalStore} {ops : List NativeOp}
    {goals : NativeGoals} (hrun : Run step Fresh (load store) ops goals) :
    goals.RequestsOnce ∧ (∀ op, goals.Fresh op → goals.Answers op) ∧
      (store.Kept → Run step Forward (load store) ops goals → ∀ later last,
        Run step Forward goals later last →
          (∀ id goal, goals.store.goals.get? id = some goal → goal.status = .cancelled →
            ∃ kept, last.store.goals.get? id = some kept ∧ kept.status = .cancelled) ∧
          ∀ a ∈ last.store.goals.rows, ∀ b ∈ last.store.goals.rows, a.tabId = b.tabId →
            a.unfinished → b.unfinished → a = b) := by
  refine ⟨requestsOnce_of_run hrun, fun op hfresh => answers hfresh, ?_⟩
  intro hstore hforward later last hlater
  have hkept : goals.store.Kept := kept_of_run hstore hforward
  have hlast : last.store.Kept := kept_of_run hkept hlater
  constructor
  · exact fun id goal hget hstatus => cancelled_of_run hkept hlater hget hstatus
  · exact fun a ha b hb htab hua hub => hlast.unique ha hb htab hua hub

private def shipping (status : GoalRunStatus) : ProviderGoalSnapshot :=
  ⟨"thread", some ⟨"ship", status, 0, 5, 5⟩⟩

private def testing (status : GoalRunStatus) : ProviderGoalSnapshot :=
  ⟨"thread", some ⟨"test", status, 0, 9, 9⟩⟩

private def createShip : NativeOp where
  call := .create "tab" ⟨"ship", "create", 0, ""⟩
  replies := [.snapshot (some ⟨"thread", none⟩), .turn none, .goal ⟨"ship", .active, 0, 5, 5⟩,
    .turn none, .snapshot (some (shipping .active)), .turn none]
  saves := [true, true, true, true]
  births := [⟨"first", 1⟩]
  now := 1

private def pauseGoal (goalId : GoalId) (shown stopped : ProviderGoalSnapshot)
    (raw : ProviderGoal) : NativeOp where
  call := .mutate { goalId := goalId, requestId := "again", operation := .pause }
  replies := [.snapshot (some shown), .turn none, .goal raw, .turn none, .done,
    .snapshot (some stopped), .turn none, .inFlight false]
  saves := [true, true, true, true]
  now := 2

private def adoptTest : NativeOp where
  call := .refresh "tab"
  replies := [.snapshot (some (testing .active)), .turn none]
  saves := [true, true, true]
  births := [⟨"second", 3⟩]
  now := 3

private def pauseSecond : NativeOp :=
  pauseGoal "second" (testing .active) (testing .paused) ⟨"test", .paused, 0, 9, 9⟩

private def twoGoals : List NativeOp :=
  [createShip, pauseGoal "first" (shipping .active) (shipping .paused) ⟨"ship", .paused, 0, 5, 5⟩,
    adoptTest]

private def createOpen : NativeOp where
  call := .create "tab" ⟨"ship", "create", 0, ""⟩
  replies := [.snapshot (some ⟨"thread", none⟩), .turn none, .goal ⟨"ship", .active, 0, 5, 5⟩,
    .turn none, .raises .cancelled]
  saves := [true, true, true]
  births := [⟨"first", 1⟩]
  now := 1

private def pauseUnstopped : NativeOp where
  call := .mutate { goalId := "first", requestId := "pause", operation := .pause }
  replies := [.snapshot (some (shipping .active)), .turn none, .goal ⟨"ship", .paused, 0, 5, 5⟩,
    .turn none, .raises (.runtime "timeout")]
  saves := [true, true, true]
  now := 2

private def createRetry : NativeOp where
  call := .create "tab" ⟨"ship", "create", 0, ""⟩
  replies := [.snapshot (some ⟨"thread", none⟩), .turn none, .inFlight true]
  saves := [true, true]
  now := 3

/-- One client request id pauses two Goals of a tab, one after the other; and the repeat of a
create whose outcome is open returns its Goal although the provider shows none, because a stop
of the record is still pending. -/
theorem native_request_id_begins_twice :
    (∃ goals, exec step {} (twoGoals ++ [pauseSecond]) = some goals ∧
        ∃ a ∈ goals.started, ∃ b ∈ goals.started,
          a.request.key.requestId = b.request.key.requestId ∧ a.call ≠ b.call) ∧
      ∃ goals, exec step {} [createOpen, pauseUnstopped] = some goals ∧
        ∃ goal, (goals.invoke createRetry).1 = .returned (.goal goal) := by
  constructor
  · apply exists_exec_of_any
    decide +kernel
  · have hrun : ∃ goals, exec step {} [createOpen, pauseUnstopped] = some goals ∧
        (match (goals.invoke createRetry).1 with
          | .returned (.goal _) => true
          | _ => false) = true := by
      apply exists_exec_of_any
      decide +kernel
    obtain ⟨goals, hgoals, hresult⟩ := hrun
    refine ⟨goals, hgoals, ?_⟩
    split at hresult
    · next goal hgoal => exact ⟨goal, hgoal⟩
    · cases hresult

/-- A create, a pause and the adoption of another Goal, and then the pause of that one. -/
theorem native_requests_at_most_once_adopted :
    ∃ goals last, Run step Forward (load {}) twoGoals goals ∧
      Run step Forward goals [pauseSecond] last ∧ goals.RequestsOnce ∧
      ∀ a ∈ last.store.goals.rows, ∀ b ∈ last.store.goals.rows, a.tabId = b.tabId →
        a.unfinished → b.unfinished → a = b := by
  have hdone : ((execOk step Forward (load {}) twoGoals).bind fun goals =>
      execOk step Forward goals [pauseSecond]).isSome = true := by decide +kernel
  obtain ⟨last, hlast⟩ := Option.isSome_iff_exists.mp hdone
  obtain ⟨goals, hgoals, hpaused⟩ := Option.bind_eq_some_iff.mp hlast
  have hforward := Run.of_execOk hgoals
  have hlater := Run.of_execOk hpaused
  obtain ⟨honce, -, hsettled⟩ :=
    native_requests_at_most_once (hforward.mono fun _ _ h => h.1)
  exact ⟨goals, last, hforward, hlater, honce,
    (hsettled NativeGoalStore.kept_empty hforward _ last hlater).2⟩

end NativeGoals

end ClaudeHub
