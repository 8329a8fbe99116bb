import ClaudeHub.GoalRun.NativeProjection

/-! # What a request does

A request claims its receipt before it begins a provider call, and only a request whose
receipt was not claimed before begins any. A repeat is answered from the receipt.
-/

namespace ClaudeHub

open Attempt

def NativeGoalStore.HasReceipt (store : NativeGoalStore) (goalId : GoalId) (requestId : String)
    (content : Option MutationFingerprint) : Prop :=
  ∃ goal receipt, store.goals.get? goalId = some goal ∧ goal.receipt requestId = some receipt ∧
    receipt.content = content

def NativeGoalStore.Knows (store : NativeGoalStore) : RequestKey → Prop
  | .create requestId => ∃ id, store.createRequests.lookup (.client requestId) = some id
  | .mutation goalId requestId => ∃ content, store.HasReceipt goalId requestId content

def NativeGoalStore.Holds (store : NativeGoalStore) : NativeRequest → Prop
  | .create requestId input => ∃ id, store.createRequests.lookup (.client requestId) = some id ∧
      store.createInputs.lookup (.client requestId) = some input
  | .mutation goalId requestId content => store.HasReceipt goalId requestId (some content)

theorem NativeGoalStore.Holds.knows {store : NativeGoalStore} {request : NativeRequest}
    (h : store.Holds request) : store.Knows request.key := by
  cases request with
  | create =>
    obtain ⟨id, hid, -⟩ := h
    exact ⟨id, hid⟩
  | mutation goalId requestId content => exact ⟨some content, h⟩

namespace NativeWorld

variable {orderly : Prop} {deed : NativeDeed} {request : NativeRequest}
  {world middle after : NativeWorld}

theorem Acts.hasReceipt (h : Acts orderly deed world after) {goalId : GoalId} {requestId : String}
    {content : Option MutationFingerprint}
    (hreceipt : world.store.HasReceipt goalId requestId content) :
    after.store.HasReceipt goalId requestId content := by
  obtain ⟨goal, receipt, hget, hclaim, hcontent⟩ := hreceipt
  obtain ⟨later, hlater, -, hreceipts, -⟩ := h.records goalId goal hget
  obtain ⟨settled, hsettled, hsame⟩ := hreceipts requestId receipt hclaim
  exact ⟨later, settled, hlater, hsettled, hsame.trans hcontent⟩

theorem Acts.knows (h : Acts orderly deed world after) {key : RequestKey}
    (hknows : world.store.Knows key) : after.store.Knows key := by
  cases key with
  | create =>
    obtain ⟨id, hid⟩ := hknows
    exact ⟨id, (h.requests _ _ hid).1⟩
  | mutation =>
    obtain ⟨content, hcontent⟩ := hknows
    exact ⟨content, h.hasReceipt hcontent⟩

theorem Acts.holds (h : Acts orderly deed world after) (hholds : world.store.Holds request) :
    after.store.Holds request := by
  cases request with
  | create =>
    obtain ⟨id, hid, hinput⟩ := hholds
    obtain ⟨hkept, hsame⟩ := h.requests _ _ hid
    exact ⟨id, hkept, hsame.trans hinput⟩
  | mutation => exact h.hasReceipt hholds

/-- How a whole call may have moved: without provider calls, or under a receipt that it
claimed itself. -/
def Claims (orderly : Prop) (request : NativeRequest) (before after : NativeWorld) : Prop :=
  Acts orderly .confirms before after ∨
    (¬ before.store.Knows request.key ∧ Acts orderly (.starts request) before after ∧
      after.store.Holds request)

theorem Claims.of_projects (h : Acts orderly .projects world middle)
    (hrest : Claims orderly request middle after) : Claims orderly request world after := by
  rcases hrest with hquiet | ⟨hnew, hacts, hclaimed⟩
  · exact .inl (IsTrans.trans _ _ _ h.of_projects hquiet)
  · refine .inr ⟨fun hold => hnew (h.knows hold), ?_, hclaimed⟩
    exact IsTrans.trans _ _ _ h.of_projects hacts

theorem Claims.bind {m : Native α} {f : α → Native β} {Q : α → NativeWorld → Prop}
    {Q₂ : β → NativeWorld → Prop} (h : Keeps (Sound orderly) (Acts orderly .projects) m world Q)
    (hf : ∀ a t, Sound orderly t → Acts orderly .projects world t → Q a t →
      Keeps (Sound orderly) (Claims orderly request) (f a) t Q₂) :
    Keeps (Sound orderly) (Claims orderly request) (m >>= f) world Q₂ :=
  h.bind_of (fun _ hacts => .inl hacts.of_projects)
    (fun _ _ _ hacts _ hrest => hrest.of_projects hacts) hf

theorem Claims.start {m : Native α} {f : α → Native β} {Q : α → NativeWorld → Prop}
    {Q₂ : β → NativeWorld → Prop} (hnew : ¬ world.store.Knows request.key)
    (h : Keeps (Sound orderly) (Acts orderly .confirms) m world Q)
    (hclaim : ∀ a t, Q a t → t.store.Holds request)
    (hf : ∀ a t, Sound orderly t → Q a t →
      Keeps (Sound orderly) (Acts orderly (.starts request)) (f a) t Q₂) :
    Keeps (Sound orderly) (Claims orderly request) (m >>= f) world Q₂ := by
  refine h.bind_of (fun _ hacts => .inl hacts) ?_ (fun a t ht _ ha => hf a t ht ha)
  intro a t u hacts ha hrest
  refine .inr ⟨hnew, ?_, hrest.holds (hclaim a t ha)⟩
  exact IsTrans.trans _ _ _ hacts.of_confirms hrest

end NativeWorld

namespace Native

open NativeWorld

variable {orderly : Prop} {deed : NativeDeed} {world : NativeWorld}

theorem keeps_uncertain (goalId : GoalId) (fault : NativeFault) :
    Keeps (Sound orderly) (Acts orderly deed) (uncertain goalId fault) world (fun _ _ => True) := by
  apply (keeps_get goalId).bind
  rintro goal after - - ⟨hafter, hget⟩
  subst after
  have hid : goal.id = goalId := Table.key_of_get? hget
  subst hid
  have hevolves : NativeGoalRun.Evolves orderly deed world.store goal
      (uncertainRecord fault goal) := .of_same rfl rfl rfl rfl rfl
  apply (keeps_put hget hevolves).bind
  exact fun _ _ _ _ _ => Keeps.pure trivial

variable {Q : NativeResult → NativeWorld → Prop}

theorem keeps_unconfirmed (goalId : GoalId) (fault : NativeFault) :
    Keeps (Sound orderly) (Acts orderly deed) (unconfirmed goalId fault) world Q := by
  apply (keeps_uncertain goalId fault).bind
  exact fun _ _ _ _ _ => Keeps.raise

variable (owner : NativeRequest)

theorem keeps_setGoal (objective : Option String) (status : Option GoalRunStatus) :
    Keeps (Sound orderly) (Acts orderly (.starts owner)) (setGoal owner objective status) world
      (fun _ after => after.store = world.store) :=
  keeps_effect owner _ _

theorem keeps_clearGoal :
    Keeps (Sound orderly) (Acts orderly (.starts owner)) (clearGoal owner) world
      (fun _ after => after.store = world.store) :=
  keeps_effect owner _ _

theorem keeps_stopTurn : Keeps (Sound orderly) (Acts orderly (.starts owner)) (stopTurn owner) world
      (fun _ after => after.store = world.store) :=
  keeps_effect owner _ _

theorem keeps_sendInput (text : String) (turnId : TurnId) :
    Keeps (Sound orderly) (Acts orderly (.starts owner)) (sendInput owner text turnId) world
      (fun _ after => after.store = world.store) :=
  keeps_effect owner _ _

theorem keeps_modify (goalId : GoalId) (change : NativeGoalRun → NativeGoalRun)
    (hchange : ∀ goal, world.store.goals.get? goalId = some goal →
      NativeGoalRun.Evolves orderly deed world.store goal (change goal))
    {f : NativeGoalRun → Native α} {Q : α → NativeWorld → Prop}
    (hf : ∀ written t, Sound orderly t → Acts orderly deed world t →
      Keeps (Sound orderly) (Acts orderly deed) (f written) t Q) :
    Keeps (Sound orderly) (Acts orderly deed)
      (do let goal ← get goalId; let written ← put (change goal); f written) world Q := by
  apply (keeps_get goalId).bind
  rintro goal after - - ⟨hafter, hget⟩
  subst after
  have hid : goal.id = goalId := Table.key_of_get? hget
  subst hid
  apply (keeps_put hget (hchange goal hget)).bind
  exact fun written t ht hacts _ => hf written t ht hacts

theorem keeps_readBack (tabId : TabId) (connected : ProviderGoalSnapshot) :
    Keeps (Sound orderly) (Acts orderly deed) (readBack tabId connected) world
      (fun result after => ∃ snapshot, Synchronized snapshot result after.store) := by
  apply keeps_askSnapshot.bind
  intro answer middle _ _ _
  cases answer with
  | none => exact Keeps.raise
  | some snapshot =>
    apply Keeps.ite
    · exact fun _ => Keeps.raise
    · intro _
      exact (keeps_synchronize tabId snapshot).mono fun result after _ h => ⟨snapshot, h⟩

theorem keeps_deliverImages (origin : NativeRequest) (goalId : GoalId) (request : GoalRunCreate) :
    Keeps (Sound orderly) (Acts orderly (.starts origin)) (deliverImages origin goalId request)
      world (fun _ _ => True) := by
  apply (keeps_get goalId).bind
  intro _ _ _ _ _
  apply (keeps_sendInput _ _ _).bind
  intro _ _ _ _ _
  apply keeps_modify
  · exact fun goal _ => NativeGoalRun.evolves_ownTurn _
  · intro _ _ _ _
    apply (keeps_setGoal _ _ _).bind
    exact fun _ _ _ _ _ => Keeps.pure trivial

theorem evolves_createConfirmed {request : GoalRunCreate} {goal stored : NativeGoalRun}
    {store : NativeGoalStore} (hdeed : deed ≠ .projects)
    (hstamped : stored = goal.stamped stored.updatedAt)
    (hreceipt : ∀ prior, stored.receipt request.clientRequestId = some prior →
      prior.content = none) :
    NativeGoalRun.Evolves orderly deed store stored (createConfirmed request goal) := by
  have hgoal : ∀ requestId, goal.receipt requestId = stored.receipt requestId := by
    intro requestId
    rw [hstamped]
    rfl
  apply NativeGoalRun.Evolves.of_receipts hdeed
  · rw [hstamped]
    rfl
  · rw [hstamped]
    rfl
  · rw [hstamped]
    rfl
  · left
    rw [hstamped]
    rfl
  · intro requestId receipt hprior
    apply NativeGoalRun.receipts_withReceipt
    · intro prior hclaim
      exact (hreceipt prior ((hgoal _).symm.trans hclaim)).symm
    · exact (hgoal requestId).trans hprior

theorem HasReceipt.content_of {store : NativeGoalStore} {goalId : GoalId} {requestId : String}
    {content : Option MutationFingerprint} (h : store.HasReceipt goalId requestId content)
    {goal : NativeGoalRun} (hget : store.goals.get? goalId = some goal) {receipt : GoalReceipt}
    (hreceipt : goal.receipt requestId = some receipt) : receipt.content = content := by
  obtain ⟨found, claimed, hfound, hclaimed, hcontent⟩ := h
  obtain rfl : found = goal := Option.some.inj (hfound.symm.trans hget)
  obtain rfl : claimed = receipt := Option.some.inj (hclaimed.symm.trans hreceipt)
  exact hcontent

theorem keeps_startCreate {tabId : TabId} {snapshot : ProviderGoalSnapshot} {goalId : GoalId}
    {request : GoalRunCreate}
    (hreceipt : world.store.HasReceipt goalId request.clientRequestId none) :
    Keeps (Sound orderly) (Acts orderly (.starts (createOrigin tabId request)))
      (startCreate tabId snapshot goalId request) world (fun _ _ => True) := by
  apply Keeps.bind (Q := fun _ _ => True)
  · apply Keeps.runIf
    · exact fun _ => (keeps_clearGoal _).mono fun _ _ _ _ => trivial
    · exact fun _ => trivial
  intro _ first _ hfirst _
  apply (keeps_setGoal _ _ _).bind
  intro raw second _ hsecond _
  apply (keeps_synchronize _ _).bind
  intro _ third _ hthird _
  apply Keeps.bind (Q := fun _ _ => True)
  · apply Keeps.runIf
    · exact fun _ => keeps_deliverImages _ _ _
    · exact fun _ => trivial
  intro _ fourth _ hfourth _
  apply (keeps_readBack _ _).bind
  rintro result fifth - hfifth ⟨shown, -, hshown⟩
  cases result with
  | none => exact Keeps.raise
  | some result =>
    apply Keeps.ite
    · exact fun _ => Keeps.raise
    · intro hsame
      obtain ⟨stored, hget, hstamped⟩ := (hshown result rfl).stored
      have hid : result.id = goalId := not_not.mp hsame
      have hlast := hfifth.hasReceipt (hfourth.hasReceipt (hthird.hasReceipt
        (hsecond.hasReceipt (hfirst.hasReceipt hreceipt))))
      rw [← hid] at hlast
      have hstoredId : stored.id = result.id := Table.key_of_get? hget
      rw [← hstoredId] at hget
      have hdeed : NativeDeed.starts (createOrigin tabId request) ≠ .projects := nofun
      apply (keeps_put hget (evolves_createConfirmed hdeed hstamped ?_)).bind
      · exact fun _ _ _ _ _ => Keeps.pure trivial
      · intro prior hprior
        exact HasReceipt.content_of hlast (hstoredId ▸ hget) hprior

/-! ## A create -/

/-- The snapshot shows the Goal of a create that replaced the baseline, unless a stop of its
record is still pending without one. -/
structure CreateReflected (snapshot : ProviderGoalSnapshot) (request : GoalRunCreate)
    (baseline : Option Int) (goal : NativeGoalRun) : Prop where
  absent : snapshot.goal = none → goal.providerStopPending = true
  present : ∀ raw, snapshot.goal = some raw → raw.objective = request.objective ∧
    some raw.createdAt ≠ baseline
  images : ∀ raw, snapshot.goal = some raw → request.imageCount ≠ 0 → raw.status ≠ .paused ∧
    request.clientRequestId ∈ goal.providerOwnedTurnIds

/-- What a create that returns a goal says of a create that was known under its id. -/
structure ReplaysCreate (world : NativeWorld) (tabId : TabId) (request : GoalRunCreate)
    (goal : NativeGoalRun) : Prop where
  input : ∀ id, world.store.createRequests.lookup (.client request.clientRequestId) = some id →
    ∀ input, world.store.createInputs.lookup (.client request.clientRequestId) = some input →
      input = createInput tabId request
  confirmed : ∀ id prior baseline,
    world.store.createRequests.lookup (.client request.clientRequestId) = some id →
      world.store.goals.get? id = some prior →
        prior.receipt request.clientRequestId = some (.pendingCreate baseline) →
          ∃ snapshot, AnsweredBy world (some snapshot) ∧
            CreateReflected snapshot request baseline goal

theorem keeps_confirmCreate {request : GoalRunCreate} {current : Option NativeGoalRun}
    {baseline : Option Int} {replay : NativeGoalRun} {snapshot : ProviderGoalSnapshot}
    (hget : world.store.goals.get? replay.id = some replay)
    (hreceipt : replay.receipt request.clientRequestId = some (.pendingCreate baseline))
    (hshown : Synchronized snapshot current world.store) :
    Keeps (Sound orderly) (Acts orderly .confirms) (confirmCreate request current baseline replay)
      world (fun result _ => ∀ goal, result = .goal goal →
        CreateReflected snapshot request baseline goal) := by
  cases current with
  | none => exact Keeps.raise
  | some current =>
    obtain ⟨⟨stored, hstored, hstamped⟩, habsent, hpresent⟩ := hshown.2 current rfl
    apply Keeps.ite
    · exact fun _ => Keeps.raise
    · intro hmatch
      simp only [not_or, not_not, ne_eq, not_and] at hmatch
      obtain ⟨hid, hobjective, hcreated, himages⟩ := hmatch
      obtain rfl : stored = replay := by
        rw [hid] at hstored
        exact Option.some.inj (hstored.symm.trans hget)
      have hdeed : NativeDeed.confirms ≠ .projects := nofun
      have hevolves : NativeGoalRun.Evolves orderly .confirms world.store stored
          (createConfirmed request stored) := by
        apply evolves_createConfirmed hdeed rfl
        intro prior hprior
        obtain rfl : prior = .pendingCreate baseline := Option.some.inj (hprior.symm.trans hreceipt)
        rfl
      apply (keeps_put hget hevolves).bind
      intro written after _ _ hwrote
      apply Keeps.pure
      rintro goal hgoal
      obtain rfl : written = goal := NativeResult.goal.inj hgoal
      have hpending : written.providerStopPending = current.providerStopPending := by
        rw [hwrote.stamped, hstamped]
        rfl
      have howned : written.providerOwnedTurnIds = stored.providerOwnedTurnIds := by
        rw [hwrote.stamped]
        rfl
      refine ⟨fun hnone => hpending.trans (habsent hnone), fun raw hraw => ?_,
        fun raw hraw himage => ?_⟩
      · obtain ⟨hrawObjective, -, hrawCreated⟩ := hpresent raw hraw
        rw [← hrawObjective, ← hrawCreated]
        exact ⟨hobjective, hcreated⟩
      · obtain ⟨hturn, hstatus⟩ := himages himage
        rw [howned, ← (hpresent raw hraw).2.1]
        exact ⟨hstatus, hturn⟩

theorem keeps_replayedCreate {request : GoalRunCreate} {current : Option NativeGoalRun}
    {replay : NativeGoalRun} {snapshot : ProviderGoalSnapshot}
    (hget : world.store.goals.get? replay.id = some replay)
    (hshown : Synchronized snapshot current world.store) :
    Keeps (Sound orderly) (Acts orderly .confirms) (replayedCreate request current replay) world
      (fun result _ => ∀ goal, result = .goal goal → ∀ baseline,
        replay.receipt request.clientRequestId = some (.pendingCreate baseline) →
          CreateReflected snapshot request baseline goal) := by
  unfold replayedCreate
  split
  · next baseline hreceipt =>
      apply (keeps_confirmCreate hget hreceipt hshown).mono
      intro result _ _ hresult goal hgoal other hother
      obtain rfl : baseline = other :=
        GoalReceipt.pendingCreate.inj (Option.some.inj (hreceipt.symm.trans hother))
      exact hresult goal hgoal
  · next hother =>
      exact Keeps.pure fun _ _ baseline hreceipt => absurd hreceipt (hother baseline)

theorem keeps_create (tabId : TabId) (request : GoalRunCreate) :
    Keeps (Sound orderly) (Claims orderly (createOrigin tabId request))
      (create tabId request) world
      (fun result _ => ∀ goal, result = .goal goal → ReplaysCreate world tabId request goal) := by
  apply Claims.bind (keeps_connect tabId)
  rintro answer first - hfirst ⟨hstore, hanswer⟩
  cases answer with
  | none =>
    have hquiet : Keeps (Sound orderly) (Acts orderly .confirms)
        (pure (.unsupported none) : Native NativeResult) first
        (fun result _ => ∀ goal, result = .goal goal → ReplaysCreate world tabId request goal) :=
      Keeps.pure (fun goal h => by simp at h)
    exact hquiet.weaken fun _ h => .inl h
  | some snapshot =>
    apply Claims.bind (keeps_synchronize tabId snapshot)
    intro current second _ hsecond hshown
    have hearlier : Acts orderly .projects world second := IsTrans.trans _ _ _ hfirst hsecond
    apply Claims.bind (keeps_replayCreate _ _)
    rintro found after - - ⟨hafter, hfound⟩
    subst after
    cases found with
    | some replay =>
      obtain ⟨hlookup, hreplay, hinput⟩ := hfound
      have hknown : ∀ id, world.store.createRequests.lookup
          (.client request.clientRequestId) = some id →
          ∀ input, world.store.createInputs.lookup (.client request.clientRequestId) =
            some input → input = createInput tabId request := by
        intro id hid input hstored
        have hkept := (hearlier.requests _ _ hid).2.trans hstored
        rw [← hinput, NativeGoalStore.inputOf, hkept]
        rfl
      have hsame : ∀ id prior, world.store.createRequests.lookup
          (.client request.clientRequestId) = some id →
          world.store.goals.get? id = some prior →
            replay.receipt request.clientRequestId = prior.receipt request.clientRequestId := by
        intro id prior hid hprior
        obtain ⟨later, hlater, -, -, hkept, -⟩ := hearlier.records id prior hprior
        have hreplayId : replay.id = id :=
          Option.some.inj (hlookup.symm.trans (hearlier.requests _ _ hid).1)
        rw [← hreplayId, hreplay] at hlater
        obtain rfl : replay = later := Option.some.inj hlater
        rw [NativeGoalRun.receipt, hkept rfl]
        rfl
      have hquiet := (@keeps_replayedCreate orderly _ request _ _ _ hreplay hshown).mono
        (fun result _ _ hresult goal hgoal => ReplaysCreate.mk hknown
          fun id prior baseline hid hprior hclaim => ⟨snapshot, hanswer,
            hresult goal hgoal baseline ((hsame id prior hid hprior).trans hclaim)⟩)
      exact hquiet.weaken fun _ h => .inl h
    | none =>
      have hnew : ∀ id, world.store.createRequests.lookup (.client request.clientRequestId) ≠
          some id := by
        intro id hid
        have hlookup := (hearlier.requests _ _ hid).1
        rw [hfound] at hlookup
        cases hlookup
      have hfresh : ∀ goal, ReplaysCreate world tabId request goal := fun goal =>
        ⟨fun id hid => absurd hid (hnew id), fun id _ _ hid => absurd hid (hnew id)⟩
      apply Keeps.ite
      · exact fun _ => Keeps.weaken (R := Acts orderly .confirms) Keeps.raise fun _ h => .inl h
      · intro _
        apply Claims.bind keeps_birth
        rintro newborn third - - ⟨hthird, hborn⟩
        have hnone : third.store.createRequests.lookup (.client request.clientRequestId) = none := by
          rw [hthird]
          exact hfound
        refine Claims.start ?_ (keeps_storeCreate hborn rfl rfl ?_) ?_ ?_
        · rintro ⟨id, hid⟩
          rw [hnone] at hid
          cases hid
        · intro _ _ _ _ hkey
          simp at hkey
        · rintro created fourth ⟨-, hclaimed, -, hinput⟩
          exact ⟨created.id, hclaimed, hinput hnone⟩
        · rintro created fourth - ⟨hget, -, hcreated, -⟩
          have hreceipt : fourth.store.HasReceipt created.id request.clientRequestId none := by
            refine ⟨created, .pendingCreate (snapshot.goal.map ProviderGoal.createdAt), hget,
              ?_, rfl⟩
            rw [hcreated hnone]
            exact (Dict.lookup_set _ _ _ _).trans (if_pos rfl)
          apply Keeps.catching
          · exact (keeps_startCreate hreceipt).mono fun _ _ _ _ goal _ => hfresh goal
          · exact fun fault t _ _ => keeps_unconfirmed _ fault

/-! ## A mutation -/

section Mutation

variable {args : MutationArgs} {goal : NativeGoalRun} {current : Option NativeGoalRun}
  {snapshot : ProviderGoalSnapshot} {tabId : TabId}

def MutationReflected (snapshot : ProviderGoalSnapshot) (args : MutationArgs)
    (goal : NativeGoalRun) : Prop :=
  match args.operation with
  | .clear => snapshot.goal = none
  | .pause => ∃ raw, snapshot.goal = some raw ∧ (raw.status = .paused ∨ raw.status = .complete)
  | .complete => ∃ raw, snapshot.goal = some raw ∧ raw.status = .complete
  | .resume => ∃ raw, snapshot.goal = some raw ∧ raw.status = .active
  | .objective => ∃ raw, snapshot.goal = some raw ∧ some raw.objective = args.objective
  | .steer => ∃ raw, snapshot.goal = some raw ∧ raw.status = .active ∧
      ∃ turnId, args.turnId = some turnId ∧ turnId ∈ goal.providerOwnedTurnIds

theorem raw_of_shown {shown : NativeGoalRun} (hshown : Shown snapshot shown world.store)
    (hget : world.store.goals.get? goal.id = some goal) (hid : shown.id = goal.id)
    (hpending : goal.providerStopPending = false) :
    ∃ raw, snapshot.goal = some raw ∧ goal.status = raw.status ∧
      goal.objective = raw.objective := by
  obtain ⟨⟨stored, hstored, hstamped⟩, habsent, hpresent⟩ := hshown
  rw [hid, hget] at hstored
  obtain rfl : goal = stored := Option.some.inj hstored
  cases hraw : snapshot.goal with
  | none =>
    have hstop : shown.providerStopPending = goal.providerStopPending := by
      rw [hstamped]
      rfl
    rw [hpending, habsent hraw] at hstop
    cases hstop
  | some raw =>
    obtain ⟨hobjective, hstatus, -⟩ := hpresent raw hraw
    refine ⟨raw, rfl, ?_, ?_⟩
    · rw [hstamped]
      exact hstatus
    · rw [hstamped]
      exact hobjective

theorem reflected_of_shown {written : NativeGoalRun}
    (hshown : Synchronized snapshot current world.store)
    (hget : world.store.goals.get? goal.id = some goal)
    (howned : written.providerOwnedTurnIds = goal.providerOwnedTurnIds)
    (h : mutationReflected args goal current) : MutationReflected snapshot args written := by
  obtain ⟨hpending, hcase⟩ := h
  have hraw : (∃ shown ∈ current, shown.id = goal.id) → ∃ raw, snapshot.goal = some raw ∧
      goal.status = raw.status ∧ goal.objective = raw.objective := by
    rintro ⟨shown, hcurrent, hid⟩
    exact raw_of_shown (hshown.2 shown hcurrent) hget hid hpending
  unfold MutationReflected
  cases hop : args.operation with
  | clear =>
    rw [hop] at hcase
    exact hshown.1 hcase
  | pause =>
    rw [hop] at hcase
    obtain ⟨raw, hgoal, hstatus, -⟩ := hraw hcase.1
    exact ⟨raw, hgoal, hstatus ▸ hcase.2⟩
  | complete =>
    rw [hop] at hcase
    obtain ⟨raw, hgoal, hstatus, -⟩ := hraw hcase.1
    exact ⟨raw, hgoal, hstatus ▸ hcase.2⟩
  | resume =>
    rw [hop] at hcase
    obtain ⟨raw, hgoal, hstatus, -⟩ := hraw hcase.1
    exact ⟨raw, hgoal, hstatus ▸ hcase.2⟩
  | objective =>
    rw [hop] at hcase
    obtain ⟨raw, hgoal, -, hobjective⟩ := hraw hcase.1
    exact ⟨raw, hgoal, hobjective ▸ hcase.2⟩
  | steer =>
    rw [hop] at hcase
    obtain ⟨hmem, hactive, turnId, hturn, howns⟩ := hcase
    obtain ⟨raw, hgoal, hstatus, -⟩ := hraw hmem
    exact ⟨raw, hgoal, hstatus ▸ hactive, turnId, hturn, howned ▸ howns⟩

theorem evolves_applied (goal : NativeGoalRun) (receipt : GoalReceipt)
    {stored written : NativeGoalRun} {store : NativeGoalStore} (hdeed : deed ≠ .projects) (hstamped : stored = goal.stamped stored.updatedAt)
    (hid : written.id = goal.id) (htab : written.tabId = goal.tabId)
    (hcreated : written.createdAt = goal.createdAt)
    (hstatus : written.status = goal.status ∨ written.status = .cancelled)
    (hcontent : receipt.content = some args.fingerprint)
    (hwritten : written.idempotency = (goal.withReceipt args.requestId receipt).idempotency)
    (hprior : ∀ prior, stored.receipt args.requestId = some prior →
      prior.content = some args.fingerprint) :
    NativeGoalRun.Evolves orderly deed store stored written := by
  have hreceipt : ∀ requestId, stored.receipt requestId = goal.receipt requestId := by
    intro requestId
    rw [hstamped]
    rfl
  apply NativeGoalRun.Evolves.of_receipts hdeed
  · rw [hid, hstamped]
    rfl
  · rw [htab, hstamped]
    rfl
  · rw [hcreated, hstamped]
    rfl
  · rw [hstamped]
    exact hstatus
  · intro requestId prior hclaim
    rw [hreceipt] at hclaim
    have hsame : written.receipt requestId =
        (goal.withReceipt args.requestId receipt).receipt requestId := by
      rw [NativeGoalRun.receipt, hwritten]
      rfl
    rw [hsame]
    apply NativeGoalRun.receipts_withReceipt _ _ _ hclaim
    intro old hold
    rw [← hreceipt] at hold
    exact hcontent.trans (hprior old hold).symm

theorem keeps_replayMutation {prior : GoalReceipt}
    (hget : world.store.goals.get? goal.id = some goal)
    (hprior : goal.receipt args.requestId = some prior)
    (hshown : Synchronized snapshot current world.store) :
    Keeps (Sound orderly) (Acts orderly .confirms) (replayMutation args goal current prior) world
      (fun result _ => ∀ written, result = .goal written →
        prior.content = some args.fingerprint ∧
          (prior = .pending args.fingerprint → MutationReflected snapshot args written)) := by
  apply Keeps.ite
  · rintro rfl
    apply Keeps.ite
    · intro hreflected
      have hdeed : NativeDeed.confirms ≠ .projects := nofun
      have hevolves : NativeGoalRun.Evolves orderly .confirms world.store goal
          (reflectedRecord args goal) := by
        refine evolves_applied goal (.applied args.fingerprint) hdeed rfl rfl rfl rfl ?_ rfl rfl ?_
        · unfold reflectedRecord
          dsimp only
          split
          · exact .inr rfl
          · exact .inl rfl
        · intro old hold
          cases hprior.symm.trans hold
          rfl
      apply (keeps_put hget hevolves).bind
      intro written after _ _ hwrote
      apply Keeps.pure
      intro final hfinal
      obtain rfl : written = final := NativeResult.goal.inj hfinal
      refine ⟨rfl, fun _ => reflected_of_shown hshown hget ?_ hreflected⟩
      rw [hwrote.stamped]
      rfl
    · exact fun _ => Keeps.raise
  · intro hpending
    apply Keeps.ite
    · exact fun _ => Keeps.raise
    · intro hsame
      apply Keeps.pure
      intro written _
      rw [not_not.mp hsame]
      exact ⟨rfl, nofun⟩

theorem keeps_stopRunningTurn (args : MutationArgs) (goalId : GoalId) :
    Keeps (Sound orderly) (Acts orderly (.starts args.origin)) (stopRunningTurn args goalId) world
      (fun _ _ => True) := by
  apply (keeps_ask _).bind
  intro target _ _ _ _
  apply keeps_modify goalId (ownTarget target)
  · intro stopping _
    cases target with
    | none => exact .of_same rfl rfl rfl rfl rfl
    | some turnId => exact NativeGoalRun.evolves_ownTurn turnId
  · intro _ _ _ _
    exact (keeps_stopTurn _).mono fun _ _ _ _ => trivial

theorem keeps_parkAndStop (args : MutationArgs) (snapshot : ProviderGoalSnapshot)
    (goal : NativeGoalRun) :
    Keeps (Sound orderly) (Acts orderly (.starts args.origin)) (parkAndStop args snapshot goal)
      world (fun _ _ => True) := by
  apply Keeps.bind (Q := fun _ _ => True)
  · apply Keeps.runIf
    · intro _
      apply (keeps_setGoal _ _ _).bind
      exact fun _ _ _ _ _ => Keeps.pure trivial
    · exact fun _ => trivial
  · intro _ _ _ _ _
    apply Keeps.runIf
    · exact fun _ => keeps_stopRunningTurn args _
    · exact fun _ => trivial

theorem keeps_applyOperation (args : MutationArgs) :
    Keeps (Sound orderly) (Acts orderly (.starts args.origin)) (applyOperation args) world
      (fun _ _ => True) := by
  unfold applyOperation
  cases args.operation with
  | pause => exact Keeps.pure trivial
  | complete => exact Keeps.pure trivial
  | clear => exact (keeps_clearGoal _).mono fun _ _ _ _ => trivial
  | resume =>
    apply (keeps_setGoal _ _ _).bind
    exact fun _ _ _ _ _ => Keeps.pure trivial
  | objective =>
    dsimp only
    split
    · exact Keeps.raise
    · apply (keeps_setGoal _ _ _).bind
      exact fun _ _ _ _ _ => Keeps.pure trivial
  | steer =>
    dsimp only
    split
    · apply (keeps_get _).bind
      intro _ _ _ _ _
      apply (keeps_sendInput _ _ _).bind
      intro _ _ _ _ _
      apply keeps_modify
      · exact fun goal _ => NativeGoalRun.evolves_ownTurn _
      · intro _ _ _ _
        apply (keeps_setGoal _ _ _).bind
        exact fun _ _ _ _ _ => Keeps.pure trivial
    · exact Keeps.raise

theorem keeps_confirmed {stored : NativeGoalRun}
    (hget : world.store.goals.get? stored.id = some stored)
    (hstamped : stored = goal.stamped stored.updatedAt) (hid : stored.id = args.goalId)
    (hreceipt : world.store.HasReceipt args.goalId args.requestId (some args.fingerprint)) :
    Keeps (Sound orderly) (Acts orderly (.starts args.origin))
      (do let written ← put (confirmedRecord args goal); pure (NativeResult.goal written)) world
      (fun _ _ => True) := by
  have hdeed : NativeDeed.starts args.origin ≠ .projects := nofun
  have hevolves : NativeGoalRun.Evolves orderly (.starts args.origin) world.store stored
      (confirmedRecord args goal) := by
    refine evolves_applied goal (.applied args.fingerprint) hdeed hstamped rfl rfl rfl ?_ rfl rfl ?_
    · unfold confirmedRecord
      dsimp only
      split
      · exact .inr rfl
      · exact .inl rfl
    · intro prior hprior
      exact HasReceipt.content_of hreceipt (hid ▸ hget) hprior
  apply (keeps_put hget hevolves).bind
  exact fun _ _ _ _ _ => Keeps.pure trivial

theorem keeps_startMutation
    (hreceipt : world.store.HasReceipt args.goalId args.requestId (some args.fingerprint)) :
    Keeps (Sound orderly) (Acts orderly (.starts args.origin))
      (startMutation args tabId snapshot goal) world (fun _ _ => True) := by
  apply Keeps.bind (Q := fun _ _ => True)
  · apply Keeps.runIf
    · exact fun _ => keeps_parkAndStop args snapshot goal
    · exact fun _ => trivial
  intro _ first _ hfirst _
  apply (keeps_applyOperation args).bind
  intro _ second _ hsecond _
  apply (keeps_readBack _ _).bind
  rintro result third - hthird ⟨shown, -, hshown⟩
  have hclaimed := hthird.hasReceipt (hsecond.hasReceipt (hfirst.hasReceipt hreceipt))
  cases result with
  | some result =>
    apply Keeps.ite
    · exact fun _ => Keeps.raise
    · intro _
      apply Keeps.ite
      · exact fun _ => Keeps.raise
      · intro hsame
        obtain ⟨stored, hget, hstamped⟩ := (hshown result rfl).stored
        have hstoredId : stored.id = result.id := Table.key_of_get? hget
        rw [← hstoredId] at hget
        exact keeps_confirmed hget hstamped (hstoredId.trans (not_not.mp hsame)) hclaimed
  | none =>
    apply (keeps_get _).bind
    rintro result after - - ⟨hafter, hget⟩
    subst after
    have hid : result.id = args.goalId := Table.key_of_get? hget
    rw [← hid] at hget
    exact keeps_confirmed hget rfl hid hclaimed

theorem keeps_mutateCurrent (hid : goal.id = args.goalId)
    (hget : world.store.goals.get? goal.id = some goal) (hnew : goal.receipt args.requestId = none)
    (hQ : ∀ result after, Q result after) :
    Keeps (Sound orderly) (Claims orderly args.origin) (mutateCurrent args tabId snapshot goal)
      world Q := by
  apply Keeps.ite
  · exact fun _ => Keeps.weaken (R := Acts orderly .confirms) Keeps.raise fun _ h => .inl h
  · intro _
    have hdeed : NativeDeed.confirms ≠ .projects := nofun
    have hevolves : NativeGoalRun.Evolves orderly .confirms world.store goal
        (pendingRecord args goal) := by
      refine evolves_applied goal (.pending args.fingerprint) hdeed rfl rfl rfl rfl (.inl rfl) rfl
        rfl ?_
      intro prior hprior
      rw [hnew] at hprior
      cases hprior
    have hreceipt : ∀ (written : NativeGoalRun) (t : NativeWorld), Wrote (pendingRecord args goal) written world.store t.store →
        t.store.HasReceipt args.goalId args.requestId (some args.fingerprint) := by
      intro written t hwrote
      refine ⟨written, .pending args.fingerprint, ?_, ?_, rfl⟩
      · rw [← hid]
        exact hwrote.stored
      · rw [hwrote.stamped]
        exact (NativeGoalRun.receipt_withReceipt _ _ _ _).trans (if_pos rfl)
    refine Claims.start ?_ (keeps_put hget hevolves) ?_ ?_
    · rintro ⟨content, found, receipt, hfound, hclaimed, -⟩
      rw [← hid, hget] at hfound
      cases hfound
      rw [hnew] at hclaimed
      cases hclaimed
    · exact fun written t hwrote => hreceipt written t hwrote
    · intro written t _ hwrote
      apply Keeps.catching
      · exact (keeps_startMutation (hreceipt written t hwrote)).mono fun _ _ _ _ => hQ _ _
      · exact fun fault _ _ _ => keeps_unconfirmed _ fault

theorem keeps_mutateOther (hget : world.store.goals.get? goal.id = some goal)
    (hnew : goal.receipt args.requestId = none) (hQ : ∀ result after, Q result after) :
    Keeps (Sound orderly) (Acts orderly .confirms) (mutateOther args goal current) world Q := by
  apply Keeps.ite
  · intro hclear
    have hdeed : NativeDeed.confirms ≠ .projects := nofun
    have hevolves : NativeGoalRun.Evolves orderly .confirms world.store goal
        { reflectedRecord args goal with dispatchState := .idle } := by
      refine evolves_applied goal (.applied args.fingerprint) hdeed rfl rfl rfl rfl (.inr ?_) rfl
        rfl ?_
      · exact if_pos hclear.1
      · intro prior hprior
        rw [hnew] at hprior
        cases hprior
    apply (keeps_put hget hevolves).bind
    exact fun _ _ _ _ _ => Keeps.pure (hQ _ _)
  · exact fun _ => Keeps.raise

/-- What a mutation that returns a goal says of a mutation that was known under its id. -/
structure ReplaysMutation (world : NativeWorld) (args : MutationArgs) (goal : NativeGoalRun) :
    Prop where
  same : ∀ content, world.store.HasReceipt args.goalId args.requestId content →
    content = some args.fingerprint
  confirmed : ∀ prior, world.store.goals.get? args.goalId = some prior →
    prior.receipt args.requestId = some (.pending args.fingerprint) →
      ∃ snapshot, AnsweredBy world (some snapshot) ∧ MutationReflected snapshot args goal

theorem keeps_mutate (args : MutationArgs) :
    Keeps (Sound orderly) (Claims orderly args.origin) (mutate args) world
      (fun result _ => ∀ goal, result = .goal goal → ReplaysMutation world args goal) := by
  apply Claims.bind (keeps_get args.goalId)
  rintro original after - - ⟨hafter, horiginal⟩
  subst after
  apply Claims.bind (keeps_connect original.tabId)
  rintro answer first - hfirst ⟨-, hanswer⟩
  cases answer with
  | none =>
    have hquiet : Keeps (Sound orderly) (Acts orderly .confirms)
        (pure (.unsupported none) : Native NativeResult) first
        (fun result _ => ∀ goal, result = .goal goal → ReplaysMutation world args goal) :=
      Keeps.pure (fun goal h => by simp at h)
    exact hquiet.weaken fun _ h => .inl h
  | some snapshot =>
    apply Claims.bind (keeps_synchronize original.tabId snapshot)
    intro current second _ hsecond hshown
    have hearlier : Acts orderly .projects world second := IsTrans.trans _ _ _ hfirst hsecond
    apply Claims.bind (keeps_get args.goalId)
    rintro goal after - - ⟨hafter, hget⟩
    subst after
    have hid : goal.id = args.goalId := Table.key_of_get? hget
    have hsame : ∀ prior, world.store.goals.get? args.goalId = some prior →
        goal.receipt args.requestId = prior.receipt args.requestId := by
      intro prior hprior
      obtain ⟨later, hlater, -, -, hkept, -⟩ := hearlier.records _ prior hprior
      obtain rfl : goal = later := Option.some.inj (hget.symm.trans hlater)
      rw [NativeGoalRun.receipt, hkept rfl]
      rfl
    have hfound : second.store.goals.get? goal.id = some goal := hid ▸ hget
    cases hreceipt : goal.receipt args.requestId with
    | some prior =>
      have hquiet := (@keeps_replayMutation orderly _ args _ _ _ _ hfound hreceipt hshown).mono
        (fun result _ _ hresult written hwritten => ReplaysMutation.mk
          (fun content hwas => by
            obtain ⟨old, claimed, hold, hclaimed, hcontent⟩ := hwas
            obtain rfl : prior = claimed :=
              Option.some.inj (hreceipt.symm.trans ((hsame old hold).trans hclaimed))
            exact hcontent.symm.trans (hresult written hwritten).1)
          (fun old hold hclaimed => ⟨snapshot, hanswer, (hresult written hwritten).2
            (Option.some.inj (hreceipt.symm.trans ((hsame old hold).trans hclaimed)))⟩))
      exact hquiet.weaken fun _ h => .inl h
    | none =>
      have hfresh : ∀ result after, (fun result (_ : NativeWorld) => ∀ written,
          result = NativeResult.goal written → ReplaysMutation world args written) result after := by
        intro result _ written _
        refine ⟨fun content hwas => ?_, fun old hold hclaimed => ?_⟩
        · obtain ⟨old, claimed, hold, hclaimed, -⟩ := hwas
          rw [← hsame old hold, hreceipt] at hclaimed
          cases hclaimed
        · rw [← hsame old hold, hreceipt] at hclaimed
          cases hclaimed
      apply Keeps.ite
      · exact fun _ => keeps_mutateCurrent hid hfound hreceipt hfresh
      · exact fun _ => (keeps_mutateOther hfound hreceipt hfresh).weaken fun _ h => .inl h

end Mutation

end Native

end ClaudeHub
