import ClaudeHub.AgentStream.TurnEdgeInvariant

/-! # Runs with one terminal edge a turn

What every await keeps when nothing of another turn comes between, by the function that runs up
to it, and so what a whole run keeps.
-/

namespace ClaudeHub

open Brackets StepSystem

namespace TurnTailer

variable {tailer next : TurnTailer} {turnId : TurnId} {since : Nat} {edge : StreamEvent}
  {reason : EdgeReason}

def NotFailing (tailer : TurnTailer) : Prop :=
  ∀ edge since stage, tailer.consumer ≠ .failing edge since stage

/-- An active turn has the guard and no terminal edge, unless a failure is handled. -/
def Ready (tailer : TurnTailer) : Prop :=
  tailer.NotFailing → ∀ turnId, tailer.activeTurnId = some turnId →
    tailer.guard = some turnId ∧ tailer.completions turnId = 0

theorem Open.ready (h : tailer.Open) : tailer.Ready := by
  intro hquiet turnId hactive
  obtain ⟨hguard, hcount | ⟨edge, since, hfails⟩⟩ := h turnId hactive
  · exact ⟨hguard, hcount⟩
  · exact absurd hfails (hquiet edge since .observed)

theorem Ready.opened (h : tailer.Ready) (hquiet : tailer.NotFailing) : tailer.Open :=
  fun turnId hactive => ⟨(h hquiet turnId hactive).1, .inl (h hquiet turnId hactive).2⟩

variable {section' : LockedSection}

theorem calm_enter (hsection : section'.isSubmitted = false)
    (h : (tailer.enter section').calm = true) : tailer.NotFailing := by
  intro edge since stage hfails
  unfold calm at h
  rw [show (tailer.enter section').consumer = .failing edge since stage from hfails] at h
  simp [enter, hsection] at h

theorem calm_of_notFailing (h : tailer.NotFailing) : tailer.calm = true := by
  unfold calm
  split
  next edge since stage hfails => exact absurd hfails (h edge since stage)
  next => rfl

variable {stage : EdgeStage}

theorem calm_failing (hfails : tailer.consumer = .failing edge since stage) (h : tailer.calm = true) :
    tailer.lock.all LockedSection.isSubmitted = true ∧
      tailer.activeTurnId = edge.turnId ∧ tailer.old since tailer.activeTurnId = true := by
  unfold calm at h
  rw [hfails] at h
  simpa [and_assoc] using h

theorem holds_enter (section' other : LockedSection) :
    (tailer.enter section').Holds other ↔ tailer.Holds other := by
  cases other with
  | publishing reason => cases reason <;> exact Iff.rfl
  | _ => exact Iff.rfl

theorem Inv.entered (h : tailer.Base) (hsection : section'.isSubmitted = false)
    (hholds : tailer.NotFailing → tailer.Holds section') : (tailer.enter section').Inv :=
  ⟨h.enter section', fun hcalm =>
    (holds_enter section' section').mpr (hholds (calm_enter hsection hcalm))⟩

theorem Open.unlock (h : tailer.Open) : tailer.unlock.Open := by
  intro turnId hactive
  refine ⟨(h turnId hactive).1, (h turnId hactive).2.imp_right ?_⟩
  rintro ⟨edge, since, hfails⟩
  refine ⟨edge, since, ?_⟩
  show (if tailer.consumer = .inLock then ConsumerPhase.reading else tailer.consumer) = _
  rw [hfails]
  rfl

theorem Inv.unlocked (h : tailer.Base) (hopen : tailer.Open) : tailer.unlock.Inv :=
  ⟨h.unlock, fun _ => hopen.unlock⟩

theorem Inv.idle (h : tailer.Base) (hactive : tailer.activeTurnId = none) : tailer.unlock.Inv :=
  .unlocked h (.of_inactive hactive)

theorem Settled.opened (h : tailer.Settled)
    (hlock : tailer.lock.all LockedSection.isSubmitted = true) : tailer.Open := by
  unfold Settled at h
  split at h
  · exact h
  next section' hsection =>
    rw [hsection] at hlock
    cases section' with
    | submitted => exact h.2
    | _ => contradiction

theorem Settled.held (h : tailer.Settled) (hlock : tailer.lock = some section') :
    tailer.Holds section' := by
  unfold Settled at h
  rwa [hlock] at h

theorem Settled.free (h : tailer.Settled) (hlock : tailer.lock = none) : tailer.Open := by
  unfold Settled at h
  rwa [hlock] at h

theorem Settled.of (hfree : tailer.lock = none → tailer.Open)
    (hheld : ∀ section', tailer.lock = some section' → tailer.Holds section') :
    tailer.Settled := by
  unfold Settled
  split
  next hlock => exact hfree hlock
  next section' hlock => exact hheld section' hlock

theorem Settled.consumes (h : tailer.Settled) {phase : ConsumerPhase}
    (hopen : tailer.Open → ({ tailer with consumer := phase } : TurnTailer).Open) :
    ({ tailer with consumer := phase } : TurnTailer).Settled := by
  apply Settled.of
  · exact fun hlock => hopen (h.free hlock)
  · intro section' hlock
    have hheld := h.held hlock
    cases section' with
    | publishing reason => cases reason <;> exact hheld
    | submitted => exact ⟨hheld.1, hopen hheld.2⟩
    | _ => exact hheld

theorem Open.consumes (h : tailer.Open) (hquiet : tailer.NotFailing) (phase : ConsumerPhase) :
    ({ tailer with consumer := phase } : TurnTailer).Open := by
  intro turnId hactive
  obtain ⟨hguard, hcount⟩ := h.ready hquiet turnId hactive
  exact ⟨hguard, .inl hcount⟩

theorem notFailing_reading (h : tailer.consumer = .reading) : tailer.NotFailing := by
  intro edge since stage
  rw [h]
  nofun

theorem notFailing_wants {reason : ConsumerWants} (h : tailer.consumer = .wants reason) :
    tailer.NotFailing := by
  intro edge since stage
  rw [h]
  nofun

theorem Inv.afterCancel (h : tailer.releaseActive.clearWaits.Base) (caller : CancelCaller)
    (raised : Bool) : (tailer.afterCancel caller raised).Inv := by
  unfold TurnTailer.afterCancel
  cases caller with
  | stop =>
    apply Inv.idle (h.spawnTurnTeardown rfl)
    unfold spawnTurnTeardown
    split <;> rfl
  | retire => exact .entered h rfl fun _ => rfl
  | steer => exact .entered h rfl fun _ => rfl
  | reap => exact .entered h rfl fun _ => rfl

theorem Inv.cancelActiveTurnLocked (h : tailer.Base) (hready : tailer.Ready)
    (caller : CancelCaller) : (tailer.cancelActiveTurnLocked caller).Inv := by
  unfold TurnTailer.cancelActiveTurnLocked
  split
  · exact .afterCancel h.releaseActive.clearWaits caller false
  next turnId hactive =>
    apply Inv.entered h rfl
    intro hquiet
    obtain ⟨hguard, hcount⟩ := hready hquiet turnId hactive
    refine ⟨⟨hactive, hguard⟩, fun other hother => ?_⟩
    obtain rfl : turnId = other := Option.some.inj hother
    exact ⟨h.active turnId hactive, fun _ => hcount⟩

theorem Inv.afterTeardown (h : tailer.Base) (hactive : tailer.activeTurnId = none)
    (caller : CancelCaller) (raised restarted : Bool) :
    (tailer.afterTeardown caller raised restarted).Inv := by
  have hpending : ({ tailer with turnTeardownPending := false } : TurnTailer).Base :=
    { h with }
  unfold TurnTailer.afterTeardown
  simp only
  split
  · exact .idle hpending hactive
  · cases caller with
    | steer => exact .entered hpending rfl fun _ => hactive
    | reap =>
      simp only
      split
      · exact .idle hpending hactive
      · exact .entered hpending rfl fun _ => hactive
    | stop => exact .idle hpending hactive
    | retire => exact .idle hpending hactive

theorem Settled.released (h : tailer.Settled) (hactive : tailer.activeTurnId = none)
    (since : Nat) : (tailer.release since).clearWaits.Settled := by
  apply Settled.of
  · exact fun _ => .of_inactive rfl
  · intro section' hlock
    have hheld := h.held hlock
    cases section' with
    | publishing reason =>
      refine ⟨?_, hheld.2⟩
      have hreason := hheld.1
      cases reason with
      | orphan => rfl
      | rejected => exact hactive.symm.trans hreason
      | provider => exact ⟨rfl, rfl⟩
      | cancel => exact ⟨hactive.symm.trans hreason.1, hactive.symm.trans hreason.1⟩
      | goal => exact ⟨hactive.symm.trans hreason.1, hactive.symm.trans hreason.1⟩
      | cleanEof =>
        exact ⟨hactive.symm.trans hreason.1, hactive.symm.trans hreason.1, rfl⟩
      | fatalEof =>
        exact ⟨hactive.symm.trans hreason.1, hactive.symm.trans hreason.1, rfl⟩
    | starting turnId =>
      rw [show tailer.activeTurnId = some turnId from hheld.1] at hactive
      contradiction
    | submitting turnId =>
      rw [show tailer.activeTurnId = some turnId from hheld.1] at hactive
      contradiction
    | submitted => exact ⟨.inl rfl, .of_inactive rfl⟩
    | teardown => exact ⟨rfl, rfl⟩
    | _ => rfl

/-- The handling of an EOF without a completion fails the turn that is active, or clears what an
ended one has left. -/
theorem Inv.eofUnsynthesized (h : tailer.Base) (hsettled : tailer.Settled)
    (hquiet : tailer.NotFailing)
    (hguard : tailer.activeTurnId = none → tailer.old since tailer.guard = true) :
    (tailer.eofUnsynthesized since).Inv := by
  unfold TurnTailer.eofUnsynthesized
  split
  next turnId hactive =>
    rw [if_neg (by simp [h.seen turnId hactive])]
    refine ⟨h.consumes ?_ ?_, fun _ => hsettled.consumes fun hopen => hopen.consumes hquiet _⟩
    · intro edge earlier stage heq
      cases heq
      rfl
    · intro edge earlier other heq
      contradiction
  next hactive =>
    have hrelease := h.release (by rw [hactive]; rfl) (hguard hactive)
    exact ⟨hrelease.clearWaits, fun _ => hsettled.released hactive since⟩

theorem Inv.synthesizeGoalLocked (h : tailer.Base) (hready : tailer.Ready)
    (hquiet : tailer.NotFailing) : tailer.synthesizeGoalLocked.Inv := by
  unfold TurnTailer.synthesizeGoalLocked
  split
  next turnId hactive =>
    split
    · apply Inv.entered h rfl
      intro _
      obtain ⟨hguard, hcount⟩ := hready hquiet turnId hactive
      refine ⟨⟨hactive, hguard⟩, fun other hother => ?_⟩
      obtain rfl : turnId = other := Option.some.inj hother
      exact ⟨h.active turnId hactive, fun _ => hcount⟩
    · exact .unlocked h (hready.opened hquiet)
  next hactive => exact .idle h hactive

theorem NotFailing.unlock (h : tailer.NotFailing) : tailer.unlock.NotFailing := by
  intro edge since stage
  show (if tailer.consumer = .inLock then ConsumerPhase.reading else tailer.consumer) ≠ _
  split
  · nofun
  · exact h edge since stage

theorem Inv.unlock_eofUnsynthesized (h : tailer.Base) (hopen : tailer.Open)
    (hquiet : tailer.NotFailing)
    (hguard : tailer.activeTurnId = none → tailer.old since tailer.guard = true) :
    (tailer.unlock.eofUnsynthesized since).Inv :=
  .eofUnsynthesized h.unlock hopen.unlock hquiet.unlock hguard

theorem Inv.reject (h : tailer.Base) (hactive : tailer.activeTurnId = some turnId)
    (hcount : tailer.completions turnId = 0) : (tailer.reject turnId).Inv := by
  apply Inv.entered h rfl
  intro _
  refine ⟨hactive, fun other hother => ?_⟩
  obtain rfl : turnId = other := Option.some.inj hother
  exact ⟨h.active turnId hactive, fun _ => hcount⟩

theorem Open.of_reasoned (hactive : tailer.activeTurnId = edge.turnId)
    (hguard : tailer.guard = edge.turnId)
    (hcount : ∀ turnId, edge.turnId = some turnId → tailer.completions turnId = 0) :
    tailer.Open := by
  intro turnId hturn
  have hedge : edge.turnId = some turnId := hactive.symm.trans hturn
  exact ⟨hguard.trans hedge, .inl (hcount turnId hedge)⟩

theorem Inv.afterEdge (h : tailer.Base) (hreason : tailer.Reasoned edge reason) {raised : Bool}
    (hcount : raised = true → ∀ turnId, edge.turnId = some turnId →
      tailer.completions turnId = 0)
    (hquiet : tailer.NotFailing) : (tailer.afterEdge reason raised).Inv := by
  have hreleased := h.releaseActive
  unfold TurnTailer.afterEdge
  cases reason with
  | cancel =>
    apply Inv.afterCancel
    exact hreleased.clearWaits.saw rfl _
  | orphan => exact .idle (h.saw hreason _) hreason
  | rejected => exact .idle hreleased rfl
  | provider =>
    exact .idle (((h.release hreason.1 hreason.2).saw rfl true).outputs {}) rfl
  | goal =>
    simp only
    split
    next hraised => exact .unlocked h (.of_reasoned hreason.1 hreason.2 (hcount hraised))
    next => exact .entered ((hreleased.saw rfl _).outputs {}) rfl fun _ => rfl
  | cleanEof =>
    simp only
    split
    next hraised =>
      apply Inv.unlock_eofUnsynthesized h _ hquiet
      · intro hactive
        rw [hreason.2.1, ← hreason.1, hactive]
        rfl
      · exact .of_reasoned hreason.1 hreason.2.1 (hcount hraised)
    next => exact .entered ((hreleased.saw rfl _).outputs {}) rfl fun _ => rfl
  | fatalEof since =>
    have hguard : tailer.old since tailer.guard = true := by
      rw [hreason.2.1, ← hreason.1]
      exact hreason.2.2
    exact .idle ((h.release hreason.2.2 hguard).saw rfl _) rfl

theorem reasoned_append (event : StreamEvent) :
    (tailer.append event).Reasoned edge reason ↔ tailer.Reasoned edge reason := by
  cases reason <;> exact Iff.rfl

theorem reasoned_appendIf (ok : Bool) (event : StreamEvent) :
    (tailer.appendIf ok event).Reasoned edge reason ↔ tailer.Reasoned edge reason := by
  cases ok with
  | false => exact Iff.rfl
  | true => exact reasoned_append event

theorem started_appendIf (tailer : TurnTailer) (ok : Bool) (event : StreamEvent) :
    (tailer.appendIf ok event).started = tailer.started := by
  cases ok <;> rfl

theorem consumer_appendIf (tailer : TurnTailer) (ok : Bool) (event : StreamEvent) :
    (tailer.appendIf ok event).consumer = tailer.consumer := by
  cases ok <;> rfl

theorem Inv.afterError (h : tailer.Base) (hholds : tailer.Holds (.publishing reason edge .error))
    (hquiet : tailer.NotFailing) (ok : Bool) : (tailer.afterError reason edge ok).Inv := by
  have hbase := h.appendError ok edge
  have hreason := (reasoned_appendIf ok { edge with type := .error }).mpr hholds.1
  have hcount : ∀ turnId, edge.turnId = some turnId →
      (tailer.appendIf ok { edge with type := .error }).completions turnId = 0 := by
    intro turnId hturn
    rw [completions_appendError]
    exact (hholds.2 turnId hturn).2 nofun
  have hpublishes : ((tailer.appendIf ok { edge with type := .error }).enter
      (.publishing reason edge .completion)).Inv := by
    apply Inv.entered hbase rfl
    intro _
    refine ⟨hreason, fun turnId hturn => ⟨?_, fun _ => hcount turnId hturn⟩⟩
    rw [started_appendIf]
    exact (hholds.2 turnId hturn).1
  have hquiet' : (tailer.appendIf ok { edge with type := .error }).NotFailing := by
    unfold NotFailing
    rw [consumer_appendIf]
    exact hquiet
  have hafter : ((tailer.appendIf ok { edge with type := .error }).afterEdge reason true).Inv :=
    .afterEdge hbase hreason (fun _ => hcount) hquiet'
  unfold TurnTailer.afterError
  cases reason with
  | cancel =>
    simp only
    split
    · exact hpublishes
    · exact hafter
  | orphan =>
    simp only
    split
    · exact hpublishes
    · exact hafter
  | _ => exact hpublishes

theorem Inv.edgeAppended (h : tailer.Base)
    (hholds : tailer.Holds (.publishing reason edge .completion)) :
    ((tailer.append edge).enter (.publishing reason edge .observed)).Inv := by
  have hedge : ∀ turnId, edge.turnId = some turnId →
      turnId ∈ tailer.started ∧ tailer.completions turnId = 0 :=
    fun turnId hturn => (hholds.2 turnId hturn).imp_right fun hcount => hcount nofun
  apply Inv.entered (h.append (fun turnId _ => hedge turnId) (fun turnId _ => hedge turnId)) rfl
  intro _
  refine ⟨(reasoned_append edge).mpr hholds.1, fun turnId hturn => ⟨(hedge turnId hturn).1, ?_⟩⟩
  exact fun hstage => absurd rfl hstage

theorem completions_orphan (h : tailer.Base) {orphan : StreamEvent}
    (hopen : lastOpen StreamEvent.starts StreamEvent.ends tailer.events = some orphan)
    (hturn : orphan.turnId = some turnId) :
    turnId ∈ tailer.started ∧ tailer.completions turnId = 0 := by
  obtain ⟨before, after, hoccurs, hstarts, hlater⟩ := lastOpen_eq_some.mp hopen
  have htype : orphan.type = .turnStarted := by simpa [StreamEvent.starts] using hstarts
  have hevents : tailer.events = before ++ orphan :: after := hoccurs
  constructor
  · apply h.logged orphan _ turnId htype hturn
    rw [hevents]
    exact List.mem_append_right _ List.mem_cons_self
  · unfold completions
    rw [List.countP_eq_zero, hevents]
    intro event hmem hcompletes
    simp only [Bool.and_eq_true, decide_eq_true_eq] at hcompletes
    obtain ⟨hcompleted, hsame⟩ := hcompletes
    rcases List.mem_append.mp hmem with hbefore | hmem
    · exact h.ordered before orphan after turnId hoccurs htype hturn event hbefore hcompleted hsame
    · rcases List.mem_cons.mp hmem with rfl | hafter
      · rw [htype] at hcompleted
        contradiction
      · have hends := (hlater event hafter).2
        simp [StreamEvent.ends, StreamEvent.sameTurn, hcompleted, hsame, hturn] at hends

theorem Inv.publishOrphan (h : tailer.Base) (hactive : tailer.activeTurnId = none)
    {orphan : StreamEvent}
    (hopen : lastOpen StreamEvent.starts StreamEvent.ends tailer.events = some orphan) :
    (tailer.publishOrphan orphan).Inv := by
  apply Inv.entered h rfl
  intro _
  refine ⟨hactive, fun turnId hturn => ?_⟩
  exact (completions_orphan h hopen hturn).imp_right fun hcount _ => hcount

theorem Inv.orphanRead (h : tailer.Base) (hactive : tailer.activeTurnId = none)
    (expected : Option TurnId) : (tailer.orphanRead expected).Inv := by
  unfold TurnTailer.orphanRead
  split
  · exact .idle h hactive
  next orphan hopen =>
    split
    · exact .idle h hactive
    · exact .publishOrphan h hactive hopen

theorem Inv.lifecycleRead (h : tailer.Base) (hactive : tailer.activeTurnId = none)
    (expected : TurnId) : (tailer.lifecycleRead expected).Inv := by
  unfold TurnTailer.lifecycleRead
  simp only
  split
  · exact .idle h hactive
  · split
    · exact .idle h hactive
    next orphan hopen =>
      rw [foldl_see_latest] at hopen
      split
      · exact .idle h hactive
      · exact .publishOrphan h hactive hopen

/-! ## Holders of the send lock -/

theorem Inv.withCalls (h : tailer.Inv) (calls : Dict Nat TurnCall) :
    ({ tailer with calls := calls } : TurnTailer).Inv := by
  refine ⟨⟨h.base.once, h.base.inOrder, h.base.active, h.base.guard, h.base.completed, h.base.seen,
    h.base.ordered, h.base.logged, h.base.failed, h.base.wanted, h.base.torn⟩, fun hcalm => ?_⟩
  have hsettled := h.settled hcalm
  apply Settled.of
  · exact fun hlock => hsettled.free hlock
  · intro section' hlock
    have hheld := hsettled.held hlock
    cases section' with
    | publishing reason => cases reason <;> exact hheld
    | _ => exact hheld

theorem Inv.callLocked (h : tailer.Inv) (hcalm : tailer.calm = true) (hlock : tailer.lock = none)
    (phase : TurnCall) : (tailer.callLocked phase).Inv := by
  have hopen := (h.settled hcalm).free hlock
  have hunguarded : tailer.guard = none → tailer.activeTurnId = none := by
    intro hguard
    cases hactive : tailer.activeTurnId with
    | none => rfl
    | some turnId =>
      rw [(hopen turnId hactive).1] at hguard
      contradiction
  unfold TurnTailer.callLocked
  cases phase with
  | sendAwaiting => exact h
  | sendWaiting =>
    simp only
    split
    · split
      · exact .cancelActiveTurnLocked h.base hopen.ready _
      · exact h
    next hguard =>
      exact .entered h.base rfl fun _ => hunguarded (by simpa using hguard)
  | stopWaiting =>
    simp only
    split
    · exact h
    · split
      · split
        · exact h
        · exact .cancelActiveTurnLocked h.base hopen.ready _
      next hguard =>
        exact .entered h.base rfl fun _ => hunguarded (by simpa using hguard)
  | retireWaiting =>
    simp only
    split
    · split
      · exact h
      · exact .cancelActiveTurnLocked h.base hopen.ready _
    next hactive =>
      split
      · exact h
      · exact .entered h.base rfl fun _ => hactive

theorem Inv.synthesizeCleanEofLocked (h : tailer.Base) (hopen : tailer.Open)
    (hquiet : tailer.NotFailing) (hactive : tailer.old since tailer.activeTurnId = true)
    (hguard : tailer.old since tailer.guard = true) :
    (tailer.synthesizeCleanEofLocked since).Inv := by
  unfold TurnTailer.synthesizeCleanEofLocked
  split
  next turnId hturn =>
    split
    · apply Inv.entered h rfl
      intro _
      obtain ⟨hguarded, hcount⟩ := hopen.ready hquiet turnId hturn
      refine ⟨⟨hturn, hguarded, hactive⟩, fun other hother => ?_⟩
      obtain rfl : turnId = other := Option.some.inj hother
      exact ⟨h.active turnId hturn, fun _ => hcount⟩
    · exact .unlock_eofUnsynthesized h hopen hquiet fun _ => hguard
  next => exact .unlock_eofUnsynthesized h hopen hquiet fun _ => hguard

theorem Inv.completionLocked (h : tailer.Base) (hopen : tailer.Open) (hquiet : tailer.NotFailing)
    (hwanted : ∀ turnId, edge.turnId = some turnId → turnId ∈ tailer.started.take since)
    (hnamed : edge.turnId.isSome = true → tailer.activeTurnId = none →
      tailer.old since tailer.guard = true)
    (hnameless : edge.turnId = none → tailer.old since tailer.activeTurnId = true ∧
      tailer.old since tailer.guard = true) (fires : Bool) :
    (tailer.consumerLocked fires (.completion edge since)).Inv := by
  unfold TurnTailer.consumerLocked
  simp only
  split
  next hstale =>
    simp only [Bool.and_eq_true, decide_eq_true_eq] at hstale
    split
    next horphaned =>
      simp only [Bool.and_eq_true, Option.isNone_iff_eq_none] at horphaned
      exact .idle (h.endTurn (hnamed hstale.1 horphaned.1)) horphaned.1
    next => exact .unlocked h hopen
  next hcurrent =>
    apply Inv.entered h rfl
    intro _
    cases hturn : edge.turnId with
    | none =>
      refine ⟨hnameless hturn, fun other hother => ?_⟩
      rw [hturn] at hother
      contradiction
    | some turnId =>
      have hactive : tailer.activeTurnId = some turnId := by
        simpa [hturn] using hcurrent
      obtain ⟨hguard, hcount⟩ := hopen.ready hquiet turnId hactive
      have hstarted := hwanted turnId hturn
      refine ⟨⟨?_, ?_⟩, fun other hother => ?_⟩
      · rw [hactive]
        simpa [old] using hstarted
      · rw [hguard]
        simpa [old] using hstarted
      · obtain rfl : turnId = other := Option.some.inj (hturn.symm.trans hother)
        exact ⟨h.active turnId hactive, fun _ => hcount⟩

theorem Inv.consumerLocked (h : tailer.Base) (hopen : tailer.Open) {reason : ConsumerWants}
    (hwants : tailer.consumer = .wants reason) (fires : Bool)
    (hundisturbed : tailer.undisturbed (.consumerLocked fires) = true) :
    (({ tailer with consumer := .inLock } : TurnTailer).consumerLocked fires reason).Inv := by
  have hquiet := notFailing_wants hwants
  let entered : TurnTailer := { tailer with consumer := .inLock }
  have hentered : entered.Base := h.consumes (by simp) (by simp)
  have hopened : entered.Open := hopen.consumes hquiet .inLock
  have hinside : entered.NotFailing := by
    intro edge since stage
    simp [entered]
  simp only [undisturbed, hwants, Bool.and_eq_true] at hundisturbed
  have hcondition := hundisturbed.2
  cases reason with
  | completion edge since =>
    apply Inv.completionLocked hentered hopened hinside
    · exact fun turnId hturn => h.wanted edge since turnId hwants hturn
    · intro hnamed hactive
      rw [show tailer.activeTurnId = none from hactive] at hcondition
      show tailer.old since tailer.guard = true
      simpa [hnamed] using hcondition
    · intro hnameless
      show tailer.old since tailer.activeTurnId = true ∧ tailer.old since tailer.guard = true
      simpa [hnameless] using hcondition
  | fatalEof since =>
    obtain ⟨hactive, hguard⟩ : tailer.old since tailer.activeTurnId = true ∧
        tailer.old since tailer.guard = true := by simpa using hcondition
    unfold TurnTailer.consumerLocked
    simp only
    split
    next turnId hturn =>
      apply Inv.entered hentered rfl
      intro _
      obtain ⟨hguarded, hcount⟩ := hopened.ready hinside turnId hturn
      refine ⟨⟨hturn, hguarded, hactive⟩, fun other hother => ?_⟩
      obtain rfl : turnId = other := Option.some.inj hother
      exact ⟨h.active turnId hturn, fun _ => hcount⟩
    next => exact .idle (hentered.release hactive hguard) rfl
  | goalEof => exact .synthesizeGoalLocked hentered hopened.ready hinside
  | cleanEof since =>
    obtain ⟨hactive, hguard⟩ : tailer.old since tailer.activeTurnId = true ∧
        tailer.old since tailer.guard = true := by simpa using hcondition
    exact .synthesizeCleanEofLocked hentered hopened hinside hactive hguard
  | goalGrace =>
    unfold TurnTailer.consumerLocked
    simp only
    split
    · exact .synthesizeGoalLocked hentered hopened.ready hinside
    · exact .unlocked hentered hopened
  | reap =>
    unfold TurnTailer.consumerLocked
    simp only
    split
    · exact .cancelActiveTurnLocked hentered hopened.ready _
    · exact .unlocked hentered hopened

theorem Inv.consumes (h : tailer.Inv) (hquiet : tailer.NotFailing) {phase : ConsumerPhase}
    (hfailed : ∀ edge since stage, phase ≠ .failing edge since stage)
    (hwanted : ∀ edge since turnId, phase = .wants (.completion edge since) →
      edge.turnId = some turnId → turnId ∈ tailer.started.take since) :
    ({ tailer with consumer := phase } : TurnTailer).Inv :=
  ⟨h.base.consumes (fun edge since stage heq => absurd heq (hfailed edge since stage)) hwanted,
    fun _ => (h.settled (calm_of_notFailing hquiet)).consumes fun hopen =>
      hopen.consumes hquiet phase⟩

theorem Inv.eofRead (h : tailer.Inv) (hreading : tailer.consumer = .reading)
    (exitError clientRequestedStop : Bool) :
    (tailer.eofRead exitError clientRequestedStop).Inv := by
  have hquiet := notFailing_reading hreading
  unfold TurnTailer.eofRead
  split
  · split
    · exact h
    · exact h.consumes hquiet (by simp) (by simp)
  · split
    · exact h.consumes hquiet (by simp) (by simp)
    · split
      · exact h.consumes hquiet (by simp) (by simp)
      · exact .eofUnsynthesized h.base (h.settled (calm_of_notFailing hquiet)) hquiet
          fun _ => h.base.old_guard

theorem Inv.failing (h : tailer.Inv) (hcalm : tailer.calm = true)
    (hfails : tailer.consumer = .failing edge since stage) :
    tailer.Open ∧ tailer.activeTurnId = edge.turnId ∧
      tailer.old since tailer.activeTurnId = true ∧ tailer.old since tailer.guard = true := by
  obtain ⟨hlock, hactive, hold⟩ := calm_failing hfails hcalm
  have hopen := (h.settled hcalm).opened hlock
  refine ⟨hopen, hactive, hold, ?_⟩
  obtain ⟨turnId, hturn⟩ := Option.isSome_iff_exists.mp (h.base.failed edge since stage hfails)
  have hguard := (hopen turnId (hactive.trans hturn)).1
  rw [hguard, ← hturn, ← hactive]
  exact hold

theorem Inv.failing_unfinished (h : tailer.Inv) (hcalm : tailer.calm = true)
    (hfails : tailer.consumer = .failing edge since stage) (hstage : stage ≠ .observed)
    (hturn : edge.turnId = some turnId) :
    turnId ∈ tailer.started ∧ tailer.completions turnId = 0 := by
  obtain ⟨hopen, hactive, -, -⟩ := h.failing hcalm hfails
  refine ⟨h.base.active turnId (hactive.trans hturn), ?_⟩
  obtain ⟨-, hnone | ⟨other, earlier, hobserved⟩⟩ := hopen turnId (hactive.trans hturn)
  · exact hnone
  · rw [hfails] at hobserved
    exact absurd (ConsumerPhase.failing.inj hobserved).2.2 hstage

theorem Inv.failed (h : tailer.Inv) (hcalm : tailer.calm = true)
    (hfails : tailer.consumer = .failing edge since stage) (seen : Bool) :
    ({ (tailer.release since).clearWaits with
        turnCompletedSeen := seen
        consumer := .reading } : TurnTailer).Inv := by
  obtain ⟨hlock, -, -⟩ := calm_failing hfails hcalm
  obtain ⟨-, -, hactive, hguard⟩ := h.failing hcalm hfails
  have hreleased := ((h.base.release hactive hguard).clearWaits.saw rfl seen)
  refine ⟨hreleased.consumes (by simp) (by simp), fun _ => ?_⟩
  apply Settled.of
  · exact fun _ => .of_inactive rfl
  · intro section' hsection
    rw [show tailer.lock = some section' from hsection] at hlock
    cases section' with
    | submitted => exact ⟨.inl rfl, .of_inactive rfl⟩
    | _ => contradiction

theorem Inv.failsOn (h : tailer.Inv) (hcalm : tailer.calm = true) {stage' : EdgeStage}
    (hfails : tailer.consumer = .failing edge since stage) {events : List StreamEvent}
    (hbase : ({ tailer with events := events } : TurnTailer).Base)
    (hcount : stage' = .observed ∨ ∀ turnId, edge.turnId = some turnId →
      ({ tailer with events := events } : TurnTailer).completions turnId = 0) :
    ({ tailer with
        events := events
        consumer := .failing edge since stage' } : TurnTailer).Inv := by
  obtain ⟨hlock, -, -⟩ := calm_failing hfails hcalm
  obtain ⟨hopen, hactive, -, -⟩ := h.failing hcalm hfails
  have hopened : ({ tailer with
      events := events
      consumer := .failing edge since stage' } : TurnTailer).Open := by
    intro turnId hturn
    refine ⟨(hopen turnId hturn).1, ?_⟩
    rcases hcount with rfl | hcount
    · exact .inr ⟨edge, since, rfl⟩
    · exact .inl (hcount turnId (hactive.symm.trans hturn))
  constructor
  · apply Base.consumes hbase
    · intro other earlier stage'' heq
      cases heq
      exact h.base.failed edge since stage hfails
    · simp
  · intro _
    apply Settled.of
    · exact fun _ => hopened
    · intro section' hsection
      have hheld := (h.settled hcalm).held hsection
      rw [show tailer.lock = some section' from hsection] at hlock
      cases section' with
      | submitted => exact ⟨hheld.1, hopened⟩
      | _ => contradiction

theorem appendIf_eq (tailer : TurnTailer) (ok : Bool) (event : StreamEvent) :
    tailer.appendIf ok event = { tailer with
      events := if ok then tailer.events ++ [event] else tailer.events } := by
  cases ok <;> rfl

theorem Inv.failureErrorPublished (h : tailer.Inv) (hcalm : tailer.calm = true)
    (hfails : tailer.consumer = .failing edge since .error) (ok : Bool) :
    ({ tailer.appendIf ok { edge with type := .error } with
        consumer := .failing edge since .completion } : TurnTailer).Inv := by
  have hcount : ∀ turnId, edge.turnId = some turnId →
      (tailer.appendIf ok { edge with type := .error }).completions turnId = 0 := by
    intro turnId hturn
    rw [completions_appendError]
    exact (h.failing_unfinished hcalm hfails nofun hturn).2
  have hbase := h.base.appendError ok edge
  rw [appendIf_eq] at hbase hcount ⊢
  exact h.failsOn hcalm hfails hbase (.inr hcount)

theorem Inv.failureAppended (h : tailer.Inv) (hcalm : tailer.calm = true)
    (hfails : tailer.consumer = .failing edge since .completion) :
    ({ tailer.append edge with consumer := .failing edge since .observed } : TurnTailer).Inv := by
  have hedge : ∀ turnId, edge.turnId = some turnId →
      turnId ∈ tailer.started ∧ tailer.completions turnId = 0 :=
    fun turnId hturn => h.failing_unfinished hcalm hfails nofun hturn
  have hbase := h.base.append (fun turnId _ => hedge turnId) (fun turnId _ => hedge turnId)
  exact h.failsOn hcalm hfails hbase (.inl rfl)

/-! ## Steps -/

theorem calm_locked (hlock : tailer.lock = some section') (hsection : section'.isSubmitted = false)
    (hcalm : tailer.calm = true) :
    tailer.NotFailing := by
  intro edge since stage hfails
  have hall := (calm_failing hfails hcalm).1
  rw [hlock] at hall
  simp [hsection] at hall

theorem Inv.restart (h : tailer.Base) :
    ({ start tailer.eofIsFatal tailer.goalCompletionRequiresProviderEvent with
        events := tailer.events
        runEpoch := tailer.runEpoch
        started := tailer.started
        releases := tailer.releases } : TurnTailer).Inv :=
  ⟨⟨h.once, h.inOrder, nofun, nofun, h.completed, nofun, h.ordered, h.logged, by simp [start],
    by simp [start], by simp [start]⟩, fun _ => .of_inactive rfl⟩

theorem undisturbed_calm {op : TurnOp} (h : tailer.undisturbed op = true) :
    tailer.calm = true := by
  unfold undisturbed at h
  exact (Bool.and_eq_true_iff.mp h).1

theorem Inv.prepared (h : tailer.Base) (hfresh : turnId ∉ tailer.started) (goalProtocol : Bool) :
    (tailer.startTurn turnId goalProtocol).Inv := by
  refine ⟨h.startTurn hfresh goalProtocol, fun _ => ⟨rfl, ?_⟩⟩
  by_contra hcount
  exact hfresh (h.completed turnId hcount)

theorem Inv.startPublished (h : tailer.Base) (hactive : tailer.activeTurnId = some turnId)
    (hcount : tailer.completions turnId = 0) :
    ((tailer.append (tailer.contextEvent .turnStarted (some turnId))).enter
      (.submitting turnId)).Inv := by
  have hbase : (tailer.append (tailer.contextEvent .turnStarted (some turnId))).Base := by
    apply h.append
    · intro other htype
      contradiction
    · intro other _ hother
      obtain rfl : turnId = other := Option.some.inj hother
      exact ⟨h.active turnId hactive, hcount⟩
  apply Inv.entered hbase rfl
  intro _
  refine ⟨hactive, ?_⟩
  rw [completions_append, hcount]
  rfl

theorem Inv.turnBegins (h : tailer.Base) (hactive : tailer.activeTurnId = some turnId)
    (hcount : tailer.completions turnId = 0) :
    (({ tailer with guard := some turnId } : TurnTailer).enter (.submitted turnId)).Inv := by
  refine ⟨{ h with guard := ?_ }, fun _ => ⟨.inr hactive, ?_⟩⟩
  · intro other hother
    obtain rfl : turnId = other := Option.some.inj hother
    exact h.active turnId hactive
  · intro other hother
    obtain rfl : turnId = other := Option.some.inj (hactive.symm.trans hother)
    exact ⟨rfl, .inl hcount⟩

theorem Inv.submissionRejected (h : tailer.Inv) (hlock : tailer.lock = some (.submitted turnId))
    (hundisturbed : tailer.undisturbed (.submitted false) = true) :
    ((tailer.endTurn tailer.started.length).reject turnId).Inv := by
  have hcalm := undisturbed_calm hundisturbed
  have hheld : tailer.Holds (.submitted turnId) := (h.settled hcalm).held hlock
  have hcondition := (Bool.and_eq_true_iff.mp hundisturbed).2
  simp only [Bool.false_or, hlock] at hcondition
  have hquiet : tailer.NotFailing := by
    intro edge since stage hfails
    simp [hfails] at hcondition
  have hactive : tailer.activeTurnId = some turnId := by
    cases hconsumer : tailer.consumer with
    | failing edge since stage => exact absurd hconsumer (hquiet edge since stage)
    | _ => simpa [hconsumer] using hcondition
  obtain ⟨-, hcount⟩ := hheld.2.ready hquiet turnId hactive
  exact .reject (h.base.endTurn h.base.old_guard) hactive hcount

theorem Inv.teardownLocked (h : tailer.Inv) (hcalm : tailer.calm = true)
    (hlock : tailer.lock = none) {task : TeardownTask}
    (htask : tailer.turnTeardownTask = some task)
    (hold : tailer.old task.since tailer.guard = true) :
    (tailer.enter (.teardown task.since)).Inv := by
  apply Inv.entered h.base rfl
  intro _
  refine ⟨?_, hold⟩
  cases hactive : tailer.activeTurnId with
  | none => rfl
  | some turnId =>
    have hguard := ((h.settled hcalm).free hlock turnId hactive).1
    exact absurd (old_iff.mp hold turnId hguard) ((h.base.torn task htask).2 turnId hactive)

theorem Inv.teardownEnds (h : tailer.Base) (hactive : tailer.activeTurnId = none)
    (hold : tailer.old since tailer.guard = true) (ok : Bool) :
    ({ (if ok then tailer.endTurn since else tailer) with
        turnTeardownPending := false
        turnTeardownTask := none } : TurnTailer).unlock.Inv := by
  have hbase : (if ok then tailer.endTurn since else tailer).Base := by
    split
    · exact h.endTurn hold
    · exact h
  apply Inv.idle
  · exact { hbase with torn := nofun }
  · cases ok <;> exact hactive

theorem Inv.withOutput (h : tailer.Inv) (output : TurnOutput) :
    ({ tailer with output := output } : TurnTailer).Inv := by
  refine ⟨h.base.outputs output, fun hcalm => ?_⟩
  have hsettled := h.settled hcalm
  apply Settled.of
  · exact fun hlock => hsettled.free hlock
  · intro section' hlock
    have hheld := hsettled.held hlock
    cases section' with
    | publishing reason => cases reason <;> exact hheld
    | _ => exact hheld

theorem Inv.step {op : TurnOp} (h : tailer.Inv) (hundisturbed : tailer.undisturbed op = true)
    (hstep : tailer.step op = some next) : next.Inv := by
  have hcalm := undisturbed_calm hundisturbed
  have hheld : ∀ {section'}, tailer.lock = some section' → tailer.Holds section' :=
    (h.settled hcalm).held
  have hwaits : ∀ {call phase}, tailer.waits call phase = some next → next.Inv := by
    intro call phase hwaits
    unfold waits at hwaits
    split at hwaits
    · contradiction
    · cases hwaits
      exact h.withCalls _
  have hreads : ∀ {reached}, tailer.whileReading reached = some next →
      (tailer.consumer = .reading → reached.Inv) → next.Inv := by
    intro reached hreads hreached
    unfold whileReading at hreads
    split at hreads
    next hreading =>
      cases hreads
      exact hreached hreading
    next => contradiction
  cases op with
    simp only [TurnTailer.step] at hstep
  | sendMessage =>
    split at hstep
    · exact hwaits hstep
    · exact hwaits hstep
  | teardownAwaited =>
    split at hstep
    · split at hstep
      · contradiction
      · cases hstep
        exact h.withCalls _
    · contradiction
  | cancelTurn =>
    split at hstep
    · cases hstep
      exact h
    · exact hwaits hstep
  | retireExternalTurn => exact hwaits hstep
  | callLocked call =>
    split at hstep
    next phase hlock hlookup =>
      have hended : (tailer.ended call).Inv := h.withCalls _
      have hcalled : ((tailer.ended call).callLocked phase).Inv :=
        hended.callLocked hcalm hlock phase
      split at hstep
      · contradiction
      · cases hstep
        exact hcalled
    next => contradiction
  | prepared ok goalProtocol =>
    split at hstep
    next turnId hlock =>
      split at hstep
      · cases hstep
        exact .idle h.base (hheld hlock)
      · split at hstep
        · contradiction
        next hfresh =>
          cases hstep
          exact .prepared h.base hfresh goalProtocol
    next => contradiction
  | startPublished ok =>
    split at hstep
    next turnId hlock =>
      obtain ⟨hactive, hcount⟩ : tailer.Holds (.starting turnId) := hheld hlock
      cases hstep
      cases ok with
      | true => exact .startPublished h.base hactive hcount
      | false => exact .idle h.base.releaseActive rfl
    next => contradiction
  | turnBegins =>
    split at hstep
    next turnId hlock =>
      obtain ⟨hactive, hcount⟩ : tailer.Holds (.submitting turnId) := hheld hlock
      cases hstep
      split
      · exact .reject h.base hactive hcount
      · exact .turnBegins h.base hactive hcount
    next => contradiction
  | submissionFails =>
    split at hstep
    next turnId hlock =>
      obtain ⟨hactive, hcount⟩ : tailer.Holds (.submitting turnId) := hheld hlock
      cases hstep
      exact .reject h.base hactive hcount
    next => contradiction
  | submitted accepted =>
    split at hstep
    next turnId hlock =>
      have hsubmitted : tailer.Holds (.submitted turnId) := hheld hlock
      cases hstep
      cases accepted with
      | true => exact .unlocked h.base hsubmitted.2
      | false => exact h.submissionRejected hlock hundisturbed
    next => contradiction
  | inspected =>
    split at hstep
    next expected hlock =>
      cases hstep
      exact .orphanRead h.base (hheld hlock) expected
    next expected hlock =>
      cases hstep
      exact .lifecycleRead h.base (hheld hlock) expected
    next => contradiction
  | errorPublished ok =>
    split at hstep
    next reason edge hlock =>
      cases hstep
      exact .afterError h.base (hheld hlock) (calm_locked hlock rfl hcalm) ok
    next => contradiction
  | edgeAppended ok =>
    split at hstep
    next reason edge hlock =>
      have hpublishes : tailer.Holds (.publishing reason edge .completion) := hheld hlock
      cases hstep
      cases ok with
      | true => exact .edgeAppended h.base hpublishes
      | false =>
        exact .afterEdge h.base hpublishes.1
          (fun _ turnId hturn => (hpublishes.2 turnId hturn).2 nofun)
          (calm_locked hlock rfl hcalm)
    next => contradiction
  | edgeObserved =>
    split at hstep
    next reason edge hlock =>
      have hpublishes : tailer.Holds (.publishing reason edge .observed) := hheld hlock
      cases hstep
      exact .afterEdge h.base hpublishes.1 nofun (calm_locked hlock rfl hcalm)
    next => contradiction
  | tornDown ok =>
    split at hstep
    next caller raised hlock =>
      have hactive : tailer.activeTurnId = none := hheld hlock
      cases hstep
      cases ok with
      | true => exact .afterTeardown (h.base.endTurn h.base.old_guard) hactive caller raised _
      | false => exact .afterTeardown h.base hactive caller raised _
    next => contradiction
  | transportStopped =>
    split at hstep
    next hlock =>
      cases hstep
      exact .idle (h.base.endTurn h.base.old_guard) (hheld hlock)
    next => contradiction
  | teardownLocked =>
    split at hstep
    next task hlock htask =>
      have hold := (Bool.and_eq_true_iff.mp hundisturbed).2
      simp only [htask, Option.all_some] at hold
      cases hstep
      exact h.teardownLocked hcalm hlock htask hold
    next => contradiction
  | teardownEnds ok =>
    split at hstep
    next since hlock =>
      have htears : tailer.Holds (.teardown since) := hheld hlock
      cases hstep
      exact .teardownEnds h.base htears.1 htears.2 ok
    next => contradiction
  | recordsRead => exact hreads hstep fun _ => h.withOutput _
  | completionRead =>
    refine hreads hstep fun hreading => ?_
    split
    · exact h
    · apply h.consumes (notFailing_reading hreading) (by simp)
      intro edge since turnId heq hturn
      cases heq
      rw [List.take_length]
      exact h.base.active turnId hturn
  | eofRead exitError clientRequestedStop =>
    exact hreads hstep fun hreading => h.eofRead hreading exitError clientRequestedStop
  | goalGraceExpired =>
    split at hstep
    · exact hreads hstep fun hreading =>
        h.consumes (notFailing_reading hreading) (by simp) (by simp)
    · contradiction
  | watchdogFires =>
    split at hstep
    · exact hreads hstep fun hreading =>
        h.consumes (notFailing_reading hreading) (by simp) (by simp)
    · contradiction
  | consumerLocked fires =>
    split at hstep
    next reason hlock hwants =>
      cases hstep
      exact .consumerLocked h.base ((h.settled hcalm).free hlock) hwants fires hundisturbed
    next => contradiction
  | failureErrorPublished ok =>
    split at hstep
    next edge since hfails =>
      cases hstep
      exact h.failureErrorPublished hcalm hfails ok
    next => contradiction
  | failureAppended ok =>
    split at hstep
    next edge since hfails =>
      cases hstep
      cases ok with
      | true => exact h.failureAppended hcalm hfails
      | false => exact h.failed hcalm hfails _
    next => contradiction
  | failureObserved =>
    split at hstep
    next edge since hfails =>
      cases hstep
      exact h.failed hcalm hfails true
    next => contradiction
  | restart =>
    cases hstep
    exact .restart h.base

theorem Inv.start (eofIsFatal goalCompletionRequiresProviderEvent : Bool) :
    (start eofIsFatal goalCompletionRequiresProviderEvent).Inv where
  base := {
    once := fun _ => Nat.zero_le 1
    inOrder := by simp [TurnTailer.start]
    active := by simp [TurnTailer.start]
    guard := by simp [TurnTailer.start]
    completed := fun turnId hcount => absurd rfl hcount
    seen := by simp [TurnTailer.start]
    ordered := by simp [TurnTailer.start, Occurs]
    logged := by simp [TurnTailer.start]
    failed := by simp [TurnTailer.start]
    wanted := by simp [TurnTailer.start]
    torn := by simp [TurnTailer.start] }
  settled := fun _ => .of_inactive rfl

/-- While none of the handlers that look at no identity meets another turn, every turn has one
terminal edge at most and nothing of a turn that was started later is cleared. -/
theorem one_terminal_edge {eofIsFatal goalCompletionRequiresProviderEvent : Bool}
    {ops : List TurnOp}
    (hrun : Run step (fun tailer op => tailer.undisturbed op = true)
      (start eofIsFatal goalCompletionRequiresProviderEvent) ops tailer) :
    tailer.OneTerminalEdge := by
  have hinv := hrun.invariant (Inv.start _ _) fun _ _ _ h hundisturbed hstep =>
    h.step hundisturbed hstep
  exact ⟨hinv.base.once, hinv.base.inOrder⟩

private def firstTurn : TurnId := "first"

private def secondTurn : TurnId := "second"

private def sendOps (call : Nat) (turnId : TurnId) : List TurnOp :=
  [.sendMessage call turnId false, .callLocked call, .prepared true false, .startPublished true,
    .turnBegins, .submitted true]

/-- A turn whose process fails, and one that is stopped while its completion is read. -/
private def undisturbedOps : List TurnOp :=
  sendOps 0 firstTurn ++
    [.eofRead true false, .failureErrorPublished true, .failureAppended true, .failureObserved] ++
    sendOps 0 secondTurn ++
    [.cancelTurn 0 (some secondTurn), .completionRead, .callLocked 0, .edgeAppended true,
      .edgeObserved, .consumerLocked true, .teardownLocked, .teardownEnds true]

theorem one_terminal_edge_stopped : ∃ tailer, Run step
    (fun tailer op => tailer.undisturbed op = true) (start false false) undisturbedOps tailer ∧
      (tailer.completions firstTurn = 1 ∧ tailer.completions secondTurn = 1) ∧
        tailer.OneTerminalEdge := by
  have hany : (execOk step (fun tailer op => tailer.undisturbed op = true) (start false false)
      undisturbedOps).any (fun tailer => decide (tailer.completions firstTurn = 1 ∧
        tailer.completions secondTurn = 1)) := by decide +kernel
  obtain ⟨tailer, hexec, hedges⟩ := (Option.any_eq_true _ _).mp hany
  have hrun := Run.of_execOk hexec
  exact ⟨tailer, hrun, of_decide_eq_true hedges, one_terminal_edge hrun⟩

/-- The failure of a one-shot process is published beside a stop; a completion without a turn id
waits for the send that it meets; a steer comes before the teardown of a stop. -/
private def disturbedOps : List (List TurnOp) :=
  [sendOps 0 firstTurn ++
      [.eofRead true false, .cancelTurn 1 none, .callLocked 1, .failureErrorPublished true,
        .failureAppended true, .edgeAppended true],
    [.sendMessage 0 firstTurn false, .callLocked 0, .completionRead, .prepared true false,
      .startPublished true, .turnBegins, .submitted true, .consumerLocked true,
      .edgeAppended true, .edgeObserved],
    sendOps 0 firstTurn ++
      [.cancelTurn 1 none, .sendMessage 2 secondTurn true, .callLocked 1, .edgeAppended true,
        .edgeObserved, .callLocked 2, .tornDown true false, .prepared true false,
        .startPublished true, .turnBegins, .submitted true, .teardownLocked, .teardownEnds true]]

/-- A turn gets a second edge, and a turn is cleared by what was there before it. -/
theorem terminal_edges_disturbed : ¬ ∃ ops ∈ disturbedOps, ∀ tailer,
    exec step (start false false) ops = some tailer → tailer.OneTerminalEdge := by
  have hbroken : ∀ ops ∈ disturbedOps, (exec step (start false false) ops).any fun tailer =>
      decide (1 < tailer.completions firstTurn ∨ ∃ release ∈ tailer.releases,
        tailer.old release.since release.guard = false) := by decide +kernel
  rintro ⟨ops, hops, hkept⟩
  obtain ⟨tailer, hexec, hedges⟩ := (Option.any_eq_true _ _).mp (hbroken ops hops)
  have h := hkept tailer hexec
  rcases of_decide_eq_true hedges with htwice | ⟨release, hrelease, hlater⟩
  · exact absurd htwice (Nat.not_lt.mpr (h.once firstTurn))
  · have hold : tailer.old release.since release.guard = true :=
      old_iff.mpr fun turnId hguard => h.inOrder release hrelease turnId (.inr hguard)
    rw [hold] at hlater
    contradiction

/-- In the same runs no turn is started in the log behind its end. The active turn has no end
there yet while no coroutine holds the send lock, unless it is the failed one that is being
released. -/
theorem ended_turn_stays_ended {eofIsFatal goalCompletionRequiresProviderEvent : Bool}
    {ops : List TurnOp}
    (hrun : Run step (fun tailer op => tailer.undisturbed op = true)
      (start eofIsFatal goalCompletionRequiresProviderEvent) ops tailer) :
    (∀ before started after turnId, Occurs tailer.events before started after →
      started.type = .turnStarted → started.turnId = some turnId →
        ∀ event ∈ before, event.type = .turnCompleted → event.turnId ≠ some turnId) ∧
      (tailer.calm = true → tailer.lock = none → tailer.Open) := by
  have hinv := hrun.invariant (Inv.start _ _) fun _ _ _ h hundisturbed hstep =>
    h.step hundisturbed hstep
  exact ⟨hinv.base.ordered, fun hcalm hfree => (hinv.settled hcalm).free hfree⟩

theorem ended_turn_stays_ended_active : ∃ tailer, Run step
    (fun tailer op => tailer.undisturbed op = true) (start false false)
      (sendOps 0 firstTurn) tailer ∧ tailer.activeTurnId = some firstTurn ∧ tailer.Open := by
  have hany : (execOk step (fun tailer op => tailer.undisturbed op = true) (start false false)
      (sendOps 0 firstTurn)).any (fun tailer => decide (tailer.activeTurnId = some firstTurn ∧
        tailer.calm = true ∧ tailer.lock = none)) := by decide +kernel
  obtain ⟨tailer, hexec, hends⟩ := (Option.any_eq_true _ _).mp hany
  obtain ⟨hactive, hcalm, hfree⟩ := of_decide_eq_true hends
  have hrun := Run.of_execOk hexec
  exact ⟨tailer, hrun, hactive, (ended_turn_stays_ended hrun).2 hcalm hfree⟩

end TurnTailer

end ClaudeHub
