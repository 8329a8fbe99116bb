import ClaudeHub.GoalRun.Completion
import ClaudeHub.GoalRun.Dispatch

/-! # No steering text is lost

A text that `steer` accepts is owed to the goal until the transport has accepted a dispatch
that carries it, or a later text replaces it. What is owed is always the pending input of
the goal, so the next dispatch carries it.
-/

namespace ClaudeHub

open StepSystem

/-! ## What a write leaves owed -/

namespace GoalHistory

variable (history : GoalHistory)

theorem carry_lookup (prepared : GoalRun) (id : GoalId) :
    (history.carry prepared).owed.lookup id = if prepared.pendingInput ≠ none ∧ id = prepared.id ∧
          history.owed.lookup id = prepared.pendingInput then none else history.owed.lookup id := by
  unfold carry
  by_cases hcarried : prepared.pendingInput ≠ none ∧
      history.owed.lookup prepared.id = prepared.pendingInput
  · rw [if_pos hcarried]
    by_cases hid : id = prepared.id
    · subst hid
      rw [if_pos ⟨hcarried.1, rfl, hcarried.2⟩]
      simp [Dict.lookup, Table.get?_erase]
    · rw [if_neg fun h => hid h.2.1]
      simp [Dict.lookup, Table.get?_erase, hid]
  · rw [if_neg hcarried, if_neg]
    rintro ⟨hinput, rfl, hsame⟩
    exact hcarried ⟨hinput, hsame⟩

theorem foldl_carry_lookup (goals : List GoalRun) (history : GoalHistory) {id : GoalId}
    {text : String} :
    (goals.foldl carry history).owed.lookup id = some text ↔
      history.owed.lookup id = some text ∧
        ∀ goal ∈ goals, goal.id = id → goal.pendingInput ≠ some text := by
  induction goals generalizing history with
  | nil => simp
  | cons goal goals ih =>
    rw [List.foldl_cons, ih, carry_lookup]
    constructor
    · rintro ⟨howed, hlater⟩
      split at howed
      · contradiction
      · rename_i hcarried
        refine ⟨howed, fun other hother hid hinput => ?_⟩
        rcases List.mem_cons.mp hother with rfl | hother
        · exact hcarried ⟨by simp [hinput], hid.symm, by rw [howed, hinput]⟩
        · exact hlater other hother hid hinput
    · rintro ⟨howed, hnone⟩
      refine ⟨?_, fun other hother => hnone other (List.mem_cons_of_mem _ hother)⟩
      rw [if_neg]
      · exact howed
      · rintro ⟨-, hid, hsame⟩
        exact hnone goal List.mem_cons_self hid.symm (hsame.symm.trans howed)

theorem note_owed {event : GoalEvent} (goal : GoalRun) (hsteered : ∀ text, event ≠ .steered text)
    (hcounted : ∀ turn tokens, event ≠ .counted turn tokens) :
    (history.note ⟨event, goal⟩).owed = history.owed := by
  cases event with
  | steered text => exact absurd rfl (hsteered text)
  | counted turn tokens => exact absurd rfl (hcounted turn tokens)
  | _ => rfl

theorem note_counted_lookup {turn : TurnId} {tokens : Option Nat} {goal : GoalRun} {id : GoalId}
    {text : String} :
    (history.note ⟨.counted turn tokens, goal⟩).owed.lookup id = some text ↔
      history.owed.lookup id = some text ∧
        ∀ call ∈ history.callsFor goal.id turn, call.goal.id = id →
          call.goal.pendingInput ≠ some text := by
  refine (foldl_carry_lookup _ history).trans ?_
  simp

theorem note_steered_lookup {text : String} {goal : GoalRun} {id : GoalId} :
    (history.note ⟨.steered text, goal⟩).owed.lookup id =
      if id = goal.id then some text else history.owed.lookup id :=
  Dict.lookup_set _ _ _ _

theorem note_owed_other (write : GoalWrite) {id : GoalId} (hid : id ≠ write.goal.id) :
    (history.note write).owed.lookup id = history.owed.lookup id := by
  obtain ⟨event, goal⟩ := write
  cases event with
  | steered =>
    rw [note_steered_lookup, if_neg hid]
  | counted turn =>
    ext text
    rw [note_counted_lookup]
    refine ⟨fun h => h.1, fun h => ⟨h, fun call hcall hsame _ => hid ?_⟩⟩
    have hmatch : call.goal.id = goal.id ∧ call.goal.pendingStepId = some turn := by
      simpa using (List.mem_filter.mp hcall).2
    exact hsame.symm.trans hmatch.1
  | _ => rfl

end GoalHistory

def GoalRun.Keeps (history : GoalHistory) (goal : GoalRun) : Prop :=
  ∀ text, history.owed.lookup goal.id = some text → goal.pendingInput = some text

theorem GoalRun.Keeps.carry {history : GoalHistory} {goal : GoalRun} (h : goal.Keeps history)
    (prepared : GoalRun) : goal.Keeps (history.carry prepared) := by
  intro text howed
  rw [GoalHistory.carry_lookup] at howed
  split at howed
  · contradiction
  · exact h text howed

/-- A write keeps the pending input or takes it into account: a new text is the pending
input, and a counted turn was handed over with the pending input if that is still there.
The acceptance of a dispatch is written before it is known to the history. -/
theorem GoalMove.keeps {event : GoalEvent} {goal next : GoalRun} {history : GoalHistory}
    (hmove : GoalMove event goal next) (hwell : goal.WellFormed)
    (hagrees : ∀ call ∈ history.calls, call.goal.id = goal.id → GoalRun.Agrees call.goal goal)
    (hhanded : ∀ turn tokens, event = .counted turn tokens → goal.pendingStepId = some turn →
      ∃ call, call ∈ history.callsFor goal.id turn)
    (haccepted : event ≠ .accepted) (h : goal.Keeps history) :
    next.Keeps (history.note ⟨event, next⟩) := by
  intro text howed
  cases hmove with
  | steered =>
    rw [GoalHistory.note_steered_lookup, if_pos rfl] at howed
    exact howed
  | counted tokens hactive hrunning hturn hcounted =>
    obtain ⟨howed, hnone⟩ := (GoalHistory.note_counted_lookup history).mp howed
    rw [hcounted.id] at howed hnone
    have hinput := h text howed
    obtain ⟨step, hstep, hcurrent⟩ := hwell.running hrunning
    obtain rfl := Option.some.inj (hcurrent.symm.trans hturn)
    rcases hrunning with hpending | hdispatched
    · obtain ⟨call, hcall⟩ := hhanded step tokens rfl hstep
      obtain ⟨hmem, hmatch⟩ := List.mem_filter.mp hcall
      obtain ⟨hid, hsame⟩ : call.goal.id = goal.id ∧ call.goal.pendingStepId = some step := by
        simpa using hmatch
      have hcarried := (hagrees call hmem hid).input (hstep.trans hsame.symm) hactive hpending
      exact absurd (hcarried.symm.trans hinput) (hnone call hcall hid)
    · simp [hwell.delivered hactive hdispatched] at hinput
  | accepted => exact absurd rfl haccepted
  | recovered now hrecovered =>
    have hrec := GoalRun.recovered_spec hrecovered
    rw [hrec.pendingInput]
    rw [GoalHistory.note_owed _ _ (by simp) (by simp), hrec.id] at howed
    exact h text howed
  | _ => exact h text howed

variable {writes : List GoalWrite}

theorem GoalPath.keeps {goal last : GoalRun} {history : GoalHistory}
    (hpath : GoalPath goal writes last) (hwell : goal.WellFormed)
    (hsteps : ∀ call ∈ history.calls, ∃ step, call.goal.pendingStepId = some step)
    (hagrees : writes ≠ [] → ∀ call ∈ history.calls, call.goal.id = goal.id →
      GoalRun.Agrees call.goal goal)
    (hhanded : ∀ turn tokens stored, ⟨.counted turn tokens, stored⟩ ∈ writes →
      goal.pendingStepId = some turn → ∃ call, call ∈ history.callsFor goal.id turn)
    (hlast : ∀ write ∈ writes.dropLast, ∀ step, write.event ≠ .prepared step)
    (haccepted : ∀ write ∈ writes, write.event ≠ .accepted) (h : goal.Keeps history) :
    last.Keeps (writes.foldl GoalHistory.note history) := by
  induction hpath generalizing history with
  | nil => exact h
  | @cons goal next _ event writes hmove _ ih =>
    have hagrees' := hagrees (by simp)
    have hid := hmove.sameGoal.id
    have hcalls := GoalHistory.note_calls history ⟨event, next⟩
    -- a step is prepared by the last write only
    have hearlier : writes ≠ [] → ∀ step, event ≠ .prepared step := by
      intro hne
      obtain ⟨later, writes, rfl⟩ := List.exists_cons_of_ne_nil hne
      exact hlast ⟨event, next⟩ (by simp)
    refine ih (hmove.wellFormed hwell) (by rwa [hcalls]) (fun hne call hcall hsame => ?_)
      (fun turn tokens stored hmem hstep => ?_) (fun write hmem => ?_)
      (fun write hmem => haccepted write (List.mem_cons_of_mem _ hmem))
      (hmove.keeps hwell hagrees'
        (fun turn tokens heq => hhanded turn tokens next (heq ▸ List.mem_cons_self))
        (haccepted _ List.mem_cons_self) h)
    · rw [hcalls] at hcall
      obtain ⟨step, hstep⟩ := hsteps call hcall
      exact hmove.agrees hwell hstep (hearlier hne step) (hagrees' call hcall (hsame.trans hid))
    · have hne : writes ≠ [] := List.ne_nil_of_mem hmem
      have hold := (hmove.step_eq hstep).resolve_right (hearlier hne turn)
      rw [GoalHistory.callsFor, hcalls, hid]
      exact hhanded turn tokens stored (List.mem_cons_of_mem _ hmem) hold
    · have hne : writes ≠ [] := fun hnil => by simp [hnil] at hmem
      refine hlast write ?_
      rw [List.dropLast_cons_of_ne_nil hne]
      exact List.mem_cons_of_mem _ hmem

variable {id : GoalId}

theorem GoalPath.owed_other {goal last : GoalRun} (hpath : GoalPath goal writes last)
    (history : GoalHistory) (hid : id ≠ goal.id) :
    (writes.foldl GoalHistory.note history).owed.lookup id = history.owed.lookup id := by
  induction hpath generalizing history with
  | nil => rfl
  | cons hmove _ ih =>
    have hsame := hmove.sameGoal.id
    rw [List.foldl_cons, ih _ (by rwa [hsame]),
      GoalHistory.note_owed_other history _ (by rwa [hsame])]

theorem foldl_note_owed {op : GoalOp} (history : GoalHistory)
    (hevents : ∀ write ∈ writes, op.mayWrite write.event)
    (hsteer : ∀ goalId request moment, op ≠ .steer goalId request moment)
    (hturn : ∀ tabId turnId report moment, op ≠ .turnCompleted tabId turnId report moment) :
    (writes.foldl GoalHistory.note history).owed = history.owed := by
  induction writes generalizing history with
  | nil => rfl
  | cons write writes ih =>
    obtain ⟨event, goal⟩ := write
    rw [List.foldl_cons, ih _ fun write hmem => hevents write (List.mem_cons_of_mem _ hmem)]
    have hevent : op.mayWrite event := hevents _ List.mem_cons_self
    refine GoalHistory.note_owed history goal ?_ ?_
    · rintro text rfl
      obtain ⟨goalId, request, moment, heq, -⟩ := hevent
      exact hsteer goalId request moment heq
    · rintro turn tokens rfl
      obtain ⟨tabId, report, moment, heq⟩ := hevent
      exact hturn tabId turn report moment heq

theorem foldl_note_steered {goalId : GoalId} {request : SteerRequest} {moment : Moment}
    (history : GoalHistory)
    (hevents : ∀ write ∈ writes, (GoalOp.steer goalId request moment).mayWrite write.event)
    {text : String} (howed : history.owed.lookup id = some text) :
    (writes.foldl GoalHistory.note history).owed.lookup id = some text ∨
      (writes.foldl GoalHistory.note history).owed.lookup id = some request.text := by
  induction writes generalizing history text with
  | nil => exact .inl howed
  | cons write writes ih =>
    have hrest := fun history => @ih history fun write hmem =>
      hevents write (List.mem_cons_of_mem _ hmem)
    obtain ⟨event, goal⟩ := write
    have hevent : (GoalOp.steer goalId request moment).mayWrite event :=
      hevents _ List.mem_cons_self
    by_cases hsteered : ∃ newer, event = .steered newer
    · obtain ⟨newer, rfl⟩ := hsteered
      obtain ⟨_, _, _, heq, rfl⟩ := hevent
      obtain ⟨-, rfl, -⟩ := GoalOp.steer.inj heq
      have hnote := @GoalHistory.note_steered_lookup history request.text goal id
      by_cases hid : id = goal.id
      · rw [if_pos hid] at hnote
        exact .inr ((hrest _ hnote).elim (fun h => h) fun h => h)
      · rw [if_neg hid, howed] at hnote
        exact hrest _ hnote
    · refine hrest _ ?_
      rw [GoalHistory.note_owed history goal (fun newer heq => hsteered ⟨newer, heq⟩)]
      · exact howed
      · rintro turn tokens rfl
        obtain ⟨_, _, _, heq⟩ := hevent
        contradiction

theorem foldl_note_completed {tabId : TabId} {turnId : TurnId} {report : TurnReport}
    {moment : Moment} (history : GoalHistory)
    (hevents : ∀ write ∈ writes,
      (GoalOp.turnCompleted tabId turnId report moment).mayWrite write.event) {text : String}
    (howed : history.owed.lookup id = some text) :
    (writes.foldl GoalHistory.note history).owed.lookup id = some text ∨
      ∃ call ∈ history.callsFor id turnId, call.goal.pendingInput = some text := by
  induction writes generalizing history with
  | nil => exact .inl howed
  | cons write writes ih =>
    have hrest := @ih (history.note write)
      fun write hmem => hevents write (List.mem_cons_of_mem _ hmem)
    rw [GoalHistory.callsFor, GoalHistory.note_calls] at hrest
    obtain ⟨event, goal⟩ := write
    have hevent : (GoalOp.turnCompleted tabId turnId report moment).mayWrite event :=
      hevents _ List.mem_cons_self
    by_cases hcounted : ∃ turn tokens, event = .counted turn tokens
    · obtain ⟨turn, tokens, rfl⟩ := hcounted
      obtain ⟨_, _, _, heq⟩ := hevent
      obtain ⟨-, rfl, -⟩ := GoalOp.turnCompleted.inj heq
      by_cases hcarried : ∃ call ∈ history.callsFor goal.id turnId, call.goal.id = id ∧
          call.goal.pendingInput = some text
      · obtain ⟨call, hcall, rfl, hinput⟩ := hcarried
        obtain ⟨hmem, hmatch⟩ := List.mem_filter.mp hcall
        exact .inr ⟨call, List.mem_filter.mpr ⟨hmem, by simp_all⟩, hinput⟩
      · refine hrest ((GoalHistory.note_counted_lookup history).mpr ⟨howed, ?_⟩)
        exact fun call hcall hid hinput => hcarried ⟨call, hcall, hid, hinput⟩
    · refine hrest ?_
      rw [GoalHistory.note_owed history goal]
      · exact howed
      · rintro newer rfl
        obtain ⟨_, _, _, heq, -⟩ := hevent
        contradiction
      · exact fun turn tokens heq => hcounted ⟨turn, tokens, heq⟩

namespace GoalSystem

variable {system after base : GoalSystem}

/-- The transport reports the completion of a prepared step only if it was handed it. -/
def Reported (system : GoalSystem) : GoalOp → Prop
  | .turnCompleted _ turnId _ _ =>
    turnId ∈ system.history.steps.map Prod.fst →
      ∃ call ∈ system.history.calls, call.goal.pendingStepId = some turnId
  | _ => True

instance (system : GoalSystem) (op : GoalOp) : Decidable (system.Reported op) := by
  unfold Reported
  split <;> infer_instance

theorem Drops.reported (hdrops : system.Drops base) (op : GoalOp) :
    base.Reported op = system.Reported op := by
  unfold Reported
  rw [hdrops.history]

/-- Every text that is owed is the pending input of a stored goal. -/
structure Owed (system : GoalSystem) : Prop where
  keeps : ∀ goal ∈ system.controller.store.goals.rows, goal.Keeps system.history
  stored : ∀ id text, system.history.owed.lookup id = some text →
    ∃ goal ∈ system.controller.store.goals.rows, goal.id = id

theorem Owed.same (howed : system.Owed)
    (hgoals : after.controller.store.goals = system.controller.store.goals)
    (hsame : after.history.owed = system.history.owed) : after.Owed where
  keeps := fun goal hgoal text htext => by
    rw [hgoals] at hgoal
    exact howed.keeps goal hgoal text (hsame ▸ htext)
  stored := by
    rw [hgoals, hsame]
    exact howed.stored

section

variable {goal : GoalRun} {result : Section} {ids : List TurnId} {op : GoalOp}

theorem Owed.write (howed : base.Owed)
    (hid : result.goal.id = goal.id)
    (hgoals : after.controller.store.goals = base.controller.store.goals.insert result.goal)
    (hothers : ∀ id, id ≠ goal.id →
      after.history.owed.lookup id = base.history.owed.lookup id)
    (hkeeps : result.goal.Keeps after.history) : after.Owed where
  keeps := fun other hother text htext => by
    rw [hgoals] at hother
    rcases Table.mem_insert.mp hother with rfl | ⟨hother, hne⟩
    · exact hkeeps text htext
    · rw [hothers other.id (hid ▸ hne)] at htext
      exact howed.keeps other hother text htext
  stored := fun id text htext => by
    rw [hgoals]
    by_cases hsame : id = goal.id
    · exact ⟨result.goal, Table.mem_insert.mpr (.inl rfl), hid.trans hsame.symm⟩
    · rw [hothers id hsame] at htext
      obtain ⟨other, hother, rfl⟩ := howed.stored id text htext
      exact ⟨other, Table.mem_insert.mpr (.inr ⟨hother, hid ▸ hsame⟩), rfl⟩

theorem Inv.keeps (hinv : base.Inv) (hgoal : goal ∈ base.controller.store.goals.rows)
    (hsound : result.Sound ids op goal) (hreported : base.Reported op)
    (hreturned : ∀ prepared moment, op ≠ .transportReturned prepared moment)
    (hkeeps : goal.Keeps base.history) : result.goal.Keeps (base.history.record result) := by
  have hsnapshot : ∀ call ∈ base.history.calls, call.goal ∈ base.snapshots := fun call hcall =>
    List.mem_append_right _ (List.mem_map_of_mem hcall)
  refine hsound.path.keeps (hinv.wellFormed goal hgoal) (fun call hcall => ?_)
    (fun _ call hcall hid => hinv.agrees _ (hsnapshot call hcall) goal hgoal hid.symm)
    (fun turn tokens stored hmem hstep => ?_) hsound.last (fun write hmem haccepted => ?_) hkeeps
  · obtain ⟨step, hstep, -⟩ := hinv.taken _ (hsnapshot call hcall)
    exact ⟨step, hstep⟩
  · obtain ⟨tabId, report, moment, rfl⟩ := hsound.events _ hmem
    exact hinv.handed hgoal hstep hreported
  · have hevent := hsound.events write hmem
    rw [haccepted] at hevent
    obtain ⟨prepared, moment, heq⟩ := hevent
    exact hreturned prepared moment heq

theorem Owed.commit (howed : base.Owed) (hinv : base.Inv)
    (hgoal : goal ∈ base.controller.store.goals.rows) (hsound : result.Sound ids op goal)
    (hreported : base.Reported op)
    (hreturned : ∀ prepared moment, op ≠ .transportReturned prepared moment) :
    (base.commit result).Owed :=
  howed.write hsound.path.sameGoal.id (GoalRunController.follow_goals _ _)
    (fun _ hid => hsound.path.owed_other base.history hid)
    (hinv.keeps hgoal hsound hreported hreturned (howed.keeps goal hgoal))

theorem Owed.create {store : GoalRunStore} {tabId : TabId} {request : GoalRunCreate}
    {goalId : GoalId} {now : Time} (howed : system.Owed)
    (hgoals : store.goals =
      system.controller.store.goals.insert (newGoal tabId request goalId now))
    (hfresh : system.controller.store.goals.get? goalId = none) :
    ({ system with controller := { system.controller with store } } : GoalSystem).Owed where
  keeps := fun goal hgoal text htext => by
    rw [hgoals] at hgoal
    rcases Table.mem_insert.mp hgoal with rfl | ⟨hgoal, -⟩
    · obtain ⟨other, hother, hid⟩ := howed.stored _ text htext
      exact absurd hid (Table.get?_eq_none.mp hfresh other hother)
    · exact howed.keeps goal hgoal text htext
  stored := fun id text htext => by
    obtain ⟨goal, hgoal, hid⟩ := howed.stored id text htext
    rw [hgoals]
    exact ⟨goal, Table.mem_insert.mpr (.inr ⟨hgoal, Table.get?_eq_none.mp hfresh goal hgoal⟩), hid⟩

theorem dispatchAccepted_keeps {prepared : GoalRun} {moment : Moment} (hinv : base.Inv)
    (hgoal : goal ∈ base.controller.store.goals.rows) (hid : goal.id = prepared.id)
    (hkeeps : goal.Keeps base.history) :
    let result := goal.dispatchAccepted prepared prepared.pendingStepId moment
    result.goal.Keeps ((base.history.record result).carry prepared) := by
  dsimp only
  unfold GoalRun.dispatchAccepted
  split
  · split
    · intro text htext
      have hlookup : (base.history.carry prepared).owed.lookup goal.id = some text := htext
      have hinput := (hkeeps.carry prepared) text hlookup
      rw [GoalHistory.carry_lookup] at hlookup
      show (if goal.pendingInput = prepared.pendingInput then none else goal.pendingInput) = _
      split at hlookup
      · contradiction
      · rename_i hcarried
        rw [if_neg]
        · exact hinput
        · intro hsame
          exact hcarried ⟨by simp [← hsame, hinput], hid, by rw [hlookup, ← hsame, hinput]⟩
    · have hsound : (goal.dispatchFailed prepared .save moment).Sound []
          (.transportRaised prepared .save moment) goal := GoalRun.dispatchFailed_sound
      exact (hinv.keeps hgoal hsound trivial (by simp) hkeeps).carry prepared
  · exact hkeeps.carry prepared

theorem ended_owed (system : GoalSystem) (prepared : GoalRun) (accepted : Bool)
    (result : Section) :
    (system.ended prepared accepted result).history.owed =
      if accepted then ((system.history.record result).carry prepared).owed
      else (system.history.record result).owed := by
  have hcarry : ∀ history : GoalHistory,
      ({ history with unknown := history.unknown ++ [prepared.id] }.carry prepared).owed =
        (history.carry prepared).owed := by
    intro history
    unfold GoalHistory.carry
    dsimp only
    split <;> rfl
  cases accepted with
  | false => by_cases hlost : result.goal.awaits prepared <;> simp [ended, hlost]
  | true => by_cases hlost : result.goal.awaits prepared <;> simp [ended, hlost, hcarry]

theorem Owed.ended {prepared : GoalRun} {accepted : Bool} (howed : system.Owed)
    (hinv : system.Inv) (hgoal : goal ∈ system.controller.store.goals.rows)
    (hid : goal.id = prepared.id) (hending : Ending prepared goal op accepted result)
    (hsound : result.Sound [] op goal) : (system.ended prepared accepted result).Owed := by
  have howed' := ended_owed system prepared accepted result
  have hkept := howed.keeps goal hgoal
  refine howed.write hsound.path.sameGoal.id (GoalRunController.follow_goals _ _) ?_ ?_
  · intro id hother
    have hrecord : (system.history.record result).owed.lookup id = system.history.owed.lookup id :=
      hsound.path.owed_other system.history hother
    rw [howed']
    split
    · rw [GoalHistory.carry_lookup, if_neg fun h => hother (h.2.1.trans hid.symm), hrecord]
    · exact hrecord
  · intro text htext
    rw [howed'] at htext
    cases hending with
    | returned => exact dispatchAccepted_keeps hinv hgoal hid hkept text htext
    | raised => exact hinv.keeps hgoal hsound trivial (by simp) hkept text htext

theorem Owed.restart (howed : system.Owed) (now : Time) (failing : Option GoalId) :
    (system.restart now failing).Owed where
  keeps := fun next hnext text htext => by
    obtain ⟨goal, hgoal, rfl | hmove⟩ := mem_restart_goals hnext
    · exact howed.keeps next hgoal text htext
    · cases hmove with
      | recovered now hrecovered =>
        have hrec := GoalRun.recovered_spec hrecovered
        rw [hrec.pendingInput]
        exact howed.keeps goal hgoal text (hrec.id ▸ htext)
  stored := fun id text htext => by
    obtain ⟨goal, hgoal, hid⟩ := howed.stored id text htext
    obtain ⟨next, hnext, hnextId, -⟩ := @restart_goal system goal now failing hgoal
    exact ⟨next, hnext, hnextId.trans hid⟩

theorem Owed.step (howed : system.Owed) (hinv : system.Inv) (hnew : system.NewIds op)
    (hreported : system.Reported op) (h : system.step op = some after) : after.Owed := by
  cases shape hinv h with
  | drops hdrops => exact howed.same (by rw [hdrops.store]) (by rw [hdrops.history])
  | @wrote base goal result hdrops hgoal hsound hparked hreturned =>
    have hbase : base.Owed := howed.same (by rw [hdrops.store]) (by rw [hdrops.history])
    refine hbase.commit (hdrops.inv hinv) (hdrops.store ▸ hgoal) hsound ?_ hreturned
    rw [hdrops.reported]
    exact hreported
  | created hop hgoal hgoals hfree hsound =>
    subst hop
    subst hgoal
    have hcreate := hinv.create hgoals (newGoal_wellFormed _ _ _ _) rfl hnew.2
    refine (howed.create hgoals hnew.2).commit hcreate ?_ hsound trivial (by simp)
    rw [hgoals]
    exact Table.mem_insert.mpr (.inl rfl)
  | invoked => exact howed.same rfl rfl
  | ended hmem hgoal hid hending hsound => exact howed.ended hinv hgoal hid hending hsound
  | restarted now failing => exact howed.restart now failing

/-- A step after which a text is no longer owed to a goal: a steer replaces it, or the
transport has accepted a dispatch whose prompt carries it. -/
inductive Discharged (system after : GoalSystem) (id : GoalId) (text : String) : GoalOp → Prop
  | replaced (goalId : GoalId) (request : SteerRequest) (moment : Moment)
      (howed : after.history.owed.lookup id = some request.text) :
      Discharged system after id text (.steer goalId request moment)
  | accepted (prepared : GoalRun) (moment : Moment)
      (hmem : prepared ∈ system.controller.transporting) (hid : prepared.id = id)
      (hcarried : occursIn text (buildContinuationPrompt prepared)) :
      Discharged system after id text (.transportReturned prepared moment)
  | completed (tabId : TabId) (turnId : TurnId) (report : TurnReport) (moment : Moment)
      (call : GoalCall) (hcall : call ∈ system.history.callsFor id turnId)
      (hcarried : occursIn text call.prompt) :
      Discharged system after id text (.turnCompleted tabId turnId report moment)

theorem commit_discharged (hsound : result.Sound ids op goal) {text : String}
    (howed : base.history.owed.lookup id = some text) :
    (base.commit result).history.owed.lookup id = some text ∨
      Discharged base (base.commit result) id text op := by
  cases op with
  | steer goalId request moment =>
    rcases foldl_note_steered base.history hsound.events howed with hkept | hreplaced
    · exact .inl hkept
    · exact .inr (.replaced goalId request moment hreplaced)
  | turnCompleted tabId turnId report moment =>
    rcases foldl_note_completed base.history hsound.events howed with hkept | ⟨call, hcall, hinput⟩
    · exact .inl hkept
    · exact .inr (.completed tabId turnId report moment call hcall
        (pendingInput_occursIn_prompt call.goal hinput))
  | _ =>
    have hsame := foldl_note_owed base.history hsound.events (by simp) (by simp)
    exact .inl ((congrArg (fun owed => owed.lookup id) hsame).trans howed)

theorem ended_discharged {prepared : GoalRun} {accepted : Bool}
    (hmem : prepared ∈ system.controller.transporting)
    (hending : Ending prepared goal op accepted result) (hsound : result.Sound [] op goal)
    {text : String} (howed : system.history.owed.lookup id = some text) :
    (system.ended prepared accepted result).history.owed.lookup id = some text ∨
      Discharged system (system.ended prepared accepted result) id text op := by
  rw [ended_owed]
  cases hending with
  | returned moment =>
    have hsame := foldl_note_owed system.history hsound.events (by simp) (by simp)
    have hrecord : (system.history.record
        (goal.dispatchAccepted prepared prepared.pendingStepId moment)).owed.lookup id =
          some text := (congrArg (fun owed => owed.lookup id) hsame).trans howed
    rw [if_pos rfl, GoalHistory.carry_lookup, hrecord]
    split
    · rename_i hcarried
      exact .inr (.accepted prepared moment hmem hcarried.2.1.symm
        (pendingInput_occursIn_prompt prepared hcarried.2.2.symm))
    · exact .inl rfl
  | raised =>
    have hsame := foldl_note_owed system.history hsound.events (by simp) (by simp)
    exact .inl ((congrArg (fun owed => owed.lookup id) hsame).trans howed)

theorem step_discharged (hinv : system.Inv) (h : system.step op = some after) {text : String}
    (howed : system.history.owed.lookup id = some text) :
    after.history.owed.lookup id = some text ∨ Discharged system after id text op := by
  cases shape hinv h with
  | drops hdrops => exact .inl (hdrops.history ▸ howed)
  | @wrote base goal result hdrops hgoal hsound hparked hreturned =>
    rcases commit_discharged hsound (hdrops.history ▸ howed) with hkept | hdischarged
    · exact .inl hkept
    · refine .inr ?_
      cases hdischarged with
      | replaced goalId request moment hnewer => exact .replaced goalId request moment hnewer
      | accepted prepared moment => exact absurd rfl (hreturned prepared moment)
      | completed tabId turnId report moment call hcall hcarried =>
        rw [GoalHistory.callsFor, hdrops.history] at hcall
        exact .completed tabId turnId report moment call hcall hcarried
  | created hop hgoal hgoals hfree hsound =>
    subst hop
    rcases commit_discharged hsound howed with hkept | hdischarged
    · exact .inl hkept
    · contradiction
  | invoked => exact .inl howed
  | ended hmem hgoal hid hending hsound => exact ended_discharged hmem hending hsound howed
  | restarted => exact .inl howed

theorem steer_writes {callbacks : Callbacks} {request : SteerRequest} {moment : Moment}
    (hnew : goal.idempotency.lookup request.clientRequestId = none) :
    (goal.steer callbacks request moment).writes = [] ∨
      ∃ stored later, (goal.steer callbacks request moment).writes =
        ⟨.steered request.text, stored⟩ :: later := by
  unfold GoalRun.steer
  split
  · exact .inl rfl
  simp only [hnew, GoalRun.mutateOnce]
  cases GoalRun.steerApply request moment.now goal with
  | error => exact .inl rfl
  | ok =>
    cases hsaved : moment.saves.mutation with
    | false => exact .inl rfl
    | true => exact .inr ⟨_, _, rfl⟩

theorem steer_owes {goalId : GoalId} {request : SteerRequest} {moment : Moment} {next : GoalRun}
    (h : system.step (.steer goalId request moment) = some after)
    (hget : system.controller.store.goals.get? goalId = some goal)
    (hnew : goal.idempotency.lookup request.clientRequestId = none)
    (hnext : after.controller.store.goals.get? goalId = some next)
    (hrecorded : next.idempotency.lookup request.clientRequestId ≠ none) :
    after.history.owed.lookup goalId = some request.text := by
  obtain ⟨-, goal', hget', rfl⟩ := mutate_some h
  obtain rfl : goal' = goal := Option.some.inj (hget'.symm.trans hget)
  obtain ⟨-, rfl⟩ := get?_mem hget
  have hsound : (goal'.steer system.controller.callbacks request moment).Sound
      [(truthy (some request.turnId)).getD moment.uuid] (.steer goal'.id request moment) goal' :=
    GoalRun.steer_sound (by simp)
  have hgoal : next = (goal'.steer system.controller.callbacks request moment).goal := by
    obtain ⟨hmem, hid⟩ := Table.get?_eq_some.mp hnext
    rcases mem_commit_goals.mp hmem with rfl | ⟨-, hne⟩
    · rfl
    · exact absurd (hid.trans hsound.path.sameGoal.id.symm) hne
  rcases @steer_writes goal' system.controller.callbacks request moment hnew with
    hnone | ⟨stored, later, hwrites⟩
  · have hpath := hsound.path
    rw [hnone, ← hgoal] at hpath
    cases hpath
    exact absurd hnew hrecorded
  · have hstored : stored.id = goal'.id := by
      have hpath := hsound.path
      rw [hwrites] at hpath
      cases hpath with
      | cons hmove => exact hmove.sameGoal.id
    have hfirst := @GoalHistory.note_steered_lookup system.history request.text stored goal'.id
    rw [if_pos hstored.symm] at hfirst
    show (GoalHistory.record _ _).owed.lookup goal'.id = _
    rw [GoalHistory.record, hwrites, List.foldl_cons]
    have hlater : ∀ write ∈ later,
        (GoalOp.steer goal'.id request moment).mayWrite write.event := fun write hmem =>
      hsound.events write (hwrites ▸ List.mem_cons_of_mem _ hmem)
    exact (foldl_note_steered _ hlater hfirst).elim (fun h => h) fun h => h

end

/-- Where the ids are new and the transport reports no turn that it was not handed, a text that a
steer has recorded is the pending input of its goal as long as it is owed. -/
theorem steering_text_kept {callbacks : Callbacks} {ops : List GoalOp}
    (hrun : Run GoalSystem.step (fun system op => system.NewIds op ∧ system.Reported op)
      (initial callbacks) ops system) :
    (∀ id text, system.history.owed.lookup id = some text →
      ∃ goal ∈ system.controller.store.goals.rows,
        goal.id = id ∧ goal.pendingInput = some text) ∧
    ∀ op after, system.step op = some after →
      (∀ id text, system.history.owed.lookup id = some text →
        after.history.owed.lookup id = some text ∨ Discharged system after id text op) ∧
      ∀ goalId request moment goal next, op = .steer goalId request moment →
        system.controller.store.goals.get? goalId = some goal →
        goal.idempotency.lookup request.clientRequestId = none →
        after.controller.store.goals.get? goalId = some next →
        next.idempotency.lookup request.clientRequestId ≠ none →
          after.history.owed.lookup goalId = some request.text := by
  have hinitial : (initial callbacks).Owed := by
    constructor
    · simp [initial]
    · simp [initial, Dict.lookup]
  have h := hrun.invariant (P := fun system => system.Inv ∧ system.Owed)
    ⟨initial_inv callbacks, hinitial⟩ fun _ _ _ hs hok hstep =>
      ⟨hs.1.step hok.1 hstep, hs.2.step hs.1 hok.1 hok.2 hstep⟩
  refine ⟨fun id text howed => ?_, fun op after hstep => ⟨fun id text howed => ?_, ?_⟩⟩
  · obtain ⟨goal, hgoal, rfl⟩ := h.2.stored id text howed
    exact ⟨goal, hgoal, rfl, h.2.keeps goal hgoal text howed⟩
  · exact step_discharged h.1 hstep howed
  · rintro goalId request moment goal next rfl hget hnew hnext hrecorded
    exact steer_owes hstep hget hnew hnext hrecorded

/-! ### A steer, a dispatch that may have been lost, and a restart -/

private def steeredRequest : GoalRunCreate :=
  { objective := "ship it", clientRequestId := "create" }

private def steeredStep : GoalRun :=
  { newGoal "tab" steeredRequest "goal" 1 with
    pendingStepId := some "steered"
    currentTurnId := some "steered"
    dispatchState := .pending
    pendingInput := some "in Lean"
    idempotency := Dict.set Table.empty "steer" (.steer "in Lean" "")
    updatedAt := 3 }

private def steeredRun : List GoalOp :=
  [.createAndStart "tab" steeredRequest "goal" ⟨1, "first", {}⟩,
    .steer "goal" { clientRequestId := "steer", text := "in Lean", turnId := "steered" }
      ⟨2, "unused", {}⟩,
    .cancelReturned "goal" ⟨3, "unused", {}⟩,
    .dispatch ⟨steeredStep, false⟩ ⟨4, "unused", {}⟩,
    .transportRaised steeredStep (.callback "lost") ⟨5, "unused", {}⟩,
    .restart 6 none]

theorem steering_text_kept_restarted :
    ∃ system : GoalSystem, ∃ goal ∈ system.controller.store.goals.rows,
      system.history.calls.length = 1 ∧ goal.id = "goal" ∧
        goal.pendingInput = some "in Lean" := by
  have h : ((execOk GoalSystem.step (fun system op => system.NewIds op ∧ system.Reported op)
      (initial {}) steeredRun).map fun system =>
        (system.history.calls.length, system.history.owed.lookup "goal")) =
      some (1, some "in Lean") := by
    decide +kernel
  obtain ⟨system, hexec, hviews⟩ := Option.map_eq_some_iff.mp h
  obtain ⟨hcalls, howed⟩ := Prod.mk.inj hviews
  obtain ⟨goal, hgoal, hid, hinput⟩ :=
    (steering_text_kept (Run.of_execOk hexec)).1 "goal" "in Lean" howed
  exact ⟨system, goal, hgoal, hcalls, hid, hinput⟩

end GoalSystem

end ClaudeHub
