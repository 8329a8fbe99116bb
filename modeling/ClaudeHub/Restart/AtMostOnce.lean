import Mathlib.Data.List.Forall2
import ClaudeHub.Restart.Run

/-! # Every target is continued at most once

A target is claimed from the pending state, which nothing leads back to; so it is claimed
once, attempted once and handed over once. What is skipped stays so, and the check behind
every hand-over asks for the claim.
-/

namespace ClaudeHub

open StepSystem

/-! ## Moves of a target -/

/-- The moves of a target's recorded state. -/
inductive TargetMove : TargetState → TargetState → Prop
  | same (state : TargetState) : TargetMove state state
  | claim : TargetMove .pending .claimed
  | settle {state : TargetState} (h : state ≠ .pending) : TargetMove .claimed state
  | stop {state : TargetState} (h : state = .pending ∨ state = .claimed ∨ state = .started) :
      TargetMove state .skipped

structure RowMoves (row next : ChatContinuation) : Prop where
  id : next.continuationId = row.continuationId
  state : TargetMove row.state next.state

def RestartState.targets (store : RestartState) : List ChatContinuation :=
  ((store.operation.bind RestartOperation.chatRecovery).map ChatRecovery.targets).getD []

def targetOf (rows : List ChatContinuation) (id : ContinuationId) : Option ChatContinuation :=
  rows.find? fun row => row.continuationId = id

def ClaimedFirst (rows : List ChatContinuation) : Prop :=
  rows.Pairwise fun row later => later.continuationId = row.continuationId → later.state ≠ .claimed

section

variable {backend : Backend} {row next : ChatContinuation} {rows changed : List ChatContinuation}
  {id other : ContinuationId} {state : TargetState} {reason : String}

theorem RowMoves.refl (row : ChatContinuation) : RowMoves row row :=
  ⟨rfl, .same row.state⟩

theorem rowMoves_refl (rows : List ChatContinuation) : List.Forall₂ RowMoves rows rows :=
  List.forall₂_same.mpr fun row _ => .refl row

theorem targetOf_moves (h : List.Forall₂ RowMoves rows changed) (id : ContinuationId) :
    Option.Rel RowMoves (targetOf rows id) (targetOf changed id) := by
  induction h with
  | nil => exact .none
  | @cons row next rows changed hmove hrest ih =>
    unfold targetOf
    rw [List.find?_cons, List.find?_cons, hmove.id]
    split
    · exact .some hmove
    · exact ih

theorem change_eq_some (h : row.change backend state reason = some next) :
    row.state = ChatContinuation.expected state ∧ next.continuationId = row.continuationId ∧
      next.state = state := by
  unfold ChatContinuation.change at h
  split at h
  · contradiction
  · rename_i hstate
    cases h
    exact ⟨not_not.mp hstate, rfl, rfl⟩

theorem change_moves (hstate : state ≠ .pending)
    (h : row.change backend state reason = some next) : RowMoves row next := by
  obtain ⟨hexpected, hid, hnext⟩ := change_eq_some h
  refine ⟨hid, ?_⟩
  rw [hexpected, hnext]
  unfold ChatContinuation.expected
  split
  · rename_i hclaimed
    rw [hclaimed]
    exact .claim
  · exact .settle hstate

theorem changeRow_spec (h : changeRow backend id state reason rows = some changed) :
    (∃ row next, targetOf rows id = some row ∧ row.change backend state reason = some next ∧
      targetOf changed id = some next) ∧
      ∀ other, other ≠ id → targetOf changed other = targetOf rows other := by
  induction rows generalizing changed with
  | nil => contradiction
  | cons row rows ih =>
    unfold changeRow at h
    split at h
    · rename_i hid
      obtain ⟨next, hnext, rfl⟩ := Option.map_eq_some_iff.mp h
      obtain ⟨-, hsame, -⟩ := change_eq_some hnext
      refine ⟨⟨row, next, ?_, hnext, ?_⟩, fun other hother => ?_⟩
      · simp [targetOf, hid]
      · simp [targetOf, hsame, hid]
      · have hne : id ≠ other := fun heq => hother heq.symm
        simp [targetOf, hsame, hid, hne]
    · rename_i hid
      obtain ⟨rest, hrest, rfl⟩ := Option.map_eq_some_iff.mp h
      obtain ⟨⟨found, next, hfound, hnext, hchanged⟩, hothers⟩ := ih hrest
      refine ⟨⟨found, next, ?_, hnext, ?_⟩, fun other hother => ?_⟩
      · simpa [targetOf, hid] using hfound
      · simpa [targetOf, hid] using hchanged
      · have hsame := hothers other hother
        unfold targetOf at hsame ⊢
        rw [List.find?_cons, List.find?_cons, hsame]

theorem changeRow_moves (hstate : state ≠ .pending)
    (h : changeRow backend id state reason rows = some changed) :
    List.Forall₂ RowMoves rows changed := by
  induction rows generalizing changed with
  | nil => contradiction
  | cons row rows ih =>
    unfold changeRow at h
    split at h
    · obtain ⟨next, hnext, rfl⟩ := Option.map_eq_some_iff.mp h
      exact .cons (change_moves hstate hnext) (rowMoves_refl rows)
    · obtain ⟨rest, hrest, rfl⟩ := Option.map_eq_some_iff.mp h
      exact .cons (.refl row) (ih hrest)

theorem mem_changeRow (h : changeRow backend id state reason rows = some changed)
    (hmem : row ∈ changed) : row ∈ rows ∨ row.continuationId = id := by
  induction rows generalizing changed with
  | nil => contradiction
  | cons first rows ih =>
    unfold changeRow at h
    split at h
    · rename_i hid
      obtain ⟨next, hnext, rfl⟩ := Option.map_eq_some_iff.mp h
      obtain ⟨-, hsame, -⟩ := change_eq_some hnext
      rcases List.mem_cons.mp hmem with rfl | hrest
      · exact .inr (hsame.trans hid)
      · exact .inl (List.mem_cons_of_mem _ hrest)
    · obtain ⟨rest, hrest, rfl⟩ := Option.map_eq_some_iff.mp h
      rcases List.mem_cons.mp hmem with rfl | hlater
      · exact .inl (List.mem_cons_self ..)
      · exact (ih hrest hlater).imp_left (List.mem_cons_of_mem _)

theorem changeRow_first (h : changeRow backend id state reason rows = some changed)
    (hfirst : ClaimedFirst rows) : ClaimedFirst changed := by
  induction rows generalizing changed with
  | nil => contradiction
  | cons row rows ih =>
    obtain ⟨hhead, htail⟩ := List.pairwise_cons.mp hfirst
    unfold changeRow at h
    split at h
    · obtain ⟨next, hnext, rfl⟩ := Option.map_eq_some_iff.mp h
      obtain ⟨-, hsame, -⟩ := change_eq_some hnext
      refine List.pairwise_cons.mpr ⟨fun later hlater heq => ?_, htail⟩
      exact hhead later hlater (heq.trans hsame)
    · rename_i hid
      obtain ⟨rest, hrest, rfl⟩ := Option.map_eq_some_iff.mp h
      refine List.pairwise_cons.mpr ⟨fun later hlater heq => ?_, ih hrest htail⟩
      rcases mem_changeRow hrest hlater with hold | hchanged
      · exact hhead later hold heq
      · exact absurd (heq.symm.trans hchanged) hid

theorem targetOf_claimed (hfirst : ClaimedFirst rows) (hmem : row ∈ rows)
    (hclaimed : row.state = .claimed) : targetOf rows row.continuationId = some row := by
  induction rows with
  | nil => contradiction
  | cons first rows ih =>
    obtain ⟨hhead, htail⟩ := List.pairwise_cons.mp hfirst
    rcases List.mem_cons.mp hmem with rfl | hrest
    · simp [targetOf]
    · have hne : first.continuationId ≠ row.continuationId := fun heq =>
        hhead row hrest heq.symm hclaimed
      simpa [targetOf, hne] using ih htail hrest

def CancelsTo (row next : ChatContinuation) : Prop :=
  next = row ∨ ((row.state = .pending ∨ row.state = .claimed ∨ row.state = .started) ∧
    next = row.stop)

theorem CancelsTo.moves (h : CancelsTo row next) : RowMoves row next := by
  rcases h with rfl | ⟨hstate, rfl⟩
  · exact .refl next
  · exact ⟨rfl, .stop hstate⟩

theorem cancelsTo_refl (rows : List ChatContinuation) : List.Forall₂ CancelsTo rows rows :=
  List.forall₂_same.mpr fun _ _ => .inl rfl

theorem cancelRows_cancels (tabId : TabId) (expectedTurnId : Option TurnId)
    (goalId : Option String) (rows : List ChatContinuation) :
    List.Forall₂ CancelsTo rows (cancelRows tabId expectedTurnId goalId rows).1 := by
  induction rows with
  | nil => exact .nil
  | cons row rows ih =>
    unfold cancelRows
    dsimp only
    split
    · exact .cons (.inl rfl) ih
    split
    · split
      · rename_i hstate
        exact .cons (.inr ⟨by tauto, rfl⟩) (cancelsTo_refl rows)
      · exact cancelsTo_refl (row :: rows)
    split
    · rename_i hstop
      exact .cons (.inr ⟨hstop.2.1, rfl⟩) (cancelsTo_refl rows)
    · exact .cons (.inl rfl) ih

theorem cancels_mem (h : List.Forall₂ CancelsTo rows changed) (hmem : next ∈ changed) :
    ∃ row ∈ rows, CancelsTo row next := by
  induction h with
  | nil => contradiction
  | cons hhead hrest ih =>
    rcases List.mem_cons.mp hmem with rfl | hlater
    · exact ⟨_, List.mem_cons_self .., hhead⟩
    · obtain ⟨row, hrow, hcancels⟩ := ih hlater
      exact ⟨row, List.mem_cons_of_mem _ hrow, hcancels⟩

theorem cancels_first (h : List.Forall₂ CancelsTo rows changed) (hfirst : ClaimedFirst rows) :
    ClaimedFirst changed := by
  induction h with
  | nil => exact hfirst
  | @cons row next rows changed hhead hrest ih =>
    obtain ⟨hlater, htail⟩ := List.pairwise_cons.mp hfirst
    refine List.pairwise_cons.mpr ⟨fun found hfound heq hclaimed => ?_, ih htail⟩
    obtain ⟨old, hold, hcancels⟩ := cancels_mem hrest hfound
    rcases hcancels with rfl | ⟨-, rfl⟩
    · exact hlater found hold (heq.trans hhead.moves.id) hclaimed
    · simp [ChatContinuation.stop] at hclaimed

end

namespace RestartState

variable {store next : RestartState} {backend : Backend} {operationId : OperationId}
  {target : ChatContinuation} {state : TargetState} {reason : String} {now : Time}

@[simp] theorem setTargets_targets (store : RestartState) (operation : RestartOperation)
    (recovery : ChatRecovery) (targets : List ChatContinuation) :
    (store.setTargets operation recovery targets).targets = targets := rfl

theorem changeTarget_eq_some
    (h : store.changeTarget backend operationId target state reason = some next) :
    changeRow backend target.continuationId state reason store.targets = some next.targets := by
  obtain ⟨operation, hoperation, h⟩ := Option.bind_eq_some_iff.mp h
  obtain ⟨recovery, hrecovery, h⟩ := Option.bind_eq_some_iff.mp h
  split at h
  · contradiction
  obtain ⟨rows, hrows, h⟩ := Option.bind_eq_some_iff.mp h
  cases h
  have htargets : store.targets = recovery.targets := by
    simp [targets, hoperation, hrecovery]
  rw [htargets, setTargets_targets]
  exact hrows

theorem cancelPendingContinuation_cancels (store : RestartState) (backend : Backend)
    (tabId : TabId) (expectedTurnId : Option TurnId) (goalId : Option String)
    (vetoCapture : Bool) :
    List.Forall₂ CancelsTo store.targets
      (store.cancelPendingContinuation backend tabId expectedTurnId goalId vetoCapture).1.targets := by
  unfold cancelPendingContinuation
  split
  · exact cancelsTo_refl store.targets
  rename_i operation hoperation
  dsimp only
  split
  · exact cancelsTo_refl store.targets
  have hveto : (if vetoCapture then operation.veto tabId else operation).chatRecovery =
      operation.chatRecovery := by
    split
    · unfold RestartOperation.veto
      split <;> rfl
    · rfl
  split
  · rename_i hrecovery
    have hnone : store.targets = [] := by
      simp [targets, hoperation, ← hveto, hrecovery]
    rw [hnone]
    simp [targets, hrecovery]
  · rename_i recovery hrecovery
    have hsome : store.targets = recovery.targets := by
      simp [targets, hoperation, ← hveto, hrecovery]
    rw [hsome]
    exact cancelRows_cancels tabId expectedTurnId goalId recovery.targets

theorem assertClaim_ok (h : store.assertClaim backend operationId target now = .ok ()) :
    ∃ row ∈ store.targets, row.continuationId = target.continuationId ∧ row.state = .claimed := by
  unfold assertClaim at h
  split at h
  · contradiction
  rename_i operation recovery hfound
  split at h
  · contradiction
  split at h
  · rename_i hasserted
    obtain ⟨found, hoperation, hmap⟩ := Option.bind_eq_some_iff.mp hfound
    obtain ⟨held, hrecovery, hpair⟩ := Option.map_eq_some_iff.mp hmap
    obtain ⟨rfl, rfl⟩ := Prod.mk.inj hpair
    obtain ⟨row, hmem, hrow⟩ := List.any_eq_true.mp hasserted.2.2.2.2.2
    refine ⟨row, by simpa [targets, hoperation, hrecovery] using hmem, ?_⟩
    simp only [ChatContinuation.claimedBy, Bool.and_eq_true, decide_eq_true_eq] at hrow
    exact hrow.1
  · contradiction

theorem cancels_of_map {f : RestartOperation → RestartOperation}
    (hnext : next.operation = store.operation.map f)
    (h : ∀ operation, (f operation).chatRecovery = operation.chatRecovery) :
    List.Forall₂ CancelsTo store.targets next.targets := by
  have hsame : next.targets = store.targets := by
    unfold targets
    rw [hnext]
    cases store.operation with
    | none => rfl
    | some => simp [h]
  rw [hsame]
  exact cancelsTo_refl store.targets

end RestartState

theorem RestartAttempt.asserted {attempt : RestartAttempt} {store : RestartState} {now : Time}
    {found : ChatFindings}
    (h : (if attempt.phase.validates then attempt.validate store now found
      else attempt.validateIdentity store now found) = .ok ()) :
    store.assertClaim attempt.backend attempt.operationId attempt.target now = .ok () := by
  have hidentity : attempt.validateIdentity store now found = .ok () := by
    split at h
    · obtain ⟨_, hfirst, -⟩ := Except.bind_ok_iff.mp h
      exact hfirst
    · exact h
  obtain ⟨_, hasserted, -⟩ := Except.bind_ok_iff.mp hidentity
  exact hasserted

/-! ## What a step does -/

/-- No attempt holds its target that has not held it before. -/
def NoFurther (before after : List RestartAttempt) : Prop :=
  ∀ (i : Nat) (attempt : RestartAttempt), after[i]? = some attempt → attempt.phase.holds →
    before[i]? = some attempt

theorem noFurther_refl (attempts : List RestartAttempt) : NoFurther attempts attempts :=
  fun _ _ h _ => h

variable {attempts : List RestartAttempt}

theorem noFurther_set {i : Nat} {next : RestartAttempt} (h : next.phase.holds = false) :
    NoFurther attempts (attempts.set i next) := by
  intro j attempt hat hholds
  rw [List.getElem?_set] at hat
  split at hat
  · split at hat
    · cases hat
      simp [h] at hholds
    · contradiction
  · exact hat

theorem noFurther_append {attempts queued : List RestartAttempt}
    (h : ∀ attempt ∈ queued, attempt.phase.holds = false) :
    NoFurther attempts (attempts ++ queued) := by
  intro i attempt hat hholds
  rw [List.getElem?_append] at hat
  split at hat
  · exact hat
  · have hnone := h attempt (List.mem_of_getElem? hat)
    simp [hnone] at hholds

theorem noFurther_crash (attempts : List RestartAttempt) (backend : Backend) :
    NoFurther attempts (attempts.map fun attempt =>
      if attempt.backend = backend then { attempt with phase := .done } else attempt) := by
  intro i attempt hat hholds
  rw [List.getElem?_map] at hat
  obtain ⟨old, hold, heq⟩ := Option.map_eq_some_iff.mp hat
  split at heq
  · subst heq
    contradiction
  · exact heq ▸ hold

def claimCount (history : List RestartEvent) (id : ContinuationId) : Nat :=
  history.count (.claimed id)

def handOverCount (history : List RestartEvent) (id : ContinuationId) : Nat :=
  history.count (.handed id)

section

variable (history : List RestartEvent) (other id : ContinuationId)

theorem claimCount_claimed :
    claimCount (history ++ [.claimed other]) id =
      claimCount history id + if other = id then 1 else 0 := by
  simp [claimCount, List.count_append, List.count_singleton]

theorem claimCount_handed : claimCount (history ++ [.handed other]) id = claimCount history id := by
  simp [claimCount, List.count_append]

theorem handOverCount_claimed :
    handOverCount (history ++ [.claimed other]) id = handOverCount history id := by
  simp [handOverCount, List.count_append]

theorem handOverCount_handed :
    handOverCount (history ++ [.handed other]) id =
      handOverCount history id + if other = id then 1 else 0 := by
  simp [handOverCount, List.count_append, List.count_singleton]

end

def holding (attempts : List RestartAttempt) (id : ContinuationId) : Nat :=
  attempts.countP fun attempt => attempt.target.continuationId = id && attempt.phase.holds

theorem holding_noFurther {before after : List RestartAttempt} (h : NoFurther before after)
    (id : ContinuationId) : holding after id ≤ holding before id := by
  induction after generalizing before with
  | nil => exact Nat.zero_le _
  | cons attempt after ih =>
    have htail : holding after id ≤ holding before.tail id :=
      ih fun i later hat hholds => by
        have hsame := h (i + 1) later (by simpa using hat) hholds
        rwa [List.getElem?_tail]
    unfold holding at htail ⊢
    rw [List.countP_cons]
    split
    · rename_i hcounted
      simp only [Bool.and_eq_true] at hcounted
      have hhead := h 0 attempt rfl hcounted.2
      cases before with
      | nil => simp at hhead
      | cons first =>
        obtain rfl : first = attempt := by simpa using hhead
        rw [List.countP_cons_of_pos (by simpa using hcounted)]
        exact Nat.succ_le_succ htail
    · cases before with
      | nil => exact htail
      | cons =>
        rw [List.countP_cons]
        exact Nat.le_trans htail (Nat.le_add_right _ _)

theorem holding_set {i : Nat} {attempt : RestartAttempt} (phase : AttemptPhase)
    (h : attempts[i]? = some attempt) (id : ContinuationId) :
    holding (attempts.set i { attempt with phase }) id +
        (if attempt.target.continuationId = id && attempt.phase.holds then 1 else 0) =
      holding attempts id + if attempt.target.continuationId = id && phase.holds then 1 else 0 := by
  obtain ⟨hlt, hget⟩ := List.getElem?_eq_some_iff.mp h
  have hpos : (if attempt.target.continuationId = id && attempt.phase.holds then 1 else 0) ≤
      holding attempts id := by
    split
    · rename_i hcounted
      exact List.countP_pos_iff.mpr ⟨attempt, List.mem_of_getElem? h, by simpa using hcounted⟩
    · exact Nat.zero_le _
  unfold holding at hpos ⊢
  rw [List.countP_set hlt, hget]
  dsimp only
  omega

namespace RestartSystem

/-- What a step does to the mailbox, the attempts and the history. -/
inductive Stepped (system : RestartSystem) (op : RestartOp) : RestartSystem → Prop
  | quiet {store : RestartState} {calls : List (Option ContinuationCall)} {attempts : List RestartAttempt}
      (htargets : List.Forall₂ CancelsTo system.store.targets store.targets)
      (hattempts : NoFurther system.attempts attempts)
      (hrefused : ∀ i now found, op = .check i now found → ∀ attempt, attempts[i]? = some attempt →
        attempt.phase.holds = false) :
      Stepped system op { store, calls, attempts, history := system.history }
  | settled {store : RestartState} {calls : List (Option ContinuationCall)}
      {attempts : List RestartAttempt} {backend : Backend} {operationId : OperationId}
      {target : ChatContinuation} {state : TargetState} {reason : String}
      (hstate : state ≠ .pending ∧ state ≠ .claimed)
      (hchange : system.store.changeTarget backend operationId target state reason = some store)
      (hattempts : NoFurther system.attempts attempts) (hop : ∀ i now found, op ≠ .check i now found) :
      Stepped system op { store, calls, attempts, history := system.history }
  | expired {store : RestartState} {calls : List (Option ContinuationCall)} {backend : Backend}
      {operationId : OperationId} {target : ChatContinuation} {reason : String}
      (hchange : system.store.changeTarget backend operationId target .claimed reason = some store)
      (hop : ∀ i now found, op ≠ .check i now found) :
      Stepped system op {
        store, calls, attempts := system.attempts
        history := system.history ++ [.claimed target.continuationId] }
  | claimed {store : RestartState} {backend : Backend} {operationId : OperationId} {i : Nat}
      {attempt : RestartAttempt} {reason : String} (hop : op = .claim i)
      (hattempt : system.attempts[i]? = some attempt) (hqueued : attempt.phase = .queued)
      (hchange : system.store.changeTarget backend operationId attempt.target .claimed reason =
        some store) :
      Stepped system op {
        store, calls := system.calls
        attempts := system.attempts.set i { attempt with phase := .entered }
        history := system.history ++ [.claimed attempt.target.continuationId] }
  | checked {i : Nat} {now : Time} {found : ChatFindings} {attempt : RestartAttempt} {next : AttemptPhase}
      (hop : op = .check i now found) (hattempt : system.attempts[i]? = some attempt)
      (hnext : attempt.phase.next = some next)
      (hasserted : system.store.assertClaim attempt.backend attempt.operationId attempt.target now =
        .ok ()) :
      Stepped system op (system.setAttempt i { attempt with phase := next })
  | handed {i : Nat} {attempt : RestartAttempt} (hop : op = .handOver i)
      (hattempt : system.attempts[i]? = some attempt) (hready : attempt.phase = .ready) :
      Stepped system op { system.setAttempt i { attempt with phase := .handedOff } with
        history := system.history ++ [.handed attempt.target.continuationId] }

variable {system after : RestartSystem} {op : RestartOp}

theorem change_cases (system : RestartSystem) (backend : Backend) (operationId : OperationId)
    (target : ChatContinuation) (state : TargetState) (reason : String) :
    system.change backend operationId target state reason = (system, false) ∨
      ∃ store, system.store.changeTarget backend operationId target state reason = some store ∧
        system.change backend operationId target state reason =
          ({ system with
            store
            history :=
              if state = .claimed then system.history ++ [.claimed target.continuationId]
              else system.history }, true) := by
  unfold change
  split
  · exact .inl rfl
  · rename_i store hstore
    exact .inr ⟨store, hstore, rfl⟩

theorem step_stepped (h : system.step op = some after) : Stepped system op after := by
  cases op with
  | start =>
    cases h
    exact .quiet (cancelsTo_refl _) (noFurther_refl _) (by simp)
  | sweep =>
    obtain ⟨call, -, h⟩ := Option.bind_eq_some_iff.mp h
    unfold sweep at h
    split at h
    · rename_i target rest hstage
      cases h
      split
      · rcases system.change_cases call.backend call.operationId target .failed priorAttempt with
          hsame | ⟨store, hstore, hchange⟩
        · rw [hsame]
          exact .quiet (cancelsTo_refl _) (noFurther_refl _) (by simp)
        · rw [hchange]
          exact .settled (by simp) hstore (noFurther_refl _) (by simp)
      · exact .quiet (cancelsTo_refl _) (noFurther_refl _) (by simp)
    · split at h
      · cases h
        refine .quiet (cancelsTo_refl _) (noFurther_append fun attempt hattempt => ?_) (by simp)
        obtain ⟨target, -, rfl⟩ := List.mem_map.mp hattempt
        rfl
      · cases h
        exact .quiet (cancelsTo_refl _) (noFurther_refl _) (by simp)
    · contradiction
  | expire =>
    obtain ⟨call, -, h⟩ := Option.bind_eq_some_iff.mp h
    unfold expire at h
    split at h
    · cases h
      exact .quiet (cancelsTo_refl _) (noFurther_refl _) (by simp)
    · rename_i target rest hstage
      rcases system.change_cases call.backend call.operationId target .claimed "" with
        hsame | ⟨store, hstore, hchange⟩
      · rw [hsame] at h
        cases h
        exact .quiet (cancelsTo_refl _) (noFurther_refl _) (by simp)
      · rw [hchange] at h
        cases h
        exact .expired hstore (by simp)
    · rename_i target rest hstage
      rcases system.change_cases call.backend call.operationId target .failed recoveryExpired with
        hsame | ⟨store, hstore, hchange⟩
      · rw [hsame] at h
        cases h
        exact .quiet (cancelsTo_refl _) (noFurther_refl _) (by simp)
      · rw [hchange] at h
        cases h
        exact .settled (by simp) hstore (noFurther_refl _) (by simp)
    · contradiction
  | claim =>
    obtain ⟨attempt, hattempt, h⟩ := Option.bind_eq_some_iff.mp h
    unfold claim at h
    split at h
    · rename_i hfree
      rcases system.change_cases attempt.backend attempt.operationId attempt.target .claimed ""
        with hsame | ⟨store, hstore, hchange⟩
      · rw [hsame] at h
        cases h
        exact .quiet (cancelsTo_refl _) (noFurther_set rfl) (by simp)
      · rw [hchange] at h
        cases h
        exact .claimed rfl hattempt hfree.1 hstore
    · contradiction
  | check =>
    obtain ⟨attempt, hattempt, h⟩ := Option.bind_eq_some_iff.mp h
    obtain ⟨checked, hchecked, h⟩ := Option.bind_eq_some_iff.mp h
    cases h
    obtain ⟨next, hnext, rfl⟩ := Option.map_eq_some_iff.mp hchecked
    split
    · rename_i hpassed
      exact .checked rfl hattempt hnext (attempt.asserted hpassed)
    · refine .quiet (cancelsTo_refl _) (noFurther_set rfl) fun j now' found' heq other hother => ?_
      obtain ⟨rfl, -, -⟩ := RestartOp.check.inj heq
      rw [List.getElem?_set_self (List.getElem?_eq_some_iff.mp hattempt).1] at hother
      cases hother
      rfl
  | raise =>
    obtain ⟨attempt, hattempt, h⟩ := Option.bind_eq_some_iff.mp h
    split at h
    · cases h
      exact .quiet (cancelsTo_refl _) (noFurther_set rfl) (by simp)
    · contradiction
  | handOver =>
    obtain ⟨attempt, hattempt, h⟩ := Option.bind_eq_some_iff.mp h
    dsimp only at h
    split at h
    · rename_i hready
      cases h
      exact .handed rfl hattempt hready
    · contradiction
  | settle =>
    obtain ⟨attempt, hattempt, h⟩ := Option.bind_eq_some_iff.mp h
    unfold settle at h
    split at h
    · rcases system.change_cases attempt.backend attempt.operationId attempt.target .started ""
        with hsame | ⟨store, hstore, hchange⟩
      · rw [hsame] at h
        cases h
        exact .quiet (cancelsTo_refl _) (noFurther_set rfl) (by simp)
      · rw [hchange] at h
        cases h
        exact .settled (by simp) hstore (noFurther_set rfl) (by simp)
    · rename_i failure hphase
      rcases system.change_cases attempt.backend attempt.operationId attempt.target failure.state
        failure.reason with hsame | ⟨store, hstore, hchange⟩
      · rw [hsame] at h
        cases h
        exact .quiet (cancelsTo_refl _) (noFurther_set rfl) (by simp)
      · rw [hchange] at h
        cases h
        have hstate : failure.state ≠ .pending ∧ failure.state ≠ .claimed := by
          cases failure <;> simp [AttemptFailure.state]
        rw [if_neg hstate.2]
        exact .settled hstate hstore (noFurther_set rfl) (by simp)
    · contradiction
  | cancel =>
    cases h
    exact .quiet (RestartState.cancelPendingContinuation_cancels ..) (noFurther_refl _) (by simp)
  | crash =>
    cases h
    exact .quiet (cancelsTo_refl _) (noFurther_crash _ _) (by simp)
  | update =>
    cases h
    exact .quiet (RestartState.cancels_of_map rfl fun _ => rfl) (noFurther_refl _) (by simp)
  | launch =>
    cases h
    refine .quiet (RestartState.cancels_of_map rfl fun operation => ?_) (noFurther_refl _) (by simp)
    split <;> rfl

theorem move_to_pending {state : TargetState}
    (h : TargetMove state .pending) : state = .pending := by
  cases h with
  | same => rfl
  | settle h => exact absurd rfl h

variable {rows changed : List ChatContinuation}

theorem pending_moves {id : ContinuationId} {row : ChatContinuation}
    (h : List.Forall₂ RowMoves rows changed) (hrow : targetOf changed id = some row)
    (hpending : row.state = .pending) :
    ∃ old, targetOf rows id = some old ∧ old.state = .pending := by
  have hmoves := targetOf_moves h id
  rw [hrow] at hmoves
  cases hfound : targetOf rows id with
  | none => rw [hfound] at hmoves; cases hmoves
  | some old =>
    rw [hfound] at hmoves
    cases hmoves with
    | some hmove => exact ⟨old, rfl, move_to_pending (hpending ▸ hmove.state)⟩

/-- A target that is pending was never claimed, and one that was handed over or is held has
been claimed for it. -/
structure Once (system : RestartSystem) (id : ContinuationId) : Prop where
  first : ClaimedFirst system.store.targets
  claims : claimCount system.history id ≤ 1
  pending : ∀ row, targetOf system.store.targets id = some row → row.state = .pending →
    claimCount system.history id = 0
  held : holding system.attempts id + handOverCount system.history id ≤
    claimCount system.history id

theorem Once.quiet {id : ContinuationId} (h : system.Once id) {store : RestartState}
    {calls : List (Option ContinuationCall)} (hfirst : ClaimedFirst store.targets)
    (hmoves : List.Forall₂ RowMoves system.store.targets store.targets)
    (hattempts : NoFurther system.attempts attempts) :
    Once { store, calls, attempts, history := system.history } id where
  first := hfirst
  claims := h.claims
  pending := fun row hrow hpending => by
    obtain ⟨old, hold, hold'⟩ := pending_moves hmoves hrow hpending
    exact h.pending old hold hold'
  held := Nat.le_trans (Nat.add_le_add_right (holding_noFurther hattempts id) _) h.held

theorem Once.claimed {id : ContinuationId} (h : system.Once id) {store : RestartState}
    {backend : Backend} {operationId : OperationId} {target : ChatContinuation} {reason : String}
    (hchange : system.store.changeTarget backend operationId target .claimed reason = some store) :
    ClaimedFirst store.targets ∧
      claimCount (system.history ++ [.claimed target.continuationId]) id ≤ 1 ∧
      ∀ row, targetOf store.targets id = some row → row.state = .pending →
        claimCount (system.history ++ [.claimed target.continuationId]) id = 0 := by
  have hrows := RestartState.changeTarget_eq_some hchange
  obtain ⟨⟨row, next, hrow, hnext, hchanged⟩, hothers⟩ := changeRow_spec hrows
  obtain ⟨hpending, -, hclaimed⟩ := change_eq_some hnext
  refine ⟨changeRow_first hrows h.first, ?_⟩
  by_cases hid : target.continuationId = id
  · subst hid
    have hnone := h.pending row hrow hpending
    refine ⟨by simp [claimCount_claimed, hnone], fun found hfound hstate => ?_⟩
    cases hchanged.symm.trans hfound
    rw [hclaimed] at hstate
    contradiction
  · have hsame : claimCount (system.history ++ [.claimed target.continuationId]) id =
        claimCount system.history id := by
      simp [claimCount_claimed, hid]
    rw [hsame]
    refine ⟨h.claims, fun found hfound hstate => h.pending found ?_ hstate⟩
    rwa [hothers id fun heq => hid heq.symm] at hfound

theorem cancels_moves (h : List.Forall₂ CancelsTo rows changed) :
    List.Forall₂ RowMoves rows changed :=
  h.imp fun _ _ => CancelsTo.moves

theorem next_holds {phase next : AttemptPhase} (h : phase.next = some next) :
    phase.holds = true ∧ next.holds = true := by
  cases phase <;> simp [AttemptPhase.next] at h <;> subst h <;> exact ⟨rfl, rfl⟩

theorem Once.step {id : ContinuationId} (h : system.Once id) (hstep : system.step op = some after) :
    after.Once id := by
  cases step_stepped hstep with
  | quiet htargets hattempts =>
    exact h.quiet (cancels_first htargets h.first) (cancels_moves htargets) hattempts
  | settled hstate hchange hattempts =>
    have hrows := RestartState.changeTarget_eq_some hchange
    exact h.quiet (changeRow_first hrows h.first) (changeRow_moves hstate.1 hrows) hattempts
  | expired hchange =>
    obtain ⟨hfirst, hclaims, hpending⟩ := h.claimed hchange
    refine ⟨hfirst, hclaims, hpending, ?_⟩
    have hheld := h.held
    rw [claimCount_claimed, handOverCount_claimed]
    dsimp only
    omega
  | claimed hop hattempt hqueued hchange =>
    obtain ⟨hfirst, hclaims, hpending⟩ := h.claimed hchange
    refine ⟨hfirst, hclaims, hpending, ?_⟩
    have hheld := h.held
    have hset := holding_set .entered hattempt id
    simp only [hqueued, AttemptPhase.holds, Bool.and_false, Bool.false_eq_true, if_false,
      Bool.and_true, decide_eq_true_eq] at hset
    rw [claimCount_claimed, handOverCount_claimed]
    dsimp only
    omega
  | @checked i now found attempt next hop hattempt hnext hasserted =>
    obtain ⟨hholds, hnext⟩ := next_holds hnext
    refine ⟨h.first, h.claims, h.pending, ?_⟩
    have hset := holding_set next hattempt id
    rw [hholds, hnext] at hset
    have hheld := h.held
    change holding (system.attempts.set i _) id + handOverCount system.history id ≤
      claimCount system.history id
    omega
  | @handed i attempt hop hattempt hready =>
    refine ⟨h.first, ?_, ?_, ?_⟩
    · rw [claimCount_handed]
      exact h.claims
    · rw [claimCount_handed]
      exact h.pending
    · have hset := holding_set .handedOff hattempt id
      simp only [hready, AttemptPhase.holds, Bool.and_false, Bool.false_eq_true, if_false,
        Bool.and_true, decide_eq_true_eq] at hset
      have hheld := h.held
      rw [claimCount_handed, handOverCount_handed]
      change holding (system.attempts.set i _) id + _ ≤ _
      omega

theorem step_moves (hstep : system.step op = some after) :
    List.Forall₂ RowMoves system.store.targets after.store.targets := by
  cases step_stepped hstep with
  | quiet htargets => exact cancels_moves htargets
  | settled hstate hchange =>
    exact changeRow_moves hstate.1 (RestartState.changeTarget_eq_some hchange)
  | expired hchange =>
    exact changeRow_moves (by simp) (RestartState.changeTarget_eq_some hchange)
  | claimed hop hattempt hqueued hchange =>
    exact changeRow_moves (by simp) (RestartState.changeTarget_eq_some hchange)
  | checked => exact rowMoves_refl _
  | handed => exact rowMoves_refl _

/-! ## Cancelled targets -/

/-- The target of that id was skipped; an attempt that is about to hand it over has been so
since `start`, without another check. -/
structure Cancelled (start : RestartSystem) (id : ContinuationId) (past : List RestartOp)
    (system : RestartSystem) : Prop where
  first : ClaimedFirst system.store.targets
  skipped : ∃ row, targetOf system.store.targets id = some row ∧ row.state = .skipped
  ready : ∀ (i : Nat) (attempt : RestartAttempt), system.attempts[i]? = some attempt →
    attempt.target.continuationId = id → attempt.phase = .ready →
      start.attempts[i]? = some attempt ∧ ∀ now found, .check i now found ∉ past
  handed : handOverCount system.history id = handOverCount start.history id

variable {start : RestartSystem} {id : ContinuationId} {past : List RestartOp}

theorem skipped_moves (h : List.Forall₂ RowMoves rows changed)
    (hskipped : ∃ row, targetOf rows id = some row ∧ row.state = .skipped) :
    ∃ row, targetOf changed id = some row ∧ row.state = .skipped := by
  obtain ⟨row, hrow, hstate⟩ := hskipped
  have hmoves := targetOf_moves h id
  rw [hrow] at hmoves
  cases hfound : targetOf changed id with
  | none => rw [hfound] at hmoves; cases hmoves
  | some next =>
    rw [hfound] at hmoves
    cases hmoves with
    | some hmove =>
      refine ⟨next, rfl, ?_⟩
      have hstep := hmove.state
      rw [hstate] at hstep
      generalize next.state = state at hstep
      cases hstep with
      | same => rfl
      | stop h => simp at h

theorem changeTarget_first {store : RestartState} {backend : Backend} {operationId : OperationId}
    {target : ChatContinuation} {state : TargetState} {reason : String}
    (hchange : system.store.changeTarget backend operationId target state reason = some store)
    (hfirst : ClaimedFirst system.store.targets) : ClaimedFirst store.targets :=
  changeRow_first (RestartState.changeTarget_eq_some hchange) hfirst

theorem getElem?_set_cases {i j : Nat} {next attempt : RestartAttempt}
    (h : (attempts.set i next)[j]? = some attempt) :
    (i = j ∧ attempt = next) ∨ (i ≠ j ∧ attempts[j]? = some attempt) := by
  rw [List.getElem?_set] at h
  split at h
  · rename_i hsame
    split at h
    · exact .inl ⟨hsame, (Option.some.inj h).symm⟩
    · contradiction
  · exact .inr ⟨by assumption, h⟩

theorem Cancelled.ready_unchecked (h : Cancelled start id past system) {i : Nat}
    {attempt : RestartAttempt} (hop : ∀ now found, op ≠ .check i now found)
    (hat : system.attempts[i]? = some attempt) (hid : attempt.target.continuationId = id)
    (hready : attempt.phase = .ready) :
    start.attempts[i]? = some attempt ∧ ∀ now found, .check i now found ∉ past ++ [op] := by
  obtain ⟨hstart, hpast⟩ := h.ready i attempt hat hid hready
  refine ⟨hstart, fun now found hmem => ?_⟩
  rcases List.mem_append.mp hmem with hold | hnew
  · exact hpast now found hold
  · exact hop now found (List.mem_singleton.mp hnew).symm

theorem Cancelled.ready_kept (h : Cancelled start id past system)
    (hattempts : NoFurther system.attempts attempts)
    (hrefused : ∀ i now found, op = .check i now found → ∀ attempt, attempts[i]? = some attempt →
      attempt.phase.holds = false) (i : Nat) (attempt : RestartAttempt)
    (hat : attempts[i]? = some attempt) (hid : attempt.target.continuationId = id)
    (hready : attempt.phase = .ready) :
    start.attempts[i]? = some attempt ∧ ∀ now found, .check i now found ∉ past ++ [op] := by
  have hholds : attempt.phase.holds = true := by
    rw [hready]
    rfl
  refine h.ready_unchecked (fun now found heq => ?_) (hattempts i attempt hat hholds) hid hready
  have hnot := hrefused i now found heq attempt hat
  simp [hnot] at hholds

theorem Cancelled.step (h : Cancelled start id past system) (hstep : system.step op = some after)
    (hlast : ∀ i attempt, op = .handOver i → start.attempts[i]? = some attempt →
      attempt.target.continuationId = id → attempt.phase = .ready →
        ∃ now found, .check i now found ∈ past) :
    Cancelled start id (past ++ [op]) after := by
  have hskipped := skipped_moves (step_moves hstep) h.skipped
  cases step_stepped hstep with
  | quiet htargets hattempts hrefused =>
    exact ⟨cancels_first htargets h.first, hskipped, h.ready_kept hattempts hrefused, h.handed⟩
  | settled hstate hchange hattempts hop =>
    exact ⟨changeTarget_first hchange h.first, hskipped,
      h.ready_kept hattempts fun i now found heq => absurd heq (hop i now found), h.handed⟩
  | expired hchange hop =>
    refine ⟨changeTarget_first hchange h.first, hskipped,
      h.ready_kept (noFurther_refl _) fun i now found heq => absurd heq (hop i now found), ?_⟩
    rw [handOverCount_claimed]
    exact h.handed
  | @claimed store backend operationId i attempt reason hop hattempt hqueued hchange =>
    refine ⟨changeTarget_first hchange h.first, hskipped, fun j other hat hid hready => ?_, ?_⟩
    · rcases getElem?_set_cases hat with ⟨-, rfl⟩ | ⟨-, hat⟩
      · contradiction
      · exact h.ready_unchecked (by simp [hop]) hat hid hready
    · rw [handOverCount_claimed]
      exact h.handed
  | @checked i now found attempt next hop hattempt hnext hasserted =>
    refine ⟨h.first, hskipped, fun j other hat hid hready => ?_, h.handed⟩
    rcases getElem?_set_cases hat with ⟨-, rfl⟩ | ⟨hne, hat⟩
    · obtain ⟨row, hmem, hrow, hclaimed⟩ := RestartState.assertClaim_ok hasserted
      obtain ⟨target, htarget, hstate⟩ := h.skipped
      have hfound := targetOf_claimed h.first hmem hclaimed
      rw [hrow, show attempt.target.continuationId = id from hid, htarget] at hfound
      cases hfound
      rw [hstate] at hclaimed
      contradiction
    · exact h.ready_unchecked (by simp [hop, hne]) hat hid hready
  | @handed i attempt hop hattempt hready =>
    have hother : attempt.target.continuationId ≠ id := fun hid => by
      obtain ⟨hstart, hpast⟩ := h.ready i attempt hattempt hid hready
      obtain ⟨now, found, hchecked⟩ := hlast i attempt hop hstart hid hready
      exact hpast now found hchecked
    refine ⟨h.first, hskipped, h.ready_kept (noFurther_set rfl) (by simp [hop]), ?_⟩
    rw [handOverCount_handed, if_neg hother]
    exact h.handed

/-- Every hand-over of the target in these steps comes behind another check of its attempt. -/
def CheckedBefore (start : RestartSystem) (id : ContinuationId) (past rest : List RestartOp) :
    Prop :=
  ∀ before i behind attempt, rest = before ++ .handOver i :: behind →
    start.attempts[i]? = some attempt → attempt.target.continuationId = id →
      attempt.phase = .ready → ∃ now found, .check i now found ∈ past ++ before

theorem Cancelled.run {rest : List RestartOp} {last : RestartSystem}
    (h : Cancelled start id past system)
    (hrun : Run RestartSystem.step (fun _ _ => True) system rest last)
    (hlast : CheckedBefore start id past rest) :
    handOverCount last.history id = handOverCount start.history id := by
  induction hrun generalizing past with
  | nil => exact h.handed
  | @cons system middle last op rest hok hstep hrest ih =>
    refine ih (h.step hstep fun i attempt hop hat hid hready => ?_) ?_
    · obtain ⟨now, found, hmem⟩ := hlast [] i rest attempt (by rw [hop]; rfl) hat hid hready
      exact ⟨now, found, by simpa using hmem⟩
    · intro before i behind attempt heq hat hid hready
      obtain ⟨now, found, hmem⟩ := hlast (op :: before) i behind attempt (by rw [heq]; rfl) hat
        hid hready
      exact ⟨now, found, by simpa using hmem⟩

/-- A captured operation that no backend has looked at. -/
structure Captured (system : RestartSystem) : Prop where
  pending : ∀ row ∈ system.store.targets, row.state = .pending
  calls : system.calls = []
  attempts : system.attempts = []
  history : system.history = []

theorem once_start (h : start.Captured) (id : ContinuationId) : start.Once id where
  first := by
    refine List.pairwise_of_forall_mem_list fun row _ later hlater _ => ?_
    simp [h.pending later hlater]
  claims := by simp [h.history, claimCount]
  pending := fun row _ _ => by simp [h.history, claimCount]
  held := by simp [h.history, h.attempts, claimCount, handOverCount, holding]

end RestartSystem

/-- Over every run of any number of backends on a captured operation no target is claimed or handed
over twice, and one that is skipped before the last check of its attempt is not handed over. -/
theorem continued_at_most_once {start after : RestartSystem} {ops : List RestartOp}
    (hcaptured : start.Captured)
    (hrun : Run RestartSystem.step (fun _ _ => True) start ops after) :
    (∀ id, claimCount after.history id ≤ 1 ∧ handOverCount after.history id ≤ 1) ∧
      (∀ op next, after.step op = some next →
        List.Forall₂ RowMoves after.store.targets next.store.targets) ∧
      ∀ id row rest last, targetOf after.store.targets id = some row → row.state = .skipped →
        Run RestartSystem.step (fun _ _ => True) after rest last →
          RestartSystem.CheckedBefore after id [] rest →
            handOverCount last.history id = handOverCount after.history id := by
  have honce : ∀ id, after.Once id := fun id =>
    hrun.invariant (P := fun s => s.Once id) (RestartSystem.once_start hcaptured id)
      fun s op t h _ hstep => h.step hstep
  refine ⟨fun id => ?_, fun op next hstep => RestartSystem.step_moves hstep, ?_⟩
  · have hheld := (honce id).held
    have hclaims := (honce id).claims
    exact ⟨hclaims, by omega⟩
  · intro id row rest last hrow hskipped hrest hchecked
    have hcancelled : RestartSystem.Cancelled after id [] after :=
      ⟨(honce id).first, ⟨row, hrow, hskipped⟩, fun i attempt hat _ _ => ⟨hat, by simp⟩, rfl⟩
    exact hcancelled.run hrest hchecked

private def firstTarget : ChatContinuation where
  tabId := "tab-1"
  turnId := "turn-1"
  continuationId := "30030956-377c-5246-bdc3-94069bac6e59"

private def secondTarget : ChatContinuation where
  tabId := "tab-2"
  turnId := "turn-2"
  continuationId := "f6d3df51-8e45-5df3-bc97-6ba529b941a0"

private def capturedRestart : RestartSystem where
  store := {
    launcherId := some "launcher"
    operation := some {
      id := "restart-7"
      instanceId := "before"
      status := .restarting
      resumeRunningChats := true
      chatRecovery := some {
        launcherId := "launcher", capturedAt := 0, targets := [firstTarget, secondTarget] } } }

private def laterBackend : Backend := ⟨"after", some "launcher"⟩

private def resumedThenStopped : List RestartOp :=
  [.start laterBackend, .sweep 0 1, .sweep 0 1, .sweep 0 1, .claim 0, .claim 1,
   .check 0 2 {}, .check 0 2 {}, .check 0 2 {}, .check 0 2 {}, .check 0 2 {}, .handOver 0,
   .settle 0, .check 1 2 {}, .cancel laterBackend "tab-2" none none false]

theorem continued_at_most_once_stopped :
    ∃ after last, Run RestartSystem.step (fun _ _ => True) capturedRestart resumedThenStopped after ∧
      handOverCount after.history firstTarget.continuationId = 1 ∧
      claimCount after.history secondTarget.continuationId = 1 ∧
      Run RestartSystem.step (fun _ _ => True) after [.check 1 3 {}, .settle 1] last ∧
      handOverCount last.history secondTarget.continuationId =
        handOverCount after.history secondTarget.continuationId := by
  have hruns : ((execOk RestartSystem.step (fun _ _ => True) capturedRestart
      resumedThenStopped).bind fun after =>
        (execOk RestartSystem.step (fun _ _ => True) after [.check 1 3 {}, .settle 1]).map fun _ =>
          ((handOverCount after.history firstTarget.continuationId,
            claimCount after.history secondTarget.continuationId),
            (targetOf after.store.targets secondTarget.continuationId).map
              ChatContinuation.state)) = some ((1, 1), some .skipped) := by
    decide +kernel
  obtain ⟨after, hafter, hrest⟩ := Option.bind_eq_some_iff.mp hruns
  obtain ⟨last, hlast, hfound⟩ := Option.map_eq_some_iff.mp hrest
  obtain ⟨hcounts, hstate⟩ := Prod.mk.inj hfound
  obtain ⟨hhanded, hclaimed⟩ := Prod.mk.inj hcounts
  obtain ⟨row, hrow, hskipped⟩ := Option.map_eq_some_iff.mp hstate
  have hcaptured : capturedRestart.Captured := ⟨by decide, rfl, rfl, rfl⟩
  have hrun := Run.of_execOk hafter
  obtain ⟨-, -, hstopped⟩ := continued_at_most_once hcaptured hrun
  refine ⟨after, last, hrun, hhanded, hclaimed, Run.of_execOk hlast,
    hstopped _ row _ last hrow hskipped (Run.of_execOk hlast) ?_⟩
  intro before i behind attempt heq
  have hmem : RestartOp.handOver i ∈ [RestartOp.check 1 3 {}, .settle 1] := by
    rw [heq]
    simp
  simp at hmem

/-- In the same runs no two backends hold a target at one time, none holds one that was handed
over, and a target that is still pending was never claimed. -/
theorem targets_held_at_most_once {start after : RestartSystem} {ops : List RestartOp}
    (hcaptured : start.Captured)
    (hrun : Run RestartSystem.step (fun _ _ => True) start ops after) (id : ContinuationId) :
    holding after.attempts id + handOverCount after.history id ≤ 1 ∧
      ∀ row, targetOf after.store.targets id = some row → row.state = .pending →
        claimCount after.history id = 0 ∧ holding after.attempts id = 0 := by
  have honce := hrun.invariant (P := fun s => s.Once id) (RestartSystem.once_start hcaptured id)
    fun s op t h _ hstep => h.step hstep
  have hheld := honce.held
  have hclaims := honce.claims
  refine ⟨by omega, fun row hrow hpending => ?_⟩
  have hnone := honce.pending row hrow hpending
  omega

theorem targets_held_at_most_once_stopped :
    ∃ after, Run RestartSystem.step (fun _ _ => True) capturedRestart resumedThenStopped after ∧
      holding after.attempts firstTarget.continuationId +
        handOverCount after.history firstTarget.continuationId ≤ 1 := by
  obtain ⟨after, hafter⟩ := Option.isSome_iff_exists.mp
    (by decide +kernel : (execOk RestartSystem.step (fun _ _ => True) capturedRestart
      resumedThenStopped).isSome)
  have hcaptured : capturedRestart.Captured := ⟨by decide, rfl, rfl, rfl⟩
  exact ⟨after, Run.of_execOk hafter, (targets_held_at_most_once hcaptured (Run.of_execOk hafter) _).1⟩

end ClaudeHub
