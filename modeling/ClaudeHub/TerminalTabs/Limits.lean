import ClaudeHub.TerminalTabs.Creation

/-! # The limits on tabs and forks

Between the check of a limit and the write that counts towards it other calls run. The limits
hold in the runs whose counting writes still find room, and no failed fork leaves its tab where
none is cancelled after its creation and every cleanup commits.
-/

namespace ClaudeHub

open StepSystem

namespace TabManager

structure WithinLimits (manager : TabManager) : Prop where
  total : manager.live ≤ manager.settings.maxTotalTabs
  forks : ∀ source, manager.countForks source ≤ manager.settings.maxForksPerTab
  clean : manager.orphans = []

/-- A write that counts towards a limit finds room for it, and no fork raises while its tab is
there. -/
def StepSafe (manager : TabManager) : TabOp → Prop
  | .serviceFound call _ =>
    match manager.calls.lookup call with
    | some (.discovering _ true) => manager.live < manager.settings.maxTotalTabs
    | _ => True
  | .started _ => manager.live < manager.settings.maxTotalTabs
  | .historyCopied call =>
    match manager.calls.lookup call with
    | some (.forkCopying source _ _) =>
      manager.countForks source < manager.settings.maxForksPerTab
    | _ => True
  | .cancelled call =>
    match manager.calls.lookup call with
    | some (.forkCopying _ _ tabId) => manager.processes.lookup tabId = none
    | _ => True
  | .cleaned call false =>
    match manager.calls.lookup call with
    | some (.forkCleaning tabId) => manager.processes.lookup tabId = none
    | _ => True
  | _ => True

instance (manager : TabManager) (op : TabOp) : Decidable (manager.StepSafe op) := by
  unfold StepSafe
  split <;> (try split) <;> infer_instance

variable {manager next : TabManager} {call : Nat} {tabId : TabId}

theorem WithinLimits.standAt (h : manager.WithinLimits) (call : Nat) (phase : TabCall) :
    (manager.standAt call phase).WithinLimits :=
  ⟨h.total, h.forks, h.clean⟩

theorem WithinLimits.ended (h : manager.WithinLimits) (call : Nat) :
    (manager.ended call).WithinLimits :=
  ⟨h.total, h.forks, h.clean⟩

theorem WithinLimits.rewrite (h : manager.WithinLimits) {old process : TabRecord}
    (hold : manager.processes.lookup tabId = some old)
    (hlive : process.archived = false → old.archived = false)
    (hfork : ∀ source, process.forkedFromTabId = some source →
      old.forkedFromTabId = some source ∨
        manager.countForks source < manager.settings.maxForksPerTab) :
    ({ manager with processes := manager.processes.set tabId process } :
      TabManager).WithinLimits := by
  have hget : manager.processes.get? tabId = some (tabId, old) :=
    Table.get?_eq_some.mpr ⟨Dict.lookup_eq_some.mp hold, rfl⟩
  refine ⟨?_, fun source => ?_, h.clean⟩
  · apply Nat.le_trans _ h.total
    apply Table.countP_insert_of_get? (r := (tabId, process)) hget
    simpa using hlive
  · by_cases hsource : process.forkedFromTabId = some source
    · rcases hfork source hsource with hsame | hroom
      · apply Nat.le_trans _ (h.forks source)
        apply Table.countP_insert_of_get? (r := (tabId, process)) hget
        simp [hsame]
      · have hle := Table.countP_insert_le manager.processes (tabId, process)
          (fun entry => entry.2.forkedFromTabId = some source)
        exact Nat.le_trans hle hroom
    · apply Nat.le_trans _ (h.forks source)
      exact Table.countP_insert_of_not manager.processes (by simpa using hsource)

theorem WithinLimits.register (h : manager.WithinLimits)
    (hroom : manager.live < manager.settings.maxTotalTabs) (call : Nat) (purpose : CreatePurpose)
    (tabId : TabId) : (manager.register call purpose tabId).WithinLimits := by
  have hset : ({ manager with processes := manager.processes.set tabId {} } :
      TabManager).WithinLimits := by
    refine ⟨?_, fun source => ?_, h.clean⟩
    · exact Nat.le_trans (Table.countP_insert_le manager.processes (tabId, {}) _) hroom
    · apply Nat.le_trans _ (h.forks source)
      exact Table.countP_insert_of_not manager.processes (by simp)
  cases purpose with
  | tab => exact hset.ended call
  | fork => exact hset.standAt call _

variable {purpose : CreatePurpose}

theorem WithinLimits.allocate (h : manager.WithinLimits) {managedChat : Bool}
    (hroom : managedChat = true → manager.live < manager.settings.maxTotalTabs)
    (hstep : manager.allocate call purpose managedChat tabId = some next) : next.WithinLimits := by
  unfold TabManager.allocate at hstep
  split at hstep
  · cases hstep
    split
    next hchat => exact h.register (hroom hchat) call purpose tabId
    · exact h.standAt call _
  · contradiction

theorem WithinLimits.create (h : manager.WithinLimits) {request : CreateRequest}
    (hstep : manager.create call purpose request tabId = some next) :
    next.WithinLimits := by
  unfold TabManager.create at hstep
  split at hstep
  · cases hstep
    exact h.ended call
  · next hpassed =>
      split at hstep
      · cases hstep
        exact h.standAt call _
      · apply h.allocate (fun _ => ?_) hstep
        have hcapacity : manager.hasCapacity = true := by
          cases hc : manager.hasCapacity <;> simp_all
        simpa [hasCapacity] using hcapacity

theorem WithinLimits.retire (h : manager.WithinLimits) (tabId : TabId) :
    (manager.retire tabId).WithinLimits := by
  unfold TabManager.retire
  split
  · exact ⟨Nat.le_trans (Table.countP_erase_le ..) h.total,
      fun source => Nat.le_trans (Table.countP_erase_le ..) (h.forks source), h.clean⟩
  · exact h

theorem lookup_retire (manager : TabManager) (tabId : TabId) :
    (manager.retire tabId).processes.lookup tabId = none := by
  unfold TabManager.retire
  split
  · simp [Dict.lookup_erase]
  next habsent => simpa using habsent

theorem WithinLimits.forkRaises (h : manager.WithinLimits)
    (hgone : manager.processes.lookup tabId = none) (call : Nat) :
    (manager.forkRaises call tabId).WithinLimits := by
  have hended : (manager.ended call).processes.lookup tabId = none := hgone
  unfold TabManager.forkRaises
  simp only [hended]
  exact h.ended call

theorem WithinLimits.recordProvenance (h : manager.WithinLimits) {source : TabId}
    (hroom : manager.countForks source < manager.settings.maxForksPerTab) (call : Nat)
    (ordinal : Int) (tabId : TabId) :
    (manager.recordProvenance call source ordinal tabId).WithinLimits := by
  unfold TabManager.recordProvenance
  split
  · exact h.standAt call _
  next process hprocess =>
    apply WithinLimits.ended
    apply h.rewrite hprocess
    · exact fun hlive => hlive
    · intro origin horigin
      obtain rfl : source = origin := by simpa using horigin
      exact .inr hroom

/-! ## Steps and runs -/

theorem WithinLimits.step (h : manager.WithinLimits) {op : TabOp} (hok : manager.StepSafe op)
    (hstep : manager.step op = some next) : next.WithinLimits := by
  cases op with
    simp only [TabManager.step] at hstep
  | createTab =>
    split at hstep
    · exact h.create hstep
    · contradiction
  | duplicateTab =>
    split at hstep
    · split at hstep
      · cases hstep
        exact h
      · exact h.create hstep
    · contradiction
  | forkTab call =>
    split at hstep
    · split at hstep
      · cases hstep
        exact h
      · cases hstep
        exact h.standAt call _
    · contradiction
  | lockAcquired call =>
    split at hstep
    · split at hstep
      · contradiction
      · split at hstep
        · cases hstep
          exact h.ended call
        · cases hstep
          exact h.standAt call _
    · contradiction
  | historyRead call =>
    split at hstep
    · split at hstep
      · cases hstep
        exact h.ended call
      · exact h.create hstep
    · contradiction
  | serviceFound =>
    split at hstep
    next purpose managedChat hphase =>
      refine h.allocate (fun hchat => ?_) hstep
      subst hchat
      simpa [StepSafe, hphase] using hok
    · contradiction
  | started call =>
    split at hstep
    · cases hstep
      exact h.register hok call _ _
    · contradiction
  | raises call =>
    split at hstep
    · contradiction
    · contradiction
    · cases hstep
      exact h.standAt call _
    · cases hstep
      exact h.ended call
  | cancelled call =>
    split at hstep
    · contradiction
    · contradiction
    next source ordinal tabId hphase =>
      cases hstep
      have hgone : manager.processes.lookup tabId = none := by
        simpa [StepSafe, hphase] using hok
      exact h.forkRaises hgone call
    · cases hstep
      exact h.ended call
  | historyCopied call =>
    split at hstep
    next source ordinal tabId hphase =>
      cases hstep
      have hroom : manager.countForks source < manager.settings.maxForksPerTab := by
        simpa [StepSafe, hphase] using hok
      exact h.recordProvenance hroom call ordinal tabId
    · contradiction
  | cleaned call committed =>
    split at hstep
    next tabId hphase =>
      cases hstep
      cases committed with
      | true => exact (h.retire tabId).forkRaises (manager.lookup_retire tabId) call
      | false =>
        have hgone : manager.processes.lookup tabId = none := by
          simpa [StepSafe, hphase] using hok
        exact h.forkRaises hgone call
    · contradiction
  | deleteTab tabId =>
    cases hstep
    exact h.retire tabId
  | artifactsRemoved =>
    cases hstep
    exact ⟨h.total, h.forks, h.clean⟩
  | archiveTab =>
    split at hstep
    · cases hstep
      exact h
    next process hprocess =>
      cases hstep
      exact h.rewrite hprocess (by simp) fun source hsource => .inl hsource
  | unarchiveTab tabId =>
    split at hstep
    · cases hstep
      exact h
    next process hprocess =>
      split at hstep
      · split at hstep
        next hcapacity =>
          cases hstep
          refine ⟨?_, fun source => ?_, h.clean⟩
          · have hroom : manager.live < manager.settings.maxTotalTabs := by
              simpa [hasCapacity] using hcapacity
            exact Nat.le_trans (Table.countP_insert_le manager.processes _ _) hroom
          · have hget : manager.processes.get? tabId = some (tabId, process) :=
              Table.get?_eq_some.mpr ⟨Dict.lookup_eq_some.mp hprocess, rfl⟩
            apply Nat.le_trans _ (h.forks source)
            exact Table.countP_insert_of_get? hget id
        · cases hstep
          exact h
      · cases hstep
        exact h

def tabOf (manager : TabManager) : TabOp → Option TabId
  | .createTab _ _ tabId | .duplicateTab _ _ _ tabId | .historyRead _ _ _ tabId
  | .serviceFound _ tabId | .deleteTab tabId | .archiveTab tabId | .unarchiveTab tabId =>
    some tabId
  | .started call =>
    match manager.calls.lookup call with
    | some (.starting _ tabId) => some tabId
    | _ => none
  | .historyCopied call =>
    match manager.calls.lookup call with
    | some (.forkCopying _ _ tabId) => some tabId
    | _ => none
  | .cleaned call _ =>
    match manager.calls.lookup call with
    | some (.forkCleaning tabId) => some tabId
    | _ => none
  | _ => none

/-- All tabs but one are as they were. -/
def KeepsOthers (manager next : TabManager) (changed : Option TabId) : Prop :=
  ∀ tabId, changed ≠ some tabId → next.processes.lookup tabId = manager.processes.lookup tabId

theorem KeepsOthers.same (h : next.processes = manager.processes) (changed : Option TabId) :
    manager.KeepsOthers next changed := fun tabId _ => by rw [h]

theorem keepsOthers_set {process : TabRecord}
    (h : next.processes = manager.processes.set tabId process) :
    manager.KeepsOthers next (some tabId) := by
  intro other hother
  rw [h, Dict.lookup_set, if_neg]
  rintro rfl
  exact hother rfl

theorem keepsOthers_register (manager : TabManager) (call : Nat) (purpose : CreatePurpose)
    (tabId : TabId) : manager.KeepsOthers (manager.register call purpose tabId) (some tabId) := by
  cases purpose <;> exact keepsOthers_set rfl

theorem keepsOthers_allocate {managedChat : Bool}
    (hstep : manager.allocate call purpose managedChat tabId = some next) :
    manager.KeepsOthers next (some tabId) := by
  unfold TabManager.allocate at hstep
  split at hstep
  · cases hstep
    split
    · exact manager.keepsOthers_register call purpose tabId
    · exact .same rfl _
  · contradiction

theorem keepsOthers_create {request : CreateRequest}
    (hstep : manager.create call purpose request tabId = some next) :
    manager.KeepsOthers next (some tabId) := by
  unfold TabManager.create at hstep
  split at hstep
  · cases hstep
    exact .same rfl _
  · split at hstep
    · cases hstep
      exact .same rfl _
    · exact keepsOthers_allocate hstep

theorem keepsOthers_retire (manager : TabManager) (tabId : TabId) :
    manager.KeepsOthers (manager.retire tabId) (some tabId) := by
  unfold TabManager.retire
  split
  · intro other hother
    rw [Dict.lookup_erase, if_neg]
    rintro rfl
    exact hother rfl
  · exact .same rfl _

theorem processes_forkRaises (manager : TabManager) (call : Nat) (tabId : TabId) :
    (manager.forkRaises call tabId).processes = manager.processes := by
  unfold TabManager.forkRaises
  dsimp only
  split <;> rfl

theorem keepsOthers_recordProvenance (manager : TabManager) (call : Nat) (source : TabId)
    (ordinal : Int) (tabId : TabId) :
    manager.KeepsOthers (manager.recordProvenance call source ordinal tabId) (some tabId) := by
  unfold TabManager.recordProvenance
  split
  · exact .same rfl _
  · exact keepsOthers_set rfl

theorem step_keepsOthers {op : TabOp} (hstep : manager.step op = some next) :
    manager.KeepsOthers next (manager.tabOf op) := by
  cases op with
    simp only [TabManager.step] at hstep
  | createTab =>
    split at hstep
    · exact keepsOthers_create hstep
    · contradiction
  | duplicateTab =>
    split at hstep
    · split at hstep
      · cases hstep
        exact .same rfl _
      · exact keepsOthers_create hstep
    · contradiction
  | forkTab =>
    split at hstep
    · split at hstep <;> obtain rfl := Option.some.inj hstep <;> exact .same rfl _
    · contradiction
  | lockAcquired =>
    split at hstep
    · split at hstep
      · contradiction
      · split at hstep <;> obtain rfl := Option.some.inj hstep <;> exact .same rfl _
    · contradiction
  | historyRead =>
    split at hstep
    · split at hstep
      · cases hstep
        exact .same rfl _
      · exact keepsOthers_create hstep
    · contradiction
  | serviceFound =>
    split at hstep
    · exact keepsOthers_allocate hstep
    · contradiction
  | started call =>
    split at hstep
    next purpose tabId hphase =>
      cases hstep
      have htab : manager.tabOf (.started call) = some tabId := by simp only [tabOf, hphase]
      rw [htab]
      exact manager.keepsOthers_register call purpose tabId
    · contradiction
  | raises =>
    split at hstep
    · contradiction
    · contradiction
    · cases hstep
      exact .same rfl _
    · cases hstep
      exact .same rfl _
  | cancelled call =>
    split at hstep
    · contradiction
    · contradiction
    · cases hstep
      exact .same (manager.processes_forkRaises call _) _
    · cases hstep
      exact .same rfl _
  | historyCopied call =>
    split at hstep
    next source ordinal tabId hphase =>
      cases hstep
      have htab : manager.tabOf (.historyCopied call) = some tabId := by simp only [tabOf, hphase]
      rw [htab]
      exact manager.keepsOthers_recordProvenance call source ordinal tabId
    · contradiction
  | cleaned call committed =>
    split at hstep
    next tabId hphase =>
      cases hstep
      have htab : manager.tabOf (.cleaned call committed) = some tabId := by simp only [tabOf, hphase]
      rw [htab]
      cases committed with
      | true =>
        intro other hother
        rw [processes_forkRaises]
        exact manager.keepsOthers_retire tabId other hother
      | false => exact .same (manager.processes_forkRaises call tabId) _
    · contradiction
  | deleteTab tabId =>
    cases hstep
    exact manager.keepsOthers_retire tabId
  | artifactsRemoved =>
    cases hstep
    exact .same rfl _
  | archiveTab =>
    split at hstep
    · cases hstep
      exact .same rfl _
    · cases hstep
      exact keepsOthers_set rfl
  | unarchiveTab =>
    split at hstep
    · cases hstep
      exact .same rfl _
    · split at hstep
      · split at hstep
        · cases hstep
          exact keepsOthers_set rfl
        · cases hstep
          exact .same rfl _
      · cases hstep
        exact .same rfl _

/-- The limits hold in every run whose counting writes find room, in which no fork is cancelled
behind its creation and every cleanup of a failed one commits. -/
theorem tab_limits_hold {start final : TabManager} {ops : List TabOp}
    (hstart : start.WithinLimits) (hrun : Run TabManager.step StepSafe start ops final) :
    final.WithinLimits ∧
      ∀ op next, final.step op = some next → final.KeepsOthers next (final.tabOf op) :=
  ⟨hrun.invariant hstart fun _ _ _ hlimits hok hstep => hlimits.step hok hstep,
    fun _ _ => step_keepsOthers⟩

private def oneTab (settings : TabSettings) : TabManager where
  settings := settings
  processes := Dict.set Table.empty "source" {}

private theorem oneTab_withinLimits {settings : TabSettings}
    (htotal : 1 ≤ settings.maxTotalTabs) : (oneTab settings).WithinLimits := by
  refine ⟨htotal, fun source => ?_, rfl⟩
  have hnone : (oneTab settings).countForks source = 0 := by
    simp [countForks, oneTab, Dict.set, Table.insert]
  rw [hnone]
  exact Nat.zero_le _

private def forkOps (call : Nat) (tabId : TabId) : List TabOp :=
  [.forkTab call "source" 0, .lockAcquired call, .historyRead call 1 {} tabId, .started call]

theorem tab_limits_hold_forked : ∃ final,
    exec TabManager.step (oneTab {}) (forkOps 1 "fork" ++ [.historyCopied 1]) = some final ∧
      final.WithinLimits := by
  have hsome : (execOk TabManager.step StepSafe (oneTab {})
      (forkOps 1 "fork" ++ [.historyCopied 1])).isSome = true := by
    decide +kernel
  obtain ⟨final, hfinal⟩ := Option.isSome_iff_exists.mp hsome
  have hrun := Run.of_execOk hfinal
  exact ⟨final, hrun.exec_eq, (tab_limits_hold (oneTab_withinLimits (by decide)) hrun).1⟩

/-- Two tabs start while there is room for one, two forks of a source with room for one are
copied at once, and a fork that is cancelled while it copies stays. -/
theorem tab_limits_overrun :
    (∃ final, exec TabManager.step (oneTab { maxTotalTabs := 2 })
        [.createTab 1 {} "a", .createTab 2 {} "b", .started 1, .started 2] = some final ∧
      final.settings.maxTotalTabs < final.live) ∧
    (∃ final, exec TabManager.step (oneTab { maxForksPerTab := 1 })
        (forkOps 1 "a" ++ forkOps 2 "b" ++ [.historyCopied 1, .historyCopied 2]) = some final ∧
      final.settings.maxForksPerTab < final.countForks "source") ∧
    ∃ final, exec TabManager.step (oneTab {}) (forkOps 1 "a" ++ [.cancelled 1]) = some final ∧
      final.orphans = ["a"] := by
  refine ⟨?_, ?_, ?_⟩
  · apply exists_exec_of_any
    decide +kernel
  · apply exists_exec_of_any
    decide +kernel
  · apply exists_exec_of_any
    decide +kernel

end TabManager

end ClaudeHub
