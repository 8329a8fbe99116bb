import ClaudeHub.TerminalTabs.Retirement

/-! # Obligations of retired tabs

What holds of memory at every await, and what the file says about it. A write of the snapshot
carries the obligations that memory has, so they are in the file whenever memory has taken them
on, and they are confirmed before anything is removed.
-/

namespace ClaudeHub

open StepSystem

namespace TabRetirement

def draws : RetireCall → Option TabId
  | .starting tabId => some tabId
  | _ => none

def captures : RetireCall → Option (TabId × TabProcess)
  | .fencing tabId captured | .fenced tabId captured | .stopping tabId captured =>
    some (tabId, captured)
  | _ => none

/-- The calls beside one of them, as far as a condition on their phases goes. -/
def Others (tabs : TabRetirement) (call : Nat) (p : RetireCall → Prop) : Prop :=
  ∀ other phase, other ≠ call → tabs.calls.lookup other = some phase → p phase

/-- What holds of memory. -/
structure Memory (tabs : TabRetirement) : Prop where
  disjoint : ∀ tabId process record, tabs.processes.lookup tabId = some process →
    tabs.pendingStreamCleanup.lookup tabId = some record → False
  keyed : ∀ tabId record, tabs.pendingStreamCleanup.lookup tabId = some record →
    record.tabId = tabId
  free : ∀ call phase tabId, tabs.calls.lookup call = some phase → draws phase = some tabId →
    tabs.processes.lookup tabId = none ∧ tabs.pendingStreamCleanup.lookup tabId = none ∧
      tabs.Others call fun other => draws other ≠ some tabId
  locked : ∀ call phase tabId, tabs.calls.lookup call = some phase →
    holdsCleanupLock tabId phase = true → tabs.Others call fun other =>
      holdsCleanupLock tabId other = false
  owned : ∀ call phase tabId captured, tabs.calls.lookup call = some phase →
    captures phase = some (tabId, captured) → tabs.processes.lookup tabId = some captured
  discarding : ∀ call record, tabs.calls.lookup call = some (.discarding record) →
    record ∈ tabs.discards
  discards : ∀ record ∈ tabs.discards, record ∈ tabs.confirmed
  removed : ∀ record ∈ tabs.removed, record ∈ tabs.discards
  kept : ∀ record ∈ tabs.retired, record ∈ tabs.removed ∨
    tabs.pendingStreamCleanup.lookup record.tabId = some record
  accounted : ∀ entry ∈ tabs.registered, tabs.processes.lookup entry.1 = some entry.2 ∨
    ∃ record ∈ tabs.retired, record.tabId = entry.1 ∧ record.createdAt = entry.2.createdAt
  actions : ∀ action ∈ tabs.actions, action.met = some action.captured

/-- What holds of the file. -/
structure Disk (tabs : TabRetirement) : Prop where
  confirmed : tabs.stateConfirmed = true → ∀ tabId record,
    tabs.pendingStreamCleanup.lookup tabId = some record → record ∈ tabs.confirmed
  recorded : ∀ record ∈ tabs.retired, record ∈ tabs.removed ∨ record ∈ tabs.file.pending
  loads : tabs.stateError = false → tabs.file.load.isSome = true
  broken : tabs.stateError = true → tabs.file.load = none ∧ tabs.retired = []

structure Inv (tabs : TabRetirement) : Prop where
  memory : tabs.Memory
  disk : tabs.Disk

variable {tabs next : TabRetirement} {call : Nat} {tabId : TabId} {record : PendingTabCleanup}

theorem lookup_ended (tabs : TabRetirement) (call other : Nat) :
    (tabs.ended call).calls.lookup other =
      if other = call then none else tabs.calls.lookup other :=
  Dict.lookup_erase tabs.calls call other

theorem lookup_standAt (tabs : TabRetirement) (call other : Nat) (phase : RetireCall) :
    (tabs.standAt call phase).calls.lookup other =
      if other = call then some phase else tabs.calls.lookup other :=
  Dict.lookup_set tabs.calls call other phase

theorem Memory.ended (h : tabs.Memory) (call : Nat) : (tabs.ended call).Memory := by
  have hcalls : ∀ {other phase}, (tabs.ended call).calls.lookup other = some phase →
      tabs.calls.lookup other = some phase := by
    intro other phase hlookup
    rw [lookup_ended] at hlookup
    split at hlookup
    · contradiction
    · exact hlookup
  have hothers : ∀ {other : Nat} {p : RetireCall → Prop}, tabs.Others other p →
      (tabs.ended call).Others other p :=
    fun hall another phase hne hlookup => hall another phase hne (hcalls hlookup)
  refine ⟨h.disjoint, h.keyed, ?_, ?_, ?_, ?_, h.discards, h.removed, h.kept, h.accounted,
    h.actions⟩
  · intro other phase tabId hlookup hdraws
    obtain ⟨hlive, hpending, hall⟩ := h.free other phase tabId (hcalls hlookup) hdraws
    exact ⟨hlive, hpending, hothers hall⟩
  · exact fun other phase tabId hlookup hholds =>
      hothers (h.locked other phase tabId (hcalls hlookup) hholds)
  · exact fun other phase tabId captured hlookup =>
      h.owned other phase tabId captured (hcalls hlookup)
  · exact fun other record hlookup => h.discarding other record (hcalls hlookup)

theorem Disk.ended (h : tabs.Disk) (call : Nat) : (tabs.ended call).Disk :=
  { h with }

theorem Inv.ended (h : tabs.Inv) (call : Nat) : (tabs.ended call).Inv :=
  ⟨h.memory.ended call, h.disk.ended call⟩

theorem Memory.standAt (h : (tabs.ended call).Memory) {phase : RetireCall}
    (hdraws : ∀ tabId, draws phase = some tabId → tabs.processes.lookup tabId = none ∧
      tabs.pendingStreamCleanup.lookup tabId = none ∧
        tabs.Others call fun other => draws other ≠ some tabId)
    (hlocks : ∀ tabId, holdsCleanupLock tabId phase = true →
      tabs.Others call fun other => holdsCleanupLock tabId other = false)
    (hcaptures : ∀ tabId captured, captures phase = some (tabId, captured) →
      tabs.processes.lookup tabId = some captured)
    (hdiscards : ∀ record, phase = .discarding record → record ∈ tabs.discards) :
    (tabs.standAt call phase).Memory := by
  have hother : ∀ {other phase'}, other ≠ call → tabs.calls.lookup other = some phase' →
      (tabs.ended call).calls.lookup other = some phase' := by
    intro other phase' hne hlookup
    rwa [lookup_ended, if_neg hne]
  refine ⟨h.disjoint, h.keyed, ?_, ?_, ?_, ?_, h.discards, h.removed, h.kept, h.accounted,
    h.actions⟩
  · intro other phase' tabId hlookup hdraw
    rw [lookup_standAt] at hlookup
    split at hlookup
    next heq =>
      cases hlookup
      subst heq
      obtain ⟨hlive, hpending, hall⟩ := hdraws tabId hdraw
      refine ⟨hlive, hpending, fun another another' hne hanother => ?_⟩
      rw [lookup_standAt, if_neg hne] at hanother
      exact hall another another' hne hanother
    next hne =>
      obtain ⟨hlive, hpending, hall⟩ := h.free other phase' tabId (hother hne hlookup) hdraw
      refine ⟨hlive, hpending, fun another another' hanother hlookup' => ?_⟩
      rw [lookup_standAt] at hlookup'
      split at hlookup'
      next heq =>
        cases hlookup'
        intro hsame
        exact (hdraws tabId hsame).2.2 other phase' hne hlookup hdraw
      next hne' => exact hall another another' hanother (hother hne' hlookup')
  · intro other phase' tabId hlookup hholds
    rw [lookup_standAt] at hlookup
    split at hlookup
    next heq =>
      cases hlookup
      subst heq
      intro another another' hne hanother
      rw [lookup_standAt, if_neg hne] at hanother
      exact hlocks tabId hholds another another' hne hanother
    next hne =>
      intro another another' hanother hlookup'
      rw [lookup_standAt] at hlookup'
      split at hlookup'
      next heq =>
        cases hlookup'
        cases hown : holdsCleanupLock tabId phase with
        | false => rfl
        | true =>
          have hfree : holdsCleanupLock tabId phase' = false :=
            hlocks tabId hown other phase' hne hlookup
          rw [hholds] at hfree
          contradiction
      next hne' =>
        exact h.locked other phase' tabId (hother hne hlookup) hholds another another' hanother
          (hother hne' hlookup')
  · intro other phase' tabId captured hlookup hcapture
    rw [lookup_standAt] at hlookup
    split at hlookup
    next heq =>
      cases hlookup
      exact hcaptures tabId captured hcapture
    next hne => exact h.owned other phase' tabId captured (hother hne hlookup) hcapture
  · intro other record hlookup
    rw [lookup_standAt] at hlookup
    split at hlookup
    next heq => exact hdiscards record (Option.some.inj hlookup)
    next hne => exact h.discarding other record (hother hne hlookup)

theorem Disk.standAt (h : tabs.Disk) (call : Nat) (phase : RetireCall) :
    (tabs.standAt call phase).Disk :=
  { h with }

theorem Inv.wait (h : tabs.Inv) {phase : RetireCall} (hdraws : draws phase = none)
    (hlocks : ∀ tabId, holdsCleanupLock tabId phase = false) (hcaptures : captures phase = none)
    (call : Nat) : (tabs.standAt call phase).Inv := by
  refine ⟨(h.memory.ended call).standAt ?_ ?_ ?_ ?_, h.disk.standAt call phase⟩
  · simp [hdraws]
  · simp [hlocks]
  · simp [hcaptures]
  · rintro record rfl
    simpa [holdsCleanupLock] using hlocks record.tabId

theorem cleanupLockHeld_eq_false :
    tabs.cleanupLockHeld tabId = false ↔
      ∀ call phase, tabs.calls.lookup call = some phase → holdsCleanupLock tabId phase = false := by
  unfold cleanupLockHeld
  rw [List.any_eq_false]
  constructor
  · intro h call phase hlookup
    simpa using h (call, phase) (Dict.lookup_eq_some.mp hlookup)
  · rintro h ⟨call, phase⟩ hmem
    simpa using h call phase (Dict.lookup_eq_some.mpr hmem)

theorem mem_snapshot_pending (h : tabs.pendingStreamCleanup.lookup tabId = some record) :
    record ∈ tabs.snapshot.pendingStreamCleanup :=
  List.mem_map.mpr ⟨(tabId, record), Dict.lookup_eq_some.mp h, rfl⟩

def written (tabs : TabRetirement) (durable : Bool) : TabRetirement :=
  { tabs with
    file := .stored tabs.snapshot
    stateConfirmed := durable
    confirmed :=
      if durable then tabs.confirmed ++ tabs.snapshot.pendingStreamCleanup else tabs.confirmed }

theorem persistState_cases (tabs : TabRetirement) (outcome : SaveOutcome) :
    (tabs.persistState outcome = (tabs.written true, none) ∧ tabs.stateError = false ∧
      tabs.snapshot.valid = true) ∨
    (tabs.persistState outcome = (tabs.written false, some (.commit true)) ∧
      tabs.stateError = false ∧ tabs.snapshot.valid = true) ∨
    ∃ error, error ≠ .commit true ∧
      (tabs.persistState outcome = (tabs, some error) ∨
        tabs.persistState outcome = ({ tabs with stateConfirmed := false }, some error)) := by
  unfold persistState
  by_cases herror : tabs.stateError = true
  · rw [if_pos herror]
    exact .inr (.inr ⟨.tabState, by simp, .inl rfl⟩)
  · rw [if_neg herror]
    by_cases hvalid : tabs.snapshot.valid = true
    · rw [if_neg (by simp [hvalid])]
      cases outcome with
      | saved => exact .inl ⟨rfl, by simpa using herror, hvalid⟩
      | notReplaced => exact .inr (.inr ⟨.commit false, by simp, .inr rfl⟩)
      | replacedThenRaised => exact .inr (.inl ⟨rfl, by simpa using herror, hvalid⟩)
    · rw [if_pos (by simpa using hvalid)]
      exact .inr (.inr ⟨.tabState, by simp, .inl rfl⟩)

theorem Memory.written (h : tabs.Memory) (durable : Bool) : (tabs.written durable).Memory := by
  refine { h with discards := fun record hrecord => ?_ }
  have hconfirmed := h.discards record hrecord
  unfold TabRetirement.written
  cases durable with
  | true => exact List.mem_append_left _ hconfirmed
  | false => exact hconfirmed

theorem Memory.disk_written (h : tabs.Memory) (herror : tabs.stateError = false)
    (hvalid : tabs.snapshot.valid = true) (durable : Bool) : (tabs.written durable).Disk := by
  refine ⟨?_, ?_, ?_, ?_⟩
  · intro hdurable tabId record hlookup
    obtain rfl : durable = true := hdurable
    exact List.mem_append_right _ (mem_snapshot_pending hlookup)
  · intro record hrecord
    exact (h.kept record hrecord).imp_right mem_snapshot_pending
  · intro _
    show (if tabs.snapshot.valid then some tabs.snapshot else none).isSome = true
    simp [hvalid]
  · intro hbroken
    rw [show tabs.stateError = true from hbroken] at herror
    contradiction

theorem Memory.written_inv (h : tabs.Memory) (herror : tabs.stateError = false)
    (hvalid : tabs.snapshot.valid = true) (durable : Bool) : (tabs.written durable).Inv :=
  ⟨h.written durable, h.disk_written herror hvalid durable⟩

theorem Inv.unconfirmed (h : tabs.Inv) : ({ tabs with stateConfirmed := false } :
    TabRetirement).Inv :=
  ⟨⟨h.memory.disjoint, h.memory.keyed, h.memory.free, h.memory.locked, h.memory.owned,
    h.memory.discarding, h.memory.discards, h.memory.removed, h.memory.kept, h.memory.accounted,
    h.memory.actions⟩, ⟨by simp, h.disk.recorded, h.disk.loads, h.disk.broken⟩⟩

theorem Inv.persistState (h : tabs.Inv) (outcome : SaveOutcome) :
    (tabs.persistState outcome).1.Inv := by
  rcases tabs.persistState_cases outcome with ⟨heq, herror, hvalid⟩ | ⟨heq, herror, hvalid⟩ |
    ⟨error, -, heq | heq⟩
  · rw [heq]
    exact h.memory.written_inv herror hvalid true
  · rw [heq]
    exact h.memory.written_inv herror hvalid false
  · rw [heq]
    exact h
  · rw [heq]
    exact h.unconfirmed

end TabRetirement

end ClaudeHub
