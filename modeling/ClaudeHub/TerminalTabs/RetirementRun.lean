import ClaudeHub.TerminalTabs.Obligations

/-! # Runs of tab retirement

What each call keeps of the obligations, and so what holds in every state of every run.
-/

namespace ClaudeHub

open StepSystem

namespace TabRetirement

variable {tabs next : TabRetirement} {call : Nat} {tabId : TabId} {record : PendingTabCleanup}
  {hasOwner : Bool} {outcome : SaveOutcome}

/-! ## Removal of the artifacts -/

/-- What `require_owner` has checked of memory. -/
theorem ownsCleanup_spec (h : tabs.ownsCleanup record hasOwner = true) :
    tabs.pendingStreamCleanup.lookup record.tabId = some record ∧
      tabs.processes.lookup record.tabId = none := by
  unfold ownsCleanup at h
  simp only [Bool.and_eq_true, decide_eq_true_eq, Option.isNone_iff_eq_none] at h
  exact ⟨h.1.1.2, h.1.2⟩

theorem Inv.discard (h : (tabs.ended call).Inv)
    (hpending : tabs.pendingStreamCleanup.lookup record.tabId = some record)
    (hconfirmed : tabs.stateConfirmed = true)
    (hlock : tabs.Others call fun other => holdsCleanupLock record.tabId other = false) :
    ({ tabs.standAt call (.discarding record) with
        discards := tabs.discards ++ [record] } : TabRetirement).Inv := by
  let started : TabRetirement := { tabs with discards := tabs.discards ++ [record] }
  have hstarted : (started.ended call).Memory := by
    refine ⟨h.memory.disjoint, h.memory.keyed, h.memory.free, h.memory.locked, h.memory.owned,
      ?_, ?_, ?_, h.memory.kept, h.memory.accounted, h.memory.actions⟩
    · intro other discarded hlookup
      exact List.mem_append_left _ (h.memory.discarding other discarded hlookup)
    · intro discarded hmem
      rcases List.mem_append.mp hmem with hold | hnew
      · exact h.memory.discards discarded hold
      · obtain rfl := List.mem_singleton.mp hnew
        exact h.disk.confirmed hconfirmed _ discarded hpending
    · intro removed hmem
      exact List.mem_append_left _ (h.memory.removed removed hmem)
  have hmemory : (started.standAt call (.discarding record)).Memory := by
    apply hstarted.standAt
    · simp [draws]
    · intro tabId hholds
      obtain rfl : record.tabId = tabId := by simpa [holdsCleanupLock] using hholds
      exact hlock
    · simp [captures]
    · intro discarded heq
      obtain rfl : record = discarded := by simpa using heq
      exact List.mem_append_right _ (List.mem_singleton_self _)
  exact ⟨hmemory, ⟨h.disk.confirmed, h.disk.recorded, h.disk.loads, h.disk.broken⟩⟩

theorem Inv.finishTabCleanup (h : (tabs.ended call).Inv)
    (hlock : tabs.Others call fun other => holdsCleanupLock record.tabId other = false) :
    (tabs.finishTabCleanup call record hasOwner outcome).Inv := by
  unfold TabRetirement.finishTabCleanup
  cases howns : tabs.ownsCleanup record hasOwner with
  | false => exact h
  | true =>
    obtain ⟨hpending, -⟩ := ownsCleanup_spec howns
    rw [if_neg (by simp)]
    by_cases hconfirmed : tabs.stateConfirmed = true
    · simp only [if_pos hconfirmed]
      exact h.discard hpending hconfirmed hlock
    · simp only [if_neg hconfirmed]
      rcases tabs.persistState_cases outcome with ⟨heq, herror, hvalid⟩ |
        ⟨heq, herror, hvalid⟩ | ⟨error, -, heq | heq⟩
      · have hwritten : ((tabs.written true).ended call).Inv :=
          h.memory.written_inv herror hvalid true
        simp only [heq]
        exact hwritten.discard hpending rfl hlock
      · simp only [heq]
        exact h.memory.written_inv herror hvalid false
      · simp only [heq]
        exact h
      · simp only [heq]
        exact h.unconfirmed

theorem Memory.dropped (h : tabs.Memory) (hremoved : record ∈ tabs.removed)
    (hpending : tabs.pendingStreamCleanup.lookup record.tabId = some record) :
    ({ tabs with
        pendingStreamCleanup := tabs.pendingStreamCleanup.erase record.tabId } :
      TabRetirement).Memory := by
  have hsub : ∀ {tabId other},
      Dict.lookup (tabs.pendingStreamCleanup.erase record.tabId) tabId = some other →
        tabs.pendingStreamCleanup.lookup tabId = some other := by
    intro tabId other hlookup
    rw [Dict.lookup_erase] at hlookup
    split at hlookup
    · contradiction
    · exact hlookup
  refine ⟨?_, ?_, ?_, h.locked, h.owned, h.discarding, h.discards, h.removed, ?_, h.accounted,
    h.actions⟩
  · exact fun tabId process other hlive hlookup => h.disjoint tabId process other hlive (hsub hlookup)
  · exact fun tabId other hlookup => h.keyed tabId other (hsub hlookup)
  · intro other phase tabId hlookup hdraws
    obtain ⟨hlive, hnone, hall⟩ := h.free other phase tabId hlookup hdraws
    refine ⟨hlive, ?_, hall⟩
    show Dict.lookup (tabs.pendingStreamCleanup.erase record.tabId) tabId = none
    rw [Dict.lookup_erase]
    split
    · rfl
    · exact hnone
  · intro other hother
    rcases h.kept other hother with hdone | hlookup
    · exact .inl hdone
    · by_cases hsame : other.tabId = record.tabId
      · rw [hsame, hpending] at hlookup
        cases hlookup
        exact .inl hremoved
      · right
        show Dict.lookup (tabs.pendingStreamCleanup.erase record.tabId) other.tabId = some other
        rw [Dict.lookup_erase, if_neg hsame]
        exact hlookup

theorem Memory.with_lookups (h : tabs.Memory) {processes : Dict TabId TabProcess}
    {pending : Dict TabId PendingTabCleanup}
    (hprocesses : ∀ tabId, processes.lookup tabId = tabs.processes.lookup tabId)
    (hpending : ∀ tabId, pending.lookup tabId = tabs.pendingStreamCleanup.lookup tabId)
    (file : StoredTabs) (stateConfirmed : Bool) :
    ({ tabs with
        processes := processes
        pendingStreamCleanup := pending
        file := file
        stateConfirmed := stateConfirmed } : TabRetirement).Memory := by
  refine ⟨?_, ?_, ?_, h.locked, ?_, h.discarding, h.discards, h.removed, ?_, ?_, h.actions⟩
  · intro tabId process record hlive hlookup
    exact h.disjoint tabId process record ((hprocesses tabId).symm.trans hlive)
      ((hpending tabId).symm.trans hlookup)
  · intro tabId record hlookup
    exact h.keyed tabId record ((hpending tabId).symm.trans hlookup)
  · intro call phase tabId hlookup hdraws
    obtain ⟨hlive, hnone, hall⟩ := h.free call phase tabId hlookup hdraws
    exact ⟨(hprocesses tabId).trans hlive, (hpending tabId).trans hnone, hall⟩
  · intro call phase tabId captured hlookup hcaptures
    exact (hprocesses tabId).trans (h.owned call phase tabId captured hlookup hcaptures)
  · intro record hrecord
    exact (h.kept record hrecord).imp_right ((hpending record.tabId).trans ·)
  · intro entry hentry
    exact (h.accounted entry hentry).imp_left ((hprocesses entry.1).trans ·)

theorem lookup_restored (hpending : tabs.pendingStreamCleanup.lookup record.tabId = some record)
    (tabId : TabId) :
    (Dict.set (tabs.pendingStreamCleanup.erase record.tabId) record.tabId record).lookup tabId =
      tabs.pendingStreamCleanup.lookup tabId := by
  rw [Dict.lookup_set, Dict.lookup_erase]
  split
  next heq => rw [heq, hpending]
  next hne => rfl

theorem Inv.acknowledge (h : tabs.Inv) (hstands : tabs.calls.lookup call = some (.discarding record)) :
    (tabs.acknowledge call record hasOwner outcome).Inv := by
  let removed : TabRetirement := { tabs with removed := tabs.removed ++ [record] }
  have hremoved : (removed.ended call).Inv := by
    have hended := h.ended call
    refine ⟨⟨hended.memory.disjoint, hended.memory.keyed, hended.memory.free,
      hended.memory.locked, hended.memory.owned, hended.memory.discarding,
      hended.memory.discards, ?_, ?_, hended.memory.accounted, hended.memory.actions⟩,
      ⟨hended.disk.confirmed, ?_, hended.disk.loads, hended.disk.broken⟩⟩
    · intro done hdone
      rcases List.mem_append.mp hdone with hold | hnew
      · exact h.memory.removed done hold
      · obtain rfl := List.mem_singleton.mp hnew
        exact h.memory.discarding call done hstands
    · intro other hother
      exact (h.memory.kept other hother).imp_left (List.mem_append_left _ ·)
    · intro other hother
      exact (h.disk.recorded other hother).imp_left (List.mem_append_left _ ·)
  unfold TabRetirement.acknowledge
  dsimp only
  cases howns : removed.ownsCleanup record hasOwner with
  | false => exact hremoved
  | true =>
    obtain ⟨hpending, -⟩ := ownsCleanup_spec howns
    rw [if_neg (by simp)]
    let dropped : TabRetirement := { removed with
      pendingStreamCleanup := removed.pendingStreamCleanup.erase record.tabId }
    have hmem : record ∈ removed.removed :=
      List.mem_append_right _ (List.mem_singleton_self _)
    have hdropped : (dropped.ended call).Memory := hremoved.memory.dropped hmem hpending
    have hrestored : ∀ file, ({ removed.ended call with
        pendingStreamCleanup := dropped.pendingStreamCleanup.set record.tabId record
        file := file
        stateConfirmed := false } : TabRetirement).Memory := fun file =>
      hremoved.memory.with_lookups (fun _ => rfl) (lookup_restored hpending) file false
    rcases dropped.persistState_cases outcome with ⟨heq, herror, hvalid⟩ |
      ⟨heq, herror, hvalid⟩ | ⟨error, -, heq | heq⟩
    · rw [heq]
      exact hdropped.written_inv herror hvalid true
    · rw [heq]
      have hdisk := hdropped.disk_written herror hvalid false
      exact ⟨hrestored _, ⟨by simp, hdisk.recorded, hdisk.loads, hdisk.broken⟩⟩
    · rw [heq]
      exact ⟨hrestored _, ⟨by simp, hremoved.disk.recorded, hremoved.disk.loads,
        hremoved.disk.broken⟩⟩
    · rw [heq]
      exact ⟨hrestored _, ⟨by simp, hremoved.disk.recorded, hremoved.disk.loads,
        hremoved.disk.broken⟩⟩

/-! ## Retirement of a stopped tab -/

theorem captures_holds {phase : RetireCall} {captured : TabProcess}
    (h : captures phase = some (tabId, captured)) : holdsCleanupLock tabId phase = true := by
  cases phase <;> simp_all [captures, holdsCleanupLock]

theorem Memory.act (h : tabs.Memory) (act : OwnerAct) {captured : TabProcess}
    (hlive : tabs.processes.lookup tabId = some captured) : (tabs.act act tabId captured).Memory := by
  refine { h with actions := ?_ }
  intro action haction
  rcases List.mem_append.mp haction with hold | hnew
  · exact h.actions action hold
  · obtain rfl := List.mem_singleton.mp hnew
    exact hlive

theorem Inv.act (h : tabs.Inv) (act : OwnerAct) {captured : TabProcess}
    (hlive : tabs.processes.lookup tabId = some captured) : (tabs.act act tabId captured).Inv :=
  ⟨h.memory.act act hlive, ⟨h.disk.confirmed, h.disk.recorded, h.disk.loads, h.disk.broken⟩⟩

def moved (tabs : TabRetirement) (record : PendingTabCleanup) : TabRetirement :=
  { tabs with
    processes := tabs.processes.erase record.tabId
    pendingStreamCleanup := tabs.pendingStreamCleanup.set record.tabId record
    retired := tabs.retired ++ [record] }

theorem Memory.moved (h : tabs.Memory) {captured : TabProcess}
    (hlive : tabs.processes.lookup record.tabId = some captured)
    (hcreated : record.createdAt = captured.createdAt)
    (hfree : ∀ call phase other, tabs.calls.lookup call = some phase →
      captures phase = some (record.tabId, other) → False) :
    (tabs.moved record).Memory := by
  have hnone : tabs.pendingStreamCleanup.lookup record.tabId = none := by
    cases hlookup : tabs.pendingStreamCleanup.lookup record.tabId with
    | none => rfl
    | some => exact absurd hlookup fun hlookup => h.disjoint _ _ _ hlive hlookup
  have hprocesses : ∀ tabId, (tabs.moved record).processes.lookup tabId =
      if tabId = record.tabId then none else tabs.processes.lookup tabId :=
    Dict.lookup_erase tabs.processes record.tabId
  have hpending : ∀ tabId, (tabs.moved record).pendingStreamCleanup.lookup tabId =
      if tabId = record.tabId then some record else tabs.pendingStreamCleanup.lookup tabId :=
    fun tabId => Dict.lookup_set tabs.pendingStreamCleanup record.tabId tabId record
  refine ⟨?_, ?_, ?_, h.locked, ?_, h.discarding, h.discards, h.removed, ?_, ?_, h.actions⟩
  · intro tabId process other hprocess hother
    rw [hprocesses] at hprocess
    rw [hpending] at hother
    split at hprocess
    · contradiction
    next hne =>
      rw [if_neg hne] at hother
      exact h.disjoint tabId process other hprocess hother
  · intro tabId other hother
    rw [hpending] at hother
    split at hother
    next heq =>
      cases hother
      exact heq.symm
    next hne => exact h.keyed tabId other hother
  · intro call phase tabId hlookup hdraws
    obtain ⟨hgone, hunreserved, hall⟩ := h.free call phase tabId hlookup hdraws
    have hne : tabId ≠ record.tabId := by
      rintro rfl
      rw [hlive] at hgone
      contradiction
    refine ⟨?_, ?_, hall⟩
    · rw [hprocesses, if_neg hne]
      exact hgone
    · rw [hpending, if_neg hne]
      exact hunreserved
  · intro call phase tabId other hlookup hcaptures
    have hne : tabId ≠ record.tabId := by
      rintro rfl
      exact hfree call phase other hlookup hcaptures
    rw [hprocesses, if_neg hne]
    exact h.owned call phase tabId other hlookup hcaptures
  · intro other hother
    rw [hpending]
    rcases List.mem_append.mp hother with hold | hnew
    · rcases h.kept other hold with hdone | hlookup
      · exact .inl hdone
      · right
        rw [if_neg]
        · exact hlookup
        · intro hsame
          rw [hsame, hnone] at hlookup
          contradiction
    · obtain rfl := List.mem_singleton.mp hnew
      exact .inr (if_pos rfl)
  · intro entry hentry
    rw [hprocesses]
    rcases h.accounted entry hentry with hlookup | ⟨other, hother, hid, htime⟩
    · by_cases hsame : entry.1 = record.tabId
      · rw [hsame, hlive] at hlookup
        cases hlookup
        exact .inr ⟨record, List.mem_append_right _ (List.mem_singleton_self _), hsame.symm,
          hcreated⟩
      · left
        rw [if_neg hsame]
        exact hlookup
    · exact .inr ⟨other, List.mem_append_left _ hother, hid, htime⟩

theorem lookup_rolledBack {captured : TabProcess}
    (hlive : tabs.processes.lookup tabId = some captured) (other : TabId) :
    (Dict.set (tabs.processes.erase tabId) tabId captured).lookup other =
      tabs.processes.lookup other := by
  rw [Dict.lookup_set, Dict.lookup_erase]
  split
  next heq => rw [heq, hlive]
  next hne => rfl

theorem lookup_unreserved (hnone : tabs.pendingStreamCleanup.lookup tabId = none)
    (other : TabId) :
    Dict.lookup ((tabs.pendingStreamCleanup.set tabId record).erase tabId) other =
      tabs.pendingStreamCleanup.lookup other := by
  rw [Dict.lookup_erase, Dict.lookup_set]
  split
  next heq => rw [heq, hnone]
  next hne => rfl

theorem Inv.retire (h : tabs.Inv) {captured : TabProcess} {token : String}
    (hstands : tabs.calls.lookup call = some (.stopping tabId captured)) :
    (tabs.retire call tabId captured token hasOwner outcome).Inv := by
  have hlive : tabs.processes.lookup tabId = some captured :=
    h.memory.owned call _ tabId captured hstands rfl
  have hlock : tabs.Others call fun other => holdsCleanupLock tabId other = false :=
    h.memory.locked call _ tabId hstands (by simp [holdsCleanupLock])
  have hnone : tabs.pendingStreamCleanup.lookup tabId = none := by
    cases hlookup : tabs.pendingStreamCleanup.lookup tabId with
    | none => rfl
    | some => exact absurd hlookup fun hlookup => h.memory.disjoint _ _ _ hlive hlookup
  let record : PendingTabCleanup := ⟨tabId, captured.createdAt, token, tabCleanupAuthorization⟩
  let acted : TabRetirement := tabs.act .retire tabId captured
  have hacted : (acted.ended call).Inv := (h.act .retire hlive).ended call
  have hmoved : ((acted.moved record).ended call).Memory := by
    have hleft : ((acted.ended call).moved record).Memory := by
      refine @Memory.moved (acted.ended call) record hacted.memory captured hlive rfl ?_
      intro other phase owner hlookup hcaptures
      rw [lookup_ended] at hlookup
      split at hlookup
      · contradiction
      next hne =>
        have hfree : holdsCleanupLock tabId phase = false := hlock other phase hne hlookup
        rw [captures_holds hcaptures] at hfree
        contradiction
    exact hleft
  let bare : TabRetirement := { acted with
    processes := tabs.processes.erase tabId
    pendingStreamCleanup := tabs.pendingStreamCleanup.set tabId record }
  have hrestored : ({ bare.ended call with
      processes := bare.processes.set tabId captured
      pendingStreamCleanup := bare.pendingStreamCleanup.erase tabId } : TabRetirement).Inv := by
    refine ⟨hacted.memory.with_lookups (lookup_rolledBack hlive) (lookup_unreserved hnone)
      tabs.file tabs.stateConfirmed, ⟨?_, hacted.disk.recorded, hacted.disk.loads,
      hacted.disk.broken⟩⟩
    intro hconfirmed other pending hlookup
    exact hacted.disk.confirmed hconfirmed other pending
      ((lookup_unreserved hnone other).symm.trans hlookup)
  unfold TabRetirement.retire
  dsimp only
  rcases bare.persistState_cases outcome with ⟨heq, herror, hvalid⟩ |
    ⟨heq, herror, hvalid⟩ | ⟨error, hne, heq | heq⟩
  · have hwritten : (((acted.moved record).written true).ended call).Inv :=
      hmoved.written_inv herror hvalid true
    rw [heq]
    exact hwritten.finishTabCleanup hlock
  · rw [heq]
    exact hmoved.written_inv herror hvalid false
  · rw [heq]
    cases error with
    | tabState => exact hrestored
    | commit replaced =>
      cases replaced with
      | false => exact hrestored
      | true => exact absurd rfl hne
  · rw [heq]
    cases error with
    | tabState => exact hrestored.unconfirmed
    | commit replaced =>
      cases replaced with
      | false => exact hrestored.unconfirmed
      | true => exact absurd rfl hne

theorem Inv.registered (h : tabs.Inv) (hstands : tabs.calls.lookup call = some (.starting tabId))
    (process : TabProcess) :
    ({ tabs.ended call with
        processes := tabs.processes.set tabId process
        nextOwner := tabs.nextOwner + 1
        registered := tabs.registered ++ [(tabId, process)] } : TabRetirement).Inv := by
  obtain ⟨hgone, hnone, hall⟩ := h.memory.free call _ tabId hstands rfl
  have hended := h.ended call
  have hprocesses : ∀ other, (tabs.processes.set tabId process).lookup other =
      if other = tabId then some process else tabs.processes.lookup other :=
    fun other => Dict.lookup_set tabs.processes tabId other process
  refine ⟨⟨?_, hended.memory.keyed, ?_, hended.memory.locked, ?_, hended.memory.discarding,
    hended.memory.discards, hended.memory.removed, hended.memory.kept, ?_,
    hended.memory.actions⟩, ⟨hended.disk.confirmed, hended.disk.recorded, hended.disk.loads,
    hended.disk.broken⟩⟩
  · intro other owner record hlive hlookup
    change (tabs.processes.set tabId process).lookup other = some owner at hlive
    change tabs.pendingStreamCleanup.lookup other = some record at hlookup
    rw [hprocesses] at hlive
    split at hlive
    next heq =>
      rw [heq, hnone] at hlookup
      contradiction
    next hne => exact h.memory.disjoint other owner record hlive hlookup
  · intro other phase drawn hlookup hdraws
    obtain ⟨hdrawnGone, hdrawnFree, hothers⟩ :=
      hended.memory.free other phase drawn hlookup hdraws
    refine ⟨?_, hdrawnFree, hothers⟩
    show (tabs.processes.set tabId process).lookup drawn = none
    rw [hprocesses, if_neg]
    · exact hdrawnGone
    · rintro rfl
      rw [show TabRetirement.calls _ = (tabs.ended call).calls from rfl, lookup_ended] at hlookup
      split at hlookup
      · contradiction
      next hne => exact hall other phase hne hlookup hdraws
  · intro other phase id captured hlookup hcaptures
    have howned : tabs.processes.lookup id = some captured :=
      hended.memory.owned other phase id captured hlookup hcaptures
    show (tabs.processes.set tabId process).lookup id = some captured
    rw [hprocesses, if_neg]
    · exact howned
    · rintro rfl
      rw [hgone] at howned
      contradiction
  · intro entry hentry
    show (tabs.processes.set tabId process).lookup entry.1 = some entry.2 ∨ _
    rw [hprocesses]
    rcases List.mem_append.mp hentry with hold | hnew
    · rcases h.memory.accounted entry hold with hlive | hretired
      · left
        rw [if_neg]
        · exact hlive
        · intro hsame
          rw [hsame, hgone] at hlive
          contradiction
      · exact .inr hretired
    · obtain rfl := List.mem_singleton.mp hnew
      exact .inl (if_pos rfl)

variable {snapshot : TabsSnapshot}

theorem load_eq_some {file : StoredTabs} (h : file.load = some snapshot) :
    snapshot.valid = true ∧ file.pending = snapshot.pendingStreamCleanup := by
  cases file with
  | missing =>
    cases h
    exact ⟨by decide, rfl⟩
  | unreadable => contradiction
  | stored stored =>
    change (if stored.valid = true then some stored else none) = some snapshot at h
    split at h
    next hvalid =>
      cases h
      exact ⟨hvalid, rfl⟩
    next => contradiction

theorem valid_spec (h : snapshot.valid = true) :
    (snapshot.tabs.map Prod.fst).Nodup ∧
      (snapshot.pendingStreamCleanup.map PendingTabCleanup.tabId).Nodup ∧
        ∀ record ∈ snapshot.pendingStreamCleanup, record.tabId ∉ snapshot.tabs.map Prod.fst := by
  unfold TabsSnapshot.valid at h
  simp only [Bool.and_eq_true, decide_eq_true_eq, List.all_eq_true] at h
  obtain ⟨⟨⟨⟨-, htabs⟩, hrecords⟩, hpending⟩, -⟩ := h
  exact ⟨htabs, hpending, fun record hrecord => (hrecords record hrecord).2⟩

theorem rows_loadedProcesses (h : (snapshot.tabs.map Prod.fst).Nodup) (nextOwner : Nat) :
    ((loadedProcesses nextOwner snapshot).rows.map Prod.fst) = snapshot.tabs.map Prod.fst := by
  have hkeys : ((snapshot.tabs.zipIdx.map fun entry =>
      (entry.1.1, (⟨nextOwner + entry.2, entry.1.2⟩ : TabProcess))).map Prod.fst) =
      snapshot.tabs.map Prod.fst := by
    rw [List.map_map]
    calc snapshot.tabs.zipIdx.map (fun entry => entry.1.1)
        = (snapshot.tabs.zipIdx.map Prod.fst).map Prod.fst := (List.map_map ..).symm
      _ = snapshot.tabs.map Prod.fst := by rw [List.zipIdx_map_fst]
  unfold loadedProcesses
  rw [Table.rows_ofList (hkeys ▸ h), hkeys]

theorem lookup_loadedPending {records : List PendingTabCleanup}
    (h : (records.map PendingTabCleanup.tabId).Nodup) :
    Dict.lookup (Table.ofList (records.map fun record => (record.tabId, record))) tabId =
      some record ↔ record ∈ records ∧ record.tabId = tabId := by
  have hnodup : ((records.map fun record => (record.tabId, record)).map Prod.fst).Nodup := by
    rw [List.map_map]
    exact h
  rw [Dict.lookup_eq_some, Table.rows_ofList hnodup]
  constructor
  · intro hmem
    obtain ⟨other, hother, heq⟩ := List.mem_map.mp hmem
    obtain ⟨hid, rfl⟩ := Prod.mk.inj heq
    exact ⟨hother, hid⟩
  · rintro ⟨hmem, rfl⟩
    exact List.mem_map.mpr ⟨record, hmem, rfl⟩

theorem Inv.loadState (hrecorded : ∀ record ∈ tabs.retired,
      record ∈ tabs.removed ∨ record ∈ tabs.file.pending)
    (hbroken : tabs.file.load = none → tabs.retired = [])
    (hdiscards : ∀ record ∈ tabs.discards, record ∈ tabs.confirmed)
    (hremoved : ∀ record ∈ tabs.removed, record ∈ tabs.discards)
    (hactions : ∀ action ∈ tabs.actions, action.met = some action.captured) :
    tabs.loadState.Inv := by
  unfold TabRetirement.loadState
  cases hload : tabs.file.load with
  | none =>
    have hnone := hbroken hload
    refine ⟨⟨nofun, nofun, nofun, nofun, nofun, nofun, hdiscards, hremoved, ?_, nofun, hactions⟩,
      ⟨fun _ => nofun, hrecorded, nofun, fun _ => ⟨hload, hnone⟩⟩⟩
    intro record hrecord
    rw [hnone] at hrecord
    contradiction
  | some snapshot =>
    obtain ⟨hvalid, hpending⟩ := load_eq_some hload
    obtain ⟨htabs, hnodup, hapart⟩ := valid_spec hvalid
    refine ⟨⟨?_, ?_, nofun, nofun, nofun, nofun, hdiscards, hremoved, ?_, ?_, hactions⟩,
      ⟨?_, hrecorded, fun _ => Option.isSome_iff_exists.mpr ⟨snapshot, hload⟩, nofun⟩⟩
    · intro tabId process record hlive hlookup
      obtain ⟨hrecord, rfl⟩ := (lookup_loadedPending hnodup).mp hlookup
      have hmem := Dict.lookup_eq_some.mp hlive
      apply hapart record hrecord
      rw [← rows_loadedProcesses htabs tabs.nextOwner]
      exact List.mem_map.mpr ⟨_, hmem, rfl⟩
    · exact fun tabId record hlookup => ((lookup_loadedPending hnodup).mp hlookup).2
    · intro record hrecord
      refine (hrecorded record hrecord).imp_right fun hmem => ?_
      exact (lookup_loadedPending hnodup).mpr ⟨hpending ▸ hmem, rfl⟩
    · exact fun entry hentry => .inl (Dict.lookup_eq_some.mpr hentry)
    · intro hempty tabId record hlookup
      have hmem := ((lookup_loadedPending hnodup).mp hlookup).1
      rw [List.isEmpty_iff.mp hempty] at hmem
      contradiction

theorem Inv.start (file : StoredTabs) : (start file).Inv := by
  apply Inv.loadState
  · intro record hrecord
    right
    change record ∈ (file.load.map TabsSnapshot.pendingStreamCleanup).getD [] at hrecord
    show record ∈ file.pending
    cases hload : file.load with
    | none =>
      rw [hload] at hrecord
      contradiction
    | some =>
      rw [hload] at hrecord
      rw [(load_eq_some hload).2]
      exact hrecord
  · intro hload
    change file.load = none at hload
    show (file.load.map TabsSnapshot.pendingStreamCleanup).getD [] = []
    rw [hload]
    rfl
  · exact nofun
  · exact nofun
  · exact nofun

theorem Inv.restart (h : tabs.Inv) : tabs.loadState.Inv := by
  apply Inv.loadState h.disk.recorded ?_ h.memory.discards h.memory.removed h.memory.actions
  intro hload
  cases herror : tabs.stateError with
  | true => exact (h.disk.broken herror).2
  | false =>
    have hloads := h.disk.loads herror
    rw [hload] at hloads
    contradiction

/-! ## Steps -/

theorem Inv.deleteLocked (h : tabs.Inv) {expected : Option TabProcess}
    {expectedCleanup : Option PendingTabCleanup} (hlock : tabs.cleanupLockHeld tabId = false) :
    (tabs.deleteLocked call tabId expected expectedCleanup hasOwner outcome).Inv := by
  have hothers : tabs.Others call fun other => holdsCleanupLock tabId other = false :=
    fun other phase _ hlookup => cleanupLockHeld_eq_false.mp hlock other phase hlookup
  have hended := h.ended call
  unfold TabRetirement.deleteLocked
  simp only
  split
  next pending hpending =>
    split
    · exact hended
    · apply hended.finishTabCleanup
      rw [h.memory.keyed tabId pending hpending]
      exact hothers
  next hnone =>
    split
    · exact hended
    · split
      next captured process hlive =>
        split
        next heq =>
          subst heq
          have hacted := h.act .fence hlive
          refine ⟨(hacted.memory.ended call).standAt ?_ ?_ ?_ ?_, hacted.disk.standAt call _⟩
          · simp [draws]
          · intro other hholds
            obtain rfl : tabId = other := by simpa [holdsCleanupLock] using hholds
            exact hothers
          · intro other owner hcaptures
            obtain ⟨rfl, rfl⟩ : tabId = other ∧ process = owner := by
              simpa [captures] using hcaptures
            exact hlive
          · simp
        next hne => exact hended
      · exact hended

theorem Inv.starts (h : tabs.Inv) (hfree : tabs.isFree tabId = true) :
    (tabs.standAt call (.starting tabId)).Inv := by
  unfold isFree at hfree
  simp only [Bool.and_eq_true, Option.isNone_iff_eq_none, List.all_eq_true,
    decide_eq_true_eq] at hfree
  obtain ⟨⟨hgone, hnone⟩, hdrawn⟩ := hfree
  refine ⟨(h.memory.ended call).standAt ?_ ?_ ?_ ?_, h.disk.standAt call _⟩
  · intro other hdraws
    obtain rfl : tabId = other := by simpa [draws] using hdraws
    refine ⟨hgone, hnone, fun another phase _ hlookup hsame => ?_⟩
    have hne : phase ≠ .starting tabId :=
      hdrawn (another, phase) (Dict.lookup_eq_some.mp hlookup)
    cases phase <;> simp_all [draws]
  · simp [holdsCleanupLock]
  · simp [captures]
  · simp

theorem Inv.goesOn (h : tabs.Inv) {phase phase' : RetireCall} {captured : TabProcess}
    (hstands : tabs.calls.lookup call = some phase)
    (hbefore : captures phase = some (tabId, captured))
    (hafter : phase' = .fenced tabId captured ∨ phase' = .stopping tabId captured) :
    (tabs.standAt call phase').Inv := by
  have howned := h.memory.owned call phase tabId captured hstands hbefore
  have hothers := h.memory.locked call phase tabId hstands (captures_holds hbefore)
  refine ⟨(h.memory.ended call).standAt ?_ ?_ ?_ ?_, h.disk.standAt call _⟩
  · rcases hafter with rfl | rfl <;> simp [draws]
  · intro other hholds
    obtain rfl : tabId = other := by
      rcases hafter with rfl | rfl <;> simpa [holdsCleanupLock] using hholds
    exact hothers
  · intro other owner hcaptures
    obtain ⟨rfl, rfl⟩ : tabId = other ∧ captured = owner := by
      rcases hafter with rfl | rfl <;> simpa [captures] using hcaptures
    exact howned
  · rcases hafter with rfl | rfl <;> simp

theorem Inv.step {op : RetireOp} (h : tabs.Inv) (hstep : tabs.step op = some next) : next.Inv := by
  cases op with
    simp only [TabRetirement.step] at hstep
  | createTab =>
    split at hstep
    · split at hstep
      · cases hstep
        exact h
      · split at hstep
        next hfree =>
          cases hstep
          exact h.starts hfree
        next => contradiction
    · contradiction
  | createFails call =>
    split at hstep
    · cases hstep
      exact h.ended call
    · contradiction
  | registered call createdAt outcome =>
    split at hstep
    next tabId hstands =>
      cases hstep
      exact (h.registered hstands _).persistState outcome
    next => contradiction
  | saveState outcome =>
    cases hstep
    exact h.persistState outcome
  | deleteTab call =>
    split at hstep
    · split at hstep
      · cases hstep
        exact h
      · cases hstep
        exact h.wait rfl (fun _ => rfl) rfl call
    · contradiction
  | scheduleCleanup call =>
    split at hstep
    · split at hstep
      · cases hstep
        exact h
      · split at hstep
        · cases hstep
          exact h
        · cases hstep
          exact h.wait rfl (fun _ => rfl) rfl call
    · contradiction
  | cleanupLocked call =>
    split at hstep
    next tabId expected expectedCleanup hstands =>
      split at hstep
      · contradiction
      next hlock =>
        cases hstep
        exact h.deleteLocked (by simpa using hlock)
    next record hstands =>
      split at hstep
      · contradiction
      next hlock =>
        split at hstep
        · cases hstep
          apply (h.ended call).finishTabCleanup
          exact fun other phase _ hlookup =>
            cleanupLockHeld_eq_false.mp (by simpa using hlock) other phase hlookup
        · cases hstep
          exact h.ended call
    next => contradiction
  | fenceEnds call ok =>
    split at hstep
    next tabId captured hstands =>
      cases hstep
      cases ok with
      | true => exact h.goesOn hstands rfl (.inl rfl)
      | false => exact h.ended call
    next => contradiction
  | startLocked call =>
    split at hstep
    next tabId captured hstands =>
      cases hstep
      split
      next hlive => exact (h.act .stop hlive).goesOn hstands rfl (.inr rfl)
      next => exact h.ended call
    next => contradiction
  | stopEnds call =>
    split at hstep
    next tabId captured hstands =>
      split at hstep
      · cases hstep
        exact h.ended call
      · split at hstep
        · cases hstep
          exact h.retire hstands
        · contradiction
    next => contradiction
  | discardEnds call ok =>
    split at hstep
    next record hstands =>
      cases hstep
      cases ok with
      | true => exact h.acknowledge hstands
      | false => exact h.ended call
    next => contradiction
  | cancelled call =>
    split at hstep
    · cases hstep
      exact h.ended call
    · contradiction
  | restart =>
    cases hstep
    exact h.restart

def isLive (tabs : TabRetirement) (tabId : TabId) : Prop :=
  (tabs.processes.lookup tabId).isSome = true

def isPending (tabs : TabRetirement) (tabId : TabId) : Prop :=
  (tabs.pendingStreamCleanup.lookup tabId).isSome = true

/-- No obligation is lost, and no owner but the captured one is acted on. -/
structure Safe (tabs : TabRetirement) : Prop where
  never_both : ∀ tabId, ¬ (tabs.isLive tabId ∧ tabs.isPending tabId)
  accounted : ∀ entry ∈ tabs.registered, tabs.processes.lookup entry.1 = some entry.2 ∨
    ∃ record ∈ tabs.retired, record.tabId = entry.1 ∧ record.createdAt = entry.2.createdAt
  /-- An obligation is in memory and in the file until its artifacts were removed. -/
  kept : ∀ record ∈ tabs.retired, record ∈ tabs.removed ∨
    (tabs.pendingStreamCleanup.lookup record.tabId = some record ∧ record ∈ tabs.file.pending)
  never_reused : ∀ call tabId, tabs.calls.lookup call = some (.starting tabId) →
    ¬ tabs.isLive tabId ∧ ¬ tabs.isPending tabId
  /-- A removal is started, and ends, for confirmed obligations only. -/
  confirmed : ∀ record, record ∈ tabs.discards ∨ record ∈ tabs.removed → record ∈ tabs.confirmed
  same_owner : ∀ action ∈ tabs.actions, action.met = some action.captured

theorem Inv.safe (h : tabs.Inv) : tabs.Safe where
  never_both := by
    rintro tabId ⟨hlive, hpending⟩
    obtain ⟨process, hprocess⟩ := Option.isSome_iff_exists.mp hlive
    obtain ⟨record, hrecord⟩ := Option.isSome_iff_exists.mp hpending
    exact h.memory.disjoint tabId process record hprocess hrecord
  accounted := h.memory.accounted
  kept := by
    intro record hrecord
    rcases h.memory.kept record hrecord with hdone | hlookup
    · exact .inl hdone
    · exact (h.disk.recorded record hrecord).imp_right fun hfile => ⟨hlookup, hfile⟩
  never_reused := by
    intro call tabId hstands
    obtain ⟨hgone, hnone, -⟩ := h.memory.free call _ tabId hstands rfl
    simp [isLive, isPending, hgone, hnone]
  confirmed := by
    rintro record (hstarted | hended)
    · exact h.memory.discards record hstarted
    · exact h.memory.discards record (h.memory.removed record hended)
  same_owner := h.memory.actions

/-- Whatever fails, is cancelled or is interrupted by a restart, in any order: no state of a run
has lost an obligation, and no deleter has acted on an owner that it did not capture. -/
theorem retirement_safe {file : StoredTabs} {ops : List RetireOp}
    (h : exec step (start file) ops = some tabs) : tabs.Safe :=
  ((Run.of_exec h).invariant (Inv.start file) fun _ _ _ hinv _ hstep => hinv.step hstep).safe

private def retiredId : TabId := "a-tab"

private def retirementToken : String := "0123456789abcdef0123456789abcdef"

/-- The commit of the retirement is unconfirmed, the removal fails once, the process restarts, and
the acknowledging write fails after the replacement. -/
private def retirementOps : List RetireOp :=
  [.createTab 0 retiredId, .registered 0 5 .saved, .deleteTab 0 retiredId, .deleteTab 1 retiredId,
    .cleanupLocked 0 false .saved, .fenceEnds 0 true, .startLocked 0,
    .stopEnds 0 true true retirementToken false .replacedThenRaised,
    .cleanupLocked 1 false .saved, .discardEnds 1 false false .saved, .restart,
    .scheduleCleanup 2 retiredId, .cleanupLocked 2 false .saved,
    .discardEnds 2 true false .replacedThenRaised]

theorem retirement_safe_acknowledged : ∃ tabs, exec step (start .missing) retirementOps = some tabs ∧
    tabs.removed.length = 1 ∧ tabs.Safe := by
  have hany : (exec step (start .missing) retirementOps).any fun tabs =>
      decide (tabs.removed.length = 1) := by decide +kernel
  obtain ⟨tabs, hrun, hremoved⟩ := exists_exec_of_any hany
  exact ⟨tabs, hrun, hremoved, retirement_safe hrun⟩

end TabRetirement

end ClaudeHub
