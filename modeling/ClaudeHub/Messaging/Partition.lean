import ClaudeHub.Messaging.Stretches

/-! # Every call is in one delivery state

A call stays in exactly one state as long as nothing is marked uncertain after it was
queued again or acknowledged. The marks that may come too late are written by a
terminal's pump and by the receipt recovery on verdicts from before a wait.
-/

namespace ClaudeHub

open StepSystem

/-- The calls a recovery works on were queued, and each is settled once. -/
def Recovery.Consistent (history : DeliveryHistory) (recovery : Recovery) : Prop :=
  (recovery.remaining ++ recovery.toPending ++ recovery.toUncertain).Nodup
    ∧ ∀ callId ∈ recovery.remaining ++ recovery.toUncertain,
      (recovery.session.id, callId) ∈ history.enqueued

namespace Recovery

variable {history : DeliveryHistory} {recovery recovery' : Recovery} {callId : CallId}
  {rest : List CallId}

theorem Consistent.settle (h : recovery.Consistent history)
    (hremaining : recovery.remaining = callId :: rest) (verdict : Option Bool) :
    (recovery.settle callId rest verdict).Consistent history := by
  obtain ⟨hnodup, henqueued⟩ := h
  rw [hremaining] at hnodup henqueued
  constructor
  · rw [List.nodup_iff_count_le_one] at hnodup ⊢
    intro c
    have hone := hnodup c
    simp only [Recovery.settle, List.count_append, List.count_cons] at hone ⊢
    rcases verdict with _ | _ | _ <;>
      simp only [reduceCtorEq, if_true, if_false, List.count_nil, List.count_cons,
        Option.some.injEq, Bool.true_eq_false] <;> omega
  · intro c hc
    apply henqueued
    rcases List.mem_append.mp hc with hrest | hmarked
    · simp only [Recovery.settle] at hrest
      simp [hrest]
    · simp only [Recovery.settle, List.mem_append] at hmarked ⊢
      rcases hmarked with hold | hnew
      · exact .inr hold
      · left
        by_cases hv : verdict = none
        · simp only [hv, if_true, List.mem_singleton] at hnew
          simp [hnew]
        · simp [hv] at hnew

theorem Consistent.next {answer : RecoveryAnswer} (h : recovery.Consistent history)
    (hnext : recovery.next answer = some recovery') :
    recovery'.Consistent history ∧ recovery'.session = recovery.session := by
  unfold Recovery.next at hnext
  split at hnext
  case h_1 hremaining _ =>
      cases hnext
      exact ⟨h.settle hremaining _, rfl⟩
  case h_2 hremaining _ =>
      cases hnext
      exact ⟨h.settle hremaining _, rfl⟩
  case h_3 hremaining _ =>
      split at hnext
      · cases hnext
        exact ⟨h.settle hremaining _, rfl⟩
      · cases hnext
        exact ⟨h, rfl⟩
  case h_4 hremaining _ =>
      cases hnext
      exact ⟨h.settle hremaining _, rfl⟩
  case h_5 => cases hnext

theorem lists_write (recovery : Recovery) (manager : Manager) (k : SessionId) :
    (recovery.write manager).lists k
      = if k = recovery.session.id then (manager.lists recovery.session.id).map fun lists =>
          (lists.rollback recovery.toPending).markUncertain recovery.toUncertain
        else manager.lists k := by
  unfold Recovery.write
  simp only [Manager.lists_markProcessingAsUncertain, Manager.lists_rollbackProcessingToPending,
    if_true, Option.map_map]
  by_cases hk : k = recovery.session.id
  · simp [hk, Function.comp_def]
  · simp [hk]

theorem keeps_write (h : recovery.Consistent history) {manager : Manager}
    (hcurrent : ∀ lists, manager.lists recovery.session.id = some lists →
      ∀ c ∈ recovery.toUncertain, c ∉ lists.pendingCallIds ∧ c ∉ lists.deliveredCallIds) :
    KeepsOthers history recovery.session.id manager (recovery.write manager) := by
  refine .of_lists (recovery.lists_write manager) fun lists hlists hs => ?_
  apply (hs.rollback _).markUncertain
  · intro c hc
    obtain ⟨hpending, hdelivered⟩ := hcurrent lists hlists c hc
    refine ⟨fun hback => ?_, hdelivered⟩
    rcases List.mem_addNew.mp hback with hqueued | hrolled
    · exact hpending hqueued
    · have hdisjoint := List.disjoint_of_nodup_append h.1
      exact hdisjoint (List.mem_append.mpr (.inr (List.mem_within.mp hrolled).2)) hc
  · exact fun c hc => h.2 c (List.mem_append.mpr (.inr hc))

end Recovery

structure DeliveryRun.Sound (run : DeliveryRun) : Prop where
  settled : ∀ sessionId, SettledAt run.history run.manager sessionId
  holders : ∀ holder ∈ run.holders.rows,
    holder.call.Consistent run.history holder.sessionId
  recoveries : ∀ recovery ∈ run.recoveries, recovery.Consistent run.history
  wakes : ∀ entry ∈ run.history.retired, entry.2.isRecoveryWake = true

section

variable {history : DeliveryHistory} {sessionId k : SessionId} {stretch : Stretch}
  {run next : DeliveryRun} {manager : Manager}

theorem Settled.extend_other {lists : CallLists} (h : Settled history k lists)
    (hk : k ≠ sessionId) : Settled (history.extend sessionId stretch) k lists := by
  have hne : sessionId ≠ k := fun heq => hk heq.symm
  apply h.congr
  · simp [DeliveryHistory.extend, hne]
  · intro c hc
    simp [DeliveryHistory.extend, hc]
  · simp [DeliveryHistory.extend, hne]

theorem mem_extend_enqueued {entry : SessionId × CallId} (h : entry ∈ history.enqueued) :
    entry ∈ (history.extend sessionId stretch).enqueued :=
  List.mem_append.mpr (.inl h)

theorem LockedCall.Consistent.extend_other {call : LockedCall} (h : call.Consistent history k)
    (hk : k ≠ sessionId) : call.Consistent (history.extend sessionId stretch) k := by
  cases call with
  | admitting => exact h
  | pumping => trivial
  | allowing => exact ⟨h.1, h.2.1.extend_other hk, h.2.2⟩
  | readying => exact ⟨h.1, mem_extend_enqueued h.2⟩
  | rechecking => exact ⟨h.1, mem_extend_enqueued h.2.1, h.2.2⟩
  | submitting => exact mem_extend_enqueued h
  | turning => trivial
  | withdrawing => exact h
  | querying => exact ⟨h.1, h.2.1.extend_other hk, h.2.2⟩
  | nudging => exact ⟨h.1, h.2.1.extend_other hk, h.2.2⟩
  | reporting => exact ⟨h.1, h.2.extend_other hk⟩

theorem Recovery.Consistent.extend {recovery : Recovery} (h : recovery.Consistent history) :
    recovery.Consistent (history.extend sessionId stretch) :=
  ⟨h.1, fun c hc => mem_extend_enqueued (h.2 c hc)⟩

namespace DeliveryRun

@[simp] theorem manager_settle (run : DeliveryRun) (sessionId : SessionId) (stretch : Stretch) :
    (run.settle sessionId stretch).manager = stretch.manager := by
  unfold settle
  split <;> rfl

@[simp] theorem history_settle (run : DeliveryRun) (sessionId : SessionId) (stretch : Stretch) :
    (run.settle sessionId stretch).history = run.history.extend sessionId stretch := by
  unfold settle
  split <;> rfl

theorem recoveries_settle (run : DeliveryRun) (sessionId : SessionId) (stretch : Stretch) :
    (run.settle sessionId stretch).recoveries = run.recoveries := by
  unfold settle
  split <;> rfl

/-- A lock holder after the stretch of one session is that session's, waiting where the
stretch says, or was there before for another session. -/
theorem mem_holders_settle {holder : LockHolder}
    (h : holder ∈ (run.settle sessionId stretch).holders.rows) :
    holder.sessionId = sessionId ∧ stretch.next = .waits holder.call
      ∨ holder ∈ run.holders.rows ∧ holder.sessionId ≠ sessionId := by
  unfold settle at h
  split at h
  · next call hnext =>
      rcases Table.mem_insert.mp h with rfl | hold
      · exact .inl ⟨rfl, hnext⟩
      · exact .inr hold
  · exact .inr (Table.mem_erase.mp h)

namespace Sound

theorem settle (h : run.Sound)
    (hstretch : Stretch.Sound run.history sessionId run.manager stretch) :
    (run.settle sessionId stretch).Sound where
  settled k := by
    rw [manager_settle, history_settle]
    by_cases hk : k = sessionId
    · subst hk
      exact hstretch.settled
    · intro lists hlists
      rw [hstretch.others k hk] at hlists
      exact (h.settled k lists hlists).extend_other hk
  holders holder hholder := by
    rw [history_settle]
    rcases mem_holders_settle hholder with ⟨rfl, hnext⟩ | ⟨hold, hne⟩
    · have hconsistent := hstretch.next
      rw [hnext] at hconsistent
      exact hconsistent
    · exact (h.holders holder hold).extend_other hne
  recoveries recovery hrecovery := by
    rw [recoveries_settle] at hrecovery
    rw [history_settle]
    exact (h.recoveries recovery hrecovery).extend
  wakes entry hentry := by
    rw [history_settle] at hentry
    rcases List.mem_append.mp hentry with hold | hnew
    · exact h.wakes entry hold
    · obtain ⟨callId, hcall, rfl⟩ := List.mem_map.mp hnew
      exact hstretch.wakes callId hcall

theorem write (h : run.Sound) (hkeeps : KeepsOthers run.history sessionId run.manager manager) :
    { run with manager := manager }.Sound where
  settled k := by
    by_cases hk : k = sessionId
    · subst hk
      exact hkeeps.settled (h.settled k)
    · intro lists hlists
      exact h.settled k lists ((hkeeps.others k hk).symm.trans hlists)
  holders := h.holders
  recoveries := h.recoveries
  wakes := h.wakes

theorem partitioned (h : run.Sound) : run.Partitioned := by
  intro sessionId lists hlists callId
  have hs := h.settled sessionId lists hlists
  constructor
  · intro henqueued
    by_cases hheld : 0 < lists.held callId
    · exact .inl (hs.single.existsUnique hheld)
    · have hretired := (hs.kept callId henqueued).resolve_left hheld
      exact .inr ⟨fun state hmem => hheld (CallLists.held_of_mem state hmem), hretired,
        h.wakes _ hretired⟩
  · intro hacked
    have hdelivered : callId ∈ lists.callIds .delivered := hs.acked callId hacked
    exact ⟨hdelivered, fun state hstate => hs.single.unique hstate hdelivered⟩

end Sound

/-! ## One step -/

theorem start_sound (h : run.Sound) {stretch : ManagedSession → Stretch}
    (hstretch : ∀ session, run.manager.sessions.get? sessionId = some session →
      Stretch.Sound run.history sessionId run.manager (stretch session))
    (hstep : run.start sessionId stretch = some next) : next.Sound := by
  unfold start at hstep
  split at hstep
  · cases hstep
  · split at hstep
    · cases hstep
      exact { h with }
    · next session hget =>
        cases hstep
        exact h.settle (hstretch session hget)

/-- The marks of the lock holders, as `marks` gives them. -/
def CallMarksCurrent (manager : Manager) (sessionId : SessionId) (callId : CallId) : Prop :=
  ∀ lists, manager.lists sessionId = some lists →
    callId ∉ lists.pendingCallIds ∧ callId ∉ lists.deliveredCallIds

theorem markOne_sound {callId : CallId} {rest : List CallId} {caller : PumpCaller}
    (hs : SettledAt history manager sessionId)
    (henqueued : (sessionId, callId) ∈ history.enqueued)
    (hcurrent : CallMarksCurrent manager sessionId callId) :
    Stretch.Sound history sessionId manager
      ⟨manager.markProcessingAsUncertain sessionId [callId], .waits (.pumping rest caller),
        [], [], []⟩ := by
  refine .quiet hs (.markUncertain (fun lists hlists c hc => ?_) fun c hc => ?_) trivial
  · obtain rfl := List.mem_singleton.mp hc
    exact hcurrent lists hlists
  · obtain rfl := List.mem_singleton.mp hc
    exact henqueued

theorem resumed_sound {call : LockedCall} {answer : LockAnswer} {around : Surroundings}
    (hs : SettledAt history manager sessionId) (hcall : call.Consistent history sessionId)
    (hready : ∀ session callId rest caller, call = .readying session callId rest caller →
      answer = .seatGone → CallMarksCurrent manager sessionId callId)
    (hsubmit : ∀ callId rest caller, call = .submitting callId rest caller →
      answer = .sendFailed → CallMarksCurrent manager sessionId callId)
    (hresumed : resumed manager sessionId call answer around = some stretch) :
    Stretch.Sound history sessionId manager stretch := by
  unfold resumed at hresumed
  split at hresumed
  case h_1 request current =>
      split at hresumed
      · obtain ⟨session, hget, rfl⟩ := Option.map_eq_some_iff.mp hresumed
        exact sendSessionMessageLocked_sound hs hget request
      · obtain ⟨callId, hcallId, rfl⟩ := Option.map_eq_some_iff.mp hresumed
        exact withdraw_sound hs (hcall callId hcallId) _ fun _ => trivial
  case h_2 rest caller =>
      cases hresumed
      exact pumpNext_sound hs
  case h_3 session callId rest caller current =>
      cases hresumed
      obtain ⟨hid, hsession, hmem, hwake⟩ := hcall
      split
      · exact pumpCall_sound hs hid hsession hmem
      · exact withdraw_sound hs hwake _ fun _ => trivial
  case h_4 session callId rest caller =>
      cases hresumed
      split
      · next hwake => exact .idle hs ⟨hcall.1, hcall.2, hwake⟩
      · exact handOver_sound hs hcall.2
  case h_5 session callId rest caller =>
      cases hresumed
      exact markOne_sound hs hcall.2 (hready _ _ _ _ rfl rfl)
  case h_6 session callId rest caller =>
      cases hresumed
      exact notReady_sound hs hcall.1
  case h_7 session callId rest caller current =>
      cases hresumed
      obtain ⟨hid, henqueued, hwake⟩ := hcall
      split
      · exact handOver_sound hs henqueued
      · have hrolled : KeepsOthers history sessionId manager
            (manager.rollbackProcessingToPending session.taskId sessionId [callId]) :=
          .rollback _ _
        exact .afterKeeps hrolled
          (withdraw_sound (hrolled.settled hs) hwake _ fun _ => trivial)
  case h_8 callId rest caller =>
      cases hresumed
      exact .idle hs trivial
  case h_9 callId rest caller =>
      cases hresumed
      exact markOne_sound hs hcall (hsubmit _ _ _ rfl rfl)
  case h_10 callId caller =>
      cases hresumed
      exact .idle hs trivial
  case h_11 callId caller evidence cancelled =>
      cases hresumed
      exact turnFailed_sound hs evidence cancelled
  case h_12 callId current =>
      cases hresumed
      split
      · exact .idle hs trivial
      · exact withdraw_sound hs hcall _ fun _ => trivial
  case h_13 session task callId present =>
      cases hresumed
      obtain ⟨hid, hsession, hmem⟩ := hcall
      split
      · exact .idle hs trivial
      · exact retryWithReceipt_sound hs hid hsession hmem _ _
  case h_14 session task callId confirmed =>
      cases hresumed
      obtain ⟨hid, hsession, hmem⟩ := hcall
      split
      · exact .idle hs trivial
      · exact .quiet hs (undoRetry_keeps hid (hsession.undoAccepted hmem) _) trivial
  case h_15 session acks =>
      cases hresumed
      exact takeReport_sound hs hcall.1 hcall.2 acks
  case h_16 => cases hresumed

theorem storeRecovery_sound (h : run.Sound) {recovery : Recovery} {index : Nat}
    (hrecovery : recovery.Consistent run.history)
    (hcurrent : recovery.remaining = [] → ∀ lists,
      run.manager.lists recovery.session.id = some lists → ∀ c ∈ recovery.toUncertain,
        c ∉ lists.pendingCallIds ∧ c ∉ lists.deliveredCallIds) :
    (run.storeRecovery index recovery).Sound := by
  unfold storeRecovery
  split
  · next hdone =>
      have hwritten := h.write (recovery.keeps_write hrecovery (hcurrent hdone))
      exact ⟨hwritten.settled, hwritten.holders,
        fun r hr => h.recoveries r (List.mem_of_mem_eraseIdx hr), hwritten.wakes⟩
  · refine ⟨h.settled, h.holders, fun r hr => ?_, h.wakes⟩
    rcases List.mem_or_eq_of_mem_set hr with hold | rfl
    · exact h.recoveries r hold
    · exact hrecovery

theorem settled_of_isFresh (hfresh : history.isFresh sessionId = true) :
    Settled history sessionId {} := by
  have hnone : ∀ c, (sessionId, c) ∉ history.enqueued ∧ (sessionId, c) ∉ history.acked := by
    intro c
    constructor <;> intro hmem
    · have hne := List.all_eq_true.mp hfresh _ (List.mem_append.mpr (.inl hmem))
      simp at hne
    · have hne := List.all_eq_true.mp hfresh _ (List.mem_append.mpr (.inr hmem))
      simp at hne
  constructor
  · intro c
    simp [CallLists.held]
  · exact fun c hc => absurd hc (hnone c).1
  · intro c hc
    simp [CallLists.held] at hc
  · exact fun c hc => absurd hc (hnone c).2

theorem step_sound (h : run.Sound) {op : DeliveryOp} (hok : run.MarksCurrent op)
    (hstep : run.step op = some next) : next.Sound := by
  cases op with
    simp only [step] at hstep
  | openSession =>
    split at hstep
    · next hguard =>
        cases hstep
        obtain ⟨hempty, hfresh⟩ := hguard
        exact h.write (.putSession rfl (hempty ▸ settled_of_isFresh hfresh))
    · cases hstep
  | editSession session =>
    split at hstep
    · next hsame =>
        cases hstep
        exact h.write (.putSession rfl (h.settled session.id _ hsame))
    · cases hstep
  | editTask =>
    cases hstep
    exact { h with }
  | send sessionId request =>
    split at hstep
    · cases hstep
      exact { h with }
    · exact start_sound h
        (fun session hget => sendSessionMessage_sound (h.settled _) hget request) hstep
  | resumeCall sessionId callId =>
    exact start_sound h
      (fun session _ => resumeExistingCall_sound (h.settled _) session callId) hstep
  | pump =>
    exact start_sound h (fun _ _ => startPump_sound (h.settled _) _ _) hstep
  | retry sessionId callId evidence =>
    exact start_sound h
      (fun session hget => retryUncertainDelivery_sound (h.settled _) hget evidence) hstep
  | createReport =>
    refine start_sound h (fun session hget => ?_) hstep
    exact .idle (h.settled _) ((h.settled _).of_get? hget)
  | proceed sessionId =>
    obtain ⟨holder, hholder, hmapped⟩ := Option.bind_eq_some_iff.mp hstep
    obtain ⟨stretch, hresumed, rfl⟩ := Option.map_eq_some_iff.mp hmapped
    obtain ⟨hmem, hkey⟩ := Table.get?_eq_some.mp hholder
    have hcall := h.holders holder hmem
    rw [hkey] at hcall
    refine h.settle (resumed_sound (h.settled _) hcall ?_ ?_ hresumed)
    · rintro session callId rest caller hready rfl lists hlists
      exact hok (sessionId, [callId]) (by simp [marks, hholder, hready]) lists hlists callId
        (List.mem_singleton_self _)
    · rintro callId rest caller hsubmit rfl lists hlists
      exact hok (sessionId, [callId]) (by simp [marks, hholder, hsubmit]) lists hlists callId
        (List.mem_singleton_self _)
  | abandon =>
    split at hstep
    · cases hstep
    · cases hstep
    · cases hstep
      exact h.settle (.idle (h.settled _) trivial)
  | recover sessionId =>
    split at hstep
    · cases hstep
      exact h
    · next session hget =>
        split at hstep
        · cases hstep
          exact h
        · split at hstep
          · cases hstep
          · cases hstep
            obtain ⟨hid, hsession⟩ := (h.settled sessionId).of_get? hget
            refine ⟨h.settled, h.holders, fun r hr => ?_, h.wakes⟩
            rcases List.mem_append.mp hr with hold | hnew
            · exact h.recoveries r hold
            · obtain rfl := List.mem_singleton.mp hnew
              have hnodup : session.processingCallIds.Nodup := hsession.nodup .processing
              refine ⟨by simpa using hnodup, fun c hc => ?_⟩
              have hprocessing : c ∈ session.processingCallIds := by simpa using hc
              rw [hid]
              exact hsession.enqueued_of_mem .processing hprocessing
  | recoverChat =>
    split at hstep
    · cases hstep
      exact h.write (.recoverChat _)
    · cases hstep
  | answerRecovery =>
    obtain ⟨recovery', hnext, rfl⟩ := Option.map_eq_some_iff.mp hstep
    obtain ⟨recovery, hget, hanswer⟩ := Option.bind_eq_some_iff.mp hnext
    have hmem : recovery ∈ run.recoveries := List.mem_of_getElem? hget
    obtain ⟨hconsistent, -⟩ := (h.recoveries recovery hmem).next hanswer
    refine storeRecovery_sound h hconsistent fun hdone lists hlists => ?_
    refine hok (recovery'.session.id, recovery'.toUncertain) ?_ lists hlists
    simp [marks, hnext, hdone]
  | abandonRecovery =>
    cases hstep
    exact ⟨h.settled, h.holders, fun r hr => h.recoveries r (List.mem_of_mem_eraseIdx hr),
      h.wakes⟩
  | expireLeases sessionId now =>
    cases hstep
    exact h.write (.expireLeases now)
  | coldStart =>
    split at hstep
    · cases hstep
      exact h.write .coldStart
    · cases hstep

theorem not_partitioned (sessionId : SessionId) (lists : CallLists) (callId : CallId)
    (hlists : run.manager.lists sessionId = some lists)
    (henqueued : (sessionId, callId) ∈ run.history.enqueued)
    (huncertain : callId ∈ lists.uncertainCallIds)
    (hother : callId ∈ lists.pendingCallIds ∨ callId ∈ lists.deliveredCallIds) :
    ¬ run.Partitioned := by
  intro hpartitioned
  have hu : callId ∈ lists.callIds .uncertain := huncertain
  rcases (hpartitioned sessionId lists hlists callId).1 henqueued with hone | ⟨hnone, -⟩
  · rcases hother with hpending | hdelivered
    · exact CallLists.not_existsUnique (s := .uncertain) (t := .pending) (by decide) hu
        hpending hone
    · exact CallLists.not_existsUnique (s := .uncertain) (t := .delivered) (by decide) hu
        hdelivered hone
  · exact hnone .uncertain hu

theorem step_not_partitioned (h : run.Sound) {op : DeliveryOp} (hlate : ¬ run.MarksCurrent op)
    (hstep : run.step op = some next) : ¬ next.Partitioned := by
  unfold MarksCurrent at hlate
  push Not at hlate
  obtain ⟨⟨sessionId, callIds⟩, hmarks, lists, hlists, callId, hmem, himp⟩ := hlate
  have hother : callId ∈ lists.pendingCallIds ∨ callId ∈ lists.deliveredCallIds := by
    by_contra hnot
    obtain ⟨hp, hd⟩ := not_or.mp hnot
    exact hd (himp hp)
  have henqueued : (sessionId, callId) ∈ run.history.enqueued := by
    have hs := h.settled sessionId lists hlists
    rcases hother with hpending | hdelivered
    · exact hs.enqueued_of_mem .pending hpending
    · exact hs.enqueued_of_mem .delivered hdelivered
  cases op with
  | proceed k =>
    obtain ⟨holder, hholder, hmapped⟩ := Option.bind_eq_some_iff.mp hstep
    obtain ⟨stretch, hresumed, rfl⟩ := Option.map_eq_some_iff.mp hmapped
    simp only [marks, hholder, Option.map_some] at hmarks
    have hstretch : ∃ rest caller, k = sessionId ∧ callIds = [callId] ∧ stretch
        = ⟨run.manager.markProcessingAsUncertain sessionId [callId],
          .waits (.pumping rest caller), [], [], []⟩ := by
      split at hmarks
      · next session marked rest caller hcall =>
          injection hmarks with hpair
          injection hpair with hk hids
          subst hk hids
          obtain rfl := List.mem_singleton.mp hmem
          injection hcall with hcall
          rw [hcall] at hresumed
          cases hresumed
          exact ⟨rest, caller, rfl, rfl, rfl⟩
      · next marked rest caller hcall =>
          injection hmarks with hpair
          injection hpair with hk hids
          subst hk hids
          obtain rfl := List.mem_singleton.mp hmem
          injection hcall with hcall
          rw [hcall] at hresumed
          cases hresumed
          exact ⟨rest, caller, rfl, rfl, rfl⟩
      · cases hmarks
    obtain ⟨rest, caller, rfl, -, rfl⟩ := hstretch
    refine not_partitioned k (lists.markUncertain [callId]) callId ?_ ?_ ?_ hother
    · simp [Manager.lists_markProcessingAsUncertain, hlists]
    · simpa using henqueued
    · exact List.mem_addNew.mpr (.inr (List.mem_singleton_self _))
  | answerRecovery =>
    obtain ⟨recovery, hnext, rfl⟩ := Option.map_eq_some_iff.mp hstep
    simp only [marks, hnext] at hmarks
    split at hmarks
    · next hdone =>
        injection hmarks with hpair
        injection hpair with hk hids
        subst hk hids
        refine not_partitioned recovery.session.id
          ((lists.rollback recovery.toPending).markUncertain recovery.toUncertain) callId
          ?_ ?_ ?_ ?_
        · simp [storeRecovery, hdone, Recovery.lists_write, hlists]
        · simpa [storeRecovery, hdone] using henqueued
        · exact List.mem_addNew.mpr (.inr hmem)
        · exact hother.imp_left fun hp => List.mem_addNew.mpr (.inl hp)
    · cases hmarks
  | openSession | editSession | editTask | send | resumeCall | pump | retry | createReport
  | abandon | recover | recoverChat | abandonRecovery | expireLeases | coldStart =>
    cases hmarks

theorem mem_loaded_enqueued {manager : Manager} {sessionId : SessionId} {callId : CallId} :
    (sessionId, callId) ∈ (loaded manager).history.enqueued
      ↔ ∃ session ∈ manager.sessions.rows, session.id = sessionId ∧ 0 < session.held callId := by
  have hheld : ∀ session : ManagedSession, 0 < session.held callId ↔
      callId ∈ session.pendingCallIds ++ session.processingCallIds ++ session.uncertainCallIds
        ++ session.deliveredCallIds := by
    intro session
    simp only [CallLists.held, ← List.count_append, List.count_pos_iff]
  simp only [loaded, List.mem_flatMap, List.mem_map, Prod.mk.injEq, hheld]
  constructor
  · rintro ⟨session, hmem, c, hc, hid, rfl⟩
    exact ⟨session, hmem, hid, hc⟩
  · rintro ⟨session, hmem, hid, hc⟩
    exact ⟨session, hmem, callId, hc, hid, rfl⟩

theorem loaded_sound (hsingle : ∀ session ∈ manager.sessions.rows, session.Single) :
    (loaded manager).Sound where
  settled sessionId lists hlists := by
    obtain ⟨session, hget, rfl⟩ := Option.map_eq_some_iff.mp hlists
    obtain ⟨hmem, hid⟩ := Table.get?_eq_some.mp hget
    constructor
    · exact hsingle session hmem
    · intro callId hc
      obtain ⟨other, hother, hotherId, hheld⟩ := mem_loaded_enqueued.1 hc
      rw [Table.eq_of_mem hother hmem (hotherId.trans hid.symm)] at hheld
      exact .inl hheld
    · exact fun callId hc => mem_loaded_enqueued.2 ⟨session, hmem, hid, hc⟩
    · intro callId hc
      obtain ⟨other, hother, hpair⟩ := List.mem_flatMap.mp hc
      obtain ⟨c, hdelivered, heq⟩ := List.mem_map.mp hpair
      obtain ⟨hotherId, rfl⟩ := Prod.mk.inj heq
      rw [Table.eq_of_mem hother hmem (hotherId.trans hid.symm)] at hdelivered
      exact hdelivered
  holders := by simp [loaded]
  recoveries := by simp [loaded]
  wakes := by simp [loaded]

/-- In a run of the service, every state keeps each call in exactly one delivery state, and
what the worker acknowledged in delivered alone, exactly when no verdict is written after
its call was queued again or acknowledged. -/
theorem forall_partitioned_iff {ops : List DeliveryOp}
    (hsingle : ∀ session ∈ manager.sessions.rows, session.Single)
    (hrun : Run step (fun _ _ => True) (loaded manager) ops run) :
    (∀ visited, Visits step (loaded manager) ops visited → visited.Partitioned)
      ↔ Run step MarksCurrent (loaded manager) ops run :=
  hrun.forall_visits_iff (fun _ h => h.partitioned)
    (fun _ _ _ h hok hstep => step_sound h hok hstep)
    (fun _ _ _ h hlate hstep => step_not_partitioned h hlate hstep)
    (loaded_sound hsingle)

private def freshWorker : Manager where
  sessions := Table.empty.insert { id := "worker", taskId := some "task" }
  tasks := Table.empty.insert { id := "task", sessionId := some "worker" }

private def dispatched : List DeliveryOp :=
  [.send "worker" { message := "prompt", callId := some (.dispatch "task" 1) } {},
    .proceed "worker" .goOn {}, .proceed "worker" .ready {}, .proceed "worker" .sent {},
    .proceed "worker" .goOn {}]

private def dispatchReported : List DeliveryOp :=
  [.createReport "worker",
    .proceed "worker" (.report { taskId := some "task", callIds := [.dispatch "task" 1] }) {}]

/-- A dispatch whose receipt is present and which the worker then acknowledges. -/
theorem forall_partitioned_iff_dispatched : ∃ run,
    Run step MarksCurrent (loaded freshWorker)
      (dispatched ++ [.recover "worker", .answerRecovery 0 (.receipt (some true)),
        .answerRecovery 0 (.submitted true)] ++ dispatchReported) run
    ∧ ∀ visited, Visits step (loaded freshWorker)
        (dispatched ++ [.recover "worker", .answerRecovery 0 (.receipt (some true)),
          .answerRecovery 0 (.submitted true)] ++ dispatchReported) visited →
      visited.Partitioned := by
  have hexec : ((execOk step MarksCurrent (loaded freshWorker)
      (dispatched ++ [.recover "worker", .answerRecovery 0 (.receipt (some true)),
        .answerRecovery 0 (.submitted true)] ++ dispatchReported)).map fun run =>
        run.manager.lists "worker")
      = some (some { deliveredCallIds := [.dispatch "task" 1] }) := by decide +kernel
  obtain ⟨run, hrun, -⟩ := Option.map_eq_some_iff.mp hexec
  have hguarded := Run.of_execOk hrun
  have hsingle : ∀ session ∈ freshWorker.sessions.rows, session.Single := by
    intro session hmem callId
    obtain rfl := List.mem_singleton.mp hmem
    simp [CallLists.held]
  exact ⟨run, hguarded, (forall_partitioned_iff hsingle
    (hguarded.mono fun _ _ _ => trivial)).mpr hguarded⟩

/-- The receipt query of a recovery fails after the worker has acknowledged the call: the
call is put into uncertain and stays in delivered. -/
theorem acknowledged_call_marked_uncertain : ∃ run,
    Run step (fun _ _ => True) (loaded freshWorker)
      (dispatched ++ [.recover "worker"] ++ dispatchReported
        ++ [.answerRecovery 0 (.receipt none)]) run
    ∧ ("worker", .dispatch "task" 1) ∈ run.history.acked
    ∧ run.manager.lists "worker" = some
        { deliveredCallIds := [.dispatch "task" 1], uncertainCallIds := [.dispatch "task" 1] }
    ∧ ¬ run.Partitioned := by
  have hexec : ((exec step (loaded freshWorker)
      (dispatched ++ [.recover "worker"] ++ dispatchReported
        ++ [.answerRecovery 0 (.receipt none)])).map fun run =>
        (run.manager.lists "worker", run.history))
      = some (some { deliveredCallIds := [.dispatch "task" 1],
                     uncertainCallIds := [.dispatch "task" 1] },
          { enqueued := [("worker", .dispatch "task" 1)],
            acked := [("worker", .dispatch "task" 1)] }) := by decide +kernel
  obtain ⟨run, hrun, hends⟩ := Option.map_eq_some_iff.mp hexec
  obtain ⟨hlists, hhistory⟩ := Prod.mk.inj hends
  refine ⟨run, Run.of_exec hrun, by rw [hhistory]; exact List.mem_singleton_self _, hlists,
    not_partitioned "worker" _ (.dispatch "task" 1) hlists ?_ (List.mem_singleton_self _)
      (.inr (List.mem_singleton_self _))⟩
  rw [hhistory]
  exact List.mem_singleton_self _

end DeliveryRun

end

end ClaudeHub
