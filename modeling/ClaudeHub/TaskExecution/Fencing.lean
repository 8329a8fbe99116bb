import ClaudeHub.Lib.LastIndex
import ClaudeHub.TaskExecution.Changes

/-! # The fence holds

Whatever the clients send and whichever saves fail, a mutation is issued against the version
of the task at that moment and moves it on, a call is applied once, and a key that a handoff
has replaced is of no use until a handoff brings it again.
-/

namespace ClaudeHub

open StepSystem

section

variable (sha256 : String → String) (taskId : TaskId)

/-- What holds of a request after those answered earlier. -/
structure FencedAt (earlier : List Answered) (answered : Answered) : Prop where
  /-- A mutation is issued against the current version, and increases it. -/
  current : ∀ event, answered.applies event → ∃ task next,
    answered.before.tasks.get? taskId = some task ∧
      answered.after.tasks.get? taskId = some next ∧
      answered.request.expectedExecutionEpoch = task.executionEpoch ∧
      answered.request.expectedProgressRevision = task.progressRevision ∧
      task.version < next.version
  /-- The version that an earlier mutation has left is never undercut. -/
  increasing : ∀ first ∈ earlier, ∀ event event', first.applies event →
    answered.applies event' → ∃ next task, first.after.tasks.get? taskId = some next ∧
      answered.before.tasks.get? taskId = some task ∧ next.version ≤ task.version
  /-- After a handoff, a reporter's key is one that this or a later handoff has brought. -/
  replaced : ∀ (i : Nat) (handoff : Answered) event event' hash key,
    earlier[i]? = some handoff → handoff.applies event →
    handoff.request.installs sha256 = some hash → answered.applies event' →
    answered.request.presents = some key →
    ∃ (m : Nat) (between : Answered), i ≤ m ∧ earlier[m]? = some between ∧
      between.request.installs sha256 = some (some (sha256 key))
  /-- A call that has been applied changes nothing when it is repeated. -/
  repeated : ∀ first ∈ earlier, ∀ event, first.applies event →
    answered.request.callId = first.request.callId →
    answered.after = answered.before ∧
      eventsOf answered.after.mailbox.events (executionCallId taskId first.request.callId) =
        [event] ∧
      ∀ result, answered.answer = .ok result → result.replayed = true ∧ result.event = event
  /-- Where a request raises, as it does when its save fails, nothing has changed. -/
  refused : ∀ error, answered.answer = .error error → answered.after = answered.before

def Fenced (history : List Answered) : Prop :=
  ∀ earlier answered later, history = earlier ++ answered :: later →
    FencedAt sha256 taskId earlier answered

/-- A task is not behind the mutations of the history, and its key comes from the last
handoff or from a later request. -/
structure TaskCarries (history : List Answered) (found : Option TaskRecord) : Prop where
  version : ∀ answered ∈ history, ∀ event, answered.applies event → ∃ next task,
    answered.after.tasks.get? taskId = some next ∧ found = some task ∧
      next.version ≤ task.version
  keyHash : ∀ (i : Nat) (answered : Answered) event hash, history[i]? = some answered →
    answered.applies event → answered.request.installs sha256 = some hash →
    ∀ task digest, found = some task → task.reporterKeyHash = some digest →
    ∃ (m : Nat) (between : Answered), i ≤ m ∧ history[m]? = some between ∧
      between.request.installs sha256 = some (some digest)

def EventsCarry (history : List Answered) (events : List TaskEvent) : Prop :=
  ∀ answered ∈ history, ∀ event, answered.applies event → event.taskId = taskId ∧
    eventsOf events (executionCallId taskId answered.request.callId) = [event]

def CallsCarry (history : List Answered) (calls : CallIndex) : Prop :=
  ∀ answered ∈ history, ∀ event, answered.applies event → ∃ record,
    calls.get? (executionCallId taskId answered.request.callId) = some record ∧
      record.event = event

structure FenceInv (run : ExecutionRun) : Prop where
  live : TaskCarries sha256 taskId run.history (run.hub.live.tasks.get? taskId)
  saved : TaskCarries sha256 taskId run.history (run.hub.saved.tasks.get? taskId)
  liveEvents : EventsCarry taskId run.history run.hub.live.mailbox.events
  savedEvents : EventsCarry taskId run.history run.hub.saved.taskEvents
  calls : CallsCarry taskId run.history run.hub.live.mailbox.callIndex
  indexed : run.hub.live.mailbox.Indexed
  fenced : Fenced sha256 taskId run.history

end

section

variable {sha256 : String → String} {taskId : TaskId} {history : List Answered}
  {answered : Answered}

theorem fenceInv_init : FenceInv sha256 taskId {} where
  live := ⟨by simp, by simp⟩
  saved := ⟨by simp, by simp⟩
  liveEvents := by simp [EventsCarry]
  savedEvents := by simp [EventsCarry]
  calls := by simp [CallsCarry]
  indexed := by simp [TaskMailbox.Indexed]
  fenced := by simp [Fenced]

theorem fenced_concat (h : Fenced sha256 taskId history)
    (hnew : FencedAt sha256 taskId history answered) :
    Fenced sha256 taskId (history ++ [answered]) := by
  intro earlier other later hsplit
  rcases List.eq_nil_or_concat later with rfl | ⟨rest, last, rfl⟩
  · obtain ⟨rfl, hlast⟩ := List.append_inj' hsplit rfl
    obtain rfl : answered = other := by simpa using hlast
    exact hnew
  · have hsplit' : history ++ [answered] = (earlier ++ other :: rest) ++ [last] := by
      simpa using hsplit
    obtain ⟨hhistory, -⟩ := List.append_inj' hsplit' rfl
    exact h earlier other rest hhistory

theorem version_le_of_keeps {task next : TaskRecord}
    (h : KeepsFence (some task) (some next)) : task.version ≤ next.version :=
  Prod.Lex.toLex_le_toLex.mpr (.inr ⟨h.1.symm, h.2.1⟩)

theorem TaskCarries.keeps {found found' : Option TaskRecord}
    (h : TaskCarries sha256 taskId history found) (hkeeps : KeepsFence found found') :
    TaskCarries sha256 taskId history found' where
  version answered hmem event happlies := by
    obtain ⟨next, task, hnext, rfl, hle⟩ := h.version answered hmem event happlies
    cases found' with
    | none => exact hkeeps.elim
    | some later => exact ⟨next, later, hnext, rfl, hle.trans (version_le_of_keeps hkeeps)⟩
  keyHash i answered event hash hi happlies hinstalls later digest hfound hdigest := by
    subst hfound
    obtain ⟨-, task, -, rfl, -⟩ :=
      h.version answered (List.mem_of_getElem? hi) event happlies
    exact h.keyHash i answered event hash hi happlies hinstalls task digest rfl
      (hkeeps.2.2.symm.trans hdigest)

theorem TaskCarries.concat {found : Option TaskRecord}
    (h : TaskCarries sha256 taskId history found) (hnone : ∀ event, ¬ answered.applies event) :
    TaskCarries sha256 taskId (history ++ [answered]) found where
  version other hmem event happlies := by
    rcases List.mem_append.mp hmem with hold | hnew
    · exact h.version other hold event happlies
    · obtain rfl := List.mem_singleton.mp hnew
      exact absurd happlies (hnone event)
  keyHash i other event hash hi happlies hinstalls task digest hfound hdigest := by
    rcases List.getElem?_concat_eq_some.mp hi with hold | ⟨-, rfl⟩
    · obtain ⟨m, between, hle, hm, hbrings⟩ :=
        h.keyHash i other event hash hold happlies hinstalls task digest hfound hdigest
      exact ⟨m, between, hle, List.getElem?_append_of_some _ hm, hbrings⟩
    · exact absurd happlies (hnone event)

theorem TaskCarries.change {manager : ExecutionManager} {change : ExecutionChange}
    {task : TaskRecord} (h : TaskCarries sha256 taskId history (some task)) (answered : Answered)
    (hchange : IntakeChange sha256 manager taskId answered.request change task)
    (hafter : ∀ event, answered.applies event →
      answered.after.tasks.get? taskId = some change.next) :
    TaskCarries sha256 taskId (history ++ [answered]) (some change.next) where
  version other hmem event happlies := by
    have hversion := change.next_version
    rcases List.mem_append.mp hmem with hold | hnew
    · obtain ⟨next, found, hnext, hfound, hle⟩ := h.version other hold event happlies
      cases hfound
      refine ⟨next, change.next, hnext, rfl, ?_⟩
      rw [hversion]
      exact hle.trans (le_of_lt hchange.version)
    · obtain rfl := List.mem_singleton.mp hnew
      refine ⟨change.next, change.next, hafter event happlies, rfl, ?_⟩
      exact Preorder.le_refl _
  keyHash i other event hash hi happlies hinstalls found digest hfound hdigest := by
    cases hfound
    have hhash : change.next.reporterKeyHash =
        (answered.request.installs sha256).getD task.reporterKeyHash :=
      change.next_reporterKeyHash.trans hchange.keyHash
    have hlast : (history ++ [answered])[history.length]? = some answered := by simp
    cases hnew : answered.request.installs sha256 with
    | some installed =>
      have hinstalled : installed = some digest := by
        rw [hnew, Option.getD_some] at hhash
        exact hhash.symm.trans hdigest
      have hile : i ≤ history.length := by
        have hlt := (List.getElem?_eq_some_iff.mp hi).1
        rw [List.length_append, List.length_singleton] at hlt
        omega
      exact ⟨history.length, answered, hile, hlast, hinstalled ▸ hnew⟩
    | none =>
      rw [hnew, Option.getD_none] at hhash
      rcases List.getElem?_concat_eq_some.mp hi with hold | ⟨-, rfl⟩
      · obtain ⟨m, between, hle, hm, hbrings⟩ := h.keyHash i other event hash hold happlies
          hinstalls task digest rfl (hhash.symm.trans hdigest)
        exact ⟨m, between, hle, List.getElem?_append_of_some _ hm, hbrings⟩
      · exact absurd (hnew.symm.trans hinstalls) (by simp)

theorem EventsCarry.concat {events : List TaskEvent} (h : EventsCarry taskId history events)
    (hnone : ∀ event, ¬ answered.applies event) :
    EventsCarry taskId (history ++ [answered]) events := by
  intro other hmem event happlies
  rcases List.mem_append.mp hmem with hold | hnew
  · exact h other hold event happlies
  · obtain rfl := List.mem_singleton.mp hnew
    exact absurd happlies (hnone event)

theorem CallsCarry.concat {calls : CallIndex} (h : CallsCarry taskId history calls)
    (hnone : ∀ event, ¬ answered.applies event) :
    CallsCarry taskId (history ++ [answered]) calls := by
  intro other hmem event happlies
  rcases List.mem_append.mp hmem with hold | hnew
  · exact h other hold event happlies
  · obtain rfl := List.mem_singleton.mp hnew
    exact absurd happlies (hnone event)

section

variable {manager : ExecutionManager} {change : ExecutionChange} {event : TaskEvent}
  {mailbox : TaskMailbox} {task : TaskRecord}

theorem eventsOf_fresh {callId : CallId} (hindexed : manager.mailbox.Indexed)
    (hfresh : manager.mailbox.callIndex.get? callId = none) :
    eventsOf manager.mailbox.events callId = [] := by
  refine List.eq_nil_iff_forall_not_mem.mpr fun other hother => ?_
  obtain ⟨hmem, rfl⟩ := mem_eventsOf.mp hother
  exact absurd (hindexed other hmem) (by simp [hfresh])

theorem CallsCarry.ne_fresh {other : Answered} {applied : TaskEvent} {callId : CallId}
    (h : CallsCarry taskId history manager.mailbox.callIndex) (hmem : other ∈ history)
    (happlies : other.applies applied) (hfresh : manager.mailbox.callIndex.get? callId = none) :
    executionCallId taskId other.request.callId ≠ callId := by
  rintro rfl
  obtain ⟨record, hrecord, -⟩ := h other hmem applied happlies
  exact absurd (hrecord.symm.trans hfresh) (by simp)

theorem EventsCarry.staged (h : EventsCarry taskId history manager.mailbox.events)
    (hcalls : CallsCarry taskId history manager.mailbox.callIndex)
    (hindexed : manager.mailbox.Indexed)
    (hchange : IntakeChange sha256 manager taskId answered.request change task)
    (hstaged : EventStaged manager change event mailbox)
    (honly : ∀ applied, answered.applies applied → applied = event) :
    EventsCarry taskId (history ++ [answered]) mailbox.events := by
  intro other hmem applied happlies
  have hcallId := hstaged.callId.trans hchange.callId
  rw [hstaged.events, eventsOf_append]
  rcases List.mem_append.mp hmem with hold | hnew
  · obtain ⟨htask, hevents⟩ := h other hold applied happlies
    have hne := hcalls.ne_fresh hold happlies hchange.fresh
    have hnone : eventsOf [event] (executionCallId taskId other.request.callId) = [] := by
      have hother : event.callId ≠ executionCallId taskId other.request.callId :=
        fun heq => hne (heq.symm.trans hcallId)
      simp [eventsOf, hother]
    exact ⟨htask, by rw [hevents, hnone, List.append_nil]⟩
  · obtain rfl := List.mem_singleton.mp hnew
    obtain rfl := honly applied happlies
    have hself : eventsOf [applied] (executionCallId taskId other.request.callId) =
        [applied] := by simp [eventsOf, hcallId]
    exact ⟨hstaged.taskId.trans hchange.id,
      by rw [eventsOf_fresh hindexed hchange.fresh, hself, List.nil_append]⟩

theorem CallsCarry.staged (h : CallsCarry taskId history manager.mailbox.callIndex)
    (hchange : IntakeChange sha256 manager taskId answered.request change task)
    (hstaged : EventStaged manager change event mailbox)
    (honly : ∀ applied, answered.applies applied → applied = event) :
    CallsCarry taskId (history ++ [answered]) mailbox.callIndex := by
  obtain ⟨record, hcall, hevent, hinsert⟩ := hstaged.calls
  intro other hmem applied happlies
  rw [hinsert]
  rcases List.mem_append.mp hmem with hold | hnew
  · have hne := h.ne_fresh hold happlies hchange.fresh
    obtain ⟨found, hfound, happlied⟩ := h other hold applied happlies
    refine ⟨found, ?_, happlied⟩
    rw [Table.get?_insert_ne _ (hcall.trans hchange.callId ▸ hne)]
    exact hfound
  · obtain rfl := List.mem_singleton.mp hnew
    refine ⟨record, ?_, hevent.trans (honly applied happlies).symm⟩
    rw [← hchange.callId, ← hcall]
    exact Table.get?_insert_self _ record

theorem EventStaged.indexed (hindexed : manager.mailbox.Indexed)
    (hstaged : EventStaged manager change event mailbox) : mailbox.Indexed := by
  obtain ⟨record, hcall, -, hinsert⟩ := hstaged.calls
  intro other hother
  rw [hinsert, Table.get?_insert]
  split
  · rfl
  · rename_i hne
    rw [hstaged.events] at hother
    rcases List.mem_append.mp hother with hold | hnew
    · exact hindexed other hold
    · obtain rfl := List.mem_singleton.mp hnew
      exact absurd (hstaged.callId.trans hcall.symm) hne

end

variable {run : ExecutionRun}

theorem FenceInv.fencedAt (h : FenceInv sha256 taskId run) (request : ExecutionRequest) (now : Time)
    (outcome : SaveOutcome) :
    FencedAt sha256 taskId run.history
      ⟨request, run.hub.live, (run.hub.answer sha256 taskId request now outcome).1.live,
        (run.hub.answer sha256 taskId request now outcome).2⟩ := by
  rcases answer_cases run.hub sha256 taskId request now outcome with
    ⟨error, hanswer⟩ | ⟨task, record, hrecord, hanswer⟩ |
      ⟨task, change, event, mailbox, hchange, hstaged, hanswer⟩
  · rw [hanswer]
    refine ⟨?_, ?_, ?_, ?_, fun _ _ => rfl⟩
    · rintro event ⟨task, hok⟩
      contradiction
    · rintro first - event event' - ⟨task, hok⟩
      contradiction
    · rintro i handoff event event' hash key - - - ⟨task, hok⟩
      contradiction
    · intro first hfirst event happlies hcall
      obtain ⟨-, hevents⟩ := h.liveEvents first hfirst event happlies
      exact ⟨rfl, hevents, fun result hok => by contradiction⟩
  · rw [hanswer]
    refine ⟨?_, ?_, ?_, ?_, fun _ _ => rfl⟩
    · rintro event ⟨task, hok⟩
      exact absurd (Except.ok.inj hok) (by simp)
    · rintro first - event event' - ⟨task, hok⟩
      exact absurd (Except.ok.inj hok) (by simp)
    · rintro i handoff event event' hash key - - - ⟨task, hok⟩
      exact absurd (Except.ok.inj hok) (by simp)
    · intro first hfirst event happlies hcall
      obtain ⟨-, hevents⟩ := h.liveEvents first hfirst event happlies
      obtain ⟨found, hfound, rfl⟩ := h.calls first hfirst event happlies
      have hcall : request.callId = first.request.callId := hcall
      obtain rfl : record = found := Option.some.inj ((hcall ▸ hrecord).symm.trans hfound)
      refine ⟨rfl, hevents, fun result hok => ?_⟩
      cases hok
      exact ⟨rfl, rfl⟩
  · rw [hanswer]
    refine ⟨?_, ?_, ?_, ?_, ?_⟩
    · rintro applied ⟨next, hok⟩
      cases outcome with
      | saved =>
        refine ⟨task, change.next, hchange.found, ?_, hchange.epoch, hchange.revision, ?_⟩
        · exact committed_get? run.hub.live mailbox hchange.id
        · rw [change.next_version]
          exact hchange.version
      | notReplaced => contradiction
      | replacedThenRaised => contradiction
    · intro first hfirst applied _ happlies _
      obtain ⟨next, found, hnext, hfound, hle⟩ := h.live.version first hfirst applied happlies
      exact ⟨next, found, hnext, hfound, hle⟩
    · intro i handoff applied _ hash key hi happlies hinstalls _ hkey
      exact h.live.keyHash i handoff applied hash hi happlies hinstalls task _ hchange.found
        (hchange.presented key hkey)
    · intro first hfirst applied happlies hcall
      have hcall : request.callId = first.request.callId := hcall
      exact absurd (congrArg (executionCallId taskId) hcall.symm)
        (h.calls.ne_fresh hfirst happlies hchange.fresh)
    · intro error herror
      cases outcome with
      | saved => contradiction
      | notReplaced => rfl
      | replacedThenRaised => rfl

theorem FenceInv.quiet (h : FenceInv sha256 taskId run) (hnone : ∀ event, ¬ answered.applies event)
    (hfenced : FencedAt sha256 taskId run.history answered) :
    FenceInv sha256 taskId ⟨run.hub, run.history ++ [answered]⟩ where
  live := h.live.concat hnone
  saved := h.saved.concat hnone
  liveEvents := h.liveEvents.concat hnone
  savedEvents := h.savedEvents.concat hnone
  calls := h.calls.concat hnone
  indexed := h.indexed
  fenced := fenced_concat h.fenced hfenced

theorem FenceInv.request (h : FenceInv sha256 taskId run) (request : ExecutionRequest) (now : Time)
    (outcome : SaveOutcome) :
    FenceInv sha256 taskId ⟨(run.hub.answer sha256 taskId request now outcome).1,
      run.history ++ [⟨request, run.hub.live,
        (run.hub.answer sha256 taskId request now outcome).1.live,
        (run.hub.answer sha256 taskId request now outcome).2⟩]⟩ := by
  have hfenced := h.fencedAt request now outcome
  revert hfenced
  rcases answer_cases run.hub sha256 taskId request now outcome with
    ⟨error, hanswer⟩ | ⟨task, record, hrecord, hanswer⟩ |
      ⟨task, change, event, mailbox, hchange, hstaged, hanswer⟩
  · rw [hanswer]
    refine fun hfenced => h.quiet ?_ hfenced
    rintro event ⟨task, hok⟩
    contradiction
  · rw [hanswer]
    refine fun hfenced => h.quiet ?_ hfenced
    rintro event ⟨task, hok⟩
    exact absurd (Except.ok.inj hok) (by simp)
  · rw [hanswer]
    cases outcome with
    | notReplaced =>
      refine fun hfenced => h.quiet ?_ hfenced
      rintro event ⟨task, hok⟩
      contradiction
    | saved =>
      intro hfenced
      have hget := committed_get? run.hub.live mailbox hchange.id
      have hlive := hchange.found ▸ h.live
      have hcarries := hlive.change ⟨request, run.hub.live,
        run.hub.live.committed change mailbox, .ok ⟨change.next, event, false⟩⟩ hchange
        fun _ _ => hget
      have honly : ∀ applied, Answered.applies ⟨request, run.hub.live,
          run.hub.live.committed change mailbox, .ok ⟨change.next, event, false⟩⟩ applied →
          applied = event := by
        rintro applied ⟨next, hok⟩
        exact (TaskExecutionMutationResult.mk.inj (Except.ok.inj hok)).2.1.symm
      have hevents := h.liveEvents.staged h.calls h.indexed hchange hstaged honly
      exact {
        live := hget.symm ▸ hcarries
        saved := hget.symm ▸ hcarries
        liveEvents := hevents
        savedEvents := hevents
        calls := h.calls.staged hchange hstaged honly
        indexed := hstaged.indexed h.indexed
        fenced := fenced_concat h.fenced hfenced }
    | replacedThenRaised =>
      intro hfenced
      have hnone : ∀ applied, ¬ Answered.applies ⟨request, run.hub.live, run.hub.live,
          .error .saveFailed⟩ applied := by
        rintro applied ⟨next, hok⟩
        contradiction
      have hget := committed_get? run.hub.live mailbox hchange.id
      -- The file has the change, though the process has not.
      exact {
        live := h.live.concat hnone
        saved := hget.symm ▸ TaskCarries.change (hchange.found ▸ h.live)
          ⟨request, run.hub.live, run.hub.live, .error .saveFailed⟩ hchange
          fun applied happlies => absurd happlies (hnone applied)
        liveEvents := h.liveEvents.concat hnone
        savedEvents := h.liveEvents.staged h.calls h.indexed hchange hstaged
          fun applied happlies => absurd happlies (hnone applied)
        calls := h.calls.concat hnone
        indexed := h.indexed
        fenced := fenced_concat h.fenced hfenced }

section

variable {manager next : ExecutionManager}

theorem EventsCarry.leaves (h : EventsCarry taskId history manager.mailbox.events)
    (hcalls : CallsCarry taskId history manager.mailbox.callIndex)
    (hleaves : LeavesFence taskId manager next) :
    EventsCarry taskId history next.mailbox.events := by
  intro answered hmem event happlies
  obtain ⟨htask, hevents⟩ := h answered hmem event happlies
  obtain ⟨record, hrecord, rfl⟩ := hcalls answered hmem event happlies
  obtain ⟨hrow, hkey⟩ := Table.get?_eq_some.mp hrecord
  have hkept := (hleaves.calls record hrow htask).2
  rw [hkey] at hkept
  exact ⟨htask, hkept.trans hevents⟩

theorem CallsCarry.leaves (h : CallsCarry taskId history manager.mailbox.callIndex)
    (hevents : EventsCarry taskId history manager.mailbox.events)
    (hleaves : LeavesFence taskId manager next) :
    CallsCarry taskId history next.mailbox.callIndex := by
  intro answered hmem event happlies
  obtain ⟨htask, -⟩ := hevents answered hmem event happlies
  obtain ⟨record, hrecord, rfl⟩ := h answered hmem event happlies
  obtain ⟨hrow, hkey⟩ := Table.get?_eq_some.mp hrecord
  have hkept := (hleaves.calls record hrow htask).1
  rw [hkey] at hkept
  exact ⟨record, hkept, rfl⟩

end

theorem FenceInv.elsewhere {next : ExecutionManager} (h : FenceInv sha256 taskId run)
    (hleaves : LeavesFence taskId run.hub.live next) :
    FenceInv sha256 taskId { run with hub := { run.hub with live := next } } where
  live := h.live.keeps hleaves.task
  saved := h.saved
  liveEvents := h.liveEvents.leaves h.calls hleaves
  savedEvents := h.savedEvents
  calls := h.calls.leaves h.liveEvents hleaves
  indexed := hleaves.indexed
  fenced := h.fenced

theorem FenceInv.undone {next : ExecutionManager} (h : FenceInv sha256 taskId run)
    (hleaves : LeavesFence taskId run.hub.live next) :
    FenceInv sha256 taskId
      { run with hub := { run.hub with saved := next.workspaceStatePayload } } where
  live := h.live
  saved := h.live.keeps hleaves.task
  liveEvents := h.liveEvents
  savedEvents := h.liveEvents.leaves h.calls hleaves
  calls := h.calls
  indexed := h.indexed
  fenced := h.fenced

theorem FenceInv.save (h : FenceInv sha256 taskId run) (outcome : SaveOutcome) :
    FenceInv sha256 taskId { run with hub := run.hub.saveWorkspaceState outcome } := by
  have hwritten : FenceInv sha256 taskId
      { run with hub := { run.hub with saved := run.hub.live.workspaceStatePayload } } :=
    { h with saved := h.live, savedEvents := h.liveEvents }
  cases outcome with
  | saved => exact hwritten
  | notReplaced => exact h
  | replacedThenRaised => exact hwritten

theorem normalizeTaskItem_keeps (task : TaskRecord) :
    KeepsFence (some task) (some task.normalizeTaskItem) := by
  unfold TaskRecord.normalizeTaskItem
  split
  · exact ⟨rfl, Nat.le_refl _, rfl⟩
  · exact ⟨rfl, Nat.le_refl _, rfl⟩

theorem FenceInv.restart {hub : ExecutionHub} (h : FenceInv sha256 taskId run)
    (hrestart : run.hub.restart = .ok hub) :
    FenceInv sha256 taskId { run with hub } := by
  obtain ⟨live, hload, rfl⟩ := Except.map_ok_iff.mp hrestart
  have hloaded := executionLoad_spec hload
  have hkeeps : KeepsFence (run.hub.saved.tasks.get? taskId) (live.tasks.get? taskId) := by
    rw [hloaded.tasks taskId]
    cases run.hub.saved.tasks.get? taskId with
    | none => trivial
    | some task => exact normalizeTaskItem_keeps task
  refine ⟨h.saved.keeps hkeeps, h.saved, ?_, h.savedEvents, ?_, hloaded.indexed, h.fenced⟩
  · intro answered hmem event happlies
    obtain ⟨htask, hevents⟩ := h.savedEvents answered hmem event happlies
    exact ⟨htask, (hloaded.single _ event hevents).1⟩
  · intro answered hmem event happlies
    obtain ⟨-, hevents⟩ := h.savedEvents answered hmem event happlies
    exact (hloaded.single _ event hevents).2

theorem FenceInv.step {next : ExecutionRun} {op : ExecutionOp} (h : FenceInv sha256 taskId run)
    (hstep : run.step sha256 taskId op = some next) :
    FenceInv sha256 taskId next := by
  cases op with
  | request request now outcome =>
    cases hstep
    exact h.request request now outcome
  | elsewhere =>
    simp only [ExecutionRun.step] at hstep
    split at hstep
    · rename_i hleaves
      cases hstep
      exact h.elsewhere hleaves
    · contradiction
  | save outcome =>
    cases hstep
    exact h.save outcome
  | undone =>
    simp only [ExecutionRun.step] at hstep
    split at hstep
    · rename_i hleaves
      cases hstep
      exact h.undone hleaves
    · contradiction
  | restart =>
    simp only [ExecutionRun.step] at hstep
    split at hstep
    · rename_i hub hrestart
      cases hstep
      exact h.restart hrestart
    · contradiction

/-- In every run of progress and handoffs of a task, with failing saves and restarts among
them, each request is fenced by those before it. -/
theorem execution_fenced (sha256 : String → String) (taskId : TaskId) {ops : List ExecutionOp}
    {finish : ExecutionRun} (hrun : exec (ExecutionRun.step sha256 taskId) {} ops = some finish) :
    Fenced sha256 taskId finish.history :=
  ((Run.of_exec hrun).invariant fenceInv_init fun _ _ _ h _ hstep => h.step hstep).fenced

end

private def firstKey : String := "first-reporter-key-for-one-task-"

private def otherKey : String := "other-reporter-key-for-one-task-"

private def keyDigests (key : String) : String :=
  if key = firstKey then "b7574a39486bfa0fd056f16b8c7d7a0c54010a182f3a3237884dc7855c05855f"
  else if key = otherKey then "fa6a2b5286e7252b215abd2e253ae8c2bbd77d4040ad658c6a5c9790319bf71b"
  else ""

private def keyedTask : ExecutionManager where
  tasks := Table.empty.insert
    { id := "task", executionControl := .initiator, reporterKeyHash := some (keyDigests firstKey) }

private def keyedProgress (key callId : String) (epoch revision : Nat)
    (state : TaskProgressState) : ExecutionOp :=
  .request (.progress ⟨callId, epoch, revision, state, "step", none, none, [], none⟩ (some key)
    false) 10 .saved

private def keyedHandoff (key callId : String) (epoch revision : Nat) : ExecutionOp :=
  .request (.handoff ⟨callId, epoch, revision, .initiator, some key, none⟩) 20 .saved

private def thereAndBack : List ExecutionOp := [
  .elsewhere keyedTask,
  keyedProgress firstKey "a" 1 0 .released,
  keyedHandoff otherKey "b" 1 1,
  keyedProgress otherKey "c" 2 2 .released,
  keyedHandoff firstKey "d" 2 3,
  keyedProgress firstKey "e" 3 4 .working]

theorem execution_fenced_keyed :
    ∃ finish, exec (ExecutionRun.step keyDigests "task") {} thereAndBack = some finish ∧
      finish.history.length = 5 ∧ Fenced keyDigests "task" finish.history := by
  have hlength : (exec (ExecutionRun.step keyDigests "task") {} thereAndBack).map
      (fun finish => finish.history.length) = some 5 := by
    decide +kernel
  obtain ⟨finish, hfinish, hfive⟩ := Option.map_eq_some_iff.mp hlength
  exact ⟨finish, hfinish, hfive, execution_fenced keyDigests "task" hfinish⟩

/-- A key that a handoff has replaced is in use again once a later handoff brings it. -/
theorem replaced_key_brought_again :
    ¬ ∀ ops finish (i j : Nat) handoff later task key, i < j →
      exec (ExecutionRun.step keyDigests "task") {} ops = some finish →
      finish.history[i]? = some handoff → handoff.before.tasks.get? "task" = some task →
      task.reporterKeyHash = some (keyDigests key) →
      (∃ event hash, handoff.applies event ∧ handoff.request.installs keyDigests = some hash ∧
        hash ≠ some (keyDigests key)) →
      finish.history[j]? = some later → later.request.presents = some key →
      ∀ event, ¬ later.applies event := by
  intro h
  have hruns : ((exec (ExecutionRun.step keyDigests "task") {} thereAndBack).bind fun finish =>
      finish.history[1]?.bind fun handoff => finish.history[4]?.bind fun later =>
        (handoff.before.tasks.get? "task").bind fun task =>
          handoff.answer.toOption.bind fun first => later.answer.toOption.map fun last =>
            (task.reporterKeyHash, handoff.request.installs keyDigests, later.request.presents,
              first.replayed, last.replayed)) =
      some (some (keyDigests firstKey), some (some (keyDigests otherKey)), some firstKey, false,
        false) := by
    decide +kernel
  obtain ⟨finish, hfinish, hruns⟩ := Option.bind_eq_some_iff.mp hruns
  obtain ⟨handoff, hhandoff, hruns⟩ := Option.bind_eq_some_iff.mp hruns
  obtain ⟨later, hlater, hruns⟩ := Option.bind_eq_some_iff.mp hruns
  obtain ⟨task, htask, hruns⟩ := Option.bind_eq_some_iff.mp hruns
  obtain ⟨first, hfirst, hruns⟩ := Option.bind_eq_some_iff.mp hruns
  obtain ⟨last, hlast, hseen⟩ := Option.map_eq_some_iff.mp hruns
  simp only [Prod.mk.injEq] at hseen
  obtain ⟨hhash, hinstalls, hpresents, hfirstNew, hlastNew⟩ := hseen
  have happlies : ∀ {answered : Answered} {result : TaskExecutionMutationResult},
      answered.answer.toOption = some result → result.replayed = false →
      answered.applies result.event := by
    intro answered result hresult hnew
    cases hanswer : answered.answer with
    | error =>
      rw [hanswer] at hresult
      contradiction
    | ok found =>
      rw [hanswer] at hresult
      obtain rfl := Option.some.inj hresult
      exact ⟨found.task, by rw [hanswer, ← hnew]⟩
  exact h thereAndBack finish 1 4 handoff later task firstKey (by decide) hfinish hhandoff htask
    hhash ⟨first.event, _, happlies hfirst hfirstNew, hinstalls, by decide⟩ hlater hpresents
    last.event (happlies hlast hlastNew)

end ClaudeHub
