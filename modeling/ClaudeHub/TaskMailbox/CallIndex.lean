import ClaudeHub.TaskMailbox.Run

/-! # The call index of the mailbox

Events, call index and counter are written side by side by appends and their
undo, by purges, by the rollback of a whole workspace and by loads. Each of them
keeps the index a function of the events: one record for each call id, and that
of its event.
-/

namespace ClaudeHub

open StepSystem

/-- `_unstage_events` on one event. `same` tells whether the event at the end, when it
is equal to the given one, is that very object; a rollback puts copies in its place. -/
def unstageEvent (mailbox : TaskMailbox) (staged : TaskEvent × Bool) : TaskMailbox :=
  if staged.2 = true ∧ mailbox.events.getLast? = some staged.1 then
    WorkspaceManager.unstage mailbox staged.1
  else mailbox

def unstageEvents (mailbox : TaskMailbox) (staged : List (TaskEvent × Bool)) : TaskMailbox :=
  staged.reverse.foldl unstageEvent mailbox

/-- `load_from_dict` on a mailbox that may have counted already. -/
def TaskMailbox.reload (mailbox : TaskMailbox) (wm : WorkspaceManager)
    (taskEvents : List TaskEvent) : Except HubError TaskMailbox := do
  let events := sortBySequence taskEvents
  let calls ← rebuildCallIndex events
  let mailbox ← backfillReportTaskEvents wm
    { events := events, callIndex := calls, nextSeq := mailbox.nextSeq }
  let calls ← rebuildCallIndex mailbox.events
  let mailbox := { mailbox with callIndex := calls }
  return { mailbox with nextSeq := some (mailbox.workspaceMaxSequence + 1) }

theorem TaskMailbox.reload_empty (wm : WorkspaceManager) (taskEvents : List TaskEvent) :
    ({} : TaskMailbox).reload wm taskEvents = loadFromDict wm taskEvents := rfl

def CallRecord.ofEvent (event : TaskEvent) : CallRecord where
  callId := event.callId
  action := event.action
  target := event.target
  fingerprint := event.fingerprint
  event := event

@[simp] theorem CallRecord.ofEvent_callId (event : TaskEvent) :
    (CallRecord.ofEvent event).callId = event.callId := rfl

def recordOf (events : List TaskEvent) (callId : CallId) : Option CallRecord :=
  (events.find? fun event => event.callId = callId).map CallRecord.ofEvent

/-- Numbers grow along the list, no call id occurs twice, and the index has the record
of every call id that occurs and no other. -/
structure TaskMailbox.Mirrored (mailbox : TaskMailbox) : Prop where
  increasing : mailbox.events.Pairwise fun earlier later => earlier.sequence < later.sequence
  distinct : (mailbox.events.map TaskEvent.callId).Nodup
  positive : ∀ event ∈ mailbox.events, 0 < event.sequence
  index : ∀ callId, mailbox.callIndex.get? callId = recordOf mailbox.events callId
  counted : maxSequence mailbox.events < mailbox.nextSeq.getD 1

/-- A payload that such a mailbox writes. -/
structure SavedEvents.Ordered (events : List TaskEvent) : Prop where
  increasing : events.Pairwise fun earlier later => earlier.sequence < later.sequence
  distinct : (events.map TaskEvent.callId).Nodup
  positive : ∀ event ∈ events, 0 < event.sequence

theorem TaskMailbox.Mirrored.payload {mailbox : TaskMailbox} (h : mailbox.Mirrored) :
    SavedEvents.Ordered mailbox.events := ⟨h.increasing, h.distinct, h.positive⟩

variable {events : List TaskEvent}

theorem recordOf_eq_none {callId : CallId} :
    recordOf events callId = none ↔ callId ∉ events.map TaskEvent.callId := by
  simp [recordOf]

variable {event : TaskEvent}

theorem recordOf_eq_some (hdistinct : (events.map TaskEvent.callId).Nodup) (hmem : event ∈ events) :
    recordOf events event.callId = some (.ofEvent event) := by
  have hsome : (events.find? fun other => other.callId = event.callId).isSome := by
    rw [List.find?_isSome]
    exact ⟨event, hmem, by simp⟩
  obtain ⟨found, hfound⟩ := Option.isSome_iff_exists.mp hsome
  have hcall : found.callId = event.callId := by simpa using List.find?_some hfound
  obtain rfl : found = event :=
    List.inj_on_of_nodup_map hdistinct (List.mem_of_find?_eq_some hfound) hmem hcall
  rw [recordOf, hfound]
  rfl

theorem recordOf_append (events more : List TaskEvent) (callId : CallId) :
    recordOf (events ++ more) callId = (recordOf events callId).or (recordOf more callId) := by
  unfold recordOf
  rw [List.find?_append]
  cases events.find? fun event => event.callId = callId <;> simp

theorem mem_of_recordOf {callId : CallId} {record : CallRecord}
    (h : recordOf events callId = some record) :
    record.event ∈ events ∧ record = .ofEvent record.event ∧ record.callId = callId := by
  obtain ⟨event, hfound, rfl⟩ := Option.map_eq_some_iff.mp h
  have hcall : event.callId = callId := by simpa using List.find?_some hfound
  exact ⟨List.mem_of_find?_eq_some hfound, rfl, hcall⟩

theorem TaskMailbox.Mirrored.workspaceMax {mailbox : TaskMailbox} (h : mailbox.Mirrored) :
    mailbox.nextSeq.getD 1 = mailbox.workspaceMaxSequence + 1 := by
  have := h.counted
  unfold TaskMailbox.workspaceMaxSequence
  omega

theorem TaskMailbox.mirrored_empty : ({} : TaskMailbox).Mirrored where
  increasing := List.Pairwise.nil
  distinct := List.nodup_nil
  positive := by simp
  index := fun _ => rfl
  counted := by simp

/-- What `stageEvent` creates: the next event, at the end of the list and in the index. -/
theorem stageEvent_record {wm : WorkspaceManager} {req : AppendRequest} {now : Time}
    {mailbox : TaskMailbox} (h : wm.stageEvent req now = .ok (.created event mailbox)) :
    wm.mailbox.callIndex.get? event.callId = none ∧
      mailbox.callIndex = wm.mailbox.callIndex.insert (.ofEvent event) := by
  unfold WorkspaceManager.stageEvent at h
  split at h
  · simp at h
  · split at h
    · simp at h
    · split at h
      · split at h <;> simp at h
      · next hnone =>
          simp only [TaskMailbox.nextSequence, Except.ok.injEq,
            WorkspaceManager.Staged.created.injEq] at h
          obtain ⟨rfl, rfl⟩ := h
          exact ⟨hnone, rfl⟩

theorem TaskMailbox.Mirrored.append {mailbox mailbox' : TaskMailbox} (h : mailbox.Mirrored)
    (hseq : event.sequence = mailbox.workspaceMaxSequence + 1)
    (hevents : mailbox'.events = mailbox.events ++ [event])
    (hnext : mailbox'.nextSeq = some (event.sequence + 1))
    (hnew : mailbox.callIndex.get? event.callId = none)
    (hcalls : mailbox'.callIndex = mailbox.callIndex.insert (.ofEvent event)) :
    mailbox'.Mirrored := by
  have hmax := mailbox.maxSequence_le_workspaceMaxSequence
  have hfresh : event.callId ∉ mailbox.events.map TaskEvent.callId := by
    rw [← recordOf_eq_none, ← h.index]
    exact hnew
  refine ⟨?_, ?_, ?_, ?_, ?_⟩
  · rw [hevents]
    refine List.pairwise_append.mpr ⟨h.increasing, List.pairwise_singleton _ _, ?_⟩
    intro earlier hearlier later hlater
    obtain rfl := List.mem_singleton.mp hlater
    have := le_maxSequence hearlier
    omega
  · rw [hevents, List.map_append]
    refine List.nodup_append.mpr ⟨h.distinct, by simp, ?_⟩
    rintro callId hcall other hother rfl
    obtain rfl : callId = event.callId := by simpa using hother
    exact hfresh hcall
  · intro other hother
    rw [hevents] at hother
    rcases List.mem_append.mp hother with hold | hlast
    · exact h.positive other hold
    · obtain rfl := List.mem_singleton.mp hlast
      omega
  · intro callId
    rw [hcalls, hevents, Table.get?_insert, recordOf_append, ← h.index,
      CallRecord.ofEvent_callId]
    by_cases heq : callId = event.callId
    · subst heq
      rw [if_pos rfl, hnew]
      simp [recordOf]
    · have hne : event.callId ≠ callId := fun h => heq h.symm
      rw [if_neg heq]
      simp [recordOf, hne]
  · rw [hevents, hnext, maxSequence_append]
    simp only [maxSequence_cons, maxSequence_nil, Option.getD_some]
    omega

theorem TaskMailbox.Mirrored.unstage {mailbox : TaskMailbox} (h : mailbox.Mirrored)
    (hlast : mailbox.events.getLast? = some event) :
    (WorkspaceManager.unstage mailbox event).Mirrored := by
  obtain ⟨before, hevents⟩ := List.getLast?_eq_some_iff.mp hlast
  have hdrop : mailbox.events.dropLast = before := by simp [hevents]
  have hincreasing := hevents ▸ h.increasing
  have hdistinct := hevents ▸ h.distinct
  rw [List.map_append] at hdistinct
  obtain ⟨hold, -, hnew⟩ := List.nodup_append.mp hdistinct
  obtain ⟨hsorted, -, hbelow⟩ := List.pairwise_append.mp hincreasing
  refine ⟨by simpa [WorkspaceManager.unstage, hdrop] using hsorted,
    by simpa [WorkspaceManager.unstage, hdrop] using hold, ?_, ?_, ?_⟩
  · intro other hother
    simp only [WorkspaceManager.unstage, hdrop] at hother
    exact h.positive other (by simp [hevents, hother])
  · intro callId
    simp only [WorkspaceManager.unstage, hdrop]
    rw [Table.get?_erase, h.index, hevents, recordOf_append]
    by_cases heq : callId = event.callId
    · subst heq
      rw [if_pos rfl]
      refine (recordOf_eq_none.2 fun hcall => ?_).symm
      exact hnew _ hcall _ (by simp) rfl
    · have hne : event.callId ≠ callId := fun h => heq h.symm
      rw [if_neg heq]
      simp [recordOf, hne]
  · have hpos := h.positive event (by simp [hevents])
    have hle : maxSequence before ≤ event.sequence - 1 := by
      refine maxSequence_le fun other hother => ?_
      have := hbelow other hother event (by simp)
      omega
    simp only [WorkspaceManager.unstage, hdrop, Option.getD_some]
    omega

theorem TaskMailbox.Mirrored.unstageEvents {mailbox : TaskMailbox} (h : mailbox.Mirrored)
    (staged : List (TaskEvent × Bool)) : (ClaudeHub.unstageEvents mailbox staged).Mirrored := by
  unfold ClaudeHub.unstageEvents
  induction staged.reverse generalizing mailbox with
  | nil => exact h
  | cons item items ih =>
    rw [List.foldl_cons]
    apply ih
    unfold unstageEvent
    split
    · next hlast => exact h.unstage hlast.2
    · exact h

theorem rebuildCallIndex_ok (hdistinct : (events.map TaskEvent.callId).Nodup) :
    ∃ calls, rebuildCallIndex events = .ok calls ∧
      ∀ callId, calls.get? callId = recordOf events callId := by
  suffices hfold : ∀ start : CallIndex, (∀ event ∈ events, start.get? event.callId = none) →
      ∃ calls, events.foldlM CallIndex.add start = .ok calls ∧
        ∀ callId, calls.get? callId = (start.get? callId).or (recordOf events callId) by
    obtain ⟨calls, hcalls, hindex⟩ := hfold Table.empty (by simp)
    exact ⟨calls, hcalls, fun callId => by simp [hindex]⟩
  induction events with
  | nil =>
    intro start _
    exact ⟨start, rfl, fun callId => by simp [recordOf]⟩
  | cons event events ih =>
    intro start hstart
    rw [List.map_cons, List.nodup_cons] at hdistinct
    obtain ⟨hnew, htail⟩ := hdistinct
    have hnone := hstart event (by simp)
    obtain ⟨calls, hcalls, hindex⟩ := ih htail (start.insert (.ofEvent event)) (by
      intro other hother
      have hne : other.callId ≠ event.callId := fun heq =>
        hnew (heq ▸ List.mem_map_of_mem hother)
      rw [Table.get?_insert, CallRecord.ofEvent_callId, if_neg hne]
      exact hstart other (List.mem_cons_of_mem _ hother))
    refine ⟨calls, ?_, fun callId => ?_⟩
    · rw [List.foldlM_cons, CallIndex.add, hnone]
      exact hcalls
    · rw [hindex, Table.get?_insert, CallRecord.ofEvent_callId]
      by_cases heq : callId = event.callId
      · subst heq
        simp [hnone, recordOf]
      · have hne : event.callId ≠ callId := fun h => heq h.symm
        simp [heq, hne, recordOf]

theorem TaskMailbox.Mirrored.purge {mailbox : TaskMailbox} (h : mailbox.Mirrored)
    (taskId : TaskId) :
    ∃ purged, purgeTaskEvents mailbox taskId = .ok purged ∧ purged.Mirrored ∧
      purged.events = mailbox.events.filter fun event => event.taskId ≠ taskId := by
  have hsub : (mailbox.events.filter fun event => event.taskId ≠ taskId).Sublist mailbox.events :=
    List.filter_sublist
  have hdistinct := h.distinct.sublist (hsub.map TaskEvent.callId)
  obtain ⟨calls, hcalls, hindex⟩ := rebuildCallIndex_ok hdistinct
  refine ⟨{ mailbox with
    events := mailbox.events.filter fun event => event.taskId ≠ taskId, callIndex := calls },
    ?_, ⟨h.increasing.sublist hsub, hdistinct, ?_, hindex, ?_⟩, rfl⟩
  · simp only [purgeTaskEvents, hcalls]
    rfl
  · exact fun event hevent => h.positive event (hsub.subset hevent)
  · have hle := maxSequence_mono fun event hevent => hsub.subset hevent
    have := h.counted
    simp only
    omega

/-- The backfill covers every call id of the index and of its own events, so that it finds
no record to disagree with. -/
structure Backfill.Mirrored (events : List TaskEvent) (acc : Backfill) : Prop where
  events_eq : acc.mailbox.events = events
  indexed : ∀ callId, (acc.mailbox.callIndex.get? callId).isSome → callId ∈ acc.coveredCallIds
  covered : ∀ event ∈ events ++ acc.added, event.callId ∈ acc.coveredCallIds
  payload : SavedEvents.Ordered (events ++ acc.added)
  below : ∀ event ∈ events ++ acc.added, event.sequence ≤ acc.mailbox.workspaceMaxSequence

theorem SavedEvents.Ordered.append (h : SavedEvents.Ordered events)
    (hnew : event.callId ∉ events.map TaskEvent.callId)
    (habove : ∀ other ∈ events, other.sequence < event.sequence) (hpos : 0 < event.sequence) :
    SavedEvents.Ordered (events ++ [event]) := by
  refine ⟨?_, ?_, ?_⟩
  · refine List.pairwise_append.mpr ⟨h.increasing, List.pairwise_singleton _ _, ?_⟩
    intro earlier hearlier later hlater
    obtain rfl := List.mem_singleton.mp hlater
    exact habove earlier hearlier
  · rw [List.map_append]
    refine List.nodup_append.mpr ⟨h.distinct, by simp, ?_⟩
    rintro callId hcall other hother rfl
    obtain rfl : callId = event.callId := by simpa using hother
    exact hnew hcall
  · intro other hother
    rcases List.mem_append.mp hother with hold | hlast
    · exact h.positive other hold
    · obtain rfl := List.mem_singleton.mp hlast
      exact hpos

theorem Backfill.Mirrored.report {wm : WorkspaceManager} {acc : Backfill} (h : acc.Mirrored events)
    (item : AgentReport × WorkspaceTask) :
    ∃ acc', Backfill.report wm acc item = .ok acc' ∧ acc'.Mirrored events := by
  obtain ⟨report, task⟩ := item
  simp only [Backfill.report]
  split
  · exact ⟨acc, rfl, h⟩
  · next hskip =>
      have huncovered : (backfillRequest wm report task).callId ∉ acc.coveredCallIds := by
        intro hcovered
        have : CallId.report report.id ∈ acc.coveredCallIds := hcovered
        simp [Backfill.skips, this] at hskip
      have hnone : acc.mailbox.callIndex.get? (backfillRequest wm report task).callId = none := by
        rw [← Option.not_isSome_iff_eq_none]
        exact fun hsome => huncovered (h.indexed _ hsome)
      rw [hnone]
      refine ⟨_, rfl, h.events_eq, ?_, ?_, ?_, ?_⟩
      · intro callId hsome
        rw [Table.get?_insert] at hsome
        split at hsome
        · next heq => exact heq ▸ List.mem_cons_self ..
        · exact List.mem_cons_of_mem _ (h.indexed callId hsome)
      · intro event hevent
        rw [← List.append_assoc] at hevent
        rcases List.mem_append.mp hevent with hold | hnew
        · exact List.mem_cons_of_mem _ (h.covered event hold)
        · obtain rfl := List.mem_singleton.mp hnew
          exact List.mem_cons_self ..
      · rw [← List.append_assoc]
        refine h.payload.append ?_ ?_ ?_
        · intro hcall
          obtain ⟨event, hevent, heq⟩ := List.mem_map.mp hcall
          have := h.covered event hevent
          rw [heq] at this
          exact huncovered this
        · intro other hother
          have := h.below other hother
          simp only [AppendRequest.event, TaskMailbox.nextSequence_fst]
          omega
        · simp [AppendRequest.event]
      · intro event hevent
        have hmax : acc.mailbox.workspaceMaxSequence + 1 ≤
            TaskMailbox.workspaceMaxSequence { acc.mailbox.nextSequence.2 with
              callIndex := acc.mailbox.nextSequence.2.callIndex.insert
                ((backfillRequest wm report task).record task
                  ((backfillRequest wm report task).event task acc.mailbox.nextSequence.1
                    report.createdAt)) } := by
          simp only [TaskMailbox.workspaceMaxSequence, TaskMailbox.nextSequence, Option.getD_some]
          omega
        rw [← List.append_assoc] at hevent
        rcases List.mem_append.mp hevent with hold | hnew
        · have := h.below event hold
          exact Nat.le_trans (Nat.le_succ_of_le this) hmax
        · obtain rfl := List.mem_singleton.mp hnew
          exact hmax

theorem SavedEvents.Ordered.sortBySequence (h : SavedEvents.Ordered events) :
    ClaudeHub.sortBySequence events = events :=
  List.Pairwise.insertionSort_eq (h.increasing.imp fun hlt => Nat.le_of_lt hlt)

theorem TaskMailbox.reload_ok (mailbox : TaskMailbox) (wm : WorkspaceManager)
    {taskEvents : List TaskEvent} (h : SavedEvents.Ordered taskEvents) :
    ∃ loaded, mailbox.reload wm taskEvents = .ok loaded ∧ loaded.Mirrored := by
  obtain ⟨calls, hcalls, hindex⟩ := rebuildCallIndex_ok h.distinct
  have hinit : Backfill.Mirrored taskEvents
      { mailbox := { events := taskEvents, callIndex := calls, nextSeq := mailbox.nextSeq }
        coveredReportIds := taskEvents.filterMap fun event => truthy event.reportId
        coveredCallIds := taskEvents.map TaskEvent.callId } := by
    refine ⟨rfl, ?_, ?_, by simpa using h, ?_⟩
    · intro callId hsome
      rw [hindex] at hsome
      by_contra hnot
      rw [recordOf_eq_none.2 hnot] at hsome
      simp at hsome
    · intro event hevent
      rw [List.append_nil] at hevent
      exact List.mem_map_of_mem hevent
    · intro event hevent
      rw [List.append_nil] at hevent
      exact Nat.le_trans (le_maxSequence hevent)
        (TaskMailbox.maxSequence_le_workspaceMaxSequence
          { events := taskEvents, callIndex := calls, nextSeq := mailbox.nextSeq })
  obtain ⟨acc, hacc, hdone⟩ := Except.foldlM_ok (backfillReports wm)
    (fun acc item (hacc : Backfill.Mirrored taskEvents acc) => hacc.report item) hinit
  have hfilled : ∃ filled, backfillReportTaskEvents wm
      { events := taskEvents, callIndex := calls, nextSeq := mailbox.nextSeq } = .ok filled ∧
      SavedEvents.Ordered filled.events := by
    refine ⟨_, by rw [backfillReportTaskEvents, hacc]; rfl, ?_⟩
    split
    · next hnone =>
        have := hdone.payload
        rw [hnone, List.append_nil, ← hdone.events_eq] at this
        exact this
    · have := hdone.payload
      rw [← hdone.events_eq] at this
      simp only [this.sortBySequence]
      exact this
  obtain ⟨filled, hfill, hpayload⟩ := hfilled
  obtain ⟨calls', hcalls', hindex'⟩ := rebuildCallIndex_ok hpayload.distinct
  let indexed : TaskMailbox := { filled with callIndex := calls' }
  refine ⟨{ indexed with nextSeq := some (indexed.workspaceMaxSequence + 1) }, ?_,
    ⟨hpayload.increasing, hpayload.distinct, hpayload.positive, hindex', ?_⟩⟩
  · simp only [TaskMailbox.reload, h.sortBySequence, hcalls, hfill, hcalls', bind, Except.bind,
      pure, Except.pure, indexed]
  · simp only [Option.getD_some]
    exact Nat.lt_succ_of_le (TaskMailbox.maxSequence_le_workspaceMaxSequence indexed)

/-! ## Runs -/

/-- The mailbox of a process, the payloads it has written and the rollback states it holds. -/
structure CallIndexRun where
  hub : Hub := {}
  payloads : List (List TaskEvent) := []
  snapshots : List TaskMailbox := []
  deriving DecidableEq

/-- Waking a consumer reads the collections only, so an append has no flag for it here. -/
inductive CallIndexOp
  /-- The records beside the mailbox, as the rest of the manager leaves them. -/
  | edit (tasks : TaskTable) (sessions : SessionTable) (reports : ReportTable)
  | appendEvent (req : AppendRequest) (now : Time) (persist : Bool) (outcome : SaveOutcome)
  | unstage (staged : List (TaskEvent × Bool))
  | purge (taskId : TaskId)
  | save (outcome : SaveOutcome)
  | snapshot
  | restore (index : Nat)
  | load (index : Nat)

namespace CallIndexRun

def mailbox (run : CallIndexRun) : TaskMailbox := run.hub.live.mailbox

def setMailbox (run : CallIndexRun) (mailbox : TaskMailbox) : CallIndexRun :=
  { run with hub := run.hub.setMailbox mailbox }

def written (run : CallIndexRun) (hub : Hub) : CallIndexRun :=
  { run with hub := hub, payloads := hub.saved.taskEvents :: run.payloads }

def step (run : CallIndexRun) : CallIndexOp → Option CallIndexRun
  | .edit tasks sessions reports =>
    some { run with hub := { run.hub with
      live := { run.hub.live with tasks := tasks, sessions := sessions, reports := reports } } }
  | .appendEvent req now persist outcome =>
    some (run.written (run.hub.appendEvent req now persist outcome).1)
  | .unstage staged => some (run.setMailbox (unstageEvents run.mailbox staged))
  | .purge taskId =>
    match purgeTaskEvents run.mailbox taskId with
    | .error _ => none
    | .ok mailbox => some (run.setMailbox mailbox)
  | .save outcome => some (run.written (run.hub.saveWorkspaceState outcome))
  | .snapshot => some { run with snapshots := run.snapshots ++ [run.mailbox] }
  | .restore index => (run.snapshots[index]?).map run.setMailbox
  | .load index =>
    match run.payloads[index]? with
    | none => none
    | some taskEvents =>
      match run.mailbox.reload run.hub.live taskEvents with
      | .error _ => none
      | .ok mailbox => some (run.setMailbox mailbox)

/-- The mailbox and everything that may take its place are indexed. -/
structure Mirrored (run : CallIndexRun) : Prop where
  live : run.mailbox.Mirrored
  saved : SavedEvents.Ordered run.hub.saved.taskEvents
  payloads : ∀ taskEvents ∈ run.payloads, SavedEvents.Ordered taskEvents
  snapshots : ∀ mailbox ∈ run.snapshots, mailbox.Mirrored

theorem mirrored_init : Mirrored {} where
  live := TaskMailbox.mirrored_empty
  saved := TaskMailbox.mirrored_empty.payload
  payloads := by simp
  snapshots := by simp

variable {run next : CallIndexRun}

theorem Mirrored.setMailbox (h : run.Mirrored) {mailbox : TaskMailbox} (hmirrored : mailbox.Mirrored) :
    (run.setMailbox mailbox).Mirrored :=
  ⟨hmirrored, h.saved, h.payloads, h.snapshots⟩

theorem Mirrored.written (h : run.Mirrored) {hub : Hub} (hlive : hub.live.mailbox.Mirrored)
    (hsaved : SavedEvents.Ordered hub.saved.taskEvents) : (run.written hub).Mirrored := by
  refine ⟨hlive, hsaved, fun taskEvents hmem => ?_, h.snapshots⟩
  rcases List.mem_cons.mp hmem with rfl | hold
  · exact hsaved
  · exact h.payloads taskEvents hold

theorem Mirrored.appendEvent (h : run.Mirrored) (req : AppendRequest) (now : Time) (persist : Bool)
    (outcome : SaveOutcome) : (run.written (run.hub.appendEvent req now persist outcome).1).Mirrored := by
  rcases run.hub.appendEvent_cases req now persist outcome with
    ⟨hub, result, heq, -, hlive, hsaved⟩ | ⟨event, mailbox, hstage, hub, hsaved, hends⟩
  · rw [heq]
    refine h.written (by rw [hlive]; exact h.live) ?_
    rcases hsaved with hsame | hnew
    · rw [hsame]
      exact h.saved
    · rw [hnew]
      exact h.live.payload
  · obtain ⟨hseq, hevents, hnext⟩ := stageEvent_created hstage
    obtain ⟨hnew, hcalls⟩ := stageEvent_record hstage
    have hstaged : mailbox.Mirrored := h.live.append hseq hevents hnext hnew hcalls
    have hfile : SavedEvents.Ordered hub.saved.taskEvents := by
      rcases hsaved with hsame | hwritten
      · rw [hsame]
        exact h.saved
      · rw [hwritten]
        exact hstaged.payload
    rcases hends with ⟨heq, hlive⟩ | ⟨heq, hlive⟩
    · rw [heq]
      exact h.written (by rw [hlive]; exact hstaged) hfile
    · rw [heq]
      refine h.written ?_ hfile
      rw [hlive]
      exact hstaged.unstage (by simp [hevents])

theorem Mirrored.step {op : CallIndexOp} (h : run.Mirrored) (hstep : run.step op = some next) :
    next.Mirrored := by
  cases op with
  | edit =>
    cases hstep
    exact { h with }
  | appendEvent req now persist outcome =>
    cases hstep
    exact h.appendEvent req now persist outcome
  | unstage staged =>
    cases hstep
    exact h.setMailbox (h.live.unstageEvents staged)
  | purge taskId =>
    obtain ⟨purged, hpurge, hmirrored, -⟩ := h.live.purge taskId
    simp only [CallIndexRun.step, hpurge, Option.some.injEq] at hstep
    subst hstep
    exact h.setMailbox hmirrored
  | save outcome =>
    cases hstep
    refine h.written (by rw [Hub.saveWorkspaceState_live]; exact h.live) ?_
    rcases run.hub.saveWorkspaceState_saved outcome with hsame | hnew
    · rw [hsame]
      exact h.saved
    · rw [hnew]
      exact h.live.payload
  | snapshot =>
    cases hstep
    refine ⟨h.live, h.saved, h.payloads, fun mailbox hmem => ?_⟩
    rcases List.mem_append.mp hmem with hold | hnew
    · exact h.snapshots mailbox hold
    · obtain rfl := List.mem_singleton.mp hnew
      exact h.live
  | restore =>
    obtain ⟨mailbox, hget, rfl⟩ := Option.map_eq_some_iff.mp hstep
    exact h.setMailbox (h.snapshots mailbox (List.mem_of_getElem? hget))
  | load =>
    simp only [CallIndexRun.step] at hstep
    split at hstep
    · simp at hstep
    · next taskEvents hget =>
        obtain ⟨loaded, hload, hmirrored⟩ := run.mailbox.reload_ok run.hub.live
          (h.payloads taskEvents (List.mem_of_getElem? hget))
        simp only [hload, Option.some.injEq] at hstep
        subst hstep
        exact h.setMailbox hmirrored

theorem mirrored_of_exec {ops : List CallIndexOp} (hexec : exec CallIndexRun.step {} ops = some run) :
    run.Mirrored :=
  (Run.of_exec hexec).invariant mirrored_init fun _ _ _ hinv _ hstep => hinv.step hstep

/-! ## What an append promises -/

/-- The request names the call of this event with the same action, target and body. -/
def Repeats (req : AppendRequest) (task : WorkspaceTask) (event : TaskEvent) : Prop :=
  event.action = req.action ∧ event.target = req.resolvedTarget ∧
    event.fingerprint = req.fingerprint task

/-- The process is as it was, and the append returned this event or its save raised. -/
def Answers (run : CallIndexRun) (req : AppendRequest) (now : Time) (persist : Bool)
    (outcome : SaveOutcome) (event : TaskEvent) : Prop :=
  (run.hub.appendEvent req now persist outcome).1.live = run.hub.live ∧
    (run.hub.appendEvent req now persist outcome).2 =
      if persist ∧ outcome.raises then .error .persistFailed else .ok (event, false)

/-- The mailbox contract: the state of the three collections, and what appends do to them. -/
structure Contract (run : CallIndexRun) : Prop where
  increasing : run.mailbox.events.Pairwise fun earlier later => earlier.sequence < later.sequence
  recorded : ∀ event ∈ run.mailbox.events,
    run.mailbox.callIndex.get? event.callId = some (.ofEvent event)
  occurring : ∀ record ∈ run.mailbox.callIndex.rows,
    record.event ∈ run.mailbox.events ∧ record = .ofEvent record.event
  repeated : ∀ req now persist outcome task, run.hub.live.tasks.get? req.taskId = some task →
    ∀ event ∈ run.mailbox.events, event.callId = req.callId → Repeats req task event →
      run.Answers req now persist outcome event
  /-- A different request is refused, unless it rewrites a stored report whose historical
  event is found: that event stands for it. -/
  differing : ∀ req now persist outcome task, run.hub.live.tasks.get? req.taskId = some task →
    ∀ event ∈ run.mailbox.events, event.callId = req.callId → ¬ Repeats req task event →
      if run.hub.live.reuseLegacyReportAlias req = some event then
        run.Answers req now persist outcome event
      else run.hub.appendEvent req now persist outcome =
        (run.hub, .error (.callIdConflict req.callId req.action req.resolvedTarget (.ofEvent event)))
  /-- An append whose save raises leaves the three collections as they were. -/
  rolledBack : ∀ req now outcome, outcome.raises = true →
    let mailbox := (run.hub.appendEvent req now true outcome).1.live.mailbox
    mailbox.events = run.mailbox.events ∧ mailbox.callIndex = run.mailbox.callIndex ∧
      mailbox.nextSeq.getD 1 = run.mailbox.nextSeq.getD 1
  /-- Neither a purge nor the load of a written payload is ever refused. -/
  purges : ∀ taskId, ∃ mailbox, purgeTaskEvents run.mailbox taskId = .ok mailbox
  loads : ∀ taskEvents ∈ run.payloads, ∃ mailbox,
    run.mailbox.reload run.hub.live taskEvents = .ok mailbox

theorem Mirrored.stageEvent_known (h : run.Mirrored) {req : AppendRequest} {task : WorkspaceTask}
    (htask : run.hub.live.tasks.get? req.taskId = some task) (hmem : event ∈ run.mailbox.events)
    (hcall : event.callId = req.callId) (now : Time) :
    (run.hub.live.reuseLegacyReportAlias req = some event ∨ Repeats req task event →
      run.hub.live.stageEvent req now = .ok (.existing event)) ∧
    (run.hub.live.reuseLegacyReportAlias req ≠ some event → ¬ Repeats req task event →
      run.hub.live.stageEvent req now =
        .error (.callIdConflict req.callId req.action req.resolvedTarget (.ofEvent event))) := by
  have hrecord : run.hub.live.mailbox.callIndex.get? req.callId = some (.ofEvent event) := by
    rw [← hcall]
    exact (h.live.index event.callId).trans (recordOf_eq_some h.live.distinct hmem)
  have halias : ∀ other, run.hub.live.reuseLegacyReportAlias req = some other → other = event := by
    intro other hother
    unfold WorkspaceManager.reuseLegacyReportAlias at hother
    split at hother
    · split at hother
      · next existing reportId hfind hreport =>
          split at hother
          · obtain rfl := Option.some.inj hother
            have hsame : existing.callId = event.callId := by
              have := List.find?_some hfind
              simp only [decide_eq_true_eq] at this
              rw [this, hcall]
            exact List.inj_on_of_nodup_map h.live.distinct (List.mem_of_find?_eq_some hfind) hmem hsame
          · simp at hother
      · simp at hother
    · simp at hother
  unfold WorkspaceManager.stageEvent
  rw [htask]
  simp only [hrecord]
  cases hreuse : run.hub.live.reuseLegacyReportAlias req with
  | some other =>
    obtain rfl := halias other hreuse
    exact ⟨fun _ => rfl, fun hne => absurd rfl hne⟩
  | none =>
    refine ⟨fun hor => ?_, fun _ hnot => ?_⟩
    · have hrepeats : Repeats req task event := by simpa using hor
      exact if_neg (by simp [CallRecord.ofEvent, hrepeats.1, hrepeats.2.1, hrepeats.2.2])
    · refine if_pos ?_
      by_contra hsame
      simp only [ne_eq, not_or, not_not] at hsame
      exact hnot hsame

theorem answers_of_existing {req : AppendRequest} {now : Time}
    (h : run.hub.live.stageEvent req now = .ok (.existing event)) (persist : Bool)
    (outcome : SaveOutcome) : run.Answers req now persist outcome event := by
  unfold Answers Hub.appendEvent
  rw [h]
  cases persist with
  | false => exact ⟨rfl, rfl⟩
  | true =>
    refine ⟨run.hub.saveWorkspaceState_live outcome, ?_⟩
    cases outcome <;> rfl

theorem Mirrored.rolledBack (h : run.Mirrored) (req : AppendRequest) (now : Time)
    {outcome : SaveOutcome} (hraises : outcome.raises = true) :
    let mailbox := (run.hub.appendEvent req now true outcome).1.live.mailbox
    mailbox.events = run.mailbox.events ∧ mailbox.callIndex = run.mailbox.callIndex ∧
      mailbox.nextSeq.getD 1 = run.mailbox.nextSeq.getD 1 := by
  unfold Hub.appendEvent
  cases hstage : run.hub.live.stageEvent req now with
  | error => exact ⟨rfl, rfl, rfl⟩
  | ok staged =>
    cases staged with
    | existing =>
      simp only [if_true, Hub.saveWorkspaceState_live]
      exact ⟨rfl, rfl, rfl⟩
    | created =>
      obtain ⟨hseq, hevents, -⟩ := stageEvent_created hstage
      obtain ⟨hnew, hcalls⟩ := stageEvent_record hstage
      simp only [if_true, hraises, Hub.setMailbox, WorkspaceManager.unstage, Option.getD_some]
      refine ⟨by rw [hevents, List.dropLast_concat]; rfl, ?_, ?_⟩
      · rw [hcalls]
        exact Table.erase_insert_new hnew
      · rw [hseq]
        exact h.live.workspaceMax.symm

theorem Mirrored.contract (h : run.Mirrored) : run.Contract where
  increasing := h.live.increasing
  recorded := fun event hmem =>
    (h.live.index event.callId).trans (recordOf_eq_some h.live.distinct hmem)
  occurring := by
    intro record hrecord
    have hget := Table.get?_eq_some.mpr ⟨hrecord, rfl⟩
    rw [h.live.index] at hget
    obtain ⟨hmem, heq, -⟩ := mem_of_recordOf hget
    exact ⟨hmem, heq⟩
  repeated := by
    intro req now persist outcome task htask event hmem hcall hrepeats
    exact answers_of_existing ((h.stageEvent_known htask hmem hcall now).1 (.inr hrepeats)) _ _
  differing := by
    intro req now persist outcome task htask event hmem hcall hdiffers
    obtain ⟨hfound, hrefused⟩ := h.stageEvent_known htask hmem hcall now
    split
    · next halias => exact answers_of_existing (hfound (.inl halias)) _ _
    · next halias =>
        unfold Hub.appendEvent
        rw [hrefused halias hdiffers]
  rolledBack := fun req now _ hraises => h.rolledBack req now hraises
  purges := by
    intro taskId
    obtain ⟨mailbox, hpurge, -⟩ := h.live.purge taskId
    exact ⟨mailbox, hpurge⟩
  loads := by
    intro taskEvents hmem
    obtain ⟨mailbox, hload, -⟩ := run.mailbox.reload_ok run.hub.live (h.payloads taskEvents hmem)
    exact ⟨mailbox, hload⟩

end CallIndexRun

open CallIndexRun in
/-- In every run the index mirrors the events and appends are idempotent on their call id. -/
theorem call_index_mirrors_events {ops : List CallIndexOp} {finish : CallIndexRun}
    (hexec : exec CallIndexRun.step {} ops = some finish) : finish.Contract :=
  (mirrored_of_exec hexec).contract

private def indexedTask : WorkspaceTask := { id := "task", path := ["task"] }

private def indexedTasks : TaskTable := Table.empty.insert indexedTask

private def startedEvent (callId : CallId) : AppendRequest where
  taskId := "task"
  actorRole := .worker
  eventType := .started
  callId := callId
  action := "started"

/-- A rollback over a failed save, a purge that removes nothing, and a cold start. -/
theorem call_index_mirrors_events_restored :
    ∃ finish, exec CallIndexRun.step {}
        [.edit indexedTasks Table.empty Table.empty,
          .appendEvent (startedEvent (.raw "first")) 1 true .saved, .snapshot,
          .appendEvent (startedEvent (.raw "second")) 2 true .replacedThenRaised,
          .appendEvent (startedEvent (.raw "third")) 3 false .saved, .restore 0, .purge "other",
          .load 1] = some finish ∧ finish.Contract := by
  obtain ⟨finish, hexec⟩ := Option.isSome_iff_exists.mp
    (by decide +kernel : (exec CallIndexRun.step {}
      [.edit indexedTasks Table.empty Table.empty,
        .appendEvent (startedEvent (.raw "first")) 1 true .saved, .snapshot,
        .appendEvent (startedEvent (.raw "second")) 2 true .replacedThenRaised,
        .appendEvent (startedEvent (.raw "third")) 3 false .saved, .restore 0, .purge "other",
        .load 1]).isSome)
  exact ⟨finish, hexec, call_index_mirrors_events hexec⟩

private def bridgedSession : ManagedSession := { id := "worker", role := .worker }

private def bridgedReport : AgentReport :=
  { id := "report", taskId := some "task", sessionId := "worker", state := .working, message := "" }

private def bridgeEvent : AppendRequest where
  taskId := "task"
  actorRole := .worker
  eventType := .progress
  callId := .report "report"
  action := "emit"
  target := some "run"
  reportId := some "report"

private def reportWrite : AppendRequest where
  taskId := "task"
  actorRole := taskActorRoleForSession bridgedSession
  eventType := taskEventTypeForReport .working indexedTask
  callId := .report "report"
  action := "report"
  actorSessionId := some "worker"
  reviewCycle := some 0
  payload := canonicalReportBridgePayload bridgedReport bridgedSession indexedTask
  reportId := some "report"

private def bridgedOps : List CallIndexOp :=
  [.edit indexedTasks (Table.empty.insert bridgedSession) (Table.empty.insert bridgedReport),
    .appendEvent bridgeEvent 1 true .saved]

/-- The rewrite of a stored report differs from its historical event in action, target and
body, and is answered with that event. -/
theorem differing_append_answered :
    ∃ finish, exec CallIndexRun.step {} bridgedOps = some finish ∧
      ∃ event ∈ finish.mailbox.events, event.callId = reportWrite.callId ∧
        ¬ CallIndexRun.Repeats reportWrite indexedTask event ∧
        (finish.hub.appendEvent reportWrite 2 true .saved).2 = .ok (event, false) := by
  have hrun : (exec CallIndexRun.step {} bridgedOps).map (fun finish =>
      finish.mailbox.events.map fun event =>
        (decide (event.callId = reportWrite.callId ∧ event.action ≠ reportWrite.action),
          decide ((finish.hub.appendEvent reportWrite 2 true .saved).2 = .ok (event, false)))) =
      some [(true, true)] := by decide +kernel
  obtain ⟨finish, hexec, hevents⟩ := Option.map_eq_some_iff.mp hrun
  obtain ⟨event, hone, hpair⟩ := List.map_eq_singleton_iff.mp hevents
  simp only [Prod.mk.injEq, decide_eq_true_eq] at hpair
  obtain ⟨⟨hcall, haction⟩, hanswer⟩ := hpair
  exact ⟨finish, hexec, event, by simp [hone], hcall, fun h => haction h.1, hanswer⟩

end ClaudeHub
