import ClaudeHub.AgentStream.EventBuffer
import ClaudeHub.AgentStream.History
import ClaudeHub.Lib.Runs

/-! # The live view of a conversation

A view is hydrated with pages of the history, goes on with the events of the stream, and is kept in
a cache while another conversation is shown. A call of `start` waits for its answers, and one that
comes when a later call has taken the view over changes nothing.
-/

namespace ClaudeHub

open StepSystem

inductive StreamConnectionState
  | idle
  | hydrating
  | reconciling
  | live
  | failed
  deriving DecidableEq, Repr

/-- `AgentStreamBatcher`, with the events that it has committed. -/
structure AgentStreamBatcher where
  events : List HistoryEvent := []
  pending : List HistoryEvent := []
  scheduled : Bool := false
  waits : pending ≠ [] → scheduled = true := by simp

/-- `IMMEDIATE_FLUSH_TYPES` -/
def immediateFlush : AgentStreamEventType → Bool
  | .turnCompleted | .toolCallCompleted | .approvalRequired | .approvalResolved | .error
  | .status => true
  | _ => false

namespace AgentStreamBatcher

def timeline (batcher : AgentStreamBatcher) : List HistoryEvent := batcher.events ++ batcher.pending

/-- `flushNow`, `flushAndCancel` and what a timer does -/
def flush (batcher : AgentStreamBatcher) : AgentStreamBatcher where
  events := batcher.timeline

def enqueue (batcher : AgentStreamBatcher) (incoming : List HistoryEvent) : AgentStreamBatcher :=
  if incoming = [] then batcher
  else if incoming.any fun event => immediateFlush event.event.type then
    { events := batcher.events ++ (batcher.pending ++ incoming) }
  else
    { events := batcher.events
      pending := batcher.pending ++ incoming
      scheduled := true
      waits := fun _ => rfl }

@[simp] theorem timeline_flush (batcher : AgentStreamBatcher) :
    batcher.flush.timeline = batcher.timeline := by simp [flush, timeline]

@[simp] theorem events_flush (batcher : AgentStreamBatcher) :
    batcher.flush.events = batcher.timeline := rfl

@[simp] theorem timeline_enqueue (batcher : AgentStreamBatcher) (incoming : List HistoryEvent) :
    (batcher.enqueue incoming).timeline = batcher.timeline ++ incoming := by
  unfold enqueue
  split
  next hempty => simp [hempty]
  · split <;> simp [timeline]

end AgentStreamBatcher

/-- `AgentStreamHistorySnapshot` -/
structure HistorySnapshot where
  structured : Option Bool
  events : List HistoryEvent
  cursor : Int
  attributedToolIds : List String

/-- The entries of `AgentStreamHistoryCache`, that of the latest use last. -/
abbrev HistoryCache := Dict String HistorySnapshot

namespace HistoryCache

def capacity : Nat := 12

/-- A hit becomes the entry of the latest use. -/
def get (cache : HistoryCache) (path : String) : Option HistorySnapshot × HistoryCache :=
  match cache.lookup path with
  | none => (none, cache)
  | some snapshot => (some snapshot, Dict.set (cache.erase path) path snapshot)

def put (cache : HistoryCache) (path : String) (snapshot : HistorySnapshot) : HistoryCache :=
  (Dict.set (cache.erase path) path snapshot).keepLast capacity

end HistoryCache

/-- What a call of `start` or `retry` waits for; `since` is a variable of its own, and `cached` tells
whether the capabilities were cached. -/
inductive StreamCall
  /-- `cached` is `none` in the loop behind the capabilities. -/
  | history (path : String) (since : Int) (cached : Option Bool)
  | prepare (path : String) (since : Int) (cached : Bool)
  | live (path : String)
  | retry (path : String) (kept : Bool)

/-- What `useAgentStream` keeps; it has a path unless it is stopped. -/
structure LiveView where
  generation : Nat := 0
  connectionState : StreamConnectionState := .idle
  path : Option String := none
  structured : Option Bool := none
  historyReady : Bool := false
  batcher : AgentStreamBatcher := {}
  attributedToolIds : List String := []
  buffer : ContiguousEventBuffer HistoryEvent := {}
  cache : HistoryCache := Table.empty
  calls : Dict Nat StreamCall := Table.empty

inductive StreamAnswer
  | page (page : HistoryPage)
  /-- `none` when a settings response takes precedence -/
  | capabilities (structured : Option Bool)
  /-- The configuration is another one when the capabilities are there. -/
  | reconfigured (cached : Bool)
  | events (incoming : List HistoryEvent)
  | hello (structured : Bool)
  | retried (cached : Bool)
  | failed

/-- What happens to a view: a call of its user, the answer to a call, or the timer of its batcher. -/
inductive LiveViewOp
  | start (path : String) (cached : Bool)
  | retry (path : String)
  | updateCapabilities (structured : Bool)
  | stop
  | answer (generation : Nat) (answer : StreamAnswer)
  | timer

/-- One turn of the loop of `filterLiveCommittedEvents`: whether the event is shown, and the tool
calls with a turn that are known behind it. -/
def acceptLive (ids : List String) (event : HistoryEvent) : List HistoryEvent × List String :=
  match replayToolIdentity event with
  | none => ([event], ids)
  | some identity =>
    if event.turn = none then (if identity ∈ ids then [] else [event], ids)
    else ([event], ids.addNew [identity])

def filterLiveCommittedEvents (ids : List String) :
    List HistoryEvent → List HistoryEvent × List String
  | [] => ([], ids)
  | event :: rest =>
    let accepted := acceptLive ids event
    let last := filterLiveCommittedEvents accepted.2 rest
    (accepted.1 ++ last.1, last.2)

namespace LiveView

def streamSequence? (event : HistoryEvent) : Option Int := some event.streamSequence

def flush (view : LiveView) : LiveView := { view with batcher := view.batcher.flush }

/-- `currentHistorySnapshot`, once the batcher is flushed -/
def snapshot (view : LiveView) : HistorySnapshot where
  structured := view.structured
  events := view.batcher.timeline
  cursor := view.buffer.cursor
  attributedToolIds := view.attributedToolIds

def cacheCurrentHistory (view : LiveView) : HistoryCache :=
  match view.path with
  | none => view.cache
  | some path =>
    if view.structured = some true then view.cache.put path view.snapshot else view.cache

def stop (view : LiveView) : LiveView :=
  { view.flush with
    cache := view.cacheCurrentHistory
    path := none
    generation := view.generation + 1
    connectionState := .idle }

/-- `reset`, for a path of its own -/
def reset (view : LiveView) (path : String) (snapshot : Option HistorySnapshot) : LiveView :=
  { view with
    path := some path
    cache := if snapshot.isNone then view.cache.erase path else view.cache
    historyReady := snapshot.isSome
    structured := snapshot.bind HistorySnapshot.structured
    batcher := { events := snapshot.elim [] HistorySnapshot.events }
    attributedToolIds := snapshot.elim [] HistorySnapshot.attributedToolIds
    buffer := { cursor := snapshot.elim (-1) HistorySnapshot.cursor } }

/-- The current call goes on to its next answer. -/
def await (view : LiveView) (call : StreamCall) : LiveView :=
  { view with calls := view.calls.set view.generation call }

/-- `StreamConnectionStateMachine.start` -/
def begin (view : LiveView) (state : StreamConnectionState) (call : StreamCall) : LiveView :=
  { view with generation := view.generation + 1, connectionState := state }.await call

def start (view : LiveView) (path : String) (cached : Bool) : LiveView :=
  let stopped := view.stop
  let found := stopped.cache.get path
  let view := { stopped with cache := found.2 }.reset path found.1
  view.begin (if found.1.isSome then .reconciling else .hydrating)
    (.history path view.buffer.cursor (some cached))

def retry (view : LiveView) (path : String) : LiveView :=
  let kept := if view.path = some path ∧ view.historyReady then some view.snapshot else none
  (view.stop.reset path kept).begin .hydrating (.retry path kept.isSome)

def fail (view : LiveView) : LiveView := { view with connectionState := .failed }

/-- The current call ends. -/
def finish (view : LiveView) : LiveView :=
  { view with calls := view.calls.erase view.generation }

/-- `closeSse` and `abortLongPoll` -/
def abortLive (view : LiveView) : LiveView :=
  match view.calls.lookup view.generation with
  | some (.live _) => view.finish
  | _ => view

def applyCompactedHistoryPage (view : LiveView) (page : HistoryPage) : LiveView :=
  { view with
    attributedToolIds := view.attributedToolIds.addNew page.attributedToolIds
    batcher := view.batcher.enqueue page.events
    buffer := { cursor := page.nextSequence } }

/-- `applyPage`, and what is done with a server-sent event -/
def applyPage (view : LiveView) (incoming : List HistoryEvent) : LiveView :=
  let pushed := view.buffer.push streamSequence? incoming
  let accepted := filterLiveCommittedEvents view.attributedToolIds pushed.1
  { view with
    attributedToolIds := accepted.2
    batcher := view.batcher.enqueue accepted.1
    buffer := pushed.2 }

/-- The current call goes on with an answer. -/
def answered (view : LiveView) : StreamCall → StreamAnswer → Option LiveView
  | .history path _ cached, .page page =>
    let view := view.applyCompactedHistoryPage page
    if page.hasMore then some (view.await (.history path page.nextSequence cached))
    else
      match cached with
      | none => some ({ view.flush with connectionState := .live }.await (.live path))
      | some cached =>
        let view := { view.flush with historyReady := true, connectionState := .reconciling }
        some (view.await (.prepare path page.nextSequence cached))
  | .prepare path since cached, .capabilities structured =>
    let view := { view with structured := structured.or view.structured }
    if view.structured ≠ some true then some view.fail.finish
    else if ¬ cached ∧ view.batcher.events = [] then some (view.await (.history path since none))
    else some ({ view with connectionState := .live }.await (.live path))
  | .prepare path _ _, .reconfigured cached => some (view.start path cached)
  | .live _, .events incoming => some (view.applyPage incoming)
  | .live _, .hello structured =>
    let view := { view with structured := some structured }
    some (if structured then view else view.stop.fail)
  | .retry path kept, .retried cached =>
    let cache := if kept then view.cache.put path view.snapshot else view.cache
    some ({ view with cache := cache }.start path cached)
  | .live _, .failed => some view.fail
  | _, .failed => some view.fail.finish
  | _, _ => none

def step (view : LiveView) : LiveViewOp → Option LiveView
  | .start path cached => some (view.start path cached)
  | .retry path => some (view.retry path)
  | .stop => some view.stop
  | .updateCapabilities structured =>
    if view.path = none then none
    else
      let view := { view with structured := some structured }
      some (if structured then view else view.fail.abortLive)
  | .timer => if view.batcher.scheduled then some view.flush else none
  | .answer generation answer => do
    let call ← view.calls.lookup generation
    if generation = view.generation then view.answered call answer else some view

end LiveView

/-! ## What a view shows -/

/-- What a server has of a conversation: the events of its log, and the pages that it answers for
what lies behind a number. -/
structure Conversation where
  log : Int → Option HistoryEvent
  pages : Int → HistoryPage → Prop
  numbered : ∀ n event, log n = some event → event.streamSequence = n
  ahead : ∀ since page, pages since page → since ≤ page.nextSequence ∧
    page.events.Pairwise (fun a b => a.streamSequence < b.streamSequence) ∧
    ∀ event ∈ page.events,
      since < event.streamSequence ∧ event.streamSequence ≤ page.nextSequence

/-- The timelines of a conversation, with the tool calls known and the number they go up to: pages
and events of the log, each from where the last one ended. -/
inductive Shown (conversation : Conversation) : List HistoryEvent → List String → Int → Prop
  | nil : Shown conversation [] [] (-1)
  | page {events : List HistoryEvent} {ids : List String} {place : Int} {page : HistoryPage}
      (hshown : Shown conversation events ids place) (hpage : conversation.pages place page) :
      Shown conversation (events ++ page.events) (ids.addNew page.attributedToolIds)
        page.nextSequence
  | event {events : List HistoryEvent} {ids : List String} {place : Int} {event : HistoryEvent}
      (hshown : Shown conversation events ids place)
      (hlog : conversation.log (place + 1) = some event) :
      Shown conversation (events ++ (acceptLive ids event).1) (acceptLive ids event).2 (place + 1)

section

variable {conversation : Conversation} {events committed : List HistoryEvent} {ids : List String}
  {place last : Int}

/-- An event is left out or shown as it is. -/
theorem acceptLive_sublist (event : HistoryEvent) :
    (acceptLive ids event).1.Sublist [event] := by
  unfold acceptLive
  split
  · exact List.Sublist.refl _
  · split
    · split
      · exact List.nil_sublist _
      · exact List.Sublist.refl _
    · exact List.Sublist.refl _

theorem Shown.filterLive (h : Shown conversation events ids place)
    (hcommitted : Contiguous conversation.log place committed last) :
    Shown conversation (events ++ (filterLiveCommittedEvents ids committed).1)
      (filterLiveCommittedEvents ids committed).2 last := by
  induction hcommitted generalizing events ids with
  | nil => simpa [filterLiveCommittedEvents] using h
  | cons hlog _ ih =>
    have hrest := ih (h.event hlog)
    rwa [List.append_assoc] at hrest

/-- A timeline is in the order of its log, and no event is on it twice. -/
theorem Shown.increasing (h : Shown conversation events ids place) :
    events.Pairwise (fun a b => a.streamSequence < b.streamSequence) ∧
      ∀ event ∈ events, event.streamSequence ≤ place := by
  induction h with
  | nil => simp
  | page _ hpage ih =>
    obtain ⟨hnext, hordered, hwithin⟩ := conversation.ahead _ _ hpage
    refine ⟨List.pairwise_append.mpr ⟨ih.1, hordered, fun a ha b hb => ?_⟩, fun event hevent => ?_⟩
    · exact (ih.2 a ha).trans_lt (hwithin b hb).1
    · rcases List.mem_append.mp hevent with hold | hnew
      · exact (ih.2 event hold).trans hnext
      · exact (hwithin event hnew).2
  | @event events ids place event _ hlog ih =>
    have hnumber := conversation.numbered _ _ hlog
    have hone : (acceptLive ids event).1.Sublist [event] := acceptLive_sublist event
    have hnew : ∀ other ∈ (acceptLive ids event).1, other.streamSequence = place + 1 :=
      fun other hother => List.mem_singleton.mp (hone.subset hother) ▸ hnumber
    refine ⟨List.pairwise_append.mpr ⟨ih.1, (List.pairwise_singleton ..).sublist hone,
      fun a ha b hb => ?_⟩, fun other hother => ?_⟩
    · have hle := ih.2 a ha
      have heq := hnew b hb
      omega
    · rcases List.mem_append.mp hother with hold | hother
      · exact (ih.2 other hold).trans (by omega)
      · exact (hnew other hother).le

end

def HistorySnapshot.IsOf (conversation : Conversation) (snapshot : HistorySnapshot) : Prop :=
  Shown conversation snapshot.events snapshot.attributedToolIds snapshot.cursor

namespace StreamCall

def path : StreamCall → String
  | .history path _ _ | .prepare path _ _ | .live path | .retry path _ => path

def since? : StreamCall → Option Int
  | .history _ since _ | .prepare _ since _ => some since
  | .live _ | .retry _ _ => none

end StreamCall

namespace LiveView

/-- The answers come from the servers of the conversations that they were asked of. -/
def Served (server : String → Conversation) (view : LiveView) : LiveViewOp → Prop
  | .answer generation (.page page) => ∀ call, view.calls.lookup generation = some call →
    ∀ since ∈ call.since?, (server call.path).pages since page
  | .answer generation (.events incoming) => ∀ call, view.calls.lookup generation = some call →
    ∀ event ∈ incoming, (server call.path).log event.streamSequence = some event
  | _ => True

variable {server : String → Conversation} {view next : LiveView}

/-- A view shows the conversation that it is of, and so do the entries of its cache. -/
structure Shows (server : String → Conversation) (view : LiveView) : Prop where
  shown : ∀ path, view.path = some path →
    Shown (server path) view.batcher.timeline view.attributedToolIds view.buffer.cursor
  ahead : ∀ path, view.path = some path → ∀ n event, view.buffer.pending.lookup n = some event →
    view.buffer.cursor < n ∧ (server path).log n = some event
  gap : view.buffer.Gap
  cache : ∀ entry ∈ view.cache.rows, entry.2.IsOf (server entry.1)
  issued : ∀ n call, view.calls.lookup n = some call → n ≤ view.generation

/-- The current call is about the path of the view, and waits where the view has got to. -/
def InStep (view : LiveView) : Prop := ∀ call, view.calls.lookup view.generation = some call →
  view.path = some call.path ∧ ∀ since ∈ call.since?, since = view.buffer.cursor

theorem shows_start : Shows server {} where
  shown := by simp
  ahead := by simp
  gap := rfl
  cache := by simp
  issued := by simp

theorem cache_put {cache : HistoryCache} {path : String} {snapshot : HistorySnapshot}
    (h : ∀ entry ∈ cache.rows, entry.2.IsOf (server entry.1))
    (hsnapshot : snapshot.IsOf (server path)) :
    ∀ entry ∈ (cache.put path snapshot).rows, entry.2.IsOf (server entry.1) := by
  intro entry hentry
  rcases Table.mem_insert.mp (List.mem_of_mem_drop hentry) with rfl | ⟨hold, -⟩
  · exact hsnapshot
  · exact h entry (Table.mem_erase.mp hold).1

theorem cache_get {cache : HistoryCache} (path : String)
    (h : ∀ entry ∈ cache.rows, entry.2.IsOf (server entry.1)) :
    (∀ snapshot ∈ (cache.get path).1, snapshot.IsOf (server path)) ∧
      ∀ entry ∈ (cache.get path).2.rows, entry.2.IsOf (server entry.1) := by
  unfold HistoryCache.get
  split
  · exact ⟨by simp, h⟩
  next snapshot hsnapshot =>
    have hof := h _ (Dict.lookup_eq_some.mp hsnapshot)
    refine ⟨by simpa using hof, fun entry hentry => ?_⟩
    rcases Table.mem_insert.mp hentry with rfl | ⟨hold, -⟩
    · exact hof
    · exact h entry (Table.mem_erase.mp hold).1

theorem Shows.snapshot {path : String} (h : Shows server view) (hpath : view.path = some path) :
    view.snapshot.IsOf (server path) := h.shown path hpath

theorem Shows.flush (h : Shows server view) : Shows server view.flush :=
  { h with shown := by simpa [LiveView.flush] using h.shown }

theorem Shows.cacheCurrentHistory (h : Shows server view) :
    ∀ entry ∈ view.cacheCurrentHistory.rows, entry.2.IsOf (server entry.1) := by
  unfold LiveView.cacheCurrentHistory
  split
  · exact h.cache
  next path hpath =>
    split
    · exact cache_put h.cache (h.snapshot hpath)
    · exact h.cache

theorem Shows.stop (h : Shows server view) : Shows server view.stop where
  shown := by simp [LiveView.stop]
  ahead := by simp [LiveView.stop]
  gap := h.gap
  cache := h.cacheCurrentHistory
  issued := fun n call hcall => (h.issued n call hcall).trans (Nat.le_succ _)

/-- Nothing waits for a generation that was not begun. -/
theorem Shows.inStep_stop (h : Shows server view) : view.stop.InStep := fun _ hcall =>
  absurd (h.issued _ _ hcall) (Nat.not_succ_le_self _)

theorem Shows.reset (h : Shows server view) {path : String} {snapshot : Option HistorySnapshot}
    (hsnapshot : ∀ s ∈ snapshot, s.IsOf (server path)) :
    Shows server (view.reset path snapshot) where
  shown := by
    rintro _ ⟨⟩
    cases snapshot with
    | none => exact .nil
    | some snapshot =>
      have hof : Shown _ _ _ _ := hsnapshot _ rfl
      simpa [LiveView.reset, AgentStreamBatcher.timeline] using hof
  ahead := by simp [LiveView.reset]
  gap := by simp [LiveView.reset, ContiguousEventBuffer.Gap]
  cache := by
    intro entry hentry
    dsimp only [LiveView.reset] at hentry
    split at hentry
    · exact h.cache entry (Table.mem_erase.mp hentry).1
    · exact h.cache entry hentry
  issued := h.issued

theorem Shows.await (h : Shows server view) {call : StreamCall}
    (hpath : view.path = some call.path)
    (hsince : ∀ since ∈ call.since?, since = view.buffer.cursor) :
    Shows server (view.await call) ∧ (view.await call).InStep := by
  refine ⟨{ h with issued := fun n other hother => ?_ }, fun other hother => ?_⟩
  · dsimp only [LiveView.await] at hother ⊢
    rw [Dict.lookup_set] at hother
    split at hother
    · omega
    · exact h.issued n other hother
  · dsimp only [LiveView.await] at hother ⊢
    rw [Dict.lookup_set, if_pos rfl] at hother
    obtain rfl := Option.some.inj hother
    exact ⟨hpath, hsince⟩

theorem Shows.begin (h : Shows server view) {state : StreamConnectionState} {call : StreamCall}
    (hpath : view.path = some call.path)
    (hsince : ∀ since ∈ call.since?, since = view.buffer.cursor) :
    Shows server (view.begin state call) ∧ (view.begin state call).InStep := by
  have hbegun : Shows server
      { view with generation := view.generation + 1, connectionState := state } :=
    { h with issued := fun n other hother => (h.issued n other hother).trans (Nat.le_succ _) }
  exact hbegun.await hpath hsince

theorem Shows.finish (h : Shows server view) :
    Shows server view.finish ∧ view.finish.InStep := by
  refine ⟨{ h with issued := fun n other hother => ?_ }, fun call hcall => ?_⟩
  · dsimp only [LiveView.finish] at hother ⊢
    rw [Dict.lookup_erase] at hother
    split at hother
    · cases hother
    · exact h.issued n other hother
  · simp [LiveView.finish, Dict.lookup_erase] at hcall

theorem Shows.start (h : Shows server view) (path : String) (cached : Bool) :
    Shows server (view.start path cached) ∧ (view.start path cached).InStep := by
  have hget := cache_get path h.stop.cache
  have hstopped : Shows server { view.stop with cache := (view.stop.cache.get path).2 } :=
    { h.stop with cache := hget.2 }
  exact (hstopped.reset hget.1).begin rfl (by simp [StreamCall.since?])

theorem Shows.retry (h : Shows server view) (path : String) :
    Shows server (view.retry path) ∧ (view.retry path).InStep := by
  refine (h.stop.reset fun snapshot hsnapshot => ?_).begin rfl (by simp [StreamCall.since?])
  split at hsnapshot
  next hkept =>
    obtain rfl := Option.some.inj hsnapshot
    exact h.snapshot hkept.1
  · cases hsnapshot

theorem Shows.applyCompactedHistoryPage (h : Shows server view) {page : HistoryPage}
    {path : String} (hpath : view.path = some path)
    (hpage : (server path).pages view.buffer.cursor page) :
    Shows server (view.applyCompactedHistoryPage page) where
  shown := by
    intro other hother
    obtain rfl := Option.some.inj (hpath.symm.trans hother)
    simpa [LiveView.applyCompactedHistoryPage] using (h.shown path hpath).page hpage
  ahead := by simp [LiveView.applyCompactedHistoryPage]
  gap := by simp [LiveView.applyCompactedHistoryPage, ContiguousEventBuffer.Gap]
  cache := h.cache
  issued := h.issued

theorem Shows.applyPage (h : Shows server view) {incoming : List HistoryEvent} {path : String}
    (hpath : view.path = some path)
    (hlog : ∀ event ∈ incoming, (server path).log event.streamSequence = some event) :
    Shows server (view.applyPage incoming) := by
  have hholds : ContiguousEventBuffer.Holds (server path).log view.buffer.cursor
      (fun n => n ≤ view.buffer.cursor ∨ (view.buffer.pending.lookup n).isSome) view.buffer :=
    ⟨h.ahead path hpath, fun n _ => Iff.rfl⟩
  have hnumber : ∀ event ∈ incoming, ∀ n, streamSequence? event = some n →
      (server path).log n = some event :=
    fun event hevent n hn => Option.some.inj hn ▸ hlog event hevent
  obtain ⟨hcommitted, hpushed, hgap⟩ :=
    ContiguousEventBuffer.holds_push hholds le_rfl hnumber
  exact {
    shown := by
      intro other hother
      obtain rfl := Option.some.inj (hpath.symm.trans hother)
      simpa [LiveView.applyPage] using (h.shown path hpath).filterLive hcommitted
    ahead := by
      intro other hother
      obtain rfl := Option.some.inj (hpath.symm.trans hother)
      exact hpushed.ahead
    gap := hgap
    cache := h.cache
    issued := h.issued }

theorem Shows.abortLive (h : Shows server view) (hin : view.InStep) :
    Shows server view.abortLive ∧ view.abortLive.InStep := by
  unfold LiveView.abortLive
  split
  · exact h.finish
  · exact ⟨h, hin⟩

theorem Shows.fail (h : Shows server view) : Shows server view.fail := { h with }

theorem Shows.live (h : Shows server view) :
    Shows server { view with connectionState := .live } := { h with }

theorem Shows.answered {call : StreamCall} {answer : StreamAnswer} (h : Shows server view)
    (hin : view.InStep) (hcall : view.calls.lookup view.generation = some call)
    (hserved : Served server view (.answer view.generation answer))
    (hnext : view.answered call answer = some next) : Shows server next ∧ next.InStep := by
  obtain ⟨hpath, hsince⟩ := hin call hcall
  unfold LiveView.answered at hnext
  split at hnext
  next path since cached page =>
    obtain rfl := hsince since rfl
    have hpage := h.applyCompactedHistoryPage hpath (hserved _ hcall _ rfl)
    have hcursor : ∀ n ∈ some page.nextSequence,
        n = (view.applyCompactedHistoryPage page).buffer.cursor := fun n hn =>
      (Option.some.inj hn).symm
    split at hnext
    · obtain rfl := Option.some.inj hnext
      exact hpage.await hpath hcursor
    · split at hnext <;> obtain rfl := Option.some.inj hnext
      · exact hpage.flush.live.await hpath (by simp [StreamCall.since?])
      · have hready : Shows server { (view.applyCompactedHistoryPage page).flush with
            historyReady := true, connectionState := .reconciling } := { hpage.flush with }
        exact hready.await hpath hcursor
  next path since cached structured =>
    have hknown : Shows server { view with structured := structured.or view.structured } :=
      { h with }
    dsimp only at hnext
    split at hnext
    · obtain rfl := Option.some.inj hnext
      exact hknown.fail.finish
    · split at hnext <;> obtain rfl := Option.some.inj hnext
      · exact hknown.await hpath hsince
      · exact hknown.live.await hpath (by simp [StreamCall.since?])
  next path since _ cached =>
    obtain rfl := Option.some.inj hnext
    exact h.start path cached
  next path incoming =>
    obtain rfl := Option.some.inj hnext
    refine ⟨h.applyPage hpath (hserved _ hcall), fun other hother => ?_⟩
    obtain rfl := Option.some.inj (hcall.symm.trans hother)
    exact ⟨hpath, by simp [StreamCall.since?]⟩
  next path structured =>
    have hknown : Shows server { view with structured := some structured } := { h with }
    obtain rfl := Option.some.inj hnext
    cases structured with
    | true => exact ⟨hknown, hin⟩
    | false => exact ⟨hknown.stop.fail, hknown.inStep_stop⟩
  next path kept cached =>
    obtain rfl := Option.some.inj hnext
    have hcache : Shows server { view with
        cache := if kept then view.cache.put path view.snapshot else view.cache } := by
      refine { h with cache := ?_ }
      split
      · exact cache_put h.cache (h.snapshot hpath)
      · exact h.cache
    exact hcache.start path cached
  next =>
    obtain rfl := Option.some.inj hnext
    exact ⟨h.fail, hin⟩
  next =>
    obtain rfl := Option.some.inj hnext
    exact h.fail.finish
  next => cases hnext

theorem Shows.step {op : LiveViewOp} (h : Shows server view) (hin : view.InStep)
    (hserved : Served server view op) (hstep : view.step op = some next) :
    Shows server next ∧ next.InStep := by
  cases op with
  | start path cached =>
    obtain rfl := Option.some.inj hstep
    exact h.start path cached
  | retry path =>
    obtain rfl := Option.some.inj hstep
    exact h.retry path
  | updateCapabilities structured =>
    dsimp only [LiveView.step] at hstep
    split at hstep
    · cases hstep
    · have hknown : Shows server { view with structured := some structured } := { h with }
      obtain rfl := Option.some.inj hstep
      cases structured with
      | true => exact ⟨hknown, hin⟩
      | false => exact hknown.fail.abortLive hin
  | stop =>
    obtain rfl := Option.some.inj hstep
    exact ⟨h.stop, h.inStep_stop⟩
  | answer generation answer =>
    obtain ⟨call, hcall, hanswer⟩ := Option.bind_eq_some_iff.mp hstep
    split at hanswer
    next hcurrent =>
      subst hcurrent
      exact h.answered hin hcall hserved hanswer
    · obtain rfl := Option.some.inj hanswer
      exact ⟨h, hin⟩
  | timer =>
    dsimp only [LiveView.step] at hstep
    split at hstep
    · obtain rfl := Option.some.inj hstep
      exact ⟨h.flush, hin⟩
    · cases hstep

/-- Whatever calls and answers come between, a view shows pages and events of the conversation that
it is of, each from where the last one ended and in the order of the log; so do the cached views. -/
theorem live_view_shows_log {ops : List LiveViewOp}
    (hrun : Run LiveView.step (Served server) {} ops view) :
    (∀ path, view.path = some path →
      Shown (server path) view.batcher.timeline view.attributedToolIds view.buffer.cursor ∧
        view.batcher.timeline.Pairwise (fun a b => a.streamSequence < b.streamSequence) ∧
        view.buffer.pending.lookup (view.buffer.cursor + 1) = none) ∧
      ∀ path snapshot, view.cache.lookup path = some snapshot →
        Shown (server path) snapshot.events snapshot.attributedToolIds snapshot.cursor := by
  obtain ⟨hshows, -⟩ := hrun.invariant (P := fun view => Shows server view ∧ view.InStep)
    ⟨shows_start, fun _ hcall => by simp at hcall⟩
    fun _ _ _ h hserved hstep => h.1.step h.2 hserved hstep
  refine ⟨fun path hpath => ?_, fun path snapshot hcached => ?_⟩
  · have hshown := hshows.shown path hpath
    exact ⟨hshown, hshown.increasing.1, hshows.gap⟩
  · exact hshows.cache _ (Dict.lookup_eq_some.mp hcached)

def deltaAt (n : Int) : HistoryEvent where
  streamSequence := n
  event := { type := .textDelta }

/-- A conversation of deltas, whose pages have one event each. -/
def deltas : Conversation where
  log n := some (deltaAt n)
  pages since page := page.events = [deltaAt (since + 1)] ∧ page.nextSequence = since + 1
  numbered := fun n event hlog => Option.some.inj hlog ▸ rfl
  ahead := fun since page ⟨hevents, hnext⟩ => by
    simp [hevents, hnext, deltaAt, Int.lt_succ, Int.le_add_one]

/-- The live events of the first conversation come in another order, and once more after the second
one was begun. -/
def switchOps : List LiveViewOp :=
  [.start "a" false, .answer 2 (.page ⟨[deltaAt 0], 0, false, [], []⟩),
    .answer 2 (.capabilities (some true)), .answer 2 (.events [deltaAt 2, deltaAt 1]),
    .start "b" false, .answer 2 (.events [deltaAt 3])]

theorem live_view_shows_log_switched : ∃ view snapshot,
    Run LiveView.step (Served fun _ => deltas) {} switchOps view ∧
      view.cache.lookup "a" = some snapshot ∧ snapshot.events = [deltaAt 0, deltaAt 1, deltaAt 2] ∧
      Shown deltas snapshot.events snapshot.attributedToolIds snapshot.cursor := by
  have hpage : deltas.pages (-1) ⟨[deltaAt 0], 0, false, [], []⟩ := ⟨rfl, rfl⟩
  obtain ⟨view, hrun, snapshot, hcached, hevents⟩ : ∃ view,
      Run LiveView.step (Served fun _ => deltas) {} switchOps view ∧ ∃ snapshot,
        view.cache.lookup "a" = some snapshot ∧
          snapshot.events = [deltaAt 0, deltaAt 1, deltaAt 2] := by
    refine ⟨_, .cons trivial rfl (.cons (fun call hcall since hsince => ?_) rfl (.cons trivial rfl
      (.cons (fun _ _ event hevent => ?_) rfl (.cons trivial rfl
        (.cons (fun _ _ event hevent => ?_) rfl (.nil _)))))), _, rfl, rfl⟩
    · obtain rfl := Option.some.inj hcall
      obtain rfl := Option.some.inj hsince
      exact hpage
    · simp only [List.mem_cons, List.not_mem_nil, or_false] at hevent
      rcases hevent with rfl | rfl <;> rfl
    · obtain rfl := List.mem_singleton.mp hevent
      rfl
  exact ⟨view, snapshot, hrun, hcached, hevents, (live_view_shows_log hrun).2 "a" snapshot hcached⟩

end LiveView

end ClaudeHub
