import ClaudeHub.AgentStream.Lossless

/-! # Runs of the publish path

Between two waits every event that was taken is emitted, in the batch of the lock holder, or
in the buffer, and every other event that was published belongs to a caller that holds the
flush lock or waits for it. The lock is handed on in order, so the return of a later flush
finds nothing left.
-/

namespace ClaudeHub

open Merging StepSystem

namespace FlushCaller

def publishes : FlushCaller → Option StreamEvent
  | .publish event => some event
  | _ => none

/-- The caller is a call of `_publish`. -/
def isPublisher : FlushCaller → Bool
  | .publish _ | .handle => true
  | _ => false

theorem publishes_of_not_publisher {caller : FlushCaller} (h : caller.isPublisher = false) :
    caller.publishes = none := by
  cases caller with
  | handle => cases h
  | publish => cases h
  | background => rfl
  | awaited => rfl

end FlushCaller

namespace Publication

/-- Who holds the flush lock or waits for it, in order. -/
def queue (run : Publication) : List FlushCaller :=
  (run.draining.map Prod.fst).toList ++ run.waiting

def batch (run : Publication) : List StreamEvent := (run.draining.map Prod.snd).getD []

/-- Published, waiting for the buffer to be drained. -/
def pending (run : Publication) : List StreamEvent := run.queue.filterMap FlushCaller.publishes

/-- Between two waits, with `order` between the calls and what was taken of them. -/
structure Consistent (order : List StreamEvent → List StreamEvent → Prop) (run : Publication) :
    Prop where
  flushing : run.coalescer.flushing = run.draining.isSome
  buffer : ∀ e ∈ run.coalescer.buffer, e.isCoalescable = true
  direct : ∀ e ∈ run.pending, e.isDirect = true
  merged : MergesDeltas run.passed (run.emitted ++ run.batch ++ run.coalescer.buffer)
  ordered : order run.called (run.passed ++ run.pending)

/-- The lock holder has handed over its batch, with `waiting` behind it. -/
structure Drained (order : List StreamEvent → List StreamEvent → Prop) (run : Publication)
    (caller : FlushCaller) : Prop where
  flushing : run.coalescer.flushing = true
  buffer : ∀ e ∈ run.coalescer.buffer, e.isCoalescable = true
  direct : ∀ e ∈ (caller :: run.waiting).filterMap FlushCaller.publishes, e.isDirect = true
  merged : MergesDeltas run.passed (run.emitted ++ run.coalescer.buffer)
  ordered : order run.called
    (run.passed ++ (caller :: run.waiting).filterMap FlushCaller.publishes)

variable {order : List StreamEvent → List StreamEvent → Prop} {run next : Publication}
  {caller : FlushCaller} {now : Time}

theorem consistent_start (window : Time) (horder : order [] []) :
    (start window).Consistent order where
  flushing := rfl
  buffer _ he := nomatch he
  direct _ he := nomatch he
  merged := .refl _
  ordered := horder

theorem drainLoop_of_empty (hbuffer : run.coalescer.buffer = []) :
    run.drainLoop caller now
      = { run with
          coalescer := { run.coalescer with flushing := false }
          draining := none }.flushReturned caller := by
  simp [drainLoop, hbuffer, collapse]

variable {event : StreamEvent}

theorem drainLoop_of_cons {rest : List StreamEvent}
    (h : collapse run.coalescer.buffer = event :: rest) : run.drainLoop caller now = { run with
          coalescer := { run.coalescer with buffer := [], lastFlushAt := some now }
          draining := some (caller, rest)
          emitted := run.emitted ++ [event] } := by
  simp [drainLoop, h]

theorem Drained.consistent (h : run.Drained order caller) (now : Time) :
    (run.drainLoop caller now).Consistent order := by
  cases hbatch : collapse run.coalescer.buffer with
  | nil =>
    have hempty := collapse_eq_nil.mp hbatch
    rw [drainLoop_of_empty hempty]
    have hmerged := h.merged
    have hdirect := h.direct
    have hordered := h.ordered
    rw [hempty] at hmerged
    cases caller with
    | publish event =>
      refine ⟨rfl, ?_, ?_, ?_, ?_⟩
      · simp [flushReturned, hempty]
      · exact fun e he => hdirect e (List.mem_cons_of_mem _ he)
      · simpa [flushReturned, batch, hempty] using hmerged.append_right [event]
      · simpa [flushReturned, pending, queue, FlushCaller.publishes] using hordered
    | handle | background | awaited id =>
      refine ⟨rfl, ?_, hdirect, ?_, hordered⟩
      · simp [flushReturned, hempty]
      · simpa [flushReturned, batch, hempty] using hmerged
  | cons =>
    rw [drainLoop_of_cons hbatch]
    refine ⟨h.flushing, (fun _ he => nomatch he), h.direct, ?_, h.ordered⟩
    have hcollapsed := (collapse_merges h.buffer).append_left run.emitted
    rw [hbatch] at hcollapsed
    simpa [batch] using h.merged.trans hcollapsed

/-- A caller about to take the flush lock or to wait for it. -/
structure Entering (order : List StreamEvent → List StreamEvent → Prop) (run : Publication)
    (caller : FlushCaller) : Prop where
  flushing : run.coalescer.flushing = run.draining.isSome
  buffer : ∀ e ∈ run.coalescer.buffer, e.isCoalescable = true
  direct : ∀ e ∈ run.pending ++ caller.publishes.toList, e.isDirect = true
  merged : MergesDeltas run.passed (run.emitted ++ run.batch ++ run.coalescer.buffer)
  ordered : order run.called (run.passed ++ (run.pending ++ caller.publishes.toList))

theorem filterMap_publishes_singleton (caller : FlushCaller) :
    [caller].filterMap FlushCaller.publishes = caller.publishes.toList := by
  cases caller <;> rfl

theorem Entering.flushAsync (h : run.Entering order caller) (now : Time) :
    (run.flushAsync caller now).Consistent order := by
  have hdirect := h.direct
  have hmerged := h.merged
  have hordered := h.ordered
  unfold Publication.flushAsync
  by_cases hfree : run.draining = none ∧ run.waiting = []
  · obtain ⟨hnone, hnobody⟩ := hfree
    have hpending : run.pending = [] := by simp [pending, queue, hnone, hnobody]
    have hbatch : run.batch = [] := by simp [batch, hnone]
    rw [hpending, List.nil_append] at hdirect hordered
    rw [hbatch, List.append_nil] at hmerged
    simp only [hnone, hnobody, and_self, if_true]
    apply Drained.consistent
    refine ⟨rfl, h.buffer, ?_, hmerged, ?_⟩
    · simpa [hnobody, filterMap_publishes_singleton] using hdirect
    · simpa [hnobody, filterMap_publishes_singleton] using hordered
  · simp only [hfree, if_false]
    have hpending : ({ run with waiting := run.waiting ++ [caller] } : Publication).pending
        = run.pending ++ caller.publishes.toList := by
      simp [pending, queue, List.filterMap_append, filterMap_publishes_singleton]
    refine ⟨h.flushing, h.buffer, ?_, hmerged, ?_⟩
    · rwa [hpending]
    · rwa [hpending]

theorem Consistent.acquires (h : run.Consistent order) (hfree : run.draining = none)
    {waiting : List FlushCaller} (hwaiting : run.waiting = caller :: waiting) (now : Time) :
    (({ run with waiting := waiting } : Publication).drainLocked caller now).Consistent order := by
  have hpending : run.pending = (caller :: waiting).filterMap FlushCaller.publishes := by
    simp [pending, queue, hfree, hwaiting]
  have hbatch : run.batch = [] := by simp [batch, hfree]
  have hdirect := h.direct
  have hmerged := h.merged
  have hordered := h.ordered
  rw [hpending] at hdirect hordered
  rw [hbatch, List.append_nil] at hmerged
  apply Drained.consistent
  exact ⟨rfl, h.buffer, hdirect, hmerged, hordered⟩

theorem Consistent.entering (h : run.Consistent order) (hnone : caller.publishes = none) :
    run.Entering order caller := by
  refine ⟨h.flushing, h.buffer, ?_, h.merged, ?_⟩
  · simpa [hnone] using h.direct
  · simpa [hnone] using h.ordered

/-- An order that grows with one event at the end of both sequences. -/
def Grows (order : List StreamEvent → List StreamEvent → Prop) : Prop :=
  ∀ xs ys e, order xs ys → order (xs ++ [e]) (ys ++ [e])

def TakesDelta (order : List StreamEvent → List StreamEvent → Prop) (run : Publication)
    (event : StreamEvent) : Prop :=
  event.isCoalescable = true → order (run.called ++ [event]) (run.passed ++ [event] ++ run.pending)

theorem Consistent.handle (h : run.Consistent order) (hevent : event.isCoalescable = true)
    (htakes : run.TakesDelta order event) (now : Time) : (({ run with
        called := run.called ++ [event]
        passed := run.passed ++ [event] } : Publication).handle event now).Consistent order := by
  have hbuffered : ({ run with
      called := run.called ++ [event]
      passed := run.passed ++ [event]
      coalescer := { run.coalescer with
        buffer := run.coalescer.buffer ++ [event] } } : Publication).Consistent order := by
    refine ⟨h.flushing, ?_, h.direct, ?_, htakes hevent⟩
    · intro e he
      rcases List.mem_append.mp he with hold | hnew
      · exact h.buffer e hold
      · rwa [List.mem_singleton.mp hnew]
    · have hmerged := h.merged.append_right [event]
      simpa [batch] using hmerged
  unfold Publication.handle
  simp only
  split
  · exact hbuffered
  split
  · exact (hbuffered.entering rfl).flushAsync now
  · exact { hbuffered with }

theorem Consistent.publish (hgrows : Grows order) (h : run.Consistent order)
    (htakes : run.TakesDelta order event) (now : Time) :
    (run.publish event now).Consistent order := by
  unfold Publication.publish
  cases hevent : event.isCoalescable with
  | true =>
    by_cases hempty : event.payload.text = ""
    · simp only [hempty, if_true]
      refine ⟨h.flushing, h.buffer, h.direct, ?_, htakes hevent⟩
      have hdropped : MergesDeltas (run.passed ++ [event]) (run.passed ++ []) :=
        .drop run.passed [] ⟨hevent, hempty⟩
      rw [List.append_nil] at hdropped
      exact hdropped.trans h.merged
    · simp only [hempty, if_true, if_false]
      exact h.handle hevent htakes now
  | false =>
    have hdirect : event.isDirect = true := by simp [StreamEvent.isDirect, hevent]
    simp only [Bool.false_eq_true, if_false]
    apply Entering.flushAsync
    refine ⟨h.flushing, h.buffer, ?_, h.merged, ?_⟩
    · intro e he
      rcases List.mem_append.mp he with hold | hnew
      · exact h.direct e hold
      · obtain rfl : e = event := by simpa [FlushCaller.publishes] using hnew
        exact hdirect
    · have hlast : order (run.called ++ [event]) (run.passed ++ (run.pending ++ [event])) := by
        simpa using hgrows _ _ event h.ordered
      exact hlast

theorem Consistent.scheduleAsyncFlush (h : run.Consistent order) :
    run.scheduleAsyncFlush.Consistent order := by
  unfold Publication.scheduleAsyncFlush
  split
  · exact h
  · exact { h with }

theorem Consistent.step (hgrows : Grows order) (h : run.Consistent order) {op : PublicationOp}
    (htakes : ∀ event now, op = .publish event now → run.TakesDelta order event)
    (hstep : run.step op = some next) : next.Consistent order := by
  cases op with
  | publish event now =>
    cases hstep
    exact h.publish hgrows (htakes event now rfl) now
  | flush =>
    cases hstep
    exact h.scheduleAsyncFlush
  | flushAsync id now =>
    cases hstep
    exact (h.entering rfl).flushAsync now
  | dispose =>
    cases hstep
    exact { h with }
  | timer =>
    simp only [Publication.step] at hstep
    split at hstep
    · cases hstep
      apply Consistent.scheduleAsyncFlush
      exact { h with }
    · cases hstep
  | startScheduled =>
    simp only [Publication.step] at hstep
    split at hstep
    · cases hstep
    · cases hstep
      apply Entering.flushAsync
      apply Consistent.entering _ rfl
      exact { h with }
  | flushed now =>
    have hflushing := h.flushing
    have hdirect := h.direct
    have hmerged := h.merged
    have hordered := h.ordered
    simp only [Publication.step] at hstep
    split at hstep
    · cases hstep
    · next caller hholder =>
        cases hstep
        simp only [pending, queue, batch, hholder, Option.map_some, Option.toList_some,
          Option.getD_some, Option.isSome_some, List.cons_append, List.nil_append,
          List.append_nil] at hflushing hdirect hmerged hordered
        exact Drained.consistent ⟨hflushing, h.buffer, hdirect, hmerged, hordered⟩ now
    · next caller event rest hholder =>
        cases hstep
        refine ⟨?_, h.buffer, ?_, ?_, ?_⟩
        · simpa [hholder] using hflushing
        · simpa [pending, queue, hholder] using hdirect
        · simpa [batch, hholder] using hmerged
        · simpa [pending, queue, hholder] using hordered
  | acquire now =>
    simp only [Publication.step] at hstep
    split at hstep
    · next caller waiting hfree hwaiting =>
        cases hstep
        exact h.acquires hfree hwaiting now
    · cases hstep

theorem grows_delays : Grows DelaysDirect := fun _ _ e h => h.append_right [e]

theorem Consistent.takesDelta (h : run.Consistent DelaysDirect) (event : StreamEvent) :
    run.TakesDelta DelaysDirect event := by
  intro hevent
  have hahead : event.isDirect = false := by simp [StreamEvent.isDirect, hevent]
  have hlast := (h.ordered.append_right [event]).trans
    (Delays.overtake run.passed h.direct hahead)
  simpa using hlast

theorem consistent_of_run {window : Time} {ops : List PublicationOp}
    (hrun : Run step (fun _ _ => True) (start window) ops run) : run.Consistent DelaysDirect :=
  hrun.invariant (consistent_start window (.refl _)) fun _ _ _ h _ hstep =>
    h.step grows_delays (fun event _ _ => h.takesDelta event) hstep

/-! ## The last flush -/

def isPublish : PublicationOp → Bool
  | .publish _ _ => true
  | _ => false

/-- The id names no flush that waits or has returned. -/
def IsNew (run : Publication) (id : Nat) : Prop :=
  .awaited id ∉ run.queue ∧ id ∉ run.returned

instance (run : Publication) (id : Nat) : Decidable (run.IsNew id) := by
  unfold IsNew
  infer_instance

/-- After the last event: the flush waits behind everyone who publishes, or nothing is left. -/
inductive Closing (id : Nat) (run : Publication) : Prop
  | waits {before after : List FlushCaller}
      (hqueue : run.queue = before ++ .awaited id :: after) (hfirst : .awaited id ∉ before)
      (hquiet : ∀ c ∈ after, c.publishes = none) (hnew : id ∉ run.returned)
  | done (hfree : run.draining = none) (hbuffer : run.coalescer.buffer = [])
      (hquiet : ∀ c ∈ run.waiting, c.publishes = none)

variable {id : Nat}

theorem waiting_flushReturned (run : Publication) (caller : FlushCaller) :
    (run.flushReturned caller).waiting = run.waiting
      ∧ (run.flushReturned caller).draining = run.draining
      ∧ (run.flushReturned caller).coalescer = run.coalescer := by
  cases caller <;> exact ⟨rfl, rfl, rfl⟩

theorem not_mem_returned (hnew : id ∉ run.returned) (hcaller : caller ≠ .awaited id) :
    id ∉ (run.flushReturned caller).returned := by
  cases caller with
  | awaited other =>
    have hne : id ≠ other := fun h => hcaller (h ▸ rfl)
    simp [flushReturned, hnew, hne]
  | handle | publish event | background => exact hnew

theorem closing_drainLoop {before after : List FlushCaller}
    (hqueue : caller :: run.waiting = before ++ .awaited id :: after)
    (hfirst : .awaited id ∉ before) (hquiet : ∀ c ∈ after, c.publishes = none)
    (hnew : id ∉ run.returned) (now : Time) : (run.drainLoop caller now).Closing id := by
  cases hbatch : collapse run.coalescer.buffer with
  | nil =>
    have hempty := collapse_eq_nil.mp hbatch
    rw [drainLoop_of_empty hempty]
    cases before with
    | nil =>
      obtain ⟨rfl, rfl⟩ := List.cons.inj hqueue
      exact .done rfl hempty hquiet
    | cons =>
      obtain ⟨rfl, hwaiting⟩ := List.cons.inj hqueue
      have hother : caller ≠ .awaited id := fun h => hfirst (h ▸ List.mem_cons_self)
      refine .waits ?_ (fun h => hfirst (List.mem_cons_of_mem _ h)) hquiet
        (not_mem_returned hnew hother)
      rw [queue, (waiting_flushReturned _ caller).1, (waiting_flushReturned _ caller).2.1]
      exact hwaiting
  | cons =>
    rw [drainLoop_of_cons hbatch]
    exact .waits hqueue hfirst hquiet hnew

theorem closing_drainLocked {before after : List FlushCaller}
    (hqueue : caller :: run.waiting = before ++ .awaited id :: after)
    (hfirst : .awaited id ∉ before) (hquiet : ∀ c ∈ after, c.publishes = none)
    (hnew : id ∉ run.returned) (now : Time) : (run.drainLocked caller now).Closing id := by
  unfold drainLocked
  refine closing_drainLoop ?_ hfirst hquiet ?_ now
  · exact hqueue
  · exact hnew

theorem closing_drainLocked_of_empty (hbuffer : run.coalescer.buffer = [])
    (hquiet : ∀ c ∈ run.waiting, c.publishes = none) (now : Time) :
    (run.drainLocked caller now).Closing id := by
  have hbatch : collapse run.coalescer.buffer = [] := collapse_eq_nil.mpr hbuffer
  unfold drainLocked drainLoop
  simp only [hbatch]
  cases caller <;> exact .done rfl hbuffer hquiet

theorem Closing.flushAsync (h : run.Closing id) (hcaller : caller.publishes = none) (now : Time) :
    (run.flushAsync caller now).Closing id := by
  unfold Publication.flushAsync
  cases h with
  | @waits before after hqueue hfirst hquiet hnew =>
    by_cases hfree : run.draining = none ∧ run.waiting = []
    · obtain ⟨hnone, hnobody⟩ := hfree
      simp [queue, hnone, hnobody] at hqueue
    · simp only [hfree, if_false]
      refine @Closing.waits id _ before (after ++ [caller]) ?_ hfirst ?_ hnew
      · have hlonger := congrArg (fun callers => callers ++ [caller]) hqueue
        simpa [queue] using hlonger
      · intro c hc
        rcases List.mem_append.mp hc with hold | hlast
        · exact hquiet c hold
        · rwa [List.mem_singleton.mp hlast]
  | done hfree hbuffer hquiet =>
    by_cases hnobody : run.waiting = []
    · simp only [hfree, hnobody, and_self, if_true]
      exact closing_drainLocked_of_empty hbuffer hquiet now
    · simp only [hnobody, and_false, if_false]
      refine .done hfree hbuffer fun c hc => ?_
      rcases List.mem_append.mp hc with hold | hlast
      · exact hquiet c hold
      · rwa [List.mem_singleton.mp hlast]

theorem Closing.congr (h : run.Closing id) (hdraining : next.draining = run.draining)
    (hwaiting : next.waiting = run.waiting) (hbuffer : next.coalescer.buffer = run.coalescer.buffer)
    (hreturned : next.returned = run.returned) : next.Closing id := by
  cases h with
  | waits hqueue hfirst hquiet hnew =>
    refine .waits ?_ hfirst hquiet (hreturned ▸ hnew)
    rw [queue, hdraining, hwaiting]
    exact hqueue
  | done hfree hempty hquiet =>
    exact .done (hdraining.trans hfree) (hbuffer.trans hempty) (hwaiting ▸ hquiet)

theorem Closing.scheduleAsyncFlush (h : run.Closing id) : run.scheduleAsyncFlush.Closing id := by
  unfold Publication.scheduleAsyncFlush
  split
  · exact h
  · exact h.congr rfl rfl rfl rfl

theorem Closing.step (h : run.Closing id) {op : PublicationOp} (hop : isPublish op = false)
    (hstep : run.step op = some next) : next.Closing id := by
  cases op with
    simp only [Publication.step] at hstep
  | publish => cases hop
  | flush =>
    cases hstep
    exact h.scheduleAsyncFlush
  | flushAsync other now =>
    cases hstep
    exact h.flushAsync rfl now
  | dispose =>
    cases hstep
    exact h.congr rfl rfl rfl rfl
  | timer =>
    split at hstep
    · cases hstep
      apply Closing.scheduleAsyncFlush
      exact h.congr rfl rfl rfl rfl
    · cases hstep
  | startScheduled =>
    split at hstep
    · cases hstep
    · cases hstep
      apply Closing.flushAsync _ rfl
      exact h.congr rfl rfl rfl rfl
  | flushed now =>
    cases h with
    | @waits before after hqueue hfirst hquiet hnew =>
      split at hstep
      · cases hstep
      · next caller hholder =>
          cases hstep
          simp only [queue, hholder, Option.map_some, Option.toList_some, List.cons_append,
            List.nil_append] at hqueue
          exact closing_drainLoop hqueue hfirst hquiet hnew now
      · next caller event rest hholder =>
          cases hstep
          refine .waits ?_ hfirst hquiet hnew
          simpa [queue, hholder] using hqueue
    | done hfree => simp [hfree] at hstep
  | acquire now =>
    split at hstep
    · next caller waiting hfree hwaiting =>
        cases hstep
        cases h with
        | @waits before after hqueue hfirst hquiet hnew =>
          simp only [queue, hfree, hwaiting, Option.map_none, Option.toList_none,
            List.nil_append] at hqueue
          refine closing_drainLocked ?_ hfirst hquiet ?_ now
          · exact hqueue
          · exact hnew
        | done _ hbuffer hquiet =>
          rw [hwaiting] at hquiet
          refine closing_drainLocked_of_empty ?_ ?_ now
          · exact hbuffer
          · exact fun c hc => hquiet c (List.mem_cons_of_mem _ hc)
    · cases hstep

theorem closing_flushAsync (hnew : run.IsNew id) (now : Time) :
    (run.flushAsync (.awaited id) now).Closing id := by
  unfold Publication.flushAsync
  by_cases hfree : run.draining = none ∧ run.waiting = []
  · obtain ⟨hnone, hnobody⟩ := hfree
    simp only [hnone, hnobody, and_self, if_true]
    refine @closing_drainLocked _ _ id [] [] ?_ ?_ ?_ hnew.2 now
    · simp [hnobody]
    · simp
    · simp
  · simp only [hfree, if_false]
    refine @Closing.waits id _ run.queue [] ?_ hnew.1 ?_ hnew.2
    · simp [queue]
    · simp

theorem Closing.emitted (h : run.Closing id) (hreturned : id ∈ run.returned)
    (hconsistent : run.Consistent order) :
    order run.called run.passed ∧ MergesDeltas run.passed run.emitted := by
  cases h with
  | waits _ _ _ hnew => exact absurd hreturned hnew
  | done hfree hbuffer hquiet =>
    have hpending : run.pending = [] := by
      simpa [pending, queue, hfree, List.filterMap_eq_nil_iff] using hquiet
    have hordered := hconsistent.ordered
    have hmerged := hconsistent.merged
    rw [hpending, List.append_nil] at hordered
    simp only [batch, hfree, hbuffer, Option.map_none, Option.getD_none,
      List.append_nil] at hmerged
    exact ⟨hordered, hmerged⟩

/-- The next event is published after the call that published the last one has returned. -/
def Awaited (run : Publication) (op : PublicationOp) : Prop :=
  isPublish op = true → ∀ c ∈ run.queue, c.isPublisher = false

instance (run : Publication) (op : PublicationOp) : Decidable (run.Awaited op) := by
  unfold Awaited
  infer_instance

theorem takesDelta_of_awaited (h : run.Consistent Eq) {now : Time}
    (hawaited : run.Awaited (.publish event now)) : run.TakesDelta Eq event := by
  intro _
  have hpending : run.pending = [] := by
    apply List.filterMap_eq_nil_iff.mpr
    exact fun c hc => FlushCaller.publishes_of_not_publisher (hawaited rfl c hc)
  have hordered := h.ordered
  rw [hpending, List.append_nil] at hordered
  rw [hpending, List.append_nil, hordered]

theorem consistent_of_awaited {window : Time} {ops : List PublicationOp}
    (hrun : Run step Awaited (start window) ops run) : run.Consistent Eq := by
  refine hrun.invariant (consistent_start window rfl) fun _ op _ h hok hstep => ?_
  apply h.step _ _ hstep
  · rintro xs ys e rfl
    rfl
  · rintro event now rfl
    exact takesDelta_of_awaited h hok

end Publication

/-- What is emitted of the events that were published in the order `called`. -/
structure Lossless (called emitted : List StreamEvent) : Prop where
  /-- Neighbouring deltas of one stream are merged, and an event that is not a delta may only
  fall behind deltas. -/
  merged : ∃ passed, DelaysDirect called passed ∧ MergesDeltas passed emitted
  text : ∀ key, streamText key emitted = streamText key called
  direct : emitted.filter StreamEvent.isDirect = called.filter StreamEvent.isDirect
  /-- No text of a delta that was published before another event comes after it. -/
  order : ∀ pre e post, called = pre ++ e :: post → e.isDirect = true →
    ∃ pre' post', emitted = pre' ++ e :: post'
      ∧ pre'.filter StreamEvent.isDirect = pre.filter StreamEvent.isDirect
      ∧ ∀ key, streamText key pre <+: streamText key pre'

theorem streamText_filter (key : StreamKey) (events : List StreamEvent) :
    streamText key (events.filter fun e => !e.isDirect) = streamText key events := by
  induction events with
  | nil => rfl
  | cons e events ih =>
    cases he : e.isCoalescable with
    | true => simpa [streamText, StreamEvent.isDirect, he] using ih
    | false => simpa [streamText, StreamEvent.isDirect, StreamEvent.textOf, he] using ih

theorem streamText_prefix {xs ys : List StreamEvent} (h : xs <+: ys) (key : StreamKey) :
    streamText key xs <+: streamText key ys := by
  obtain ⟨rest, rfl⟩ := h
  rw [streamText, streamText, List.flatMap_append]
  exact List.prefix_append _ _

theorem lossless_of_merged {called passed emitted : List StreamEvent}
    (hdelays : DelaysDirect called passed) (hmerges : MergesDeltas passed emitted) :
    Lossless called emitted where
  merged := ⟨passed, hdelays, hmerges⟩
  text key := (hmerges.streamText_eq key).trans (hdelays.streamText_eq key)
  direct := hmerges.filter_direct.trans hdelays.filter_direct
  order := by
    rintro pre e post rfl he
    obtain ⟨pre', post', rfl, hlate, hahead⟩ := Delays.split he hdelays
    obtain ⟨front, back, rfl, hfront, -⟩ := hmerges.split_direct he
    refine ⟨front, back, rfl, hfront.filter_direct.trans hlate, fun key => ?_⟩
    rw [hfront.streamText_eq key, ← streamText_filter key pre, ← streamText_filter key pre']
    exact streamText_prefix hahead key

/-- Once a flush that was called after the last event has returned, nothing is lost, repeated or out
of order. Where every call is awaited before the next, neighbouring deltas of one stream are merged.
-/
theorem publish_path_lossless {window : Time} {ops rest : List PublicationOp}
    {run final : Publication} {id : Nat} {now : Time}
    (hrun : Run Publication.step (fun _ _ => True) (Publication.start window) ops run)
    (hnew : run.IsNew id)
    (hfinal : Run Publication.step (fun _ op => Publication.isPublish op = false) run
      (.flushAsync id now :: rest) final)
    (hreturned : id ∈ final.returned) :
    Lossless final.called final.emitted
      ∧ (Run Publication.step Publication.Awaited (Publication.start window) ops run →
        MergesDeltas final.called final.emitted) := by
  have hclosing : final.Closing id := by
    cases hfinal with
    | cons _ hflush hrest =>
      cases hflush
      exact hrest.invariant (Publication.closing_flushAsync hnew now)
        fun _ _ _ h hop hstep => h.step hop hstep
  constructor
  · have hwhole := hrun.append (hfinal.mono fun _ _ _ => trivial)
    obtain ⟨hdelays, hmerges⟩ := hclosing.emitted hreturned (Publication.consistent_of_run hwhole)
    exact lossless_of_merged hdelays hmerges
  · intro hawaited
    have hquiet : ∀ (s : Publication) (op : PublicationOp), Publication.isPublish op = false →
        s.Awaited op := by
      intro s op hop hpublish
      rw [hop] at hpublish
      cases hpublish
    have hwhole := hawaited.append (hfinal.mono hquiet)
    obtain ⟨hsame, hmerges⟩ := hclosing.emitted hreturned
      (Publication.consistent_of_awaited hwhole)
    rwa [hsame]

private def streamedDelta (text : String) : StreamEvent where
  type := .textDelta
  turnId := some "turn"
  payload := { text := text }

/-- A tool call is published while the first delta is written, and another delta comes in before
its turn. -/
private def overtakenOps : List PublicationOp :=
  [.publish (streamedDelta "a") 100, .publish { type := .toolCallStarted } 101,
    .publish (streamedDelta "b") 102, .flushed 103, .flushed 104, .acquire 105]

theorem publish_path_lossless_overtaken : ∃ run final,
    exec Publication.step (Publication.start 60) overtakenOps = some run
      ∧ run.step (.flushAsync 1 106) = some final ∧ Lossless final.called final.emitted := by
  obtain ⟨run, hexec, hboth⟩ := Option.map_eq_some_iff.mp
    (by decide +kernel : (exec Publication.step (Publication.start 60) overtakenOps).map (fun run =>
      (decide (run.IsNew 1), decide (1 ∈ (run.flushAsync (.awaited 1) 106).returned)))
      = some (true, true))
  obtain ⟨hnew, hreturned⟩ := Prod.mk.inj hboth
  refine ⟨run, run.flushAsync (.awaited 1) 106, hexec, rfl, ?_⟩
  have hlossless := publish_path_lossless (.of_exec hexec) (of_decide_eq_true hnew)
    (.cons rfl rfl (.nil _)) (of_decide_eq_true hreturned)
  exact hlossless.1

end ClaudeHub
