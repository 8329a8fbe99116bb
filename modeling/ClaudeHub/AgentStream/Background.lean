import ClaudeHub.AgentStream.Publication

/-! # The publish path between two calls

What an owner of the publish path relies on: between its own calls nothing is added to what it
published, what was handed over stays, no flush of its own begins or ends unseen, and a path
that is drained stays so.
-/

namespace ClaudeHub

namespace Publication

variable {run next : Publication} {caller : FlushCaller} {now : Time} {id : Nat}

def isBackground : PublicationOp → Bool
  | .timer | .startScheduled _ | .flushed _ | .acquire _ => true
  | _ => false

@[simp] theorem called_flushReturned (run : Publication) (caller : FlushCaller) :
    (run.flushReturned caller).called = run.called := by
  cases caller <;> rfl

@[simp] theorem called_drainLoop (run : Publication) (caller : FlushCaller) (now : Time) :
    (run.drainLoop caller now).called = run.called := by
  unfold drainLoop
  split
  · rw [called_flushReturned]
  · rfl

@[simp] theorem called_drainLocked (run : Publication) (caller : FlushCaller) (now : Time) :
    (run.drainLocked caller now).called = run.called := by
  rw [drainLocked, called_drainLoop]

@[simp] theorem called_flushAsync (run : Publication) (caller : FlushCaller) (now : Time) :
    (run.flushAsync caller now).called = run.called := by
  unfold flushAsync
  split
  · rw [called_drainLocked]
  · rfl

@[simp] theorem called_scheduleAsyncFlush (run : Publication) :
    run.scheduleAsyncFlush.called = run.called := by
  unfold scheduleAsyncFlush
  split <;> rfl

theorem called_handle (run : Publication) (event : StreamEvent) (now : Time) :
    (run.handle event now).called = run.called := by
  unfold handle
  simp only
  split
  · rfl
  split
  · rw [called_flushAsync]
  · rfl

theorem called_publish (run : Publication) (event : StreamEvent) (now : Time) :
    (run.publish event now).called = run.called ++ [event] := by
  unfold publish
  simp only
  split
  · split
    · rfl
    · rw [called_handle]
  · rw [called_flushAsync]

variable {op : PublicationOp}

theorem called_step (hop : isBackground op = true) (hstep : run.step op = some next) :
    next.called = run.called := by
  cases op with
  | timer =>
    simp only [step] at hstep
    split at hstep
    · cases hstep
      rw [called_scheduleAsyncFlush]
    · cases hstep
  | startScheduled =>
    simp only [step] at hstep
    split at hstep
    · cases hstep
    · cases hstep
      rw [called_flushAsync]
  | flushed =>
    simp only [step] at hstep
    split at hstep
    · cases hstep
    · cases hstep
      rw [called_drainLoop]
    · cases hstep
      rfl
  | acquire =>
    simp only [step] at hstep
    split at hstep
    · cases hstep
      rw [called_drainLocked]
    · cases hstep
  | publish | flush | flushAsync | dispose => cases hop

section

variable {front : List StreamEvent}

theorem emitted_flushReturned (h : front <+: run.emitted) :
    front <+: (run.flushReturned caller).emitted := by
  cases caller with
  | publish => exact h.trans (List.prefix_append _ _)
  | handle | background | awaited id => exact h

theorem emitted_drainLoop (h : front <+: run.emitted) :
    front <+: (run.drainLoop caller now).emitted := by
  unfold drainLoop
  split
  · exact emitted_flushReturned h
  · exact h.trans (List.prefix_append _ _)

theorem emitted_drainLocked (h : front <+: run.emitted) :
    front <+: (run.drainLocked caller now).emitted :=
  emitted_drainLoop h

theorem emitted_flushAsync (h : front <+: run.emitted) :
    front <+: (run.flushAsync caller now).emitted := by
  unfold flushAsync
  split
  · exact emitted_drainLocked h
  · exact h

theorem emitted_publish {event : StreamEvent} (h : front <+: run.emitted) :
    front <+: (run.publish event now).emitted := by
  unfold publish handle
  simp only
  split
  · split
    · exact h
    split
    · exact h
    split
    · exact emitted_flushAsync h
    · exact h
  · exact emitted_flushAsync h

theorem emitted_step {op : PublicationOp} (hop : isBackground op = true)
    (h : front <+: run.emitted) (hstep : run.step op = some next) : front <+: next.emitted := by
  cases op with
  | timer =>
    simp only [step] at hstep
    split at hstep
    · cases hstep
      unfold scheduleAsyncFlush
      split <;> exact h
    · cases hstep
  | startScheduled =>
    simp only [step] at hstep
    split at hstep
    · cases hstep
    · cases hstep
      exact emitted_flushAsync h
  | flushed =>
    simp only [step] at hstep
    split at hstep
    · cases hstep
    · cases hstep
      exact emitted_drainLoop h
    · cases hstep
      exact h.trans (List.prefix_append _ _)
  | acquire =>
    simp only [step] at hstep
    split at hstep
    · cases hstep
      exact emitted_drainLocked h
    · cases hstep
  | publish | flush | flushAsync | dispose => cases hop

end

theorem isNew_drainLoop (hcaller : caller ≠ .awaited id) (hwaiting : .awaited id ∉ run.waiting)
    (hreturned : id ∉ run.returned) : (run.drainLoop caller now).IsNew id := by
  unfold drainLoop
  split
  · cases caller with
    | awaited other =>
      have hother : id ≠ other := by
        rintro rfl
        exact hcaller rfl
      simp [IsNew, queue, flushReturned, hwaiting, hreturned, hother]
    | handle | background | publish event =>
      simp [IsNew, queue, flushReturned, hwaiting, hreturned]
  · simp [IsNew, queue, hcaller.symm, hwaiting, hreturned]

theorem isNew_flushAsync (hcaller : caller ≠ .awaited id) (hqueue : .awaited id ∉ run.queue)
    (hreturned : id ∉ run.returned) : (run.flushAsync caller now).IsNew id := by
  unfold Publication.flushAsync
  split
  · next hfree => exact isNew_drainLoop hcaller (by simp [hfree.2]) hreturned
  · refine ⟨?_, hreturned⟩
    simp only [queue, List.mem_append, List.mem_singleton, not_or] at hqueue ⊢
    exact ⟨hqueue.1, hqueue.2, hcaller.symm⟩

theorem IsNew.publish (h : run.IsNew id) (event : StreamEvent) (now : Time) :
    (run.publish event now).IsNew id := by
  unfold Publication.publish handle
  simp only
  split
  · split
    · exact h
    split
    · exact h
    split
    · have hcaller : FlushCaller.handle ≠ .awaited id := by simp
      exact isNew_flushAsync hcaller h.1 h.2
    · exact h
  · have hcaller : FlushCaller.publish event ≠ .awaited id := by simp
    exact isNew_flushAsync hcaller h.1 h.2

theorem IsNew.step (h : run.IsNew id) (hop : isBackground op = true)
    (hstep : run.step op = some next) : next.IsNew id := by
  have hqueue := h.1
  cases op with
    simp only [Publication.step] at hstep
  | timer =>
    split at hstep
    · cases hstep
      unfold scheduleAsyncFlush
      split <;> exact h
    · cases hstep
  | startScheduled =>
    split at hstep
    · cases hstep
    · cases hstep
      have hcaller : FlushCaller.background ≠ .awaited id := by simp
      exact isNew_flushAsync hcaller h.1 h.2
  | flushed =>
    split at hstep
    · cases hstep
    · next caller hholder =>
        cases hstep
        simp only [queue, hholder, Option.map_some, Option.toList_some, List.cons_append,
          List.nil_append, List.mem_cons, not_or] at hqueue
        exact isNew_drainLoop (Ne.symm hqueue.1) hqueue.2 h.2
    · next caller event rest hholder =>
        cases hstep
        refine ⟨?_, h.2⟩
        simpa [queue, hholder] using hqueue
  | acquire =>
    split at hstep
    · next caller waiting hfree hwaiting =>
        cases hstep
        simp only [queue, hfree, hwaiting, Option.map_none, Option.toList_none,
          List.nil_append, List.mem_cons, not_or] at hqueue
        exact isNew_drainLoop (Ne.symm hqueue.1) hqueue.2 h.2
    · cases hstep
  | publish | flush | flushAsync | dispose => cases hop

/-- Nothing is buffered, on its way or about to be emitted. -/
structure Quiet (run : Publication) : Prop where
  free : run.draining = none
  buffer : run.coalescer.buffer = []
  waiting : ∀ c ∈ run.waiting, c.publishes = none

theorem quiet_start (window : Time) : (start window).Quiet where
  free := rfl
  buffer := rfl
  waiting _ hc := nomatch hc

theorem Closing.quiet (h : run.Closing id) (hreturned : id ∈ run.returned) : run.Quiet := by
  cases h with
  | waits _ _ _ hnew => exact absurd hreturned hnew
  | done hfree hbuffer hquiet => exact ⟨hfree, hbuffer, hquiet⟩

theorem Quiet.emitted {order : List StreamEvent → List StreamEvent → Prop} (h : run.Quiet)
    (hconsistent : run.Consistent order) :
    order run.called run.passed ∧ MergesDeltas run.passed run.emitted := by
  have hdone : ({ run with returned := [0] } : Publication).Closing 0 :=
    .done h.free h.buffer h.waiting
  exact hdone.emitted (by simp) { hconsistent with }

theorem quiet_drainLoop (hcaller : caller.publishes = none) (hbuffer : run.coalescer.buffer = [])
    (hwaiting : ∀ c ∈ run.waiting, c.publishes = none) :
    (run.drainLoop caller now).Quiet ∧ (run.drainLoop caller now).emitted = run.emitted := by
  rw [drainLoop_of_empty hbuffer]
  cases caller with
  | publish => cases hcaller
  | handle | background | awaited id => exact ⟨⟨rfl, hbuffer, hwaiting⟩, rfl⟩

theorem Quiet.flushAsync (h : run.Quiet) (hcaller : caller.publishes = none) (now : Time) :
    (run.flushAsync caller now).Quiet ∧ (run.flushAsync caller now).emitted = run.emitted := by
  unfold Publication.flushAsync
  split
  · exact quiet_drainLoop hcaller h.buffer h.waiting
  · refine ⟨⟨h.free, h.buffer, fun c hc => ?_⟩, rfl⟩
    rcases List.mem_append.mp hc with hold | hlast
    · exact h.waiting c hold
    · rwa [List.mem_singleton.mp hlast]

theorem Quiet.step (h : run.Quiet) (hop : isBackground op = true) (hstep : run.step op = some next) :
    next.Quiet ∧ next.emitted = run.emitted := by
  cases op with
  | timer =>
    simp only [Publication.step] at hstep
    split at hstep
    · cases hstep
      unfold scheduleAsyncFlush
      split <;> exact ⟨⟨h.free, h.buffer, h.waiting⟩, rfl⟩
    · cases hstep
  | startScheduled now =>
    simp only [Publication.step] at hstep
    split at hstep
    · cases hstep
    · cases hstep
      have hscheduled : ({ run with scheduled := run.scheduled - 1 } : Publication).Quiet :=
        ⟨h.free, h.buffer, h.waiting⟩
      exact hscheduled.flushAsync rfl now
  | flushed => simp [Publication.step, h.free] at hstep
  | acquire =>
    simp only [Publication.step] at hstep
    split at hstep
    · next caller waiting hfree hwaiting =>
        cases hstep
        have hquiet := h.waiting
        rw [hwaiting] at hquiet
        exact quiet_drainLoop (hquiet caller List.mem_cons_self) h.buffer
          fun c hc => hquiet c (List.mem_cons_of_mem _ hc)
    · cases hstep
  | publish | flush | flushAsync | dispose => cases hop

end Publication

end ClaudeHub
