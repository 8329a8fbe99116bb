import ClaudeHub.TaskMailbox.DirectedWait

/-! # No wake-up is lost while commits reach their waiters

Waking only ever sets flags and turns sleepers ready, so it is summarised by
`Woken`; a key that was woken stays `Awake` through later wakes. The invariant
keeps a committed event out of sight of every sleeper and behind a set flag for
every waiter about to sleep.
-/

namespace ClaudeHub

open StepSystem

namespace WaitState

variable {s t u : WaitState} {w : Waiter} {event : TaskEvent} {key : ConsumerKey}

theorem mem_poll {s : WaitState} {w : Waiter} {event : TaskEvent} :
    event ∈ s.poll w ↔ event ∈ s.wm.mailbox.events ∧
      ∃ cursor visible, s.wm.consumerCursor w.key = .ok cursor ∧
        (if w.subtree then s.wm.visibleTaskIds w.key else .ok []) = .ok visible ∧
        max w.sinceSequence cursor < event.sequence ∧
        (event.consumerKey = w.key ∨ event.taskId ∈ visible) := by
  unfold poll WorkspaceManager.wait
  cases hcursor : s.wm.consumerCursor w.key with
  | error => simp [bind, Except.bind]
  | ok =>
    by_cases hsub : w.subtree = true
    · cases hvis : s.wm.visibleTaskIds w.key with
      | error => simp [bind, Except.bind, hsub]
      | ok => simp [bind, Except.bind, pure, Except.pure, hsub, and_assoc]
    · simp [bind, Except.bind, pure, Except.pure, hsub, and_assoc]

theorem mem_owed : event ∈ s.owed w ↔ event ∈ s.poll w ∧ event ∈ s.committed := by
  simp [owed]

theorem owed_eq_nil : s.owed w = [] ↔ ∀ event ∈ s.poll w, event ∉ s.committed := by
  simp [owed]

/-! ## Waking -/

/-- `t` is `s` after some wakes: flags are only set, sleepers only become ready. -/
structure Woken (s t : WaitState) : Prop where
  wm : t.wm = s.wm
  committed : t.committed = s.committed
  known : ∀ key, (s.events.get? key).isSome → (t.events.get? key).isSome
  flags : ∀ key, s.isSet key = true → t.isSet key = true
  waiters : ∃ f : Waiter → Waiter, t.waiters.rows = s.waiters.rows.map f ∧
    ∀ w, f w = w ∨ (w.phase = .sleeping ∧ f w = { w with phase := .ready })

/-- The flag of a key is set and nobody sleeps on it. -/
def Awake (s : WaitState) (key : ConsumerKey) : Prop :=
  s.isSet key = true ∧ ∀ w ∈ s.waiters.rows, w.key = key → w.phase ≠ .sleeping

theorem Woken.refl (s : WaitState) : Woken s s :=
  ⟨rfl, rfl, fun _ h => h, fun _ h => h, id, by simp, fun w => .inl rfl⟩

theorem Woken.trans (h : Woken s t) (h' : Woken t u) : Woken s u := by
  obtain ⟨f, hf, hfspec⟩ := h.waiters
  obtain ⟨g, hg, hgspec⟩ := h'.waiters
  refine ⟨h'.wm.trans h.wm, h'.committed.trans h.committed, fun k hk => h'.known k (h.known k hk),
    fun k hk => h'.flags k (h.flags k hk), g ∘ f, ?_, ?_⟩
  · rw [hg, hf, List.map_map]
  · intro w
    rcases hfspec w with hsame | ⟨hsleep, hready⟩
    · simpa [hsame] using hgspec w
    · right
      refine ⟨hsleep, ?_⟩
      rcases hgspec (f w) with hsame' | ⟨hsleep', -⟩
      · exact hsame'.trans hready
      · simp [hready] at hsleep'

theorem Woken.exists_before (h : Woken s t) (hw : w ∈ t.waiters.rows) :
    ∃ before ∈ s.waiters.rows, w = before ∨
      (before.phase = .sleeping ∧ w = { before with phase := .ready }) := by
  obtain ⟨f, hf, hspec⟩ := h.waiters
  rw [hf] at hw
  obtain ⟨before, hbefore, rfl⟩ := List.mem_map.mp hw
  exact ⟨before, hbefore, hspec before⟩

theorem Woken.awake (h : Woken s t) (hawake : s.Awake key) : t.Awake key := by
  refine ⟨h.flags key hawake.1, ?_⟩
  intro w hw hkey hsleep
  obtain ⟨before, hbefore, rfl | ⟨-, rfl⟩⟩ := h.exists_before hw
  · exact hawake.2 w hbefore hkey hsleep
  · simp at hsleep

theorem Woken.subtreeWaiters_pos (h : Woken s t) (hpos : 0 < s.subtreeWaiters key) :
    0 < t.subtreeWaiters key := by
  obtain ⟨f, hf, hspec⟩ := h.waiters
  obtain ⟨w, hw⟩ := List.exists_mem_of_length_pos hpos
  obtain ⟨hmem, hactive⟩ := List.mem_filter.mp hw
  refine List.length_pos_of_mem (List.mem_filter.mpr ⟨hf ▸ List.mem_map_of_mem hmem, ?_⟩)
  rcases hspec w with hsame | ⟨hsleep, hready⟩
  · rw [hsame]
    exact hactive
  · rw [hready]
    simpa [hsleep] using hactive

theorem wake_woken (s : WaitState) (key : ConsumerKey) : Woken s (s.wake key) := by
  unfold wake
  split
  · exact .refl s
  · next row hrow =>
      refine ⟨rfl, rfl, ?_, ?_, Waiter.resume key, rfl, ?_⟩
      · intro k hk
        rw [Table.get?_insert]
        split
        · rfl
        · exact hk
      · intro k hk
        simp only [isSet, Table.get?_insert]
        split
        · rfl
        · exact hk
      · intro w
        unfold Waiter.resume
        split
        · next h => exact .inr ⟨h.2, rfl⟩
        · exact .inl rfl

theorem wake_awake (hknown : (s.events.get? key).isSome) : (s.wake key).Awake key := by
  unfold wake
  split
  · next hnone => simp [hnone] at hknown
  · refine ⟨by simp [isSet], ?_⟩
    intro w hw hkey hsleep
    obtain ⟨before, hbefore, rfl⟩ := List.mem_map.mp hw
    rw [Waiter.resume] at hkey hsleep
    split at hsleep
    · simp at hsleep
    · next hnot => exact hnot ⟨by simpa [hnot] using hkey, hsleep⟩

theorem wakeIfSubtree_woken (s : WaitState) (key : ConsumerKey) :
    Woken s (s.wakeIfSubtree key) := by
  unfold wakeIfSubtree
  split
  · exact wake_woken s key
  · exact .refl s

theorem foldl_wakeIfSubtree_woken (keys : List ConsumerKey) (s : WaitState) :
    Woken s (keys.foldl wakeIfSubtree s) := by
  induction keys generalizing s with
  | nil => exact .refl s
  | cons key keys ih => exact (wakeIfSubtree_woken s key).trans (ih _)

theorem foldl_wakeIfSubtree_awake {keys : List ConsumerKey} (hkey : key ∈ keys)
    (hknown : (s.events.get? key).isSome) (hpos : 0 < s.subtreeWaiters key) :
    (keys.foldl wakeIfSubtree s).Awake key := by
  induction keys generalizing s with
  | nil => simp at hkey
  | cons head keys ih =>
    have hwoken := wakeIfSubtree_woken s head
    rcases List.mem_cons.mp hkey with rfl | htail
    · refine (foldl_wakeIfSubtree_woken keys _).awake ?_
      simpa [wakeIfSubtree, hpos] using wake_awake hknown
    · exact ih htail (hwoken.known _ hknown) (hwoken.subtreeWaiters_pos hpos)

theorem wakeBy_woken (s : WaitState) (producer : Producer) (event : TaskEvent) :
    Woken s (s.wakeBy producer event) := by
  cases producer with
  | silent => exact .refl s
  | reportIntake =>
    simp only [wakeBy, wakeReportIntakeRuns]
    split
    · exact wake_woken s _
    · exact .refl s
  | appendEvent =>
    simp only [wakeBy, wakeTaskConsumers]
    split
    · exact .refl s
    · exact (wake_woken s _).trans (foldl_wakeIfSubtree_woken _ _)

theorem wakeBy_awake {producer : Producer} (hreach : s.Reaches producer event w)
    (hw : w ∈ s.waiters.rows) (hactive : w.phase = .sleeping ∨ w.phase = .arming)
    (hknown : (s.events.get? w.key).isSome) {id : TaskId} (htask : w.key = .task id) :
    (s.wakeBy producer event).Awake w.key := by
  cases producer with
  | silent => exact hreach.elim
  | reportIntake =>
    have hkey : w.key = event.consumerKey := hreach
    simp only [wakeBy, wakeReportIntakeRuns, ← hkey, htask]
    rw [← htask]
    exact wake_awake hknown
  | appendEvent =>
    simp only [Reaches] at hreach
    split at hreach
    · exact hreach.elim
    next task hget =>
    simp only [wakeBy, wakeTaskConsumers, hget]
    have hwoken := wake_woken s event.consumerKey
    rcases hreach with hkey | ⟨hsub, hanc⟩
    · refine (foldl_wakeIfSubtree_woken _ _).awake ?_
      rw [← hkey]
      exact wake_awake hknown
    · refine foldl_wakeIfSubtree_awake hanc (hwoken.known _ hknown)
        (hwoken.subtreeWaiters_pos ?_)
      refine List.length_pos_of_mem (List.mem_filter.mpr ⟨hw, ?_⟩)
      rcases hactive with hphase | hphase <;> simp [hsub, hphase]

/-! ## The invariant -/

structure WaitInv (s : WaitState) : Prop where
  returned : ∀ w ∈ s.waiters.rows, ∀ result owed, w.phase = .returned result owed →
    ∀ event ∈ owed, event ∈ result
  sleeping : ∀ w ∈ s.waiters.rows, w.phase = .sleeping → s.owed w = []
  arming : ∀ w ∈ s.waiters.rows, w.phase = .arming → s.owed w ≠ [] → s.isSet w.key = true
  known : ∀ w ∈ s.waiters.rows, (s.events.get? w.key).isSome ∧ ∃ id, w.key = .task id
  staged : ∀ event ∈ s.committed, event ∈ s.wm.mailbox.events

theorem waitInv_init (wm : WorkspaceManager) : WaitInv { wm := wm } := by
  constructor <;> simp

theorem WaitInv.noLostWakeup (h : WaitInv s) : s.NoLostWakeup := by
  refine ⟨?_, h.sleeping⟩
  intro w hw
  unfold Waiter.returnsOwed
  split
  · next result owed hphase => exact h.returned w hw result owed hphase
  · trivial

theorem WaitInv.setPhase (h : WaitInv s) (hwm : t.wm = s.wm) (hcommitted : t.committed = s.committed)
    (hknown : ∀ key, (s.events.get? key).isSome → (t.events.get? key).isSome)
    (hwaiters : t.waiters = s.waiters) (hw : w ∈ s.waiters.rows) {phase : WaitPhase}
    (hflags : ∀ other ∈ s.waiters.rows, other.id ≠ w.id → other.phase = .arming →
      s.owed other ≠ [] → t.isSet other.key = true)
    (hreturned : ∀ result owed, phase = .returned result owed → ∀ event ∈ owed, event ∈ result)
    (hsleeping : phase = .sleeping → s.owed w = [])
    (harming : phase = .arming → s.owed w = []) : WaitInv (t.setPhase w phase) := by
  have howed : ∀ other : Waiter, (t.setPhase w phase).owed other = s.owed other := by
    intro other
    simp only [owed, poll, WaitState.setPhase, hwm, hcommitted]
  have hmem : ∀ other ∈ (t.setPhase w phase).waiters.rows, other = { w with phase := phase } ∨
      (other ∈ s.waiters.rows ∧ other.id ≠ w.id) := by
    intro other hother
    simpa only [WaitState.setPhase, hwaiters, Table.mem_insert] using hother
  refine ⟨?_, ?_, ?_, ?_, ?_⟩
  · intro other hother result owed hphase
    rcases hmem other hother with rfl | ⟨hold, -⟩
    · exact hreturned result owed hphase
    · exact h.returned other hold result owed hphase
  · intro other hother hphase
    rw [howed]
    rcases hmem other hother with rfl | ⟨hold, -⟩
    · exact hsleeping hphase
    · exact h.sleeping other hold hphase
  · intro other hother hphase hne
    rw [howed] at hne
    rcases hmem other hother with rfl | ⟨hold, hid⟩
    · exact (hne (harming hphase)).elim
    · exact hflags other hold hid hphase hne
  · intro other hother
    rcases hmem other hother with rfl | ⟨hold, -⟩
    · exact ⟨hknown _ (h.known w hw).1, (h.known w hw).2⟩
    · exact ⟨hknown _ (h.known other hold).1, (h.known other hold).2⟩
  · simp only [WaitState.setPhase, hwm, hcommitted]
    exact h.staged

theorem WaitInv.enter (h : WaitInv s) {id : Nat} {sinceSequence : Nat} {subtree : Bool}
    (hstep : s.step (.enter id key sinceSequence subtree) = some t) : WaitInv t := by
  simp only [step] at hstep
  split at hstep
  case h_2 => simp at hstep
  next hid cursor hcursor =>
  cases hstep
  obtain ⟨task, htask, -⟩ := Except.map_ok_iff.mp hcursor
  have hmem : ∀ w ∈ (s.waiters.insert ⟨id, key, sinceSequence, subtree, .ready⟩).rows,
      w = ⟨id, key, sinceSequence, subtree, .ready⟩ ∨ w ∈ s.waiters.rows := by
    intro w hw
    rcases Table.mem_insert.mp hw with rfl | ⟨hold, -⟩
    · exact .inl rfl
    · exact .inr hold
  have hknown : ∀ k, k = key ∨ (s.events.get? k).isSome →
      ((if (s.events.get? key).isSome then s.events
        else s.events.insert ⟨key, false⟩).get? k).isSome := by
    intro k hk
    split
    · next hold =>
        rcases hk with rfl | hk
        · exact hold
        · exact hk
    · rw [Table.get?_insert]
      split
      · rfl
      · next hne => exact hk.resolve_left hne
  have hflags : ∀ k, s.isSet k = true → ((if (s.events.get? key).isSome then s.events
      else s.events.insert ⟨key, false⟩).get? k).any AsyncEvent.isSet = true := by
    intro k hk
    split
    · exact hk
    · next hnone =>
        have hne : k ≠ key := by
          rintro rfl
          simp only [Bool.not_eq_true, Option.isSome_eq_false_iff, Option.isNone_iff_eq_none] at hnone
          simp [isSet, hnone] at hk
        rwa [Table.get?_insert_ne _ hne]
  refine ⟨?_, ?_, ?_, ?_, h.staged⟩
  · intro w hw result owed hphase
    rcases hmem w hw with rfl | hold
    · simp at hphase
    · exact h.returned w hold result owed hphase
  · intro w hw hphase
    rcases hmem w hw with rfl | hold
    · simp at hphase
    · exact h.sleeping w hold hphase
  · intro w hw hphase hne
    rcases hmem w hw with rfl | hold
    · simp at hphase
    · exact hflags _ (h.arming w hold hphase hne)
  · intro w hw
    rcases hmem w hw with rfl | hold
    · exact ⟨hknown _ (.inl rfl), task.id, (consumerTask_ok htask).1⟩
    · exact ⟨hknown _ (.inr (h.known w hold).1), (h.known w hold).2⟩

theorem WaitInv.poll (h : WaitInv s) {id : Nat} {expired : Bool}
    (hsafe : s.StepSafe (.poll id expired)) (hstep : s.step (.poll id expired) = some t) :
    WaitInv t := by
  simp only [step] at hstep
  split at hstep
  case h_2 => simp at hstep
  next w hget =>
  obtain ⟨hw, hid⟩ := Table.get?_eq_some.mp hget
  split at hstep
  case isFalse => simp at hstep
  cases hstep
  unfold pollTurn
  by_cases hpoll : s.poll w = []
  · have howed : s.owed w = [] := by simp [owed, hpoll]
    rw [if_neg (by simpa using hpoll)]
    refine h.setPhase (t := s.clear w.key) rfl rfl ?_ rfl hw ?_ ?_ (fun _ => howed) (fun _ => howed)
    · intro k hk
      simp only [clear, Table.get?_insert]
      split
      · rfl
      · exact hk
    · intro other hother hne hphase howed'
      have hkey : other.key ≠ w.key := by
        intro hkey
        exact howed' (hsafe w hw hid hpoll other hother (hid ▸ hne) hkey hphase)
      simp only [clear, isSet]
      rw [Table.get?_insert_ne (r := ⟨w.key, false⟩) s.events hkey]
      exact h.arming other hother hphase howed'
    · intro result owed hphase event hevent
      split at hphase
      · simp only [WaitPhase.returned.injEq] at hphase
        simp [← hphase.2] at hevent
      · simp at hphase
  · rw [if_pos hpoll]
    refine h.setPhase rfl rfl (fun _ hk => hk) rfl hw (fun other hother _ => h.arming other hother)
      ?_ (by simp) (by simp)
    intro result owed hphase event hevent
    simp only [WaitPhase.returned.injEq] at hphase
    rw [← hphase.2] at hevent
    rw [← hphase.1]
    exact (mem_owed.1 hevent).1

theorem WaitInv.arm (h : WaitInv s) {id : Nat} (hstep : s.step (.arm id) = some t) :
    WaitInv t := by
  simp only [step] at hstep
  split at hstep
  case h_2 => simp at hstep
  next w hget =>
  have hw := (Table.get?_eq_some.mp hget).1
  split at hstep
  case isFalse => simp at hstep
  next hphase =>
  cases hstep
  refine h.setPhase rfl rfl (fun _ hk => hk) rfl hw (fun other hother _ => h.arming other hother)
    ?_ ?_ ?_
  · intro result owed hnext
    split at hnext <;> simp at hnext
  · intro hnext
    split at hnext
    · simp at hnext
    · next hunset =>
        by_contra hne
        exact hunset (h.arming w hw hphase hne)
  · intro hnext
    split at hnext <;> simp at hnext

theorem WaitInv.expire (h : WaitInv s) {id : Nat} (hstep : s.step (.expire id) = some t) :
    WaitInv t := by
  simp only [step] at hstep
  split at hstep
  case h_2 => simp at hstep
  next w hget =>
  have hw := (Table.get?_eq_some.mp hget).1
  split at hstep
  case isFalse => simp at hstep
  next hphase =>
  cases hstep
  refine h.setPhase rfl rfl (fun _ hk => hk) rfl hw (fun other hother _ => h.arming other hother)
    ?_ (by simp) (by simp)
  intro result owed hnext event hevent
  simp only [WaitPhase.returned.injEq] at hnext
  rw [← hnext.2, h.sleeping w hw hphase] at hevent
  simp at hevent

theorem WaitInv.stage (h : WaitInv s) {req : AppendRequest} {now : Time}
    (hstep : s.step (.stage req now) = some t) : WaitInv t := by
  simp only [step] at hstep
  split at hstep
  case h_2 => simp at hstep
  next new mailbox hstage =>
  cases hstep
  obtain ⟨hseq, hevents, -⟩ := stageEvent_created hstage
  have hnew : new ∉ s.committed := by
    intro hmem
    have hle := le_maxSequence (h.staged new hmem)
    have hmax := s.wm.mailbox.maxSequence_le_workspaceMaxSequence
    omega
  have howed : ∀ w : Waiter, s.owed w = [] →
      { s with wm := { s.wm with mailbox := mailbox } }.owed w = [] := by
    intro w hnone
    refine owed_eq_nil.2 fun event hevent hcommitted => ?_
    obtain ⟨hmem, hvisible⟩ := mem_poll.1 hevent
    rw [hevents] at hmem
    rcases List.mem_append.mp hmem with hold | hlast
    · exact owed_eq_nil.1 hnone event (mem_poll.2 ⟨hold, hvisible⟩) hcommitted
    · obtain rfl := List.mem_singleton.mp hlast
      exact hnew hcommitted
  refine ⟨h.returned, fun w hw hphase => howed w (h.sleeping w hw hphase), ?_, h.known, ?_⟩
  · intro w hw hphase hne
    exact h.arming w hw hphase fun hnone => hne (howed w hnone)
  · intro event hevent
    simp only [hevents]
    exact List.mem_append_left _ (h.staged event hevent)

theorem WaitInv.commit (h : WaitInv s) {producer : Producer}
    (hsafe : s.StepSafe (.commit event producer))
    (hstep : s.step (.commit event producer) = some t) : WaitInv t := by
  simp only [step] at hstep
  split at hstep
  case isFalse => simp at hstep
  next hmem =>
  cases hstep
  let mid : WaitState := { s with committed := event :: s.committed }
  have hwoken : Woken mid (mid.wakeBy producer event) := wakeBy_woken mid producer event
  have howed : ∀ w : Waiter, (mid.wakeBy producer event).owed w = mid.owed w := by
    intro w
    simp only [owed, WaitState.poll, hwoken.wm, hwoken.committed]
  have hawake : ∀ w ∈ s.waiters.rows, (w.phase = .sleeping ∨ w.phase = .arming) →
      s.Reaches producer event w → (mid.wakeBy producer event).Awake w.key := by
    intro w hw hactive hreach
    obtain ⟨hknown, id, htask⟩ := h.known w hw
    exact wakeBy_awake (s := mid) hreach hw hactive hknown htask
  -- A waiter owed something was owed it before, or can see the event committed now.
  have hsplit : ∀ w : Waiter, mid.owed w ≠ [] → s.owed w ≠ [] ∨ event ∈ s.poll w := by
    intro w hne
    by_contra hnot
    have hnone : s.owed w = [] := by
      by_contra h'
      exact hnot (.inl h')
    refine hne (owed_eq_nil.2 fun e he hcommitted => ?_)
    rcases List.mem_cons.mp hcommitted with rfl | hold
    · exact hnot (.inr he)
    · exact owed_eq_nil.1 hnone e he hold
  refine ⟨?_, ?_, ?_, ?_, ?_⟩
  · intro w hw result owed hphase
    obtain ⟨before, hbefore, rfl | ⟨-, rfl⟩⟩ := hwoken.exists_before hw
    · exact h.returned w hbefore result owed hphase
    · simp at hphase
  · intro w hw hphase
    rw [howed]
    obtain ⟨before, hbefore, rfl | ⟨-, rfl⟩⟩ := hwoken.exists_before hw
    · by_contra hne
      rcases hsplit w hne with hold | hsees
      · exact hold (h.sleeping w hbefore hphase)
      · have hreach := (hsafe w hbefore hsees).1 hphase
        exact (hawake w hbefore (.inl hphase) hreach).2 w hw rfl hphase
    · simp at hphase
  · intro w hw hphase hne
    rw [howed] at hne
    obtain ⟨before, hbefore, rfl | ⟨-, rfl⟩⟩ := hwoken.exists_before hw
    · rcases hsplit w hne with hold | hsees
      · exact hwoken.flags _ (h.arming w hbefore hphase hold)
      · rcases (hsafe w hbefore hsees).2 hphase with hset | hreach
        · exact hwoken.flags _ hset
        · exact (hawake w hbefore (.inr hphase) hreach).1
    · simp at hphase
  · intro w hw
    obtain ⟨before, hbefore, rfl | ⟨-, rfl⟩⟩ := hwoken.exists_before hw
    · exact ⟨hwoken.known _ (h.known w hbefore).1, (h.known w hbefore).2⟩
    · exact ⟨hwoken.known _ (h.known before hbefore).1, (h.known before hbefore).2⟩
  · intro e he
    rw [hwoken.committed] at he
    rw [hwoken.wm]
    rcases List.mem_cons.mp he with rfl | hold
    · exact hmem
    · exact h.staged e hold

theorem WaitInv.step {op : WaitOp} (h : WaitInv s) (hsafe : s.StepSafe op)
    (hstep : s.step op = some t) : WaitInv t := by
  cases op with
  | enter => exact h.enter hstep
  | poll => exact h.poll hsafe hstep
  | arm => exact h.arm hstep
  | expire => exact h.expire hstep
  | stage => exact h.stage hstep
  | commit => exact h.commit hsafe hstep

theorem WaitInv.run {ops : List WaitOp} (h : WaitInv s)
    (hrun : Run WaitState.step StepSafe s ops t) : WaitInv t :=
  hrun.invariant h fun _ _ _ hinv hsafe hstep => hinv.step hsafe hstep

end WaitState

/-- What is left of a `wait` call up to its next poll. -/
def Waiter.resumption (w : Waiter) (expired : Bool) : List WaitOp :=
  match w.phase with
  | .ready => [.poll w.id expired]
  | .arming => [.arm w.id, .poll w.id expired]
  | .sleeping | .returned _ _ => []

namespace WaitState

theorem poll_returns {s : WaitState} {w : Waiter} {event : TaskEvent} (hw : w ∈ s.waiters.rows)
    (hready : w.phase = .ready) (hsees : event ∈ s.poll w) (expired : Bool) :
    s.step (.poll w.id expired) = some (s.setPhase w (.returned (s.poll w) (s.owed w))) := by
  have hget : s.waiters.get? w.id = some w := Table.get?_eq_some.mpr ⟨hw, rfl⟩
  have hne : s.poll w ≠ [] := List.ne_nil_of_mem hsees
  simp [step, hget, hready, pollTurn, hne]

/-- A waiter that is owed an event returns it by its own next turns, whether or not
its deadline has passed meanwhile. -/
theorem WaitInv.resumption_returns (h : WaitInv s) (hw : w ∈ s.waiters.rows)
    (hevent : event ∈ s.owed w) (hactive : ∀ result owed, w.phase ≠ .returned result owed)
    (expired : Bool) :
    ∃ t result owed, exec WaitState.step s (w.resumption expired) = some t ∧
      t.waiters.get? w.id = some { w with phase := .returned result owed } ∧
      event ∈ result := by
  have hsees := (mem_owed.1 hevent).1
  have howed : s.owed w ≠ [] := List.ne_nil_of_mem hevent
  cases hphase : w.phase with
  | ready =>
    refine ⟨s.setPhase w (.returned (s.poll w) (s.owed w)), s.poll w, s.owed w, ?_,
      Table.get?_insert_self s.waiters { w with phase := .returned (s.poll w) (s.owed w) }, hsees⟩
    simp only [Waiter.resumption, hphase, exec_cons, exec_nil,
      poll_returns hw hphase hsees expired, Option.bind_some]
  | arming =>
    have hset := h.arming w hw hphase howed
    have hget : s.waiters.get? w.id = some w := Table.get?_eq_some.mpr ⟨hw, rfl⟩
    have harm : WaitState.step s (.arm w.id) = some (s.setPhase w .ready) := by
      simp [WaitState.step, hget, hphase, hset]
    have hmem : { w with phase := .ready } ∈ (s.setPhase w .ready).waiters.rows :=
      Table.mem_insert.mpr (.inl rfl)
    have hpoll := @poll_returns _ _ event hmem rfl hsees expired
    refine ⟨(s.setPhase w .ready).setPhase w (.returned (s.poll w) (s.owed w)), s.poll w,
      s.owed w, ?_, Table.get?_insert_self (s.setPhase w .ready).waiters
        { w with phase := .returned (s.poll w) (s.owed w) }, hsees⟩
    simp only [Waiter.resumption, hphase, exec_cons, exec_nil, harm, Option.bind_some]
    exact congrArg (fun r => Option.bind r fun t => some t) hpoll
  | sleeping => exact (howed (h.sleeping w hw hphase)).elim
  | returned result owed => exact (hactive result owed hphase).elim

end WaitState

open WaitState in
/-- While every commit reaches the blocked waiters that can see its event and no empty poll clears a
flag still needed, no call times out past a committed event or sleeps on one. -/
theorem wait_run_loses_no_wakeup {wm : WorkspaceManager} {ops : List WaitOp} {s : WaitState}
    (hrun : Run WaitState.step StepSafe { wm := wm } ops s) :
    s.NoLostWakeup ∧
      ∀ w ∈ s.waiters.rows, (∀ result owed, w.phase ≠ .returned result owed) →
        ∀ event ∈ s.owed w, ∀ expired, ∃ t result owed,
          exec WaitState.step s (w.resumption expired) = some t ∧
          t.waiters.get? w.id = some { w with phase := .returned result owed } ∧
          event ∈ result := by
  have hinv := (waitInv_init wm).run hrun
  refine ⟨hinv.noLostWakeup, ?_⟩
  intro w hw hactive event hevent expired
  exact hinv.resumption_returns hw hevent hactive expired

private def rootTask : WorkspaceTask := { id := "root", path := ["root"] }

private def middleTask : WorkspaceTask :=
  { id := "middle", parentTaskId := some "root", path := ["root", "middle"] }

private def leafTask : WorkspaceTask :=
  { id := "leaf", parentTaskId := some "middle", path := ["root", "middle", "leaf"] }

private def familyManager : WorkspaceManager :=
  { tasks := ((Table.empty.insert rootTask).insert middleTask).insert leafTask }

private def reportOn (taskId : TaskId) (id : ReportId) : AppendRequest where
  taskId := taskId
  actorRole := .worker
  eventType := .report
  callId := .report id
  action := "report"

private def subtreeWaitOn (taskId : TaskId) : List WaitOp :=
  [.enter 0 (.task taskId) 0 true, .poll 0 false, .arm 0]

private def leafReport : TaskEvent := (reportOn "leaf" "r1").event leafTask 1 1

theorem wait_run_loses_no_wakeup_append :
    ∃ s, Run WaitState.step WaitState.StepSafe { wm := familyManager }
        (subtreeWaitOn "root" ++ [.stage (reportOn "leaf" "r1") 1,
          .commit leafReport .appendEvent, .poll 0 false]) s ∧ s.NoLostWakeup := by
  obtain ⟨s, hexec⟩ := Option.isSome_iff_exists.mp
    (by decide : (execOk WaitState.step WaitState.StepSafe { wm := familyManager }
      (subtreeWaitOn "root" ++ [.stage (reportOn "leaf" "r1") 1,
        .commit leafReport .appendEvent, .poll 0 false])).isSome)
  exact ⟨s, .of_execOk hexec, (wait_run_loses_no_wakeup (.of_execOk hexec)).1⟩

/-- A report that intake commits for a grandchild does not wake the subtree wait of the root, and
neither does a plain append wake that of its own task. -/
theorem committed_event_times_out :
    (∃ s, exec WaitState.step { wm := familyManager }
        (subtreeWaitOn "root" ++ [.stage (reportOn "leaf" "r1") 1,
          .commit leafReport .reportIntake, .expire 0]) = some s ∧ ¬ s.NoLostWakeup) ∧
    (∃ s, exec WaitState.step { wm := familyManager }
        (subtreeWaitOn "leaf" ++ [.stage (reportOn "leaf" "r1") 1,
          .commit leafReport .appendEvent, .expire 0]) = some s ∧ ¬ s.NoLostWakeup) ∧
    ∃ s, exec WaitState.step { wm := familyManager }
        (subtreeWaitOn "root" ++
          [.enter 1 (.task "root") 0 false, .poll 1 false, .arm 1,
            .stage (reportOn "leaf" "r1") 1, .commit leafReport .appendEvent,
            .enter 2 (.task "root") 1 true, .poll 2 false,
            .stage (reportOn "leaf" "r2") 2,
            .commit ((reportOn "leaf" "r2").event leafTask 2 2) .appendEvent,
            .poll 1 false, .arm 2, .expire 2]) = some s ∧ ¬ s.NoLostWakeup := by
  refine ⟨⟨_, Option.eq_some_of_isSome (by decide), by decide⟩,
    ⟨_, Option.eq_some_of_isSome (by decide), by decide⟩,
    ⟨_, Option.eq_some_of_isSome (by decide), by decide⟩⟩

end ClaudeHub
