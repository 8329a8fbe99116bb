import ClaudeHub.GoalRun.Native

/-! # What the native coordinator does to its records

Receipts and create requests only accumulate; and as long as each new record is stamped
later than those there are, a cancelled record stays cancelled and only the newest record
of a tab is unfinished. Every function of the coordinator is shown to keep both.
-/

namespace ClaudeHub

open Attempt

namespace NativeGoalStore

/-- What the records keep while the clock moves forward. -/
structure Kept (store : NativeGoalStore) : Prop where
  distinct : ∀ a ∈ store.goals.rows, ∀ b ∈ store.goals.rows, a.tabId = b.tabId →
    a.createdAt = b.createdAt → a = b
  newest : ∀ a ∈ store.goals.rows, ∀ b ∈ store.goals.rows, a.unfinished → b.tabId = a.tabId →
    b.createdAt ≤ a.createdAt
  /-- An adopted record is newer than the record that its generation follows. -/
  generations : ∀ tabId threadId createdAt previous id,
    store.createRequests.lookup (.generation tabId threadId createdAt previous) = some id →
      ∃ goal ∈ store.goals.rows, goal.id = id ∧ goal.tabId = tabId ∧
        ∀ beforeId, previous = some beforeId →
          ∃ before ∈ store.goals.rows, before.id = beforeId ∧ before.createdAt < goal.createdAt

theorem kept_empty : Kept {} :=
  ⟨by simp, by simp, by simp⟩

theorem Kept.unique {store : NativeGoalStore} (h : store.Kept) {a b : NativeGoalRun}
    (ha : a ∈ store.goals.rows) (hb : b ∈ store.goals.rows) (htab : a.tabId = b.tabId)
    (hua : a.unfinished) (hub : b.unfinished) : a = b := by
  have hab := h.newest b hb a ha hub htab
  have hba := h.newest a ha b hb hua htab.symm
  exact h.distinct a ha b hb htab (Nat.le_antisymm hab hba)

theorem Kept.generation_new {store : NativeGoalStore} (h : store.Kept) (tabId : TabId)
    (threadId : ThreadId) (createdAt : Int) :
    store.createRequests.lookup (.generation tabId threadId createdAt
      ((store.latestForTab tabId).map NativeGoalRun.id)) = none := by
  cases hlookup : store.createRequests.lookup (.generation tabId threadId createdAt
      ((store.latestForTab tabId).map NativeGoalRun.id)) with
  | none => rfl
  | some =>
    obtain ⟨goal, hgoal, -, htab, hlater⟩ := h.generations _ _ _ _ _ hlookup
    cases hlatest : store.latestForTab tabId with
    | none => exact absurd htab (latestForTab_eq_none hlatest hgoal)
    | some latest =>
      obtain ⟨before, hbefore, hid, hold⟩ := hlater latest.id (by rw [hlatest]; rfl)
      obtain rfl : before = latest :=
        Table.eq_of_mem hbefore (latestForTab_mem hlatest).1 hid
      have hnew := latestForTab_le hlatest hgoal htab
      exact absurd hold (Nat.not_lt.mpr hnew)

end NativeGoalStore

/-- What a computation is about: a projection keeps every receipt as it is, a confirmation
may settle one, and a request also begins provider calls of its own. -/
inductive NativeDeed
  | projects
  | confirms
  | starts (request : NativeRequest)

def GoalReceipt.content : GoalReceipt → Option MutationFingerprint
  | .pendingCreate _ | .create => none
  | .pending request | .applied request => some request

/-- What may become of a record: its receipts accumulate and, where the clock moves forward,
its end is final unless it is the newest of its tab, and a cancellation is final. -/
structure NativeGoalRun.Evolves (orderly : Prop) (deed : NativeDeed) (store : NativeGoalStore)
    (stored goal : NativeGoalRun) : Prop where
  id : goal.id = stored.id
  tab : goal.tabId = stored.tabId
  created : goal.createdAt = stored.createdAt
  receipts : ∀ requestId receipt, stored.receipt requestId = some receipt →
    ∃ later, goal.receipt requestId = some later ∧ later.content = receipt.content
  same : deed = .projects → goal.idempotency = stored.idempotency
  cancelled : orderly → stored.status = .cancelled → goal.status = .cancelled
  unfinished : orderly → goal.unfinished →
    stored.unfinished ∨ store.latestForTab stored.tabId = some stored

namespace NativeGoalRun

variable {orderly : Prop} {deed : NativeDeed} {store : NativeGoalStore} {stored goal : NativeGoalRun}

theorem receipts_of_same (h : goal.idempotency = stored.idempotency) (requestId : String)
    (receipt : GoalReceipt) (hreceipt : stored.receipt requestId = some receipt) :
    ∃ later, goal.receipt requestId = some later ∧ later.content = receipt.content := by
  refine ⟨receipt, ?_, rfl⟩
  rw [NativeGoalRun.receipt, h]
  exact hreceipt

theorem receipts_withReceipt {requestId : String} {receipt : GoalReceipt}
    (h : ∀ prior, stored.receipt requestId = some prior → receipt.content = prior.content)
    (other : String) (prior : GoalReceipt) (hprior : stored.receipt other = some prior) :
    ∃ later, (stored.withReceipt requestId receipt).receipt other = some later ∧
      later.content = prior.content := by
  rw [receipt_withReceipt]
  by_cases heq : other = requestId
  · subst heq
    exact ⟨receipt, if_pos rfl, h prior hprior⟩
  · exact ⟨prior, (if_neg heq).trans hprior, rfl⟩

theorem Evolves.of_same (hid : goal.id = stored.id) (htab : goal.tabId = stored.tabId)
    (hcreated : goal.createdAt = stored.createdAt) (hstatus : goal.status = stored.status)
    (hsame : goal.idempotency = stored.idempotency) : Evolves orderly deed store stored goal where
  id := hid
  tab := htab
  created := hcreated
  receipts := receipts_of_same hsame
  same := fun _ => hsame
  cancelled := fun _ h => hstatus.trans h
  unfinished := by
    intro _ hopen
    have hterminal : goal.status.terminal = false := hopen
    rw [hstatus] at hterminal
    exact .inl hterminal

theorem Evolves.of_terminal (hid : goal.id = stored.id) (htab : goal.tabId = stored.tabId)
    (hcreated : goal.createdAt = stored.createdAt)
    (hsame : goal.idempotency = stored.idempotency) (hterminal : goal.status.terminal = true)
    (hcancelled : stored.status = .cancelled → goal.status = .cancelled) :
    Evolves orderly deed store stored goal where
  id := hid
  tab := htab
  created := hcreated
  receipts := receipts_of_same hsame
  same := fun _ => hsame
  cancelled := fun _ h => hcancelled h
  unfinished := fun _ h => by simp [NativeGoalRun.unfinished, hterminal] at h

theorem Evolves.of_receipts (hdeed : deed ≠ .projects) (hid : goal.id = stored.id)
    (htab : goal.tabId = stored.tabId) (hcreated : goal.createdAt = stored.createdAt)
    (hstatus : goal.status = stored.status ∨ goal.status = .cancelled)
    (hreceipts : ∀ requestId receipt, stored.receipt requestId = some receipt →
      ∃ later, goal.receipt requestId = some later ∧ later.content = receipt.content) :
    Evolves orderly deed store stored goal where
  id := hid
  tab := htab
  created := hcreated
  receipts := hreceipts
  same := fun h => absurd h hdeed
  cancelled := by
    intro _ h
    rcases hstatus with hsame | hcancelled
    · exact hsame.trans h
    · exact hcancelled
  unfinished := by
    intro _ hopen
    have hterminal : goal.status.terminal = false := hopen
    rcases hstatus with hsame | hcancelled
    · rw [hsame] at hterminal
      exact .inl hterminal
    · rw [hcancelled] at hterminal
      cases hterminal

theorem evolves_ownTurn (turnId : TurnId) :
    Evolves orderly deed store stored (stored.ownTurn turnId) :=
  .of_same rfl rfl rfl rfl rfl

end NativeGoalRun

namespace NativeWorld

/-- The ids of the records to come are new. -/
structure Fresh (world : NativeWorld) : Prop where
  nodup : (world.births.map NativeBirth.id).Nodup
  unused : ∀ newborn ∈ world.births, world.store.goals.get? newborn.id = none

/-- The stamps of the records to come are later than those of the records there are. -/
structure Ahead (world : NativeWorld) : Prop where
  increasing : world.births.Pairwise fun a b => a.createdAt < b.createdAt
  later : ∀ newborn ∈ world.births, ∀ goal ∈ world.store.goals.rows,
    goal.createdAt < newborn.createdAt

/-- The invariant of a run; `orderly` says whether its clock moves forward. -/
structure Sound (orderly : Prop) (world : NativeWorld) : Prop where
  fresh : world.Fresh
  ahead : orderly → world.Ahead
  kept : orderly → world.store.Kept

/-- How a computation may have moved: the records evolve, and only a request begins provider
calls, which are its own. -/
structure Acts (orderly : Prop) (deed : NativeDeed) (before after : NativeWorld) : Prop where
  call : after.call = before.call
  records : ∀ id goal, before.store.goals.get? id = some goal →
    ∃ later, after.store.goals.get? id = some later ∧ later.tabId = goal.tabId ∧
      (∀ requestId receipt, goal.receipt requestId = some receipt →
        ∃ settled, later.receipt requestId = some settled ∧ settled.content = receipt.content) ∧
      (deed = .projects → later.idempotency = goal.idempotency) ∧
      (orderly → goal.status = .cancelled → later.status = .cancelled)
  requests : ∀ key id, before.store.createRequests.lookup key = some id →
    after.store.createRequests.lookup key = some id ∧
      after.store.createInputs.lookup key = before.store.createInputs.lookup key
  started : ∃ more, after.started = before.started ++ more ∧
    ∀ effect ∈ more, effect.call = before.call ∧ deed = .starts effect.request

variable {orderly : Prop} {deed : NativeDeed} {world after : NativeWorld}

instance : Std.Refl (Acts orderly deed) where
  refl world :=
    { call := rfl
      records := fun id goal h =>
        ⟨goal, h, rfl, fun _ receipt hr => ⟨receipt, hr, rfl⟩, fun _ => rfl, fun _ hc => hc⟩
      requests := fun key id h => ⟨h, rfl⟩
      started := ⟨[], by simp, by simp⟩ }

instance : IsTrans NativeWorld (Acts orderly deed) where
  trans first second third h h' :=
    { call := h'.call.trans h.call
      records := by
        intro id goal hgoal
        obtain ⟨middle, hmiddle, htab, hreceipts, hsame, hcancelled⟩ := h.records id goal hgoal
        obtain ⟨last, hlast, htab', hreceipts', hsame', hcancelled'⟩ :=
          h'.records id middle hmiddle
        refine ⟨last, hlast, htab'.trans htab, ?_, ?_, ?_⟩
        · intro requestId receipt hreceipt
          obtain ⟨settled, hsettled, hcontent⟩ := hreceipts requestId receipt hreceipt
          obtain ⟨final, hfinal, hcontent'⟩ := hreceipts' requestId settled hsettled
          exact ⟨final, hfinal, hcontent'.trans hcontent⟩
        · exact fun hdeed => (hsame' hdeed).trans (hsame hdeed)
        · exact fun ho hc => hcancelled' ho (hcancelled ho hc)
      requests := by
        intro key id hlookup
        obtain ⟨hmiddle, hinput⟩ := h.requests key id hlookup
        obtain ⟨hlast, hinput'⟩ := h'.requests key id hmiddle
        exact ⟨hlast, hinput'.trans hinput⟩
      started := by
        obtain ⟨more, hmore, heach⟩ := h.started
        obtain ⟨rest, hrest, heach'⟩ := h'.started
        refine ⟨more ++ rest, by rw [hrest, hmore, List.append_assoc], ?_⟩
        intro effect heffect
        rcases List.mem_append.mp heffect with hin | hin
        · exact heach effect hin
        · exact ⟨(heach' effect hin).1.trans h.call, (heach' effect hin).2⟩ }

theorem Acts.of_projects (h : Acts orderly .projects world after) :
    Acts orderly deed world after where
  call := h.call
  records := by
    intro id goal hgoal
    obtain ⟨later, hlater, htab, hreceipts, hsame, hcancelled⟩ := h.records id goal hgoal
    exact ⟨later, hlater, htab, hreceipts, fun _ => hsame rfl, hcancelled⟩
  requests := h.requests
  started := by
    obtain ⟨more, hmore, heach⟩ := h.started
    exact ⟨more, hmore, fun effect heffect => by cases (heach effect heffect).2⟩

theorem Acts.of_confirms {request : NativeRequest} (h : Acts orderly .confirms world after) :
    Acts orderly (.starts request) world after where
  call := h.call
  records := by
    intro id goal hgoal
    obtain ⟨later, hlater, htab, hreceipts, -, hcancelled⟩ := h.records id goal hgoal
    exact ⟨later, hlater, htab, hreceipts, nofun, hcancelled⟩
  requests := h.requests
  started := by
    obtain ⟨more, hmore, heach⟩ := h.started
    exact ⟨more, hmore, fun effect heffect => by cases (heach effect heffect).2⟩

theorem Sound.of_same (h : Sound orderly world) (hstore : after.store = world.store)
    (hbirths : after.births = world.births) : Sound orderly after where
  fresh := ⟨by rw [hbirths]; exact h.fresh.nodup, by rw [hstore, hbirths]; exact h.fresh.unused⟩
  ahead := fun ho =>
    ⟨by rw [hbirths]; exact (h.ahead ho).increasing,
      by rw [hstore, hbirths]; exact (h.ahead ho).later⟩
  kept := fun ho => by rw [hstore]; exact h.kept ho

theorem Acts.of_same (hcall : after.call = world.call) (hstore : after.store = world.store)
    (hstarted : after.started = world.started) : Acts orderly deed world after where
  call := hcall
  records := by
    intro id goal hgoal
    exact ⟨goal, hstore ▸ hgoal, rfl, fun _ receipt hr => ⟨receipt, hr, rfl⟩, fun _ => rfl,
      fun _ hc => hc⟩
  requests := fun key id h => by rw [hstore]; exact ⟨h, rfl⟩
  started := ⟨[], by simp [hstarted], by simp⟩

section Write

variable {stored goal : NativeGoalRun} {store : NativeGoalStore}

private theorem exists_replaced (hget : store.goals.get? goal.id = some stored)
    (h : NativeGoalRun.Evolves orderly deed store stored goal) {x : NativeGoalRun}
    (hx : x ∈ (store.goals.insert goal).rows) :
    ∃ old ∈ store.goals.rows, old.id = x.id ∧ old.tabId = x.tabId ∧ old.createdAt = x.createdAt ∧
      (orderly → x.unfinished →
        old.unfinished ∨ store.latestForTab old.tabId = some old) := by
  rcases Table.mem_insert.mp hx with rfl | ⟨hold, -⟩
  · obtain ⟨hmem, hid⟩ := Table.get?_eq_some.mp hget
    exact ⟨stored, hmem, hid, h.tab.symm, h.created.symm, h.unfinished⟩
  · exact ⟨x, hold, rfl, rfl, rfl, fun _ hu => .inl hu⟩

private theorem exists_replacement (hget : store.goals.get? goal.id = some stored)
    (h : NativeGoalRun.Evolves orderly deed store stored goal) {old : NativeGoalRun}
    (hold : old ∈ store.goals.rows) :
    ∃ x ∈ (store.goals.insert goal).rows, x.id = old.id ∧ x.tabId = old.tabId ∧
      x.createdAt = old.createdAt := by
  obtain ⟨hmem, hid⟩ := Table.get?_eq_some.mp hget
  by_cases hsame : old.id = goal.id
  · have heq : old = stored := Table.eq_of_mem hold hmem (hsame.trans hid.symm)
    exact ⟨goal, Table.mem_insert.mpr (.inl rfl), hsame.symm, heq ▸ h.tab, heq ▸ h.created⟩
  · exact ⟨old, Table.mem_insert.mpr (.inr ⟨hold, hsame⟩), rfl, rfl, rfl⟩

theorem kept_put (ho : orderly) (hkept : store.Kept) (hget : store.goals.get? goal.id = some stored)
    (h : NativeGoalRun.Evolves orderly deed store stored goal) :
    (store.withGoal goal).Kept where
  distinct := by
    intro a ha b hb htab hcreated
    obtain ⟨a', ha', haid, hatab, hacreated, -⟩ := exists_replaced hget h ha
    obtain ⟨b', hb', hbid, hbtab, hbcreated, -⟩ := exists_replaced hget h hb
    have heq : a' = b' := by
      apply hkept.distinct a' ha' b' hb'
      · rw [hatab, hbtab, htab]
      · rw [hacreated, hbcreated, hcreated]
    exact Table.eq_of_mem ha hb (by rw [← haid, ← hbid, heq])
  newest := by
    intro a ha b hb hunfinished htab
    obtain ⟨a', ha', -, hatab, hacreated, hlast⟩ := exists_replaced hget h ha
    obtain ⟨b', hb', -, hbtab, hbcreated, -⟩ := exists_replaced hget h hb
    have htab' : b'.tabId = a'.tabId := by rw [hatab, hbtab, htab]
    rw [← hacreated, ← hbcreated]
    rcases hlast ho hunfinished with hopen | hlatest
    · exact hkept.newest a' ha' b' hb' hopen htab'
    · exact NativeGoalStore.latestForTab_le hlatest hb' htab'
  generations := by
    intro tabId threadId createdAt previous id hlookup
    obtain ⟨old, hold, hid, htab, hlater⟩ := hkept.generations _ _ _ _ _ hlookup
    obtain ⟨x, hx, hxid, hxtab, hxcreated⟩ := exists_replacement hget h hold
    refine ⟨x, hx, hxid.trans hid, hxtab.trans htab, ?_⟩
    intro beforeId hprevious
    obtain ⟨before, hbefore, hbeforeId, hlt⟩ := hlater beforeId hprevious
    obtain ⟨y, hy, hyid, -, hycreated⟩ := exists_replacement hget h hbefore
    exact ⟨y, hy, hyid.trans hbeforeId, by rwa [hycreated, hxcreated]⟩

theorem Sound.put (h : Sound orderly world) (hget : world.store.goals.get? goal.id = some stored)
    (hevolves : NativeGoalRun.Evolves orderly deed world.store stored goal)
    (hstore : after.store = world.store.withGoal goal)
    (hbirths : after.births = world.births) : Sound orderly after where
  fresh := by
    refine ⟨by rw [hbirths]; exact h.fresh.nodup, ?_⟩
    intro newborn hborn
    rw [hbirths] at hborn
    have hnone := h.fresh.unused newborn hborn
    have hne : newborn.id ≠ goal.id := by
      intro heq
      rw [heq, hget] at hnone
      cases hnone
    rw [hstore]
    exact (Table.get?_insert_ne _ hne).trans hnone
  ahead := by
    intro ho
    refine ⟨by rw [hbirths]; exact (h.ahead ho).increasing, ?_⟩
    intro newborn hborn x hx
    rw [hbirths] at hborn
    rw [hstore] at hx
    obtain ⟨old, hold, -, -, hcreated, -⟩ := exists_replaced hget hevolves hx
    rw [← hcreated]
    exact (h.ahead ho).later newborn hborn old hold
  kept := by
    intro ho
    rw [hstore]
    exact kept_put ho (h.kept ho) hget hevolves

theorem Acts.put (hget : world.store.goals.get? goal.id = some stored)
    (hevolves : NativeGoalRun.Evolves orderly deed world.store stored goal)
    (hstore : after.store = world.store.withGoal goal)
    (hcall : after.call = world.call) (hstarted : after.started = world.started) :
    Acts orderly deed world after where
  call := hcall
  records := by
    intro id x hx
    rw [hstore]
    by_cases hid : id = goal.id
    · subst hid
      obtain rfl : stored = x := Option.some.inj (hget.symm.trans hx)
      exact ⟨goal, Table.get?_insert_self _ _, hevolves.tab, hevolves.receipts, hevolves.same,
        hevolves.cancelled⟩
    · exact ⟨x, (Table.get?_insert_ne _ hid).trans hx, rfl,
        fun _ receipt hr => ⟨receipt, hr, rfl⟩, fun _ => rfl, fun _ hc => hc⟩
  requests := by
    intro key id hlookup
    rw [hstore]
    exact ⟨hlookup, rfl⟩
  started := ⟨[], by simp [hstarted], by simp⟩

end Write

/-! ## Creating a record -/

/-- A record to come: its id is new and, where the clock moves forward, it is stamped later
than the records there are and before the others to come. -/
structure Newborn (orderly : Prop) (newborn : NativeBirth) (world : NativeWorld) : Prop where
  unused : world.store.goals.get? newborn.id = none
  apart : newborn.id ∉ world.births.map NativeBirth.id
  later : orderly → ∀ goal ∈ world.store.goals.rows, goal.createdAt < newborn.createdAt
  before : orderly → ∀ next ∈ world.births, newborn.createdAt < next.createdAt

section Create

variable {goal : NativeGoalRun} {newborn : NativeBirth} {key : CreateKey} {input : CreateInput}

/-- A generation key names the tab of its record and a record that it follows. -/
def KeyFits (store : NativeGoalStore) (goal : NativeGoalRun) (key : CreateKey) : Prop :=
  ∀ tabId threadId createdAt previous, key = .generation tabId threadId createdAt previous →
    tabId = goal.tabId ∧
      ∀ beforeId, previous = some beforeId → ∃ before ∈ store.goals.rows, before.id = beforeId

theorem kept_create {store : NativeGoalStore} (hkept : store.Kept)
    (hunused : store.goals.get? goal.id = none)
    (hlater : ∀ other ∈ store.goals.rows, other.createdAt < goal.createdAt)
    (hfree : ∀ other ∈ store.goals.rows, other.tabId = goal.tabId → ¬ other.unfinished)
    (hkey : KeyFits store goal key) : (store.withCreated goal key input).Kept where
  distinct := by
    intro a ha b hb htab hcreated
    rcases Table.mem_insert.mp ha with rfl | ⟨ha', -⟩ <;>
      rcases Table.mem_insert.mp hb with rfl | ⟨hb', -⟩
    · rfl
    · exact absurd (hcreated ▸ hlater b hb') (lt_irrefl _)
    · exact absurd (hcreated ▸ hlater a ha') (lt_irrefl _)
    · exact hkept.distinct a ha' b hb' htab hcreated
  newest := by
    intro a ha b hb hunfinished htab
    rcases Table.mem_insert.mp ha with rfl | ⟨ha', -⟩ <;>
      rcases Table.mem_insert.mp hb with rfl | ⟨hb', -⟩
    · exact Nat.le_refl _
    · exact Nat.le_of_lt (hlater b hb')
    · exact absurd hunfinished (hfree a ha' htab.symm)
    · exact hkept.newest a ha' b hb' hunfinished htab
  generations := by
    intro tabId threadId createdAt previous id hlookup
    have hold : ∀ other ∈ store.goals.rows, other ∈ (store.goals.insert goal).rows := by
      intro other hother
      exact Table.mem_insert.mpr (.inr ⟨hother, Table.get?_eq_none.mp hunused other hother⟩)
    have hset := hlookup
    simp only [NativeGoalStore.withCreated, Dict.lookup_set] at hset
    by_cases hsame : CreateKey.generation tabId threadId createdAt previous = key
    · rw [if_pos hsame, Option.some.injEq] at hset
      obtain ⟨htab, hprevious⟩ := hkey _ _ _ _ hsame.symm
      refine ⟨goal, Table.mem_insert.mpr (.inl rfl), hset, htab.symm, ?_⟩
      intro beforeId hbeforeId
      obtain ⟨before, hbefore, hid⟩ := hprevious beforeId hbeforeId
      exact ⟨before, hold before hbefore, hid, hlater before hbefore⟩
    · rw [if_neg hsame] at hset
      obtain ⟨other, hother, hid, htab, hprevious⟩ := hkept.generations _ _ _ _ _ hset
      refine ⟨other, hold other hother, hid, htab, ?_⟩
      intro beforeId hbeforeId
      obtain ⟨before, hbefore, hid, hlt⟩ := hprevious beforeId hbeforeId
      exact ⟨before, hold before hbefore, hid, hlt⟩

theorem Sound.create (h : Sound orderly world) (hborn : Newborn orderly newborn world)
    (hid : goal.id = newborn.id) (hcreated : goal.createdAt = newborn.createdAt)
    (hfree : ∀ other ∈ world.store.goals.rows, other.tabId = goal.tabId → ¬ other.unfinished)
    (hkey : KeyFits world.store goal key)
    (hstore : after.store = world.store.withCreated goal key input)
    (hbirths : after.births = world.births) : Sound orderly after where
  fresh := by
    refine ⟨by rw [hbirths]; exact h.fresh.nodup, ?_⟩
    intro next hnext
    rw [hbirths] at hnext
    have hne : next.id ≠ goal.id := by
      intro heq
      exact hborn.apart (hid ▸ heq ▸ List.mem_map_of_mem hnext)
    rw [hstore]
    exact (Table.get?_insert_ne _ hne).trans (h.fresh.unused next hnext)
  ahead := by
    intro ho
    refine ⟨by rw [hbirths]; exact (h.ahead ho).increasing, ?_⟩
    intro next hnext x hx
    rw [hbirths] at hnext
    rw [hstore] at hx
    rcases Table.mem_insert.mp hx with rfl | ⟨hx, -⟩
    · rw [hcreated]
      exact hborn.before ho next hnext
    · exact (h.ahead ho).later next hnext x hx
  kept := by
    intro ho
    rw [hstore]
    apply kept_create (h.kept ho)
    · rw [hid]
      exact hborn.unused
    · rw [hcreated]
      exact hborn.later ho
    · exact hfree
    · exact hkey

theorem Acts.create (hborn : Newborn orderly newborn world) (hid : goal.id = newborn.id)
    (hnew : world.store.createRequests.lookup key = none)
    (hstore : after.store = world.store.withCreated goal key input)
    (hcall : after.call = world.call) (hstarted : after.started = world.started) :
    Acts orderly deed world after where
  call := hcall
  records := by
    intro id x hx
    have hne : id ≠ goal.id := by
      rintro rfl
      rw [hid, hborn.unused] at hx
      cases hx
    rw [hstore]
    exact ⟨x, (Table.get?_insert_ne _ hne).trans hx, rfl,
      fun _ receipt hr => ⟨receipt, hr, rfl⟩, fun _ => rfl, fun _ hc => hc⟩
  requests := by
    intro other id hlookup
    have hne : other ≠ key := by
      rintro rfl
      rw [hnew] at hlookup
      cases hlookup
    rw [hstore]
    exact ⟨(Dict.lookup_set _ _ _ _).trans ((if_neg hne).trans hlookup),
      (Dict.lookup_set _ _ _ _).trans (if_neg hne)⟩
  started := ⟨[], by simp [hstarted], by simp⟩

end Create

end NativeWorld

namespace Native

open NativeWorld

variable {orderly : Prop} {deed : NativeDeed} {world : NativeWorld}

theorem keeps_ask (decode : NativeReply → Option α) :
    Keeps (Sound orderly) (Acts orderly deed) (ask decode) world
      (fun a after => after.store = world.store ∧
        ∃ reply, world.replies.head? = some reply ∧ decode reply = some a) := by
  intro h
  unfold Ends
  cases hreplies : world.replies with
  | nil =>
    simp only [ask, hreplies]
    exact ⟨h, Std.Refl.refl world⟩
  | cons reply replies =>
    have hsound : Sound orderly { world with replies := replies } := h.of_same rfl rfl
    have hacts : Acts orderly deed world { world with replies := replies } :=
      .of_same rfl rfl rfl
    cases hfault : reply.fault? with
    | some =>
      simp only [ask, hreplies, hfault]
      exact ⟨hsound, hacts⟩
    | none =>
      cases hdecode : decode reply with
      | some =>
        simp only [ask, hreplies, hfault, hdecode]
        exact ⟨hsound, hacts, trivial, reply, rfl, hdecode⟩
      | none =>
        simp only [ask, hreplies, hfault, hdecode]
        exact ⟨hsound, hacts⟩

theorem keeps_begin (owner : NativeRequest) (effect : NativeEffect) :
    Keeps (Sound orderly) (Acts orderly (.starts owner)) (begin owner effect) world
      (fun _ after => after.store = world.store) := by
  intro h
  apply Ends.update
  refine ⟨h.of_same rfl rfl, ?_, rfl⟩
  exact
    { call := rfl
      records := fun id goal hget =>
        ⟨goal, hget, rfl, fun _ receipt hr => ⟨receipt, hr, rfl⟩, fun _ => rfl, fun _ hc => hc⟩
      requests := fun key id hlookup => ⟨hlookup, rfl⟩
      started := ⟨[⟨world.call, owner, effect⟩], rfl, by simp⟩ }

theorem keeps_effect (owner : NativeRequest) (effect : NativeEffect)
    (decode : NativeReply → Option α) :
    Keeps (Sound orderly) (Acts orderly (.starts owner))
      (do begin owner effect; ask decode) world (fun _ after => after.store = world.store) := by
  apply (keeps_begin owner effect).bind
  intro _ middle _ _ hmiddle
  apply (keeps_ask decode).mono
  exact fun _ after _ hafter => hafter.1.trans hmiddle

theorem keeps_get (goalId : GoalId) :
    Keeps (Sound orderly) (Acts orderly deed) (get goalId) world
      (fun goal after => after = world ∧ world.store.goals.get? goalId = some goal) := by
  apply Keeps.bind (Keeps.reads (Q := fun found after =>
    after = world ∧ found = world.store.goals.get? goalId) ⟨rfl, rfl⟩)
  rintro found after - - ⟨hafter, rfl⟩
  subst after
  cases hfound : world.store.goals.get? goalId with
  | none => exact Keeps.raise
  | some => exact Keeps.pure ⟨rfl, rfl⟩

theorem keeps_commit {store : NativeGoalStore}
    (hsound : ∀ after : NativeWorld, after.store = store → after.births = world.births →
      Sound orderly after)
    (hacts : ∀ after : NativeWorld, after.store = store → after.call = world.call →
      after.started = world.started → Acts orderly deed world after) :
    Keeps (Sound orderly) (Acts orderly deed) (commit store) world
      (fun _ after => after.store = store ∧ after.births = world.births) := by
  intro h
  unfold Ends
  cases hsaves : world.saves with
  | nil =>
    simp only [commit, hsaves]
    exact ⟨h, Std.Refl.refl world⟩
  | cons saved =>
    cases saved with
    | true =>
      simp only [commit, hsaves]
      exact ⟨hsound _ rfl rfl, hacts _ rfl rfl rfl, trivial, trivial⟩
    | false =>
      simp only [commit, hsaves]
      exact ⟨h.of_same rfl rfl, .of_same rfl rfl rfl⟩

/-- What a write leaves: the record, under a new stamp. -/
structure Wrote (goal written : NativeGoalRun) (before after : NativeGoalStore) : Prop where
  stored : after.goals.get? goal.id = some written
  stamped : written = goal.stamped written.updatedAt
  requests : after.createRequests = before.createRequests

section Put

variable {stored goal : NativeGoalRun}

theorem evolves_stamped (h : NativeGoalRun.Evolves orderly deed world.store stored goal) (now : Time) :
    NativeGoalRun.Evolves orderly deed world.store stored (goal.stamped now) :=
  { h with }

theorem keeps_storePut (hget : world.store.goals.get? stored.id = some stored)
    (hevolves : NativeGoalRun.Evolves orderly deed world.store stored goal) :
    Keeps (Sound orderly) (Acts orderly deed) (storePut goal) world
      (fun written after => Wrote goal written world.store after.store) := by
  apply (keeps_get goal.id).bind
  rintro found after - - ⟨hafter, -⟩
  subst after
  apply Keeps.bind (Keeps.reads (Q := fun _ after => after = world) rfl)
  rintro now after - - hafter
  subst after
  apply Keeps.bind (Keeps.reads (Q := fun store after => after = world ∧ store = world.store)
    ⟨rfl, rfl⟩)
  rintro store after hsound - ⟨hafter, hstore⟩
  subst after
  subst store
  have hstamped := evolves_stamped hevolves now
  have hsame : world.store.goals.get? (goal.stamped now).id = some stored :=
    (congrArg _ hevolves.id).trans hget
  apply Keeps.bind (keeps_commit (fun after hstore hbirths => hsound.put hsame hstamped hstore hbirths)
    (fun after hstore hcall hstarted => Acts.put hsame hstamped hstore hcall hstarted))
  rintro _ after - - ⟨hstore, -⟩
  apply Keeps.pure
  refine ⟨?_, rfl, by rw [hstore]; rfl⟩
  rw [hstore]
  exact Table.get?_insert_self _ _

theorem keeps_put (hget : world.store.goals.get? stored.id = some stored)
    (hevolves : NativeGoalRun.Evolves orderly deed world.store stored goal) :
    Keeps (Sound orderly) (Acts orderly deed) (put goal) world
      (fun written after => Wrote goal written world.store after.store) := by
  apply (keeps_get goal.id).bind
  rintro previous after - - ⟨hafter, hprevious⟩
  subst after
  apply Keeps.ite
  · rintro rfl
    exact Keeps.pure ⟨hprevious, rfl, rfl⟩
  · exact fun _ => keeps_storePut hget hevolves

end Put

end Native

end ClaudeHub
