import ClaudeHub.GoalRun.NativeKeeping

/-! # What a projection does to the records

`synchronize` begins no provider call. It ends, retires or rewrites the newest record of
its tab or creates a newer one, and what it returns is what the snapshot shows.
-/

namespace ClaudeHub

open Attempt

namespace Native

open NativeWorld

variable {orderly : Prop} {deed : NativeDeed} {world : NativeWorld}

theorem keeps_birth :
    Keeps (Sound orderly) (Acts orderly deed) birth world
      (fun newborn after => after.store = world.store ∧ Newborn orderly newborn after) := by
  intro h
  unfold Ends
  cases hbirths : world.births with
  | nil =>
    simp only [birth, hbirths]
    exact ⟨h, Std.Refl.refl world⟩
  | cons newborn births =>
    have hnodup := h.fresh.nodup
    have hunused := h.fresh.unused
    rw [hbirths] at hnodup hunused
    rw [List.map_cons, List.nodup_cons] at hnodup
    have hmem : newborn ∈ newborn :: births := List.mem_cons_self
    simp only [birth, hbirths]
    refine ⟨?_, .of_same rfl rfl rfl, trivial, ?_⟩
    · constructor
      · exact ⟨hnodup.2, fun next hnext => hunused next (List.mem_cons_of_mem _ hnext)⟩
      · intro ho
        have hahead := h.ahead ho
        have hincreasing := hahead.increasing
        rw [hbirths, List.pairwise_cons] at hincreasing
        refine ⟨hincreasing.2, fun next hnext goal hgoal => ?_⟩
        exact hahead.later next (by rw [hbirths]; exact List.mem_cons_of_mem _ hnext) goal hgoal
      · exact h.kept
    · constructor
      · exact hunused newborn hmem
      · exact hnodup.1
      · intro ho goal hgoal
        exact (h.ahead ho).later newborn (by rw [hbirths]; exact hmem) goal hgoal
      · intro ho next hnext
        have hincreasing := (h.ahead ho).increasing
        rw [hbirths, List.pairwise_cons] at hincreasing
        exact hincreasing.1 next hnext

/-- What a lookup of a create request finds. -/
def Replays (store : NativeGoalStore) (key : CreateKey) (supplied : CreateInput) :
    Option NativeGoalRun → Prop
  | none => store.createRequests.lookup key = none
  | some prior => store.createRequests.lookup key = some prior.id ∧
      store.goals.get? prior.id = some prior ∧ store.inputOf key prior = supplied

theorem keeps_replayCreate (key : CreateKey) (supplied : CreateInput) :
    Keeps (Sound orderly) (Acts orderly deed) (replayCreate key supplied) world
      (fun found after => after = world ∧ Replays world.store key supplied found) := by
  apply Keeps.bind (Keeps.reads (Q := fun store after => after = world ∧ store = world.store)
    ⟨rfl, rfl⟩)
  rintro store after - - ⟨hafter, hstore⟩
  subst after
  subst store
  cases hlookup : world.store.createRequests.lookup key with
  | none => exact Keeps.pure ⟨rfl, hlookup⟩
  | some priorId =>
    apply (keeps_get priorId).bind
    rintro prior after - - ⟨hafter, hprior⟩
    subst after
    have hid : prior.id = priorId := Table.key_of_get? hprior
    apply Keeps.ite
    · exact fun _ => Keeps.raise
    · intro hsame
      exact Keeps.pure ⟨rfl, by rw [hid]; exact hlookup, by rw [hid]; exact hprior,
        not_not.mp hsame⟩

variable {goal : NativeGoalRun}

theorem keeps_storeCreate {newborn : NativeBirth} {key : CreateKey} {supplied : CreateInput}
    (hborn : Newborn orderly newborn world) (hid : goal.id = newborn.id)
    (hcreated : goal.createdAt = newborn.createdAt) (hkey : KeyFits world.store goal key) :
    Keeps (Sound orderly) (Acts orderly deed) (storeCreate goal key supplied) world
      (fun created after => after.store.goals.get? created.id = some created ∧
        after.store.createRequests.lookup key = some created.id ∧
        (world.store.createRequests.lookup key = none → created = goal) ∧
        (world.store.createRequests.lookup key = none → after.store.createInputs.lookup key =
            some ⟨goal.tabId, goal.objective, truthy goal.pendingImageFingerprint⟩)) := by
  apply (keeps_replayCreate key supplied).bind
  rintro found after hsound - ⟨hafter, hfound⟩
  subst after
  cases found with
  | some =>
    obtain ⟨hlookup, hprior, -⟩ := hfound
    have hold : world.store.createRequests.lookup key ≠ none := by
      rw [hlookup]
      exact Option.some_ne_none _
    exact Keeps.pure ⟨hprior, hlookup, fun hnone => absurd hnone hold,
      fun hnone => absurd hnone hold⟩
  | none =>
    have hnew : world.store.createRequests.lookup key = none := hfound
    apply Keeps.bind (Keeps.reads (Q := fun store after => after = world ∧ store = world.store)
      ⟨rfl, rfl⟩)
    rintro store after - - ⟨hafter, hstore⟩
    subst after
    subst store
    apply Keeps.ite
    · exact fun _ => Keeps.raise
    · intro hbusy
      have hfree : ∀ other ∈ world.store.goals.rows, other.tabId = goal.tabId →
          ¬ other.unfinished := fun other hother htab hopen =>
        hbusy ⟨other, hother, htab, .inl hopen⟩
      apply Keeps.bind (keeps_commit
        (fun after hstore hbirths =>
          hsound.create hborn hid hcreated hfree hkey hstore hbirths)
        (fun after hstore hcall hstarted =>
          Acts.create hborn hid hnew hstore hcall hstarted))
      rintro _ after - - ⟨hstore, -⟩
      apply Keeps.pure
      refine ⟨?_, ?_, fun _ => rfl, fun _ => ?_⟩
      · rw [hstore]
        exact Table.get?_insert_self _ _
      · rw [hstore]
        exact (Dict.lookup_set _ _ _ _).trans (if_pos rfl)
      · rw [hstore]
        exact (Dict.lookup_set _ _ _ _).trans (if_pos rfl)

theorem keeps_objectiveField (text : String) :
    Keeps (Sound orderly) (Acts orderly deed) (objectiveField text) world
      (fun _ after => after = world) :=
  .ite (fun _ => Keeps.pure rfl) (fun _ => Keeps.raise)

section Generation

variable {tabId : TabId} {snapshot : ProviderGoalSnapshot} {raw : ProviderGoal}

theorem keeps_retire {previous : NativeGoalRun}
    (hget : world.store.goals.get? previous.id = some previous) :
    Keeps (Sound orderly) (Acts orderly deed) (retire previous) world
      (fun _ after => after.store.createRequests = world.store.createRequests) := by
  apply Keeps.ite
  · intro _
    have hevolves : NativeGoalRun.Evolves orderly deed world.store previous (retiredRecord previous) :=
      .of_terminal rfl rfl rfl rfl rfl (fun _ => rfl)
    apply (keeps_put hget hevolves).bind
    intro written after _ _ hwrote
    exact Keeps.pure hwrote.requests
  · exact fun _ => Keeps.pure rfl

theorem keeps_adopt {previous : Option NativeGoalRun}
    (hprevious : ∀ before, previous = some before →
      ∃ row ∈ world.store.goals.rows, row.id = before.id)
    (hnew : orderly → world.store.createRequests.lookup (.generation tabId snapshot.threadId
      raw.createdAt (previous.map NativeGoalRun.id)) = none) :
    Keeps (Sound orderly) (Acts orderly deed) (adopt tabId snapshot raw previous) world
      (fun created after => after.store.goals.get? created.id = some created ∧
        (orderly → created.unfinished)) := by
  apply (keeps_objectiveField raw.objective).bind
  rintro objective after - - hafter
  subst after
  apply keeps_birth.bind
  rintro newborn after - - ⟨hstore, hborn⟩
  refine (keeps_storeCreate hborn rfl rfl ?_).mono ?_
  · intro keyTab threadId createdAt keyPrevious hkey
    obtain ⟨rfl, -, -, rfl⟩ := CreateKey.generation.inj hkey
    refine ⟨rfl, fun beforeId hbeforeId => ?_⟩
    obtain ⟨before, hbefore, rfl⟩ := Option.map_eq_some_iff.mp hbeforeId
    rw [hstore]
    exact hprevious before hbefore
  · rintro created last - ⟨hcreated, -, hgoal, -⟩
    refine ⟨hcreated, fun ho => ?_⟩
    rw [hgoal (by rw [hstore]; exact hnew ho)]
    rfl

/-- The record that a snapshot is projected on is stored; where the clock moves forward it is
not cancelled, and unfinished or the newest of its tab. -/
structure Projectable (orderly : Prop) (goal : NativeGoalRun) (store : NativeGoalStore) : Prop where
  stored : store.goals.get? goal.id = some goal
  alive : orderly → goal.status ≠ .cancelled
  newest : orderly → goal.unfinished ∨ store.latestForTab goal.tabId = some goal

theorem not_cancelled_of_unfinished (h : goal.unfinished) : goal.status ≠ .cancelled := by
  intro hstatus
  simp [NativeGoalRun.unfinished, hstatus, GoalRunStatus.terminal] at h

theorem get?_of_mem {store : NativeGoalStore} (h : goal ∈ store.goals.rows) :
    store.goals.get? goal.id = some goal :=
  Table.get?_eq_some.mpr ⟨h, rfl⟩

theorem keeps_generation {previous : Option NativeGoalRun}
    (hprevious : world.store.latestForTab tabId = previous) :
    Keeps (Sound orderly) (Acts orderly deed) (generation tabId snapshot raw previous) world
      (fun goal after => Projectable orderly goal after.store) := by
  have hadopted : ∀ {goal : NativeGoalRun} {after : NativeWorld},
      (after.store.goals.get? goal.id = some goal ∧ (orderly → goal.unfinished)) →
        Projectable orderly goal after.store := fun h =>
    ⟨h.1, fun ho => not_cancelled_of_unfinished (h.2 ho), fun ho => .inl (h.2 ho)⟩
  intro hsound
  have hnew : orderly → world.store.createRequests.lookup (.generation tabId snapshot.threadId
      raw.createdAt (previous.map NativeGoalRun.id)) = none := by
    intro ho
    rw [← hprevious]
    exact (hsound.kept ho).generation_new tabId snapshot.threadId raw.createdAt
  cases previous with
  | none =>
    refine ((keeps_adopt ?_ hnew).mono ?_) hsound
    · exact fun before hbefore => by cases hbefore
    · exact fun goal after _ h => hadopted h
  | some =>
    obtain ⟨hmem, htab⟩ := NativeGoalStore.latestForTab_mem hprevious
    have hget := get?_of_mem hmem
    refine Keeps.ite ?_ ?_ hsound
    · intro hsame
      apply Keeps.pure
      refine ⟨hget, fun _ => ?_, fun _ => .inr (htab ▸ hprevious)⟩
      rcases hsame with ⟨-, hopen, -⟩ | ⟨-, -, -, halive, -⟩
      · exact not_cancelled_of_unfinished hopen
      · exact halive
    · intro _
      apply (keeps_retire hget).bind
      intro _ after _ hacts hrequests
      refine (keeps_adopt ?_ ?_).mono ?_
      · rintro before hbefore
        cases hbefore
        obtain ⟨later, hlater, -⟩ := hacts.records _ _ hget
        obtain ⟨hrow, hid⟩ := Table.get?_eq_some.mp hlater
        exact ⟨later, hrow, hid⟩
      · intro ho
        rw [hrequests]
        exact hnew ho
      · exact fun goal after _ h => hadopted h

end Generation

/-! ## Synchronization -/

/-- A stored record, up to the stamp of its last write, that is what the snapshot shows. -/
structure Shown (snapshot : ProviderGoalSnapshot) (goal : NativeGoalRun)
    (store : NativeGoalStore) : Prop where
  stored : ∃ stored, store.goals.get? goal.id = some stored ∧
    stored = goal.stamped stored.updatedAt
  absent : snapshot.goal = none → goal.providerStopPending = true
  present : ∀ raw, snapshot.goal = some raw → goal.objective = raw.objective ∧
    goal.status = raw.status ∧ goal.providerGoalCreatedAt = some raw.createdAt

/-- What `synchronize` returns. -/
def Synchronized (snapshot : ProviderGoalSnapshot) (result : Option NativeGoalRun)
    (store : NativeGoalStore) : Prop :=
  (result = none → snapshot.goal = none) ∧ ∀ goal, result = some goal → Shown snapshot goal store

theorem synchronized_none {snapshot : ProviderGoalSnapshot} {store : NativeGoalStore}
    (h : snapshot.goal = none) : Synchronized snapshot none store :=
  ⟨fun _ => h, fun goal hgoal => by cases hgoal⟩

theorem synchronized_some {snapshot : ProviderGoalSnapshot} {store : NativeGoalStore}
    (h : Shown snapshot goal store) : Synchronized snapshot (some goal) store := by
  refine ⟨nofun, fun shown hshown => ?_⟩
  cases hshown
  exact h

theorem keeps_stopStillPending (goal : NativeGoalRun) :
    Keeps (Sound orderly) (Acts orderly deed) (stopStillPending goal) world
      (fun _ after => after.store = world.store) :=
  .ite (fun _ => (keeps_ask _).mono fun _ _ _ h => h.1) (fun _ => Keeps.pure rfl)

section Synchronize

variable {snapshot : ProviderGoalSnapshot} {activeTurn : Option TurnId}

theorem evolves_absentRecord (store : NativeGoalStore) (previous : NativeGoalRun) :
    NativeGoalRun.Evolves orderly deed store previous (absentRecord snapshot previous) := by
  unfold absentRecord
  split
  · exact .of_same rfl rfl rfl rfl rfl
  · exact .of_same rfl rfl rfl rfl rfl

theorem evolves_clearedRecord (store : NativeGoalStore) (now : Time) (stopping : Bool)
    (previous : NativeGoalRun) :
    NativeGoalRun.Evolves orderly deed store previous
      (clearedRecord snapshot activeTurn now stopping previous) := by
  have hstatus : (clearedRecord snapshot activeTurn now stopping previous).status =
      if previous.status = .complete then .complete else .cancelled := rfl
  apply NativeGoalRun.Evolves.of_terminal
  · rfl
  · rfl
  · rfl
  · rfl
  · rw [hstatus]
    split <;> rfl
  · intro hcancelled
    rw [hstatus, hcancelled]
    rfl

theorem keeps_projectAbsent {previous : NativeGoalRun} (hraw : snapshot.goal = none)
    (hget : world.store.goals.get? previous.id = some previous) :
    Keeps (Sound orderly) (Acts orderly deed) (projectAbsent snapshot activeTurn previous) world
      (fun result after => Synchronized snapshot result after.store) := by
  apply Keeps.ite
  · intro _
    apply (keeps_put hget (evolves_absentRecord _ previous)).bind
    intro _ after _ _ _
    exact Keeps.pure (synchronized_none hraw)
  · intro _
    apply (keeps_stopStillPending previous).bind
    intro stopping after _ _ hstore
    apply Keeps.bind (Keeps.reads (Q := fun _ after' => after' = after) rfl)
    rintro now _ - - rfl
    rw [← hstore] at hget
    apply (keeps_put hget (evolves_clearedRecord _ now stopping previous)).bind
    intro written last _ _ hwrote
    apply Keeps.pure
    cases stopping with
    | false => exact synchronized_none hraw
    | true =>
      apply synchronized_some
      refine ⟨⟨written, hwrote.stored, hwrote.stamped⟩, fun _ => rfl, fun raw h => ?_⟩
      rw [hraw] at h
      cases h

theorem evolves_projected {raw : ProviderGoal} {store : NativeGoalStore} (now : Time)
    (stopping : Bool) (h : Projectable orderly goal store) :
    NativeGoalRun.Evolves orderly deed store goal
      (projected snapshot raw activeTurn now stopping goal) where
  id := rfl
  tab := rfl
  created := rfl
  receipts := NativeGoalRun.receipts_of_same rfl
  same := fun _ => rfl
  cancelled := fun ho hcancelled => absurd hcancelled (h.alive ho)
  unfinished := fun ho _ => h.newest ho

theorem keeps_synchronize (tabId : TabId) (snapshot : ProviderGoalSnapshot) :
    Keeps (Sound orderly) (Acts orderly deed) (synchronize tabId snapshot) world
      (fun result after => Synchronized snapshot result after.store) := by
  apply Keeps.bind (Keeps.reads (Q := fun previous after => after = world ∧
    world.store.latestForTab tabId = previous) ⟨rfl, rfl⟩)
  rintro previous after - - ⟨hafter, hprevious⟩
  subst after
  apply (keeps_ask _).bind
  rintro activeTurn middle - - ⟨hmiddle, -⟩
  rw [← hmiddle] at hprevious
  cases hraw : snapshot.goal with
  | none =>
    cases previous with
    | none => exact Keeps.pure (synchronized_none hraw)
    | some =>
      have hmem := (NativeGoalStore.latestForTab_mem hprevious).1
      exact keeps_projectAbsent hraw (get?_of_mem hmem)
  | some raw =>
    apply (keeps_generation hprevious).bind
    intro goal third _ _ hgoal
    apply (keeps_stopStillPending goal).bind
    intro stopping fourth _ _ hfourth
    apply Keeps.bind (Keeps.reads (Q := fun _ after => after = fourth) rfl)
    rintro now _ - - rfl
    rw [← hfourth] at hgoal
    apply (keeps_put hgoal.stored (evolves_projected now stopping hgoal)).bind
    intro written last _ _ hwrote
    apply Keeps.pure
    apply synchronized_some
    have hid : written.id = (projected snapshot raw activeTurn now stopping goal).id := by
      rw [hwrote.stamped]
      rfl
    refine ⟨⟨written, by rw [hid]; exact hwrote.stored, rfl⟩, fun h => ?_, fun raw' h => ?_⟩
    · rw [hraw] at h
      cases h
    · obtain rfl : raw = raw' := Option.some.inj (hraw.symm.trans h)
      rw [hwrote.stamped]
      exact ⟨rfl, rfl, rfl⟩

end Synchronize

/-- The snapshot that an answer of the resolver or of `read` carries. -/
def AnsweredBy (world : NativeWorld) (snapshot : Option ProviderGoalSnapshot) : Prop :=
  ∀ shown, snapshot = some shown → world.replies.head? = some (.snapshot (some shown))

theorem keeps_askSnapshot :
    Keeps (Sound orderly) (Acts orderly deed) askSnapshot world
      (fun snapshot after => after.store = world.store ∧ AnsweredBy world snapshot) := by
  apply (keeps_ask _).mono
  rintro snapshot after - ⟨hstore, reply, hreply, hdecode⟩
  refine ⟨hstore, ?_⟩
  rintro shown rfl
  rw [hreply]
  cases reply with
  | snapshot found =>
    obtain rfl : found = some shown := Option.some.inj hdecode
    rfl
  | _ => cases hdecode

theorem keeps_connect (tabId : TabId) :
    Keeps (Sound orderly) (Acts orderly deed) (connect tabId) world
      (fun snapshot after => after.store = world.store ∧ AnsweredBy world snapshot) := by
  apply Keeps.bind (Q := fun snapshot after =>
    after.store = world.store ∧ AnsweredBy world snapshot)
  · apply Keeps.catching keeps_askSnapshot
    intro fault after _ _
    split <;> exact Keeps.raise
  · rintro connection after - - ⟨hstore, hanswer⟩
    apply Keeps.bind (Keeps.reads (Q := fun _ after => after.store = world.store) hstore)
    intro previous last _ _ hlast
    split
    · exact .ite (fun _ => Keeps.raise) (fun _ => Keeps.pure ⟨hlast, nofun⟩)
    · exact Keeps.pure ⟨hlast, hanswer⟩

end Native

end ClaudeHub
