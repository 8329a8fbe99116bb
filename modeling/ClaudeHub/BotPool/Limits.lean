import ClaudeHub.BotPool.Uniqueness
import ClaudeHub.Lib.Runs

/-! # The limits of the pool over whole runs

What the file holds is told apart in every reachable state, and records only age. The
history counts the wrong words that were typed for a claim and the codes that one owner
was given; the file counts along with it.
-/

namespace ClaudeHub

open StepSystem

/-! ## What the history counts -/

def PoolEvent.countWrong (botId : BotId) (pairingId : PairingId) (count : Nat) : PoolEvent → Nat
  | claimed claim => if claim.botId = botId ∧ claim.pairingId = pairingId then 0 else count
  | missed id pairing => if id = botId ∧ pairing = pairingId then count + 1 else count
  | _ => count

def wrongWords (botId : BotId) (pairingId : PairingId) (history : PoolHistory) : Nat :=
  history.foldl (PoolEvent.countWrong botId pairingId) 0

def PoolEvent.issuedTo? (openId : String) : PoolEvent → Option Time
  | issued issue => if issue.owner.openId = openId then some issue.issuedAt else none
  | _ => none

def issuedTimes (openId : String) (history : PoolHistory) : List Time :=
  history.filterMap (PoolEvent.issuedTo? openId)

/-- The codes among them that were given in the window that begins at `start`. -/
def issuedWithin (openId : String) (start : Time) (history : PoolHistory) : Nat :=
  (issuedTimes openId history).countP fun time => start ≤ time ∧ time ≤ start + rateWindow

theorem advances_advanced {before after : PoolState} {event : PoolEvent}
    (h : event ∈ before.advances after) : ∃ botId, event = .advanced botId := by
  obtain ⟨entry, -, hentry⟩ := List.mem_filterMap.mp h
  split at hentry
  · exact ⟨entry.1, (Option.some.inj hentry).symm⟩
  · contradiction

theorem foldl_countWrong_advances (botId : BotId) (pairingId : PairingId) (count : Nat)
    (before after : PoolState) :
    (before.advances after).foldl (PoolEvent.countWrong botId pairingId) count = count := by
  have hfixed : ∀ events : PoolHistory, (∀ event ∈ events, ∃ id, event = .advanced id) →
      events.foldl (PoolEvent.countWrong botId pairingId) count = count := by
    intro events hall
    induction events with
    | nil => rfl
    | cons event events ih =>
      obtain ⟨id, rfl⟩ := hall event (by simp)
      exact ih fun event hevent => hall event (List.mem_cons_of_mem _ hevent)
  exact hfixed _ fun event => advances_advanced

theorem issuedTimes_advances (openId : String) (before after : PoolState) :
    issuedTimes openId (before.advances after) = [] := by
  refine List.filterMap_eq_nil_iff.mpr fun event hevent => ?_
  obtain ⟨botId, rfl⟩ := advances_advanced hevent
  rfl

section

variable {digests : PairingDigests} {history : PoolHistory} {state ready next : PoolState}
  {botId other : BotId} {pairingId : PairingId} {note : PoolNote} {now : Time}

theorem wrongWords_record :
    wrongWords other pairingId
        (PoolSystem.record digests history state ready next botId note now) =
      (note.events digests (history ++ state.advances ready) botId now).foldl
        (PoolEvent.countWrong other pairingId) (wrongWords other pairingId history) := by
  simp only [wrongWords, PoolSystem.record, List.foldl_append, foldl_countWrong_advances]

theorem countWrong_other (hother : other ≠ botId) (count : Nat) :
    (note.events digests history botId now).foldl (PoolEvent.countWrong other pairingId) count =
      count := by
  have hne : botId ≠ other := fun heq => hother heq.symm
  cases note <;> simp [PoolNote.events, PoolEvent.countWrong, hne]

theorem countWrong_kept (hkept : other ≠ botId ∨ note = .edited) (count : Nat) :
    (note.events digests history botId now).foldl (PoolEvent.countWrong other pairingId) count =
      count := by
  rcases hkept with hother | rfl
  · exact countWrong_other hother count
  · rfl

theorem BotMove.counted {bot : LiveBot} {record : BotRecord} {count : Nat}
    (hmove : BotMove digests botId now bot note record) (htotal : count ≤ confirmMaxAttempts)
    (hcounted : ∀ claim, bot.claims.lookup pairingId = some claim →
      count ≤ claim.confirmAttempts ∧ count < confirmMaxAttempts) :
    (note.events digests history botId now).foldl (PoolEvent.countWrong botId pairingId) count ≤
        confirmMaxAttempts ∧
      ∀ next claim, record = .live next → next.claims.lookup pairingId = some claim →
        (note.events digests history botId now).foldl
            (PoolEvent.countWrong botId pairingId) count ≤ claim.confirmAttempts ∧
          (note.events digests history botId now).foldl
            (PoolEvent.countWrong botId pairingId) count < confirmMaxAttempts := by
  cases hmove with
  | kept hkeeps =>
    refine ⟨htotal, fun next claim hnext hclaim => hcounted claim ?_⟩
    cases hnext
    rwa [hkeeps.claims] at hclaim
  | advanced happId hadvances =>
    refine ⟨htotal, fun next claim hnext hclaim => ?_⟩
    cases hnext
    simp [hadvances.claims] at hclaim
  | deleted => exact ⟨htotal, by simp⟩
  | claimed =>
    simp only [PoolNote.events, List.foldl_cons, List.foldl_nil, PoolEvent.countWrong, true_and]
    split
    · refine ⟨Nat.zero_le _, fun next claim _ _ => ⟨Nat.zero_le _, ?_⟩⟩
      decide
    · rename_i hother
      refine ⟨htotal, fun next claim hnext hclaim => hcounted claim ?_⟩
      cases hnext
      rw [LiveBot.touch, Dict.lookup_set, if_neg fun heq => hother heq.symm] at hclaim
      exact hclaim
  | missed claimId value hvalue =>
    simp only [PoolNote.events, List.foldl_cons, List.foldl_nil, PoolEvent.countWrong, true_and]
    split
    · rename_i heq
      subst heq
      obtain ⟨hattempts, hless⟩ := hcounted value hvalue
      refine ⟨hless, fun next claim hnext hclaim => ?_⟩
      cases hnext
      rcases PoolState.missClaim_lookup hclaim with ⟨hne, -⟩ | ⟨-, hmore, rfl⟩
      · contradiction
      · exact ⟨Nat.succ_le_succ hattempts, (Nat.succ_le_succ hattempts).trans_lt hmore⟩
    · rename_i hother
      refine ⟨htotal, fun next claim hnext hclaim => hcounted claim ?_⟩
      cases hnext
      rcases PoolState.missClaim_lookup hclaim with ⟨-, hkept⟩ | ⟨heq, -, -⟩
      · exact hkept
      · exact absurd heq.symm hother
  | activated =>
    refine ⟨htotal, fun next claim hnext hclaim => ?_⟩
    cases hnext
    simp [LiveBot.touch] at hclaim
  | _ =>
    refine ⟨htotal, fun next claim hnext hclaim => hcounted claim ?_⟩
    cases hnext
    exact hclaim

theorem counted_total {count : Nat} (hchange : PoolChange digests ready botId now note next)
    (htotal : count ≤ confirmMaxAttempts)
    (hcounted : ∀ bot claim, ready.bots.lookup botId = some (.live bot) →
      bot.claims.lookup pairingId = some claim →
        count ≤ claim.confirmAttempts ∧ count < confirmMaxAttempts) :
    (note.events digests history botId now).foldl (PoolEvent.countWrong botId pairingId) count ≤
      confirmMaxAttempts := by
  cases hchange with
  | moved hbot hmove => exact (hmove.counted htotal fun claim => hcounted _ claim hbot).1
  | _ => exact htotal

theorem issuedTimes_record {openId : String} :
    issuedTimes openId (PoolSystem.record digests history state ready next botId note now) =
      issuedTimes openId history ++
        issuedTimes openId (note.events digests (history ++ state.advances ready) botId now) := by
  have happend : ∀ before after, issuedTimes openId (before ++ after) =
      issuedTimes openId before ++ issuedTimes openId after :=
    fun before after => List.filterMap_append
  simp only [PoolSystem.record, happend, issuedTimes_advances, List.append_nil]

end

namespace PoolState

def stampsOf (state : PoolState) (openId : String) : List Time :=
  (state.rateLimits.lookup openId).getD []

theorem prune_stampsOf (state : PoolState) (now : Time) (openId : String) :
    (state.prune now).stampsOf openId =
      (state.stampsOf openId).filter fun stamp => decide (now ≤ stamp + rateWindow) := by
  have hlookup : (state.prune now).rateLimits.lookup openId =
      ((state.rateLimits.lookup openId).map fun stamps =>
        stamps.filter fun stamp => decide (now ≤ stamp + rateWindow)).filter
          fun stamps => !stamps.isEmpty := by
    refine (Dict.lookup_filter _ _ _).trans ?_
    rw [Dict.lookup_map]
  unfold stampsOf
  rw [hlookup]
  cases state.rateLimits.lookup openId with
  | none => rfl
  | some =>
    rw [Option.map_some, Option.filter_some]
    split
    · rfl
    · rename_i hempty
      simp only [Bool.not_eq_true, Bool.not_eq_false'] at hempty
      exact (List.isEmpty_iff.mp hempty).symm

theorem prune_stamps (state : PoolState) (openId : String) {now since : Time}
    (h : now ≤ since + rateWindow) :
    ((state.prune now).stampsOf openId).countP (fun time => since ≤ time) =
      (state.stampsOf openId).countP fun time => since ≤ time := by
  rw [prune_stampsOf, List.countP_filter]
  refine List.countP_congr fun stamp _ => ?_
  have hkept : since ≤ stamp → now ≤ stamp + rateWindow := fun hle =>
    h.trans (Nat.add_le_add_right hle rateWindow)
  simpa using hkept

end PoolState

section

variable {digests : PairingDigests} {history : PoolHistory} {ready next : PoolState}
  {botId : BotId} {note : PoolNote} {now : Time} {openId : String} {old : List Time}

theorem stampsOf_change (hchange : PoolChange digests ready botId now note next) :
    next.stampsOf openId =
      ready.stampsOf openId ++ issuedTimes openId (note.events digests history botId now) := by
  cases hchange with
  | issued code record hbot hgeneration hissuedAt =>
    unfold PoolState.stampsOf issuedTimes
    dsimp only
    rw [Dict.lookup_set]
    by_cases howner : record.owner.openId = openId
    · subst howner
      simp [PoolNote.events, PoolEvent.issuedTo?, hissuedAt]
    · have hne : openId ≠ record.owner.openId := fun heq => howner heq.symm
      simp [PoolNote.events, PoolEvent.issuedTo?, howner, hne]
  | moved hbot hmove hissued =>
    have hnone : issuedTimes openId (note.events digests history botId now) = [] := by
      cases note with
      | issued code record => exact absurd rfl (hissued code record)
      | _ => rfl
    rw [hnone, List.append_nil]
    rfl
  | _ => exact (List.append_nil _).symm

theorem issued_room (hchange : PoolChange digests ready botId now note next) :
    issuedTimes openId (note.events digests history botId now) = [] ∨
      (issuedTimes openId (note.events digests history botId now) = [now] ∧
        (ready.stampsOf openId).length < rateMax) := by
  cases hchange with
  | issued code record hbot hgeneration hissuedAt hrate =>
    by_cases howner : record.owner.openId = openId
    · subst howner
      refine .inr ⟨?_, hrate⟩
      simp [issuedTimes, PoolNote.events, PoolEvent.issuedTo?, hissuedAt]
    · refine .inl ?_
      simp [issuedTimes, PoolNote.events, PoolEvent.issuedTo?, howner]
  | moved hbot hmove hissued =>
    refine .inl ?_
    cases note with
    | issued code record => exact absurd rfl (hissued code record)
    | _ => rfl
  | _ => exact .inl rfl

end

namespace PoolSystem

variable {digests : PairingDigests} {system after start : PoolSystem} {op : PoolOp}
  {ops : List PoolOp} {botId : BotId} {pairingId : PairingId} {openId : String}

theorem numbered_unique {state : PoolState} (h : state.Unique) : state.numbered.Unique :=
  ⟨h.appIds, h.tabs, h.stamped⟩

theorem step_unique (h : system.disk.Unique) (hstep : system.step digests op = some after) :
    after.disk.Unique := by
  cases step_stepped hstep with
  | unsaved => exact h
  | saved hload hchange =>
    intro stored hstored
    cases hstored
    exact numbered_unique ((PoolCall.unique_ready (h.load hload) _ _ _).change hchange)

def RecordKept (botId : BotId) (system : PoolSystem) (op : PoolOp) : Prop :=
  ∀ state record, system.disk.load op.now = .ok state → state.bots.lookup botId = some record →
    record.expired op.now = false

/-- The same file, loaded again: a record is the same, but for the time at which a file
that was disabled before the pool is read. -/
theorem load_again {disk : PoolDisk} {now : Time} {state : PoolState}
    (h : disk.load now = .ok state) (later : Time) :
    ∃ state', disk.load later = .ok state' ∧ ∀ botId record,
      state.bots.lookup botId = some record →
        ∃ last, state'.bots.lookup botId = some last ∧ record.Ages last := by
  unfold PoolDisk.load at h ⊢
  cases hpool : disk.pool with
  | some stored =>
    rw [hpool] at h
    obtain ⟨_, -, rfl⟩ := Except.map_ok_iff.mp h
    exact ⟨stored, h, fun botId record hrecord => ⟨record, hrecord, .refl record⟩⟩
  | none =>
    rw [hpool] at h
    cases hlegacy : disk.legacy with
    | none =>
      rw [hlegacy] at h
      cases h
      exact ⟨{}, rfl, fun botId record hrecord => ⟨record, hrecord, .refl record⟩⟩
    | some file =>
      rw [hlegacy] at h
      dsimp only [LegacyBotFile.migrate] at h ⊢
      obtain ⟨updatedAt, hupdated, hrest⟩ := Except.bind_ok_iff.mp h
      rw [hupdated]
      cases hconfig : file.config with
      | some =>
        rw [hconfig] at hrest
        refine ⟨state, ?_, fun botId record hrecord => ⟨record, hrecord, .refl record⟩⟩
        exact hrest
      | none =>
        rw [hconfig] at hrest
        obtain rfl := Except.pure_ok_iff.mp hrest
        refine ⟨_, rfl, fun botId record hrecord => ?_⟩
        dsimp only at hrecord ⊢
        rw [Dict.lookup_set] at hrecord ⊢
        split at hrecord
        · cases hrecord
          rename_i hbot
          exact ⟨_, if_pos hbot, Nat.le_refl _, Nat.le_refl _, fun _ _ => ⟨_, rfl⟩⟩
        · simp at hrecord

variable {later : Time} {state' : PoolState}

theorem step_loadable (hstep : system.step digests op = some after)
    (h : after.disk.load later = .ok state') (now : Time) :
    ∃ state, system.disk.load now = .ok state := by
  cases step_stepped hstep with
  | unsaved =>
    obtain ⟨state, hload, -⟩ := load_again h now
    exact ⟨state, hload⟩
  | saved hload =>
    obtain ⟨state, hload, -⟩ := load_again hload now
    exact ⟨state, hload⟩

theorem run_loadable {ok : PoolSystem → PoolOp → Prop}
    (hrun : Run (step digests) ok system ops after) (h : after.disk.load later = .ok state')
    (now : Time) :
    ∃ state, system.disk.load now = .ok state := by
  induction hrun generalizing now with
  | nil =>
    obtain ⟨state, hload, -⟩ := load_again h now
    exact ⟨state, hload⟩
  | cons hok hstep hrest ih =>
    obtain ⟨state, hload⟩ := ih h later
    exact step_loadable hstep hload now

theorem step_ages (hkept : RecordKept botId system op) (hstep : system.step digests op = some after)
    {now : Time} {state : PoolState} {record : BotRecord} (h : system.disk.load now = .ok state)
    (hrecord : state.bots.lookup botId = some record) (h' : after.disk.load later = .ok state') :
    ∃ last, state'.bots.lookup botId = some last ∧ record.Ages last := by
  cases step_stepped hstep with
  | unsaved =>
    obtain ⟨same, hsame, hlater⟩ := load_again h later
    cases hsame.symm.trans h'
    exact hlater botId record hrecord
  | saved hload hchange =>
    obtain ⟨same, hsame, hlater⟩ := load_again h op.now
    cases hsame.symm.trans hload
    obtain ⟨found, hfound, hages⟩ := hlater botId record hrecord
    have hretains := (op.call.retains_ready _ op.environ op.now).trans
      (PoolState.retains_change hchange)
    obtain ⟨last, hlast, -, hages'⟩ := hretains botId found hfound (hkept _ _ hload hfound)
    obtain ⟨_, -, rfl⟩ := Except.map_ok_iff.mp h'
    exact ⟨last, hlast, hages.trans hages'⟩

theorem run_ages (hrun : Run (step digests) (RecordKept botId) system ops after) {now : Time}
    {state : PoolState} {record : BotRecord} (h : system.disk.load now = .ok state)
    (hrecord : state.bots.lookup botId = some record) (h' : after.disk.load later = .ok state') :
    ∃ last, state'.bots.lookup botId = some last ∧ record.Ages last := by
  induction hrun generalizing now state record with
  | nil =>
    obtain ⟨same, hsame, hlater⟩ := load_again h later
    cases hsame.symm.trans h'
    exact hlater botId record hrecord
  | cons hkept hstep hrest ih =>
    obtain ⟨found, hfound⟩ := run_loadable hrest h' now
    obtain ⟨next, hnext, hages⟩ := step_ages hkept hstep h hrecord hfound
    obtain ⟨last, hlast, hages'⟩ := ih hfound hnext h'
    exact ⟨last, hlast, hages.trans hages'⟩

/-- A claim in the file has counted every wrong word that was typed for it. -/
structure Tried (system : PoolSystem) (botId : BotId) (pairingId : PairingId) : Prop where
  total : wrongWords botId pairingId system.history ≤ confirmMaxAttempts
  counted : ∀ state bot claim, system.disk.pool = some state →
    state.bots.lookup botId = some (.live bot) → bot.claims.lookup pairingId = some claim →
      wrongWords botId pairingId system.history ≤ claim.confirmAttempts ∧
        wrongWords botId pairingId system.history < confirmMaxAttempts

theorem Tried.ready (h : system.Tried botId pairingId) {state : PoolState} {now : Time}
    (hload : system.disk.load now = .ok state) {call : PoolCall} {environ : Environ}
    {bot : LiveBot} {claim : StoredClaim}
    (hbot : (call.ready state environ now).bots.lookup botId = some (.live bot))
    (hclaim : bot.claims.lookup pairingId = some claim) :
    wrongWords botId pairingId system.history ≤ claim.confirmAttempts ∧
      wrongWords botId pairingId system.history < confirmMaxAttempts := by
  rcases PoolCall.ready_live hbot with hbare | ⟨before, hbefore, hwithin⟩
  · simp [hbare.claims] at hclaim
  have hstored := hwithin.claims pairingId claim hclaim
  rcases PoolDisk.load_live hload hbefore with hpool | hbare
  · exact h.counted state before claim hpool hbefore hstored
  · simp [hbare.claims] at hstored

theorem Tried.step (h : system.Tried botId pairingId)
    (hstep : system.step digests op = some after) : after.Tried botId pairingId := by
  cases step_stepped hstep with
  | unsaved => exact ⟨h.total, h.counted⟩
  | @saved state next note hload hchange hpruned =>
    have hready : ∀ bot claim,
        (op.call.ready state op.environ op.now).bots.lookup botId = some (.live bot) →
        bot.claims.lookup pairingId = some claim →
          wrongWords botId pairingId system.history ≤ claim.confirmAttempts ∧
            wrongWords botId pairingId system.history < confirmMaxAttempts :=
      fun bot claim => h.ready hload
    generalize op.call.ready state op.environ op.now = ready at hchange hready
    constructor
    · dsimp only
      rw [wrongWords_record]
      by_cases hbot : botId = op.call.botId
      · subst hbot
        exact counted_total hchange h.total hready
      · rw [countWrong_other hbot]
        exact h.total
    · intro stored bot claim hstored hbot hclaim
      cases hstored
      dsimp only
      rw [wrongWords_record]
      rcases PoolState.change_live hchange hbot with ⟨hbare, -⟩ | ⟨hsame, hkept⟩ |
        ⟨hmoved, before, hbefore, hmove⟩
      · simp [hbare.claims] at hclaim
      · rw [countWrong_kept hsame]
        exact hready bot claim hkept hclaim
      · subst hmoved
        exact (hmove.counted h.total fun claim => hready before claim hbefore).2 bot claim rfl
          hclaim

theorem run_tried (hhistory : start.history = [])
    (hrun : Run (step digests) (fun _ _ => True) start ops after) :
    after.Tried botId pairingId := by
  have hinit : start.Tried botId pairingId := by
    constructor
    · simp [hhistory, wrongWords]
    · simp [hhistory, wrongWords, confirmMaxAttempts]
  exact hrun.invariant (P := fun s => s.Tried botId pairingId) hinit
    fun s op t h _ hstep => h.step hstep

/-- The clock is not set back. -/
def Forward (system : PoolSystem) (op : PoolOp) : Prop := system.clock ≤ op.now

instance (system : PoolSystem) (op : PoolOp) : Decidable (system.Forward op) :=
  inferInstanceAs (Decidable (_ ≤ _))

def stamps (system : PoolSystem) (openId : String) : List Time :=
  match system.disk.pool with
  | some state => state.stampsOf openId
  | none => []

/-- No window holds more codes than it may, and the stamps in the file count every code
that is younger than a window. -/
structure Allowed (system : PoolSystem) (openId : String) : Prop where
  windows : ∀ start, issuedWithin openId start system.history ≤ rateMax
  counted : ∀ since, system.clock ≤ since + rateWindow →
    (issuedTimes openId system.history).countP (fun time => since ≤ time) ≤
      (system.stamps openId).countP fun time => since ≤ time

theorem Allowed.ready (h : system.Allowed openId) {state : PoolState} {now since : Time}
    (hload : system.disk.load now = .ok state) (hforward : system.clock ≤ now)
    (hsince : now ≤ since + rateWindow) (call : PoolCall) (environ : Environ) :
    (issuedTimes openId system.history).countP (fun time => since ≤ time) ≤
      ((call.ready state environ now).stampsOf openId).countP fun time => since ≤ time := by
  have hstate : (system.stamps openId).countP (fun time => since ≤ time) ≤
      (state.stampsOf openId).countP fun time => since ≤ time := by
    unfold stamps
    rcases PoolDisk.load_cases hload with hpool | ⟨hpool, -, -⟩
    · rw [hpool]
    · rw [hpool]
      exact Nat.zero_le _
  have hready : ((call.ready state environ now).stampsOf openId).countP
      (fun time => since ≤ time) = (state.stampsOf openId).countP fun time => since ≤ time := by
    rcases call.ready_cases state environ now with hsynced | hsynced
    · rw [PoolState.stampsOf, hsynced.rateLimits]
      rfl
    · rw [PoolState.stampsOf, hsynced.rateLimits]
      exact PoolState.prune_stamps state openId hsince
  calc (issuedTimes openId system.history).countP (fun time => since ≤ time)
      ≤ (system.stamps openId).countP fun time => since ≤ time :=
        h.counted since (hforward.trans hsince)
    _ ≤ (state.stampsOf openId).countP fun time => since ≤ time := hstate
    _ = _ := hready.symm

theorem Allowed.step (h : system.Allowed openId) (hforward : system.Forward op)
    (hstep : system.step digests op = some after) : after.Allowed openId := by
  cases step_stepped hstep with
  | unsaved => exact ⟨h.windows, fun since hsince => h.counted since (hforward.trans hsince)⟩
  | @saved state next note hload hchange hpruned =>
    have hready := fun since (hsince : op.now ≤ since + rateWindow) =>
      h.ready hload hforward hsince op.call op.environ
    generalize op.call.ready state op.environ op.now = ready at hchange hready
    constructor
    · intro start
      dsimp only [issuedWithin]
      rw [issuedTimes_record, List.countP_append]
      rcases issued_room hchange with hnone | ⟨hnow, hroom⟩
      · rw [hnone]
        exact h.windows start
      rw [hnow]
      by_cases hin : start ≤ op.now ∧ op.now ≤ start + rateWindow
      · have hold : (issuedTimes openId system.history).countP
            (fun time => start ≤ time ∧ time ≤ start + rateWindow) < rateMax :=
          calc (issuedTimes openId system.history).countP
                (fun time => start ≤ time ∧ time ≤ start + rateWindow)
              ≤ (issuedTimes openId system.history).countP fun time => start ≤ time :=
                List.countP_mono_left fun time _ htime => by simp_all
            _ ≤ (ready.stampsOf openId).countP fun time => start ≤ time := hready start hin.2
            _ ≤ (ready.stampsOf openId).length := List.countP_le_length
            _ < rateMax := hroom
        simpa [hin] using Nat.succ_le_of_lt hold
      · simpa [hin, issuedWithin] using h.windows start
    · intro since hsince
      change _ ≤ (next.stampsOf openId).countP _
      dsimp only
      rw [stampsOf_change hchange, issuedTimes_record, List.countP_append, List.countP_append]
      exact Nat.add_le_add_right (hready since hsince) _

theorem run_allowed (hhistory : start.history = [])
    (hrun : Run (step digests) Forward start ops after) : after.Allowed openId := by
  have hinit : start.Allowed openId := by
    constructor
    · simp [hhistory, issuedWithin, issuedTimes]
    · simp [hhistory, issuedTimes]
  exact hrun.invariant (P := fun s => s.Allowed openId) hinit
    fun s op t h hforward hstep => h.step hforward hstep

end PoolSystem

private def twin (botId : BotId) : LiveBot where
  botId := botId
  name := "Twin"
  appId := "cli_shared"
  generation := 1
  binding := some {
    owner := ⟨"ou_owner", "", .local⟩
    pairingId := "4d3c2b1a"
    tabId := "tab"
    workspaceId := none
    senderOpenId := "ou_sender"
    chatId := "oc_chat"
    createdAt := 0
    generation := 0 }

private def twins : PoolState where
  bots := Dict.set (Dict.set Table.empty "left" (.live (twin "left"))) "right" (.live (twin "right"))

private def limitBot : BotId := "5f0c9a3e7d214b86"

private def limitCodes : List (String × String) :=
  [("CH-QW7E2RT9AA",
    "263635177bd333f91ee7df14f7cd2b5389d7553d460e64d8c7dcdf767e2b357a"),
   ("CH-QW7E2RT9AB",
    "c51d4197f2c216e3cd3e45a872f2be472319c029efdc5013824a72a944be8963"),
   ("CH-QW7E2RT9AC",
    "9ea492445d8a0ec25780ba712c8b1da79710ea314a8a120bef03741d8a0b00cd"),
   ("CH-QW7E2RT9AD",
    "e5caf31d2911aa00a48a0dc2625e9c13c5ff0d1eab577900b20dd8dc7db21ef9"),
   ("CH-QW7E2RT9AE",
    "d3c5fe5e890ccc20c90725a3c774ea373aba88d18db09c0dd4f65d0cad8a5aca"),
   ("CH-QW7E2RT9AF",
    "708342e54bd2c65620e372c49944fe81c3bb1247c839f09f04fc9af0efa73aa6")]

private def limitWords : List (String × String) :=
  [("K7M2QX",
    "55ed29513b80c65b937830a62a194eb5f5fd59ce01c096d9f58f9a059ad2b652"),
   ("AAAAAA",
    "c05f6cc291fca05be3d8e8b0d5e8f6f29319c2f95b4c01d3e4ef1259374444e2")]

private def limitDigests : PairingDigests where
  code := fun botId code =>
    if botId = limitBot then (limitCodes.lookup code).getD "" else ""
  confirm := fun botId _ word =>
    if botId = limitBot then (limitWords.lookup word).getD "" else ""

private def limitOwner : OwnerIdentity := ⟨"ou_owner", "owner@example.com", .oauth⟩

private def issueAt (expected : Nat) (code : String) (now : Time) : PoolOp where
  call := .issueCode limitBot limitOwner "tab" none expected code
  now := now

private def createLimitBot : PoolOp where
  call := .createBot "Assistant" ⟨"cli_limits", "secret"⟩ {} limitBot
  now := 1000 * second

/-- Five codes, a change of the Bot's name after the window, and a sixth code for which the
clock has been set back. -/
private def setBack : List PoolOp :=
  [createLimitBot,
   issueAt 0 "CH-QW7E2RT9AA" (1000 * second), issueAt 1 "CH-QW7E2RT9AB" (1000 * second),
   issueAt 2 "CH-QW7E2RT9AC" (1000 * second), issueAt 3 "CH-QW7E2RT9AD" (1000 * second),
   issueAt 4 "CH-QW7E2RT9AE" (1000 * second),
   { call := .updateBot limitBot (some "Helper") none 5, now := 1100 * second },
   issueAt 6 "CH-QW7E2RT9AF" (1000 * second)]

private def usedUp : List PoolOp :=
  [createLimitBot,
   issueAt 0 "CH-QW7E2RT9AA" (1000 * second), issueAt 1 "CH-QW7E2RT9AB" (1000 * second),
   { call := .claimCode limitBot "CH-QW7E2RT9AA" "ou_sender" "oc_chat"
       "9b1d4c7e2f6a80531c0e9d8b7a6f5e42" "K7M2QX"
     now := 1010 * second },
   { call := .activateClaim limitBot "9b1d4c7e2f6a80531c0e9d8b7a6f5e42" "AAAAAA" limitOwner 3 ""
     now := 1020 * second },
   { call := .deleteBot limitBot 4, now := 1030 * second }]

end ClaudeHub
