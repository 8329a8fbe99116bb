import ClaudeHub.AgentStream.ReadIndex

/-! # Indexed reads equal full scans

Over every run of a store whose file is intact, the positions of the index stay safe, so a read
that starts at one of them gives the page of a scan of the whole file.
-/

namespace ClaudeHub

open Lines StepSystem

variable {β : Type} {codec : LineCodec β} {s next : IndexedStore} {lines : List (List Char)}
  {sinceSequence : Int} {limit : Nat}

/-- The text is whole lines of this store, and its events are numbered from zero on. -/
def IntactText (codec : LineCodec β) (text : List Char) : Prop :=
  ∃ lines, TextOk codec text [] lines []

/-- A store object opened on an intact file and an intact backup, or on none. -/
structure IntactStore (codec : LineCodec β) (store : AgentStreamStore) : Prop where
  text : IntactText codec store.text
  nextSeq : store.nextSeq = none
  backup : ∀ text, store.backup = some text → IntactText codec text

namespace IndexedStore

structure Inv (codec : LineCodec β) (s : IndexedStore) (lines : List (List Char)) : Prop where
  text : TextOk codec s.store.text [] lines []
  offsets : SafeOffsets codec lines s.readOffsets
  start : (s.readOffsets.lookup (-1)).isSome = true
  counter : ∀ n, s.store.nextSeq = some n → n = (codec.parsed s.store.text).length
  backup : ∀ text, s.store.backup = some text → IntactText codec text

/-! ## Reading -/

theorem safeOffsets_reset (codec : LineCodec β) (lines : List (List Char)) :
    SafeOffsets codec lines (Dict.set Table.empty (-1) 0) := by
  intro entry hentry
  rcases Table.mem_insert.1 hentry with rfl | ⟨hold, -⟩
  · exact safe_start codec lines _
  · simp at hold

theorem lookup_reset : ((Dict.set Table.empty (-1) 0 : Dict Int Nat).lookup (-1)).isSome = true := by
  rw [Dict.lookup_set]
  rfl

theorem store_prepare (s : IndexedStore) : s.prepareReadIndex.store = s.store := by
  unfold prepareReadIndex
  dsimp only
  split <;> rfl

theorem Inv.prepare (h : s.Inv codec lines) : s.prepareReadIndex.Inv codec lines := by
  unfold prepareReadIndex
  dsimp only
  split
  · exact ⟨h.text, safeOffsets_reset codec lines, lookup_reset, h.counter, h.backup⟩
  · exact { h with }

theorem Safe.of_neg {sequence : Int} {offset : Nat} (h : Safe codec lines sequence offset)
    (hneg : sequence < 0) (other : Int) : Safe codec lines other offset := by
  obtain ⟨k, hk, hevents⟩ := h
  refine ⟨k, hk, fun event hevent => ?_⟩
  have hle := hevents event hevent
  omega

section

variable (h : s.Inv codec lines)
include h

theorem Inv.nearest (sinceSequence : Int) :
    ∃ checkpoint offset, s.nearestReadOffset sinceSequence = some (checkpoint, offset) ∧
      Safe codec lines sinceSequence offset := by
  unfold nearestReadOffset
  have hsafe : ∀ {checkpoint offset}, s.readOffsets.lookup checkpoint = some offset →
      Safe codec lines checkpoint offset := fun hlookup =>
    h.offsets _ (Dict.lookup_eq_some.1 hlookup)
  cases hmax : ((s.readOffsets.rows.map Prod.fst).filter (· ≤ sinceSequence)).max? with
  | none =>
    obtain ⟨offset, hoffset⟩ := Option.isSome_iff_exists.mp h.start
    refine ⟨-1, offset, ?_, Safe.of_neg (hsafe hoffset) (by omega) _⟩
    rw [Option.getD_none]
    dsimp only
    rw [hoffset]
    rfl
  | some =>
    have hmem := List.max?_mem hmax
    obtain ⟨hkey, hle⟩ := List.mem_filter.mp hmem
    obtain ⟨⟨key, offset⟩, hentry, rfl⟩ := List.mem_map.mp hkey
    have hlookup := Dict.lookup_eq_some.2 hentry
    refine ⟨key, offset, ?_, (hsafe hlookup).mono (by simpa using hle)⟩
    rw [Option.getD_some]
    dsimp only
    rw [hlookup]
    rfl

theorem Inv.newline_free : ∀ line ∈ lines, '\n' ∉ line :=
  fun line hline => (h.text.written line hline).newline_free

theorem Inv.text_eq : s.store.text = joinLines lines := by
  have htext := h.text.text_eq
  rw [List.append_nil] at htext
  exact htext

theorem Inv.parsed_eq : codec.parsed s.store.text = lines.filterMap codec.parseLine := by
  have hparsed := h.text.parsed_eq
  rw [codec.parseLine_nil] at hparsed
  rw [hparsed]
  exact List.append_nil _

theorem Inv.increasing : Increasing codec lines := by
  rw [Increasing, ← h.parsed_eq]
  exact h.text.dense.pairwise

theorem Inv.scan_eq (sinceSequence : Int) (limit : Nat) :
    scanSince codec s.store.text sinceSequence limit =
      pageOf (laterEvents codec lines sinceSequence) sinceSequence (max limit 1) := by
  rw [scanSince, h.text_eq, readlines_joinLines h.newline_free,
    readLoop_page (Nat.zero_le _) rfl, pageOf]
  simp

theorem Inv.readSince (sinceSequence : Int) (limit : Nat) :
    ∃ next, s.readSince codec sinceSequence limit =
        some (next, scanSince codec s.store.text sinceSequence limit) ∧
      next.Inv codec lines ∧ next.store = s.store := by
  rw [h.scan_eq, IndexedStore.readSince]
  cases hfile : s.store.file with
  | none =>
    have hempty : lines.filterMap codec.parseLine = [] := by
      rw [← h.parsed_eq, AgentStreamStore.text, hfile]
      rfl
    refine ⟨s, ?_, h, rfl⟩
    rw [laterEvents, hempty, pageOf]
    simp [cursorBehind]
  | some text =>
    have htext : text = joinLines lines := by
      rw [← h.text_eq, AgentStreamStore.text, hfile]
      rfl
    have hprepared := h.prepare
    obtain ⟨checkpoint, offset, hnearest, k, rfl, hearlier⟩ := hprepared.nearest sinceSequence
    have hsplit : joinLines lines = joinLines (lines.take k) ++ joinLines (lines.drop k) := by
      rw [← joinLines_append, List.take_append_drop]
    have hfree : ∀ line ∈ lines.drop k, '\n' ∉ line := fun line hline =>
      h.newline_free line (List.mem_of_mem_drop hline)
    have hlines : readlines (text.drop (joinLines (lines.take k)).length) =
        (lines.drop k).map fun line => line ++ ['\n'] := by
      rw [htext, hsplit, List.drop_left, readlines_joinLines hfree]
    have hlater : laterEvents codec (lines.drop k) sinceSequence =
        laterEvents codec lines sinceSequence := by
      have hnone : laterEvents codec (lines.take k) sinceSequence = [] := by
        rw [laterEvents, List.filter_eq_nil_iff]
        intro event hevent
        have hle := hearlier event hevent
        simp only [decide_eq_true_eq]
        omega
      have happend : laterEvents codec (lines.take k ++ lines.drop k) sinceSequence =
          laterEvents codec (lines.take k) sinceSequence ++
            laterEvents codec (lines.drop k) sinceSequence := by
        rw [laterEvents, List.filterMap_append, List.filter_append]
        rfl
      rw [List.take_append_drop, hnone, List.nil_append] at happend
      exact happend.symm
    have hincreasing : Increasing codec (lines.take k ++ lines.drop k) := by
      rw [List.take_append_drop]
      exact h.increasing
    have hloop := @readLoop_safe _ codec (lines.drop k) sinceSequence (max limit 1)
      (lines.take k)
      { nextSeq := sinceSequence, nextOffset := (joinLines (lines.take k)).length,
        readOffsets := s.prepareReadIndex.readOffsets } hincreasing
      (by rw [List.take_append_drop]; exact hprepared.offsets) hprepared.start
      ⟨k, by rw [List.take_append_drop], by rw [List.take_append_drop]; exact hearlier⟩
    dsimp only at hloop ⊢
    rw [List.take_append_drop] at hloop
    rw [hnearest, Option.map_some, hlines]
    refine ⟨_, congrArg some (Prod.ext rfl ?_), ?_, store_prepare s⟩
    · dsimp only
      rw [readLoop_page (Nat.zero_le _) rfl, hlater]
      simp [pageOf]
    · exact ⟨hprepared.text, hloop.1.remember hloop.2.2, mem_remember hloop.2.1,
        hprepared.counter, hprepared.backup⟩

theorem Inv.assigned : s.store.assignedSequence codec = (codec.parsed s.store.text).length := by
  unfold AgentStreamStore.assignedSequence
  cases hnext : s.store.nextSeq with
  | none => exact h.text.dense.foldl_max
  | some n => exact h.counter n hnext

end

variable {events : List (AgentStreamEvent β)}

theorem inv_rewritten (hdense : Dense events)
    (htext : s.store.text = joinLines (events.map codec.dump))
    (hnext : s.store.nextSeq = some events.length)
    (hoffsets : s.readOffsets = Dict.set Table.empty (-1) 0)
    (hbackup : ∀ text, s.store.backup = some text → IntactText codec text) :
    ∃ lines, s.Inv codec lines := by
  obtain ⟨hok, hparsed⟩ := @TextOk.rewritten _ codec events hdense
  rw [← htext] at hok hparsed
  refine ⟨_, { hok with complete := by simp }, ?_, ?_, ?_, hbackup⟩
  · rw [hoffsets]
    exact safeOffsets_reset codec _
  · rw [hoffsets]
    exact lookup_reset
  · intro n hn
    rw [hnext] at hn
    rw [hparsed, ← Option.some.inj hn]

theorem Inv.append {fields : β} {created : Nat} (h : s.Inv codec lines) :
    Inv codec { s with
      store := (s.store.append codec fields).1, inode := s.openedInode created }
      (lines ++ [codec.dump ⟨s.store.assignedSequence codec, fields⟩]) := by
  obtain ⟨hok, hparsed⟩ := @TextOk.append _ codec _ _ _
    ⟨s.store.assignedSequence codec, fields⟩ h.text h.assigned
  refine ⟨{ hok with complete := by simp }, ?_, h.start, ?_, h.backup⟩
  · intro entry hentry
    exact (h.offsets entry hentry).append _
  · intro n hn
    have hlength := congrArg List.length hparsed
    rw [List.length_append, List.length_singleton, ← h.assigned] at hlength
    rw [← Option.some.inj hn]
    exact hlength.symm

theorem Inv.truncateBefore {sequence : Nat} (h : s.Inv codec lines)
    (hstep : step codec s (.truncateBefore sequence) = some next) :
    ∃ lines, next.Inv codec lines := by
  cases hstep
  cases hfile : s.store.file with
  | none =>
    rw [if_neg (by simp), AgentStreamStore.truncateBefore, hfile]
    dsimp only
    have hok := h.text
    rw [AgentStreamStore.text, hfile] at hok
    refine ⟨lines, hok, h.offsets, h.start, ?_, h.backup⟩
    intro n hn
    rw [← Option.some.inj hn]
    rfl
  | some =>
    rw [if_pos (by simp), AgentStreamStore.truncateBefore, hfile]
    dsimp only
    refine inv_rewritten (h.text.dense.filter_lt sequence) ?_ ?_ rfl h.backup
    · show joinLines (s.store.keptLines codec sequence) = _
      rw [keptLines_eq h.text]
    · show some (s.store.keptLines codec sequence).length = _
      rw [keptLines_eq h.text, List.length_map]

theorem Inv.step {op : IndexedOp β} (h : s.Inv codec lines)
    (hstep : step codec s op = some next) : ∃ lines, next.Inv codec lines := by
  cases op with
  | append =>
    cases hstep
    exact ⟨_, h.append⟩
  | replaceAll events =>
    cases hstep
    refine inv_rewritten (StreamRun.dense_renumber events) rfl ?_ rfl h.backup
    show some events.length = _
    rw [AgentStreamStore.renumber, List.length_mapIdx]
  | truncateBefore => exact h.truncateBefore hstep
  | snapshot =>
    cases hstep
    unfold AgentStreamStore.snapshot
    cases hfile : s.store.file with
    | none => exact ⟨lines, h.text, h.offsets, h.start, h.counter, h.backup⟩
    | some text =>
      have htext : s.store.text = text := by rw [AgentStreamStore.text, hfile]; rfl
      have hfields := h.text
      have hcounter := h.counter
      rw [htext] at hfields hcounter
      dsimp only
      refine ⟨lines, hfields, h.offsets, h.start, hcounter, ?_⟩
      intro saved hsaved
      rw [← Option.some.inj hsaved]
      exact ⟨lines, hfields⟩
  | restore =>
    unfold IndexedStore.step at hstep
    cases hbackup : s.store.backup with
    | none =>
      rw [hbackup] at hstep
      cases hstep
      exact ⟨lines, h⟩
    | some text =>
      rw [hbackup] at hstep
      cases hstep
      obtain ⟨saved, hsaved⟩ := h.backup text hbackup
      have hrestore : s.store.restore = ⟨some text, none, some text⟩ := by
        unfold AgentStreamStore.restore
        rw [hbackup]
      rw [hrestore]
      refine ⟨saved, hsaved, safeOffsets_reset codec saved, lookup_reset, ?_, ?_⟩
      · intro n hn
        contradiction
      · intro backup hsome
        rw [← Option.some.inj hsome]
        exact ⟨saved, hsaved⟩
  | clear =>
    cases hstep
    refine ⟨[], .empty, safeOffsets_reset codec [], lookup_reset, ?_, h.backup⟩
    intro n hn
    contradiction
  | readSince sinceSequence limit =>
    obtain ⟨after, hread, hinv, -⟩ := h.readSince sinceSequence limit
    unfold IndexedStore.step at hstep
    dsimp only at hstep
    rw [hread, Option.map_some] at hstep
    rw [← Option.some.inj hstep]
    exact ⟨lines, hinv⟩

theorem inv_of_intact {store : AgentStreamStore} (h : IntactStore codec store) :
    ∃ lines, Inv codec { store := store } lines := by
  obtain ⟨lines, hok⟩ := h.text
  refine ⟨lines, hok, safeOffsets_reset codec lines, lookup_reset, ?_, h.backup⟩
  intro n hn
  have hnone := h.nextSeq
  dsimp only at hn
  rw [hnone] at hn
  contradiction

/-! ## Following the cursor -/

/-- Between two pages of a walk the log only grows, or is read. -/
def Grows (_ : IndexedStore) : IndexedOp β → Prop
  | .append _ _ => True
  | .readSince _ _ => True
  | _ => False

/-- Pages of these sizes are read one after the other, each from the cursor of the one before,
while there is more. -/
inductive Walk (codec : LineCodec β) :
    IndexedStore → List Nat → Int → List (AgentStreamEvent β) → IndexedStore → Prop
  | last {s next : IndexedStore} {page : ReadPage β} {sinceSequence : Int} {limit : Nat}
      (hread : s.readSince codec sinceSequence limit = some (next, page))
      (hmore : page.hasMore = false) : Walk codec s [limit] sinceSequence page.events next
  | more {s next later final : IndexedStore} {page : ReadPage β} {sinceSequence : Int}
      {limit : Nat} {limits : List Nat} {ops : List (IndexedOp β)}
      {events : List (AgentStreamEvent β)}
      (hread : s.readSince codec sinceSequence limit = some (next, page))
      (hmore : page.hasMore = true) (hgrows : Run (step codec) Grows next ops later)
      (hrest : Walk codec later limits page.nextSequence events final) :
      Walk codec s (limit :: limits) sinceSequence (page.events ++ events) final

theorem cursorBehind_lt {cursor number : Int} : cursorBehind cursor events < number ↔
      cursor < number ∧ ∀ event ∈ events, (event.streamSequence : Int) < number := by
  induction events generalizing cursor with
  | nil => simp [cursorBehind]
  | cons event events ih =>
    have hcons : cursorBehind cursor (event :: events) =
        cursorBehind (max cursor event.streamSequence) events := rfl
    rw [hcons, ih, Int.max_lt, List.forall_mem_cons, and_assoc]

theorem later_split {count : Nat}
    (hincreasing : events.Pairwise fun a b => a.streamSequence < b.streamSequence)
    (hlater : ∀ event ∈ events, sinceSequence < (event.streamSequence : Int)) :
    (events.filter fun event =>
      cursorBehind sinceSequence (events.take count) < (event.streamSequence : Int)) =
      events.drop count := by
  have htake : (events.take count).filter (fun event =>
      cursorBehind sinceSequence (events.take count) < (event.streamSequence : Int)) = [] := by
    rw [List.filter_eq_nil_iff]
    intro event hevent
    rw [decide_eq_true_eq, cursorBehind_lt]
    rintro ⟨-, hall⟩
    exact absurd (hall event hevent) (Int.lt_irrefl _)
  have hdrop : (events.drop count).filter (fun event =>
      cursorBehind sinceSequence (events.take count) < (event.streamSequence : Int)) =
      events.drop count := by
    rw [List.filter_eq_self]
    intro event hevent
    rw [decide_eq_true_eq, cursorBehind_lt]
    refine ⟨hlater event (List.mem_of_mem_drop hevent), ?_⟩
    intro earlier hearlier
    rw [← List.take_append_drop count events, List.pairwise_append] at hincreasing
    exact Int.ofNat_lt.mpr (hincreasing.2.2 earlier hearlier event hevent)
  calc
    _ = (events.take count ++ events.drop count).filter (fun event =>
        cursorBehind sinceSequence (events.take count) < (event.streamSequence : Int)) := by
      rw [List.take_append_drop]
    _ = _ := by rw [List.filter_append, htake, hdrop, List.nil_append]

theorem laterEvents_append (lines more : List (List Char)) (sinceSequence : Int) :
    laterEvents codec (lines ++ more) sinceSequence =
      laterEvents codec lines sinceSequence ++ laterEvents codec more sinceSequence := by
  rw [laterEvents, List.filterMap_append, List.filter_append]
  rfl

theorem later_behind {more : List (List Char)} (hincreasing : Increasing codec (lines ++ more))
    (hfull : limit < (laterEvents codec lines sinceSequence).length) :
    (laterEvents codec lines sinceSequence).take limit ++
        laterEvents codec (lines ++ more)
          (pageOf (laterEvents codec lines sinceSequence) sinceSequence limit).nextSequence =
      laterEvents codec (lines ++ more) sinceSequence := by
  have htake : (laterEvents codec lines sinceSequence).take limit =
      (laterEvents codec (lines ++ more) sinceSequence).take limit := by
    rw [laterEvents_append, List.take_append_of_le_length (Nat.le_of_lt hfull)]
  have hlater : ∀ event ∈ laterEvents codec (lines ++ more) sinceSequence,
      sinceSequence < (event.streamSequence : Int) := by
    intro event hevent
    simpa using (List.mem_filter.mp hevent).2
  have hsplit := @later_split _ sinceSequence (laterEvents codec (lines ++ more) sinceSequence) limit
    (hincreasing.sublist List.filter_sublist) hlater
  have hbehind : laterEvents codec (lines ++ more)
      (pageOf (laterEvents codec lines sinceSequence) sinceSequence limit).nextSequence =
      (laterEvents codec (lines ++ more) sinceSequence).drop limit := by
    rw [← hsplit, pageOf]
    dsimp only
    rw [htake]
    generalize hcursor : cursorBehind sinceSequence
      ((laterEvents codec (lines ++ more) sinceSequence).take limit) = cursor
    have hle : sinceSequence ≤ cursor := by
      apply Int.not_lt.mp
      intro hlt
      rw [← hcursor, cursorBehind_lt] at hlt
      exact absurd hlt.1 (Int.lt_irrefl _)
    rw [laterEvents, laterEvents, List.filter_filter]
    apply List.filter_congr
    intro event _
    rw [← Bool.decide_and, decide_eq_decide]
    omega
  rw [htake, hbehind, List.take_append_drop]

theorem Inv.grows {ops : List (IndexedOp β)} {later : IndexedStore} (h : s.Inv codec lines)
    (hgrows : Run (IndexedStore.step codec) Grows s ops later) :
    ∃ more, later.Inv codec (lines ++ more) := by
  induction hgrows generalizing lines with
  | nil => exact ⟨[], by rw [List.append_nil]; exact h⟩
  | @cons s t u op ops hok hstep _ ih =>
    cases op with
    | append =>
      cases hstep
      obtain ⟨more, hmore⟩ := ih h.append
      rw [List.append_assoc] at hmore
      exact ⟨_, hmore⟩
    | readSince sinceSequence limit =>
      obtain ⟨after, hread, hinv, -⟩ := h.readSince sinceSequence limit
      have hnext : (s.readSince codec sinceSequence limit).map Prod.fst = some t := hstep
      rw [hread, Option.map_some] at hnext
      rw [← Option.some.inj hnext] at ih
      exact ih hinv
    | replaceAll | truncateBefore | snapshot | restore | clear => exact hok.elim

theorem Inv.walk {limits : List Nat} {final : IndexedStore} (h : s.Inv codec lines)
    (hwalk : Walk codec s limits sinceSequence events final) :
    ∃ more, final.Inv codec (lines ++ more) ∧
      events = laterEvents codec (lines ++ more) sinceSequence := by
  induction hwalk generalizing lines with
  | @last s next page sinceSequence limit hread hmore =>
    obtain ⟨after, hread', hinv, -⟩ := h.readSince sinceSequence limit
    rw [hread, h.scan_eq] at hread'
    obtain ⟨rfl, rfl⟩ := Prod.mk.inj (Option.some.inj hread')
    refine ⟨[], by rw [List.append_nil]; exact hinv, ?_⟩
    rw [List.append_nil]
    apply List.take_of_length_le
    exact Nat.le_of_not_lt (of_decide_eq_false hmore)
  | @more s next later final page sinceSequence limit limits ops events hread hmore hgrows _ ih =>
    obtain ⟨after, hread', hinv, -⟩ := h.readSince sinceSequence limit
    rw [hread, h.scan_eq] at hread'
    obtain ⟨rfl, rfl⟩ := Prod.mk.inj (Option.some.inj hread')
    obtain ⟨grown, hgrown⟩ := hinv.grows hgrows
    obtain ⟨more, hfinal, hevents⟩ := ih hgrown
    rw [List.append_assoc] at hfinal hevents
    refine ⟨grown ++ more, hfinal, ?_⟩
    rw [hevents]
    exact later_behind hfinal.increasing (by simpa [pageOf] using hmore)

theorem Inv.walk_ends (h : s.Inv codec lines) (sinceSequence : Int) (limits : Nat → Nat) :
    ∃ n events final, Walk codec s ((List.range (n + 1)).map limits) sinceSequence events final := by
  induction hn : (laterEvents codec lines sinceSequence).length using Nat.strong_induction_on
    generalizing s sinceSequence limits with
  | _ n ih =>
    subst hn
    obtain ⟨next, hread, hinv, -⟩ := h.readSince sinceSequence (limits 0)
    rw [h.scan_eq] at hread
    by_cases hfull : max (limits 0) 1 < (laterEvents codec lines sinceSequence).length
    · have hbehind := @later_behind _ codec _ sinceSequence _ [] (by
        rw [List.append_nil]; exact h.increasing) hfull
      rw [List.append_nil] at hbehind
      have hlength := congrArg List.length hbehind
      rw [List.length_append, List.length_take] at hlength
      obtain ⟨n, events, final, hwalk⟩ := ih _ (by omega) hinv
        (pageOf (laterEvents codec lines sinceSequence) sinceSequence
          (max (limits 0) 1)).nextSequence (fun i => limits (i + 1)) rfl
      have hmore := Walk.more hread (by simpa [pageOf] using hfull) (.nil next) hwalk
      have hlimits : limits 0 :: (List.range (n + 1)).map (fun i => limits (i + 1)) =
          (List.range (n + 2)).map limits := by
        rw [List.range_succ_eq_map (n := n + 1), List.map_cons, List.map_map]
        rfl
      rw [hlimits] at hmore
      exact ⟨n + 1, _, final, hmore⟩
    · refine ⟨0, _, next, .last hread ?_⟩
      simpa [pageOf] using hfull

/-- Every read gives the page of a scan of the whole file; a walk along the cursor ends, and has
then returned every event behind its start once and in order. -/
structure ReadsExactly (codec : LineCodec β) (s : IndexedStore) : Prop where
  page_eq : ∀ sinceSequence limit, ∃ next, s.readSince codec sinceSequence limit =
    some (next, scanSince codec s.store.text sinceSequence limit)
  walk_ends : ∀ sinceSequence limits, ∃ n events final,
    Walk codec s ((List.range (n + 1)).map limits) sinceSequence events final
  walk_eq : ∀ sinceSequence limits events final, Walk codec s limits sinceSequence events final →
    events = (codec.parsed final.store.text).filter
      fun event => sinceSequence < (event.streamSequence : Int)

end IndexedStore

end ClaudeHub
