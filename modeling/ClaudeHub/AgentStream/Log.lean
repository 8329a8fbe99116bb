import Mathlib.Data.List.Induction
import ClaudeHub.AgentStream.FlatCodec

/-! # Integrity of the event log

As long as no append succeeds behind an unfinished line, the parsable events of the
file are numbered `0, 1, 2, ..` without gaps. Every way in which the counter is
set (one past the last append, the length of a rewritten file, one past the
largest number in the file) then agrees with the number of parsable events.
-/

namespace ClaudeHub

open Lines StepSystem

variable {β : Type} {codec : LineCodec β}

def LineCodec.Written (codec : LineCodec β) (line : List Char) : Prop :=
  (∃ event, line = codec.dump event) ∨ TornLine codec.dump line

theorem LineCodec.parseLine_dump (codec : LineCodec β) (event : AgentStreamEvent β) :
    codec.parseLine (codec.dump event) = some event := by
  simp [LineCodec.parseLine, codec.strip_dump, codec.dump_ne_nil, codec.loads_dump]

theorem LineCodec.parseLine_nil (codec : LineCodec β) : codec.parseLine [] = none := by
  simp [LineCodec.parseLine, strip]

variable {line : List Char}

theorem LineCodec.parseLine_torn (h : TornLine codec.dump line) : codec.parseLine line = none := by
  simp [LineCodec.parseLine, codec.loads_torn line h]

theorem TornLine.newline_free (h : TornLine codec.dump line) : '\n' ∉ line := by
  induction h with
  | part _ hpart _ => exact fun hmem => codec.newline_free _ (hpart.subset hmem)
  | afterWhole _ hpart =>
    intro hmem
    rcases List.mem_append.mp hmem with hleft | hright
    · exact codec.newline_free _ hleft
    · exact codec.newline_free _ (hpart.subset hright)
  | afterTorn _ _ hpart ih =>
    intro hmem
    rcases List.mem_append.mp hmem with hleft | hright
    · exact ih hleft
    · exact codec.newline_free _ (hpart.subset hright)

theorem TornLine.ne_nil (h : TornLine codec.dump line) : line ≠ [] := by
  cases h with
  | part hne => exact hne
  | afterWhole hne => simp [hne]
  | afterTorn _ hne => simp [hne]

theorem LineCodec.Written.newline_free (h : codec.Written line) : '\n' ∉ line := by
  rcases h with ⟨event, rfl⟩ | htorn
  · exact codec.newline_free event
  · exact htorn.newline_free

theorem LineCodec.Written.ne_nil (h : codec.Written line) : line ≠ [] := by
  rcases h with ⟨event, rfl⟩ | htorn
  · exact codec.dump_ne_nil event
  · exact htorn.ne_nil

theorem LineCodec.Written.eq_dump {event : AgentStreamEvent β} (h : codec.Written line)
    (hparse : codec.parseLine line = some event) : line = codec.dump event := by
  rcases h with ⟨written, rfl⟩ | htorn
  · rw [codec.parseLine_dump] at hparse
    rw [Option.some.inj hparse]
  · simp [parseLine_torn htorn] at hparse

theorem LineCodec.Written.torn_append {line piece : List Char} {event : AgentStreamEvent β}
    (h : codec.Written line) (hne : piece ≠ []) (hpart : piece <+: codec.dump event) :
    TornLine codec.dump (line ++ piece) := by
  rcases h with ⟨before, rfl⟩ | htorn
  · exact .afterWhole hne hpart
  · exact .afterTorn htorn hne hpart

theorem LineCodec.written_of_prefix {piece : List Char} {event : AgentStreamEvent β}
    (hne : piece ≠ []) (hpart : piece <+: codec.dump event) : codec.Written piece := by
  by_cases hwhole : piece = codec.dump event
  · exact .inl ⟨event, hwhole⟩
  · exact .inr (.part hne hpart hwhole)

/-! ## Texts -/

/-- Events numbered from zero without a gap. -/
def Dense (events : List (AgentStreamEvent β)) : Prop :=
  events.map AgentStreamEvent.streamSequence = List.range events.length

variable {events : List (AgentStreamEvent β)}

theorem Dense.snoc (h : Dense events) {event : AgentStreamEvent β}
    (hseq : event.streamSequence = events.length) :
    Dense (events ++ [event]) := by
  rw [Dense, List.map_append, h, List.length_append, List.length_singleton, List.range_succ]
  simp [hseq]

theorem Dense.of_append {more : List (AgentStreamEvent β)} (h : Dense (events ++ more)) :
    Dense events := by
  have htake := congrArg (List.take events.length) h
  rw [List.map_append, List.take_left' (by simp), List.length_append, List.take_range] at htake
  rw [Dense, htake]
  simp

theorem Dense.lt_length (h : Dense events) {event : AgentStreamEvent β} (hevent : event ∈ events) :
    event.streamSequence < events.length := by
  have hmem : event.streamSequence ∈ events.map AgentStreamEvent.streamSequence :=
    List.mem_map_of_mem hevent
  rw [h] at hmem
  exact List.mem_range.mp hmem

theorem Dense.pairwise (h : Dense events) :
    events.Pairwise fun a b => a.streamSequence < b.streamSequence := by
  have hsorted : (events.map AgentStreamEvent.streamSequence).Pairwise (· < ·) := by
    rw [h]
    exact List.pairwise_lt_range
  exact List.pairwise_map.mp hsorted

theorem Dense.foldl_max (h : Dense events) :
    events.foldl (fun next event => max next (event.streamSequence + 1)) 0 = events.length := by
  have hnat : ∀ n, (List.range n).foldl (fun next seq => max next (seq + 1)) 0 = n := by
    intro n
    induction n with
    | zero => rfl
    | succ n ih => rw [List.range_succ, List.foldl_append, ih]; simp
  have hmap := hnat events.length
  rw [← h, List.foldl_map] at hmap
  exact hmap

theorem Dense.filter_lt (h : Dense events) (n : Nat) :
    Dense (events.filter fun event => event.streamSequence < n) := by
  induction events using List.reverseRecOn with
  | nil => rfl
  | append_singleton events event ih =>
    have hinit := h.of_append
    have hseq : event.streamSequence = events.length := by
      have hlast := congrArg List.getLast? h
      simpa [List.range_succ] using hlast
    rw [List.filter_append]
    by_cases hlt : event.streamSequence < n
    · have hall : events.filter (fun event => event.streamSequence < n) = events := by
        refine List.filter_eq_self.mpr fun e he => ?_
        have := hinit.lt_length he
        simp only [decide_eq_true_eq]
        omega
      rw [hall]
      simpa [hlt] using h
    · simpa [hlt] using ih hinit

/-- A text of written lines and an unfinished one, with the kept events on complete lines. -/
structure TextOk (codec : LineCodec β) (text : List Char) (kept : List (AgentStreamEvent β))
    (lines : List (List Char)) (tail : List Char) : Prop where
  text_eq : text = joinLines lines ++ tail
  written : ∀ line ∈ lines, codec.Written line
  tail_written : tail = [] ∨ codec.Written tail
  dense : Dense (codec.parsed text)
  complete : ∀ event ∈ kept, codec.dump event ∈ lines

section Text

variable {text : List Char} {kept : List (AgentStreamEvent β)} {lines : List (List Char)}
  {tail : List Char}

theorem parsed_join (hwritten : ∀ line ∈ lines, codec.Written line)
    (htail : tail = [] ∨ codec.Written tail) :
    codec.parsed (joinLines lines ++ tail) =
      lines.filterMap codec.parseLine ++ (codec.parseLine tail).toList := by
  have hlines := splitLines_joinLines (fun line hline => (hwritten line hline).newline_free) tail
  rw [LineCodec.parsed, hlines, List.filterMap_append]
  congr 1
  rcases htail with rfl | htail
  · simp [codec.parseLine_nil]
  · rw [splitLines_tail htail.newline_free htail.ne_nil]
    cases hparse : codec.parseLine tail <;> simp [hparse]

theorem TextOk.empty : TextOk codec [] ([] : List (AgentStreamEvent β)) [] [] where
  text_eq := rfl
  written := by simp
  tail_written := .inl rfl
  dense := rfl
  complete := by simp

theorem TextOk.parsed_eq (h : TextOk codec text kept lines tail) :
    codec.parsed text = lines.filterMap codec.parseLine ++ (codec.parseLine tail).toList := by
  rw [h.text_eq]
  exact parsed_join h.written h.tail_written

variable {event : AgentStreamEvent β}

theorem TextOk.mem_parsed (h : TextOk codec text kept lines tail) (hevent : event ∈ kept) :
    event ∈ codec.parsed text := by
  rw [h.parsed_eq]
  refine List.mem_append_left _ (List.mem_filterMap.mpr ⟨_, h.complete event hevent, ?_⟩)
  exact codec.parseLine_dump event

theorem TextOk.tail_eq_nil (h : TextOk codec text kept lines tail)
    (hend : text.getLast? = none ∨ text.getLast? = some '\n') : tail = [] := by
  rcases h.tail_written with hnil | htail
  · exact hnil
  · have hlast : text.getLast? = some (tail.getLast htail.ne_nil) := by
      rw [h.text_eq, List.getLast?_append_of_ne_nil _ htail.ne_nil, List.getLast?_eq_some_getLast]
    rw [hlast] at hend
    have hnewline : tail.getLast htail.ne_nil = '\n' := by simpa using hend
    exact (htail.newline_free (hnewline ▸ List.getLast_mem htail.ne_nil)).elim

theorem TextOk.append (h : TextOk codec text kept lines [])
    (hseq : event.streamSequence = (codec.parsed text).length) :
    TextOk codec (text ++ (codec.dump event ++ ['\n'])) (kept ++ [event])
        (lines ++ [codec.dump event]) [] ∧
      codec.parsed (text ++ (codec.dump event ++ ['\n'])) = codec.parsed text ++ [event] := by
  have hwritten : ∀ line ∈ lines ++ [codec.dump event], codec.Written line := by
    intro line hline
    rcases List.mem_append.mp hline with hold | hnew
    · exact h.written line hold
    · exact .inl ⟨event, List.mem_singleton.mp hnew⟩
  have htext : text ++ (codec.dump event ++ ['\n']) =
      joinLines (lines ++ [codec.dump event]) ++ [] := by
    simp [h.text_eq]
  have hparsed : codec.parsed (text ++ (codec.dump event ++ ['\n'])) =
      codec.parsed text ++ [event] := by
    rw [htext, parsed_join hwritten (.inl rfl), h.parsed_eq, List.filterMap_append]
    simp [codec.parseLine_dump, codec.parseLine_nil]
  refine ⟨⟨htext, hwritten, .inl rfl, ?_, ?_⟩, hparsed⟩
  · rw [hparsed]
    exact h.dense.snoc hseq
  · intro other hother
    rcases List.mem_append.mp hother with hold | hnew
    · exact List.mem_append_left _ (h.complete other hold)
    · rw [List.mem_singleton.mp hnew]
      simp

theorem TextOk.behindTail (h : TextOk codec text kept lines tail) (htail : codec.Written tail)
    {piece : List Char} (hne : piece ≠ []) (hpart : piece <+: codec.dump event) :
    TextOk codec (text ++ piece) kept lines (tail ++ piece) ∧
      TextOk codec (text ++ piece ++ ['\n']) kept (lines ++ [tail ++ piece]) [] := by
  have htorn := htail.torn_append hne hpart
  have hdense : Dense (lines.filterMap codec.parseLine) := by
    have hdense := h.dense
    rw [h.parsed_eq] at hdense
    exact hdense.of_append
  have hwritten : ∀ line ∈ lines ++ [tail ++ piece], codec.Written line := by
    intro line hline
    rcases List.mem_append.mp hline with hold | hnew
    · exact h.written line hold
    · exact List.mem_singleton.mp hnew ▸ .inr htorn
  have htext : text ++ piece = joinLines lines ++ (tail ++ piece) := by simp [h.text_eq]
  have htext' : text ++ piece ++ ['\n'] = joinLines (lines ++ [tail ++ piece]) ++ [] := by
    simp [h.text_eq]
  refine ⟨⟨htext, h.written, .inr (.inr htorn), ?_, h.complete⟩,
    ⟨htext', hwritten, .inl rfl, ?_, ?_⟩⟩
  · rw [htext, parsed_join h.written (.inr (.inr htorn)), LineCodec.parseLine_torn htorn]
    simpa using hdense
  · rw [htext', parsed_join hwritten (.inl rfl), List.filterMap_append]
    simpa [LineCodec.parseLine_torn htorn, codec.parseLine_nil] using hdense
  · intro other hother
    exact List.mem_append_left _ (h.complete other hother)

theorem TextOk.piece (h : TextOk codec text kept lines [])
    (hseq : event.streamSequence = (codec.parsed text).length) {piece : List Char}
    (hne : piece ≠ []) (hpart : piece <+: codec.dump event) :
    TextOk codec (text ++ piece) kept lines piece := by
  have hpiece := codec.written_of_prefix hne hpart
  have htext : text ++ piece = joinLines lines ++ piece := by simp [h.text_eq]
  have hold : codec.parsed text = lines.filterMap codec.parseLine := by
    rw [h.parsed_eq, codec.parseLine_nil]
    simp
  refine ⟨htext, h.written, .inr hpiece, ?_, h.complete⟩
  rw [htext, parsed_join h.written (.inr hpiece), ← hold]
  by_cases hwhole : piece = codec.dump event
  · rw [hwhole, codec.parseLine_dump]
    exact h.dense.snoc hseq
  · rw [LineCodec.parseLine_torn (.part hne hpart hwhole)]
    simpa using h.dense

theorem TextOk.appendFails (h : TextOk codec text kept lines tail)
    (hseq : event.streamSequence = (codec.parsed text).length) (written : Nat) :
    ∃ lines' tail', TextOk codec (text ++ (codec.dump event ++ ['\n']).take written) kept
      lines' tail' := by
  by_cases hpart : written ≤ (codec.dump event).length
  · rw [List.take_append_of_le_length hpart]
    have hprefix : (codec.dump event).take written <+: codec.dump event := List.take_prefix _ _
    by_cases hnil : (codec.dump event).take written = []
    · exact ⟨lines, tail, by simpa [hnil] using h⟩
    · rcases h.tail_written with rfl | htail
      · exact ⟨lines, _, h.piece hseq hnil hprefix⟩
      · exact ⟨lines, _, (h.behindTail htail hnil hprefix).1⟩
  · rw [List.take_of_length_le (by simp; omega)]
    rcases h.tail_written with rfl | htail
    · have happend := (h.append hseq).1
      exact ⟨_, [], { happend with
        complete := fun other hother => happend.complete other (List.mem_append_left _ hother) }⟩
    · have hbehind := (h.behindTail htail (codec.dump_ne_nil event) (List.prefix_refl _)).2
      exact ⟨_, [], by simpa using hbehind⟩

theorem TextOk.rewritten {events : List (AgentStreamEvent β)} (hdense : Dense events) :
    TextOk codec (joinLines (events.map codec.dump)) events (events.map codec.dump) [] ∧
      codec.parsed (joinLines (events.map codec.dump)) = events := by
  have hwritten : ∀ line ∈ events.map codec.dump, codec.Written line := by
    intro line hline
    obtain ⟨event, -, rfl⟩ := List.mem_map.mp hline
    exact .inl ⟨event, rfl⟩
  have hparsed : codec.parsed (joinLines (events.map codec.dump)) = events := by
    have hjoin := parsed_join hwritten (.inl rfl : ([] : List Char) = [] ∨ codec.Written [])
    rw [List.append_nil, codec.parseLine_nil, List.filterMap_map] at hjoin
    rw [hjoin]
    simp [codec.parseLine_dump]
  refine ⟨⟨by simp, hwritten, .inl rfl, ?_, fun event hevent => List.mem_map_of_mem hevent⟩,
    hparsed⟩
  rw [hparsed]
  exact hdense

theorem keptLines_eq {store : AgentStreamStore} (h : TextOk codec store.text kept lines tail)
    (sequence : Nat) :
    store.keptLines codec sequence =
      ((codec.parsed store.text).filter fun event => event.streamSequence < sequence).map
        codec.dump := by
  have hall : ∀ line ∈ splitLines store.text, codec.Written line := by
    intro line hline
    rw [h.text_eq, splitLines_joinLines (fun l hl => (h.written l hl).newline_free)] at hline
    rcases List.mem_append.mp hline with hold | hnew
    · exact h.written line hold
    · rcases h.tail_written with rfl | htail
      · simp at hnew
      · rw [splitLines_tail htail.newline_free htail.ne_nil] at hnew
        exact List.mem_singleton.mp hnew ▸ htail
  unfold AgentStreamStore.keptLines LineCodec.parsed
  generalize splitLines store.text = all at hall
  induction all with
  | nil => rfl
  | cons line all ih =>
    have htail := ih fun other hother => hall other (List.mem_cons_of_mem _ hother)
    rw [List.filterMap_cons, List.filterMap_cons]
    cases hparse : codec.parseLine line with
    | none => simpa using htail
    | some event =>
      have hline := (hall line (by simp)).eq_dump hparse
      by_cases hlt : event.streamSequence < sequence
      · have hnot : ¬ sequence ≤ event.streamSequence := by omega
        simp [htail, hlt, hnot, hline, codec.strip_dump]
      · have hle : sequence ≤ event.streamSequence := by omega
        simp [htail, hlt, hle]

end Text

/-! ## Runs -/

/-- Every text of the run is in order, and the counter counts the parsable events. -/
structure StreamRun.Inv (codec : LineCodec β) (run : StreamRun β) : Prop where
  file : ∃ lines tail, TextOk codec run.store.text run.kept lines tail
  counter : ∀ next, run.store.nextSeq = some next →
    next = (codec.parsed run.store.text).length
  backup : ∀ text, run.store.backup = some text →
    ∃ lines tail, TextOk codec text run.keptBackup lines tail

namespace StreamRun

variable {run next : StreamRun β}

theorem Inv.assigned (h : run.Inv codec) :
    run.store.assignedSequence codec = (codec.parsed run.store.text).length := by
  obtain ⟨lines, tail, hok⟩ := h.file
  unfold AgentStreamStore.assignedSequence
  cases hnext : run.store.nextSeq with
  | none => exact hok.dense.foldl_max
  | some next => exact h.counter next hnext

theorem inv_init : Inv codec ({} : StreamRun β) where
  file := ⟨[], [], .empty⟩
  counter := by simp
  backup := by simp

theorem dense_renumber (events : List β) : Dense (AgentStreamStore.renumber events) := by
  rw [Dense, AgentStreamStore.renumber]
  refine List.ext_getElem (by simp) fun i hi hi' => ?_
  simp

theorem Inv.append {fields : β} (h : run.Inv codec) (hsafe : run.StepSafe (.append fields))
    (hstep : StreamRun.step codec run (.append fields) = some next) : next.Inv codec := by
  cases hstep
  obtain ⟨lines, tail, hok⟩ := h.file
  obtain rfl := hok.tail_eq_nil hsafe
  have hassigned : (⟨run.store.assignedSequence codec, fields⟩ :
      AgentStreamEvent β).streamSequence = (codec.parsed run.store.text).length := h.assigned
  obtain ⟨hnew, hparsed⟩ := hok.append hassigned
  refine ⟨⟨_, _, hnew⟩, ?_, h.backup⟩
  intro n hn
  have hlen := congrArg List.length hparsed
  cases hn
  simp only [List.length_append, List.length_singleton] at hlen
  exact (congrArg (· + 1) hassigned).trans hlen.symm

theorem Inv.truncateBefore {sequence : Nat} (h : run.Inv codec)
    (hstep : StreamRun.step codec run (.truncateBefore sequence) = some next) :
    next.Inv codec := by
  cases hstep
  obtain ⟨lines, tail, hok⟩ := h.file
  have hkept : ∀ event ∈ run.kept.filter (fun event => event.streamSequence < sequence),
      event ∈ (codec.parsed run.store.text).filter
        (fun event => event.streamSequence < sequence) := by
    intro event hevent
    obtain ⟨hmem, hlt⟩ := List.mem_filter.mp hevent
    exact List.mem_filter.mpr ⟨hok.mem_parsed hmem, hlt⟩
  cases hfile : run.store.file with
  | none =>
    have htext : run.store.text = [] := by simp [AgentStreamStore.text, hfile]
    have hnone : run.kept.filter (fun event => event.streamSequence < sequence) = [] := by
      refine List.eq_nil_iff_forall_not_mem.mpr fun event hevent => ?_
      simpa [htext, LineCodec.parsed] using hkept event hevent
    simp only [AgentStreamStore.truncateBefore, hfile, hnone]
    refine ⟨⟨[], [], ?_⟩, ?_, h.backup⟩
    · simpa using TextOk.empty
    · simp [LineCodec.parsed]
  | some =>
    simp only [AgentStreamStore.truncateBefore, hfile, keptLines_eq hok]
    obtain ⟨hnew, hparsed⟩ := @TextOk.rewritten _ codec _ (hok.dense.filter_lt sequence)
    refine ⟨⟨_, [], { hnew with complete := ?_ }⟩, ?_, h.backup⟩
    · intro event hevent
      exact List.mem_map_of_mem (hkept event hevent)
    · intro n hn
      cases hn
      have hlen := congrArg List.length hparsed
      simpa using hlen.symm

theorem Inv.step {op : StreamOp β} (h : run.Inv codec) (hsafe : run.StepSafe op)
    (hstep : StreamRun.step codec run op = some next) : next.Inv codec := by
  obtain ⟨lines, tail, hok⟩ := h.file
  cases op with
  | append => exact h.append hsafe hstep
  | appendFails fields written =>
    cases hstep
    exact ⟨hok.appendFails h.assigned written, by simp [AgentStreamStore.appendFails], h.backup⟩
  | replaceAll events =>
    cases hstep
    obtain ⟨hnew, hparsed⟩ := @TextOk.rewritten _ codec _ (dense_renumber events)
    refine ⟨⟨_, _, hnew⟩, ?_, h.backup⟩
    intro n hn
    cases hn
    have hlen := congrArg List.length hparsed
    simpa [AgentStreamStore.renumber, AgentStreamStore.replaceAll] using hlen.symm
  | truncateBefore => exact h.truncateBefore hstep
  | snapshot =>
    cases hstep
    unfold AgentStreamStore.snapshot
    cases hfile : run.store.file with
    | none => exact ⟨⟨lines, tail, hok⟩, h.counter, h.backup⟩
    | some text =>
      have htext : run.store.text = text := by simp [AgentStreamStore.text, hfile]
      rw [htext] at hok
      refine ⟨⟨lines, tail, hok⟩, ?_, ?_⟩
      · intro n hn
        rw [h.counter n hn, htext]
        rfl
      · intro saved hsaved
        obtain rfl : text = saved := Option.some.inj hsaved
        exact ⟨lines, tail, hok⟩
  | restore =>
    cases hstep
    unfold AgentStreamStore.restore
    cases hbackup : run.store.backup with
    | none => exact ⟨⟨lines, tail, hok⟩, h.counter, by simp [hbackup]⟩
    | some text => exact ⟨h.backup text hbackup, by simp, by simpa [hbackup] using h.backup⟩
  | clear =>
    cases hstep
    exact ⟨⟨[], [], .empty⟩, by simp [AgentStreamStore.clear], h.backup⟩
  | reopen =>
    cases hstep
    exact ⟨⟨lines, tail, hok⟩, by simp [AgentStreamStore.reopen], h.backup⟩

theorem Inv.intact (h : run.Inv codec) : run.Intact codec := by
  obtain ⟨lines, tail, hok⟩ := h.file
  refine ⟨hok.dense.pairwise, ?_, ?_⟩
  · intro event hevent
    rw [h.assigned]
    exact hok.dense.lt_length hevent
  · intro event hevent sinceSequence hsince limit hlimit
    have hlater : event ∈ (codec.parsed run.store.text).filter
        fun event => sinceSequence < (event.streamSequence : Int) :=
      List.mem_filter.mpr ⟨hok.mem_parsed hevent, by simpa using hsince⟩
    have hlen := List.length_filter_le
      (fun event : AgentStreamEvent β => sinceSequence < (event.streamSequence : Int))
      (codec.parsed run.store.text)
    simp only [AgentStreamStore.readSince]
    rw [List.take_of_length_le]
    · exact hlater
    · split <;> omega

end StreamRun

end ClaudeHub
