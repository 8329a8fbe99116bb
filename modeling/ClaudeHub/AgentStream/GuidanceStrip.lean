import ClaudeHub.AgentStream.Guidance
import Mathlib.Data.List.TakeWhile

/-! # Guidance blocks are stripped again

A strip takes the first block of its kind, so what stands before it must not open one. Then the
strips undo the transport as far as the text of the user has no block and no line break in front.
-/

namespace ClaudeHub

open Needle

/-- The text does not begin with a line break. -/
def NoLead (text : List Char) : Prop := text.head? ≠ some '\n'

instance (text : List Char) : Decidable (NoLead text) := inferInstanceAs (Decidable (_ ≠ _))

theorem lstripNewlines_eq_self {text : List Char} (h : NoLead text) :
    lstripNewlines text = text := by
  cases text with
  | nil => rfl
  | cons c =>
    have hc : c ≠ '\n' := fun heq => h (by rw [heq]; rfl)
    rw [lstripNewlines, List.dropWhile_cons_of_neg (by simpa using hc)]

theorem noLead_lstripNewlines (text : List Char) : NoLead (lstripNewlines text) := by
  induction text with
  | nil => exact nofun
  | cons c text ih =>
    by_cases hc : c = '\n'
    · rw [lstripNewlines, List.dropWhile_cons_of_pos (by simpa using hc)]
      exact ih
    · rw [lstripNewlines, List.dropWhile_cons_of_neg (by simpa using hc)]
      intro hhead
      exact hc (Option.some.inj hhead)

theorem lstripNewlines_append {front text : List Char} {c : Char} (hmem : c ∈ front)
    (hc : c ≠ '\n') : lstripNewlines (front ++ text) = lstripNewlines front ++ text := by
  induction front with
  | nil => exact absurd hmem List.not_mem_nil
  | cons d front ih =>
    by_cases hd : d = '\n'
    · have hrest : c ∈ front := by
        rcases List.mem_cons.mp hmem with rfl | hrest
        · exact absurd hd hc
        · exact hrest
      have hstep := ih hrest
      rw [lstripNewlines] at hstep ⊢
      rw [List.cons_append, List.dropWhile_cons_of_pos (by simpa using hd), hstep,
        lstripNewlines, lstripNewlines, List.dropWhile_cons_of_pos (by simpa using hd)]
    · rw [lstripNewlines, List.cons_append, List.dropWhile_cons_of_neg (by simpa using hd),
        lstripNewlines, List.dropWhile_cons_of_neg (by simpa using hd), List.cons_append]

theorem length_lstripNewlines_le (text : List Char) : (lstripNewlines text).length ≤ text.length :=
  (List.dropWhile_sublist _).length_le

theorem NoLead.append {front text : List Char} (hfront : NoLead front)
    (htext : front = [] → NoLead text) : NoLead (front ++ text) := by
  cases front with
  | nil => exact htext rfl
  | cons => exact hfront

/-! ## One strip -/

section Strip

variable {markers : List MarkerPair} {pair : MarkerPair} {front text inner : List Char}

/-- No block of the markers is opened in the front. -/
structure Quiet (markers : List MarkerPair) (front : List Char) : Prop where
  ended : Ended '\n' front
  unopened : ∀ marker ∈ markers, ¬ marker.1 <:+: front

theorem quiet_nil (h : ∀ marker ∈ markers, marker.1 ≠ []) : Quiet markers [] where
  ended := .inl rfl
  unopened := fun marker hmem hwithin => h marker hmem (List.infix_nil.mp hwithin)

theorem Quiet.append {back : List Char} (hlines : ∀ marker ∈ markers, '\n' ∉ marker.1)
    (hfront : Quiet markers front) (hback : Quiet markers back) : Quiet markers (front ++ back) where
  ended := hfront.ended.append hback.ended
  unopened := by
    intro marker hmem hwithin
    rcases (infix_ended_append (hlines marker hmem) hfront.ended).mp hwithin with h | h
    · exact hfront.unopened marker hmem h
    · exact hback.unopened marker hmem h

def earlier (text : List Char) (found : Nat × Option MarkerPair) (marker : MarkerPair) :
    Nat × Option MarkerPair :=
  match find marker.1 text with
  | none => found
  | some candidate => if candidate < found.1 then (candidate, some marker) else found

theorem firstOpening_eq : firstOpening markers text =
    markers.foldl (earlier text) (text.length, none) := rfl

theorem firstOpening_front (hlines : ∀ marker ∈ markers, '\n' ∉ marker.1)
    (hquiet : Quiet markers front) : firstOpening markers (front ++ text) =
      ((firstOpening markers text).1 + front.length, (firstOpening markers text).2) := by
  have hfold : ∀ (rest : List MarkerPair) (start : Nat) (selected : Option MarkerPair),
      (∀ marker ∈ rest, marker ∈ markers) →
        rest.foldl (earlier (front ++ text)) (start + front.length, selected) =
          ((rest.foldl (earlier text) (start, selected)).1 + front.length,
            (rest.foldl (earlier text) (start, selected)).2) := by
    intro rest
    induction rest with
    | nil => exact fun _ _ _ => rfl
    | cons marker rest ih =>
      intro start selected hrest
      have hmarker := hrest marker List.mem_cons_self
      have hfind := @find_front Char _ marker.1 text front '\n' (hlines marker hmarker)
        hquiet.ended (hquiet.unopened marker hmarker)
      rw [List.foldl_cons, List.foldl_cons, earlier, earlier, hfind]
      cases find marker.1 text with
      | none => exact ih start selected fun other h => hrest other (List.mem_cons_of_mem _ h)
      | some candidate =>
        dsimp only [Option.map_some]
        by_cases hlt : candidate < start
        · rw [if_pos hlt, if_pos (Nat.add_lt_add_right hlt _)]
          exact ih candidate _ fun other h => hrest other (List.mem_cons_of_mem _ h)
        · rw [if_neg hlt, if_neg (by omega)]
          exact ih start selected fun other h => hrest other (List.mem_cons_of_mem _ h)
  have hlength : (front ++ text).length = text.length + front.length := by
    rw [List.length_append, Nat.add_comm]
  rw [firstOpening_eq, firstOpening_eq, hlength]
  exact hfold markers text.length none fun _ h => h

theorem findBlock_front (hlines : ∀ marker ∈ markers, '\n' ∉ marker.1)
    (hquiet : Quiet markers front) : findBlock markers (front ++ text) =
      (findBlock markers text).map fun place =>
        (place.1 + front.length, place.2 + front.length) := by
  rw [findBlock, firstOpening_front hlines hquiet, findBlock]
  obtain ⟨start, selected⟩ := firstOpening markers text
  cases selected with
  | none => rfl
  | some pair =>
    obtain ⟨opening, closing⟩ := pair
    have hdrop : (front ++ text).drop (start + front.length + opening.length) =
        text.drop (start + opening.length) := by
      rw [show start + front.length + opening.length =
        front.length + (start + opening.length) by omega, List.drop_append]
      simp
    dsimp only
    rw [hdrop, Option.map_map]
    refine congrArg (fun f => Option.map f _) ?_
    funext skipped
    dsimp only [Function.comp_apply]
    rw [Prod.mk.injEq]
    constructor
    · rfl
    · omega

theorem strip_front (hlines : ∀ marker ∈ markers, '\n' ∉ marker.1) (hquiet : Quiet markers front) :
    stripGuidanceBlock markers (front ++ text) = front ++ stripGuidanceBlock markers text := by
  rw [stripGuidanceBlock, findBlock_front hlines hquiet, stripGuidanceBlock]
  cases findBlock markers text with
  | none => rfl
  | some place =>
    obtain ⟨start, stop⟩ := place
    dsimp only [Option.map_some]
    rw [Nat.add_comm start, Nat.add_comm stop, List.take_length_add_append,
      List.drop_length_add_append, List.append_assoc]

theorem firstOpening_here (hmem : pair ∈ markers) (hstarts : pair.1 <+: text) (hne : text ≠ [])
    (honly : ∀ marker ∈ markers, marker.1 <+: text → marker = pair) :
    firstOpening markers text = (0, some pair) := by
  obtain ⟨rest, hrest⟩ := hstarts
  have hhere : find pair.1 text = some 0 := by
    rw [← hrest]
    exact find_self
  have hstays : ∀ rest : List MarkerPair,
      rest.foldl (earlier text) (0, some pair) = (0, some pair) := by
    intro rest
    induction rest with
    | nil => rfl
    | cons marker rest ih =>
      rw [List.foldl_cons, earlier]
      cases find marker.1 text with
      | none => exact ih
      | some => exact ih
  have hfold : ∀ (rest : List MarkerPair) (start : Nat) (selected : Option MarkerPair),
      (∀ marker ∈ rest, marker ∈ markers) → pair ∈ rest → 0 < start →
        rest.foldl (earlier text) (start, selected) = (0, some pair) := by
    intro rest
    induction rest with
    | nil => exact fun _ _ _ hpair _ => absurd hpair List.not_mem_nil
    | cons marker rest ih =>
      intro start selected hrest hpair hstart
      rw [List.foldl_cons, earlier]
      by_cases hsame : marker = pair
      · rw [hsame, hhere]
        dsimp only
        rw [if_pos hstart]
        exact hstays rest
      · have hlater : pair ∈ rest := by
          rcases List.mem_cons.mp hpair with heq | hlater
          · exact absurd heq.symm hsame
          · exact hlater
        have hothers := fun other h => hrest other (List.mem_cons_of_mem marker h)
        cases hfind : find marker.1 text with
        | none => exact ih start selected hothers hlater hstart
        | some candidate =>
          have hpos : 0 < candidate := by
            rcases Nat.eq_zero_or_pos candidate with rfl | hpos
            · have hstarts := (find_eq_some.mp hfind).2.1
              exact absurd (honly marker (hrest marker List.mem_cons_self) hstarts) hsame
            · exact hpos
          dsimp only
          split
          · exact ih candidate _ hothers hlater hpos
          · exact ih start selected hothers hlater hstart
  exact hfold markers text.length none (fun _ h => h) hmem (List.length_pos_iff.mpr hne)

theorem strip_block (hmem : pair ∈ markers) (hne : pair.1 ≠ [])
    (honly : ∀ marker ∈ markers, marker.1 <+: pair.1 ∨ pair.1 <+: marker.1 → marker = pair)
    (hline : '\n' ∉ pair.2) (hinner : Ended '\n' inner) :
    stripGuidanceBlock markers (pair.1 ++ (inner ++ (pair.2 ++ text))) =
      lstripNewlines (match find pair.2 inner with
        | none => text
        | some skipped => inner.drop (skipped + pair.2.length) ++ (pair.2 ++ text)) := by
  have hfirst : firstOpening markers (pair.1 ++ (inner ++ (pair.2 ++ text))) =
      (0, some pair) := by
    apply firstOpening_here hmem (List.prefix_append _ _) (by simp [hne])
    intro marker hmarker hstarts
    apply honly marker hmarker
    exact List.prefix_or_prefix_of_prefix hstarts (List.prefix_append _ _)
  obtain ⟨opening, closing⟩ := pair
  dsimp only at hline hfirst ⊢
  rw [stripGuidanceBlock, findBlock, hfirst]
  dsimp only
  rw [Nat.zero_add, List.drop_left]
  cases hfind : find closing inner with
  | none =>
    rw [find_front hline hinner (find_eq_none.mp hfind), find_self]
    dsimp only [Option.map_some]
    rw [List.take_zero, List.nil_append, Nat.zero_add, Nat.add_assoc,
      List.drop_length_add_append, List.drop_length_add_append, List.drop_left]
  | some skipped =>
    rw [find_append_of_some hfind]
    dsimp only [Option.map_some]
    obtain ⟨before, after, hinnerEq, hbefore⟩ := exists_of_find hfind
    have hle : skipped + closing.length ≤ inner.length := by
      rw [hinnerEq, List.length_append, List.length_append, hbefore]
      exact Nat.le_add_right _ _
    rw [List.take_zero, List.nil_append, Nat.add_assoc, List.drop_length_add_append,
      List.drop_append_of_le_length hle]

theorem findBlock_eq_none (h : ∀ marker ∈ markers, ¬ marker.1 <:+: text) :
    findBlock markers text = none := by
  have hfold : ∀ (rest : List MarkerPair) (start : Nat × Option MarkerPair),
      (∀ marker ∈ rest, marker ∈ markers) →
        rest.foldl (earlier text) start = start := by
    intro rest
    induction rest with
    | nil => exact fun _ _ => rfl
    | cons marker rest ih =>
      intro start hrest
      rw [List.foldl_cons, earlier, find_eq_none.mpr (h marker (hrest marker List.mem_cons_self))]
      exact ih start fun other hother => hrest other (List.mem_cons_of_mem marker hother)
  have hnone : firstOpening markers text = (text.length, none) :=
    hfold markers (text.length, none) fun _ hmem => hmem
  rw [findBlock, hnone]

def Lettered (markers : List MarkerPair) : Prop :=
  ∀ marker ∈ markers, marker.1 ≠ [] ∧ marker.2 ≠ []

theorem firstOpening_mem : ∀ found, (firstOpening markers text).2 = some found →
    found ∈ markers := by
  have hfold : ∀ (rest : List MarkerPair) (start : Nat × Option MarkerPair),
      (∀ marker ∈ rest, marker ∈ markers) → (∀ found, start.2 = some found → found ∈ markers) →
        ∀ found, (rest.foldl (earlier text) start).2 = some found → found ∈ markers := by
    intro rest
    induction rest with
    | nil => exact fun _ _ hstart => hstart
    | cons marker rest ih =>
      intro start hrest hstart
      rw [List.foldl_cons]
      apply ih _ fun other h => hrest other (List.mem_cons_of_mem marker h)
      intro found hfound
      unfold earlier at hfound
      split at hfound
      · exact hstart found hfound
      · split at hfound
        · rw [← Option.some.inj hfound]
          exact hrest marker List.mem_cons_self
        · exact hstart found hfound
  exact hfold markers (text.length, none) (fun _ h => h) fun _ h => absurd h (by simp)

theorem findBlock_some (hletters : Lettered markers) {start stop : Nat}
    (h : findBlock markers text = some (start, stop)) : start < stop ∧ start < text.length := by
  have hmem := @firstOpening_mem markers text
  rw [findBlock] at h
  rcases hfirst : firstOpening markers text with ⟨first, selected⟩
  rw [hfirst] at h hmem
  cases selected with
  | none => exact nomatch h
  | some pair =>
    obtain ⟨opening, closing⟩ := pair
    obtain ⟨hopening, hclosing⟩ := hletters _ (hmem _ rfl)
    obtain ⟨skipped, hfind, hplace⟩ := Option.map_eq_some_iff.mp h
    obtain ⟨rfl, rfl⟩ := Prod.mk.inj hplace
    have hpos := List.length_pos_iff.mpr hopening
    have hpos' := List.length_pos_iff.mpr hclosing
    obtain ⟨before, after, hdrop, -⟩ := exists_of_find hfind
    have hlength := congrArg List.length hdrop
    simp only [List.length_append, List.length_drop] at hlength
    dsimp only at hpos hpos'
    omega

theorem strip_shorter (hletters : Lettered markers) {place : Nat × Nat}
    (h : findBlock markers text = some place) :
    (stripGuidanceBlock markers text).length < text.length := by
  obtain ⟨start, stop⟩ := place
  obtain ⟨hlt, hstart⟩ := findBlock_some hletters h
  rw [stripGuidanceBlock, h]
  dsimp only
  have hrest := length_lstripNewlines_le (text.drop stop)
  rw [List.length_drop] at hrest
  rw [List.length_append, List.length_take]
  omega

theorem length_strip_le (hletters : Lettered markers) :
    (stripGuidanceBlock markers text).length ≤ text.length := by
  cases h : findBlock markers text with
  | none => rw [stripGuidanceBlock, h]
  | some => exact (strip_shorter hletters h).le

theorem strip_eq_self_iff (hletters : Lettered markers) :
    stripGuidanceBlock markers text = text ↔ findBlock markers text = none := by
  constructor
  · intro hsame
    by_contra hblock
    obtain ⟨place, hplace⟩ := Option.ne_none_iff_exists'.mp hblock
    have hlt := strip_shorter hletters hplace
    rw [hsame] at hlt
    exact absurd hlt (Nat.lt_irrefl _)
  · intro hnone
    rw [stripGuidanceBlock, hnone]

theorem noLead_strip (h : NoLead text) : NoLead (stripGuidanceBlock markers text) := by
  rw [stripGuidanceBlock]
  split
  · exact h
  · next start stop _ =>
      apply NoLead.append
      · cases text with
        | nil => simp [NoLead]
        | cons =>
          cases start with
          | zero => simp [NoLead]
          | succ => exact h
      · exact fun _ => noLead_lstripNewlines _

end Strip

/-! ## The kinds of blocks -/

theorem stripForkSeedHistory_eq (text : List Char) :
    stripForkSeedHistory text = stripGuidanceBlock GuidanceKind.seed.markers text := by
  rw [stripForkSeedHistory, stripGuidanceBlock, findBlock, firstOpening, GuidanceKind.markers,
    List.foldl_cons, List.foldl_nil]
  · cases h : find GuidanceKind.seed.current.1 text with
    | none => rfl
    | some start =>
      have hlt : start < text.length := by
        obtain ⟨before, after, htext, hbefore⟩ := exists_of_find h
        have hlength := congrArg List.length htext
        have hpos : 0 < GuidanceKind.seed.current.1.length := by decide
        simp only [List.length_append] at hlength
        omega
      dsimp only
      rw [if_pos hlt]
      dsimp only
      cases find GuidanceKind.seed.current.2
        (text.drop (start + GuidanceKind.seed.current.1.length)) with
      | none => rfl
      | some => rfl
  · exact nofun

namespace GuidanceKind

/-- A marker is written without white space and has an angle bracket. -/
structure Spelling (needle : List Char) : Prop where
  line : '\n' ∉ needle
  blank : ' ' ∉ needle
  bracket : '<' ∈ needle

variable {marker : MarkerPair}

theorem spelling (kind : GuidanceKind) (h : marker ∈ kind.markers) :
    Spelling marker.1 ∧ Spelling marker.2 := by
  have hall : ([question, images, runtime, seed].all fun kind => kind.markers.all fun marker =>
      [marker.1, marker.2].all fun needle =>
        !needle.contains '\n' && !needle.contains ' ' && needle.contains '<') = true := by
    decide +kernel
  have hkind := List.all_eq_true.mp hall kind (by cases kind <;> simp)
  have hmarker := List.all_eq_true.mp hkind marker h
  simp only [List.all_cons, List.all_nil, Bool.and_eq_true, Bool.not_eq_true', List.contains_eq_mem,
    decide_eq_true_eq, decide_eq_false_iff_not] at hmarker
  obtain ⟨⟨⟨hline, hblank⟩, hbracket⟩, ⟨⟨hline', hblank'⟩, hbracket'⟩, -⟩ := hmarker
  exact ⟨⟨hline, hblank, hbracket⟩, ⟨hline', hblank', hbracket'⟩⟩

variable {needle : List Char}

theorem Spelling.ne_nil (h : Spelling needle) : needle ≠ [] :=
  List.ne_nil_of_mem h.bracket

theorem current_mem (kind : GuidanceKind) : kind.current ∈ kind.markers := by
  cases kind <;> exact List.mem_cons_self

theorem lettered (kind : GuidanceKind) : Lettered kind.markers := fun _ h =>
  ⟨(kind.spelling h).1.ne_nil, (kind.spelling h).2.ne_nil⟩

theorem lines (kind : GuidanceKind) : ∀ marker ∈ kind.markers, '\n' ∉ marker.1 :=
  fun _ h => (kind.spelling h).1.line

theorem current_only (kind : GuidanceKind) : ∀ marker ∈ kind.markers,
    marker.1 <+: kind.current.1 ∨ kind.current.1 <+: marker.1 → marker = kind.current := by
  have hall : ([question, images, runtime, seed].all fun kind => kind.markers.all fun marker =>
      !(marker.1.isPrefixOf kind.current.1 || kind.current.1.isPrefixOf marker.1) ||
        marker == kind.current) = true := by
    decide +kernel
  intro marker hmem hstarts
  have hkind := List.all_eq_true.mp hall kind (by cases kind <;> simp)
  have hmarker := List.all_eq_true.mp hkind marker hmem
  rw [← List.isPrefixOf_iff_prefix, ← List.isPrefixOf_iff_prefix, ← Bool.or_eq_true] at hstarts
  rw [hstarts, Bool.not_true, Bool.false_or, beq_iff_eq] at hmarker
  exact hmarker

theorem opening_not_in (kind other : GuidanceKind) (h : marker ∈ kind.markers) :
    ¬ marker.1 <:+: other.current.2 ∧
      (kind ≠ other → ¬ marker.1 <:+: other.current.1) := by
  have hall : ([question, images, runtime, seed].all fun kind =>
      [question, images, runtime, seed].all fun other => kind.markers.all fun marker =>
        (find marker.1 other.current.2).isNone &&
          (kind == other || (find marker.1 other.current.1).isNone)) = true := by
    decide +kernel
  have hkind := List.all_eq_true.mp hall kind (by cases kind <;> simp)
  have hother := List.all_eq_true.mp hkind other (by cases other <;> simp)
  have hmarker := List.all_eq_true.mp hother marker h
  rw [Bool.and_eq_true, Bool.or_eq_true, Option.isNone_iff_eq_none, Option.isNone_iff_eq_none,
    find_eq_none, find_eq_none, beq_iff_eq] at hmarker
  exact ⟨hmarker.1, hmarker.2.resolve_left⟩

def hubTexts : List (List Char) :=
  [questionProtocolGuidance, imageAttachmentGuidance, hubRuntimeGuidance,
    subagentHubRuntimeGuidance, forkSeedHeader]

def harmless : List Char → Bool
  | [] => true
  | ['<'] => false
  | '<' :: d :: text => d != '<' && d != 'c' && d != '/' && harmless (d :: text)
  | _ :: text => harmless text

theorem harmless_append {a b : List Char} (ha : harmless a = true) (hb : harmless b = true) :
    harmless (a ++ b) = true := by
  induction a using harmless.induct with
  | case1 => exact hb
  | case2 => exact absurd ha (by decide)
  | case3 d text ih =>
    rw [harmless, Bool.and_eq_true] at ha
    have hrest := ih ha.2
    rw [List.cons_append] at hrest
    rw [List.cons_append, List.cons_append, harmless, ha.1, hrest]
    rfl
  | case4 c text hlast hpair ih =>
    have hne : c ≠ '<' := by
      rintro rfl
      cases text with
      | nil => exact hlast rfl rfl
      | cons d text => exact hpair d text rfl rfl
    have hskip : ∀ rest, harmless (c :: rest) = harmless rest := by
      intro rest
      rw [harmless]
      · exact fun h _ => hne h
      · exact fun _ _ h _ => hne h
    rw [hskip] at ha
    rw [List.cons_append, hskip, ih ha]

theorem harmless_line {line : List Char} {lines : List String} (h : harmless line = true)
    (hrest : harmless (lines.flatMap String.toList) = true) :
    harmless ((String.ofList line :: lines).flatMap String.toList) = true := by
  rw [List.flatMap_cons, String.toList_ofList]
  exact harmless_append h hrest

theorem marker_begins (kind : GuidanceKind) (h : marker ∈ kind.markers) :
    ∀ needle ∈ [marker.1, marker.2], ∃ d rest, needle = '<' :: d :: rest ∧
      (d != '<' && d != 'c' && d != '/') = false := by
  cases kind with
  | runtime =>
    simp only [markers, List.mem_cons, List.not_mem_nil, or_false] at h
    rcases h with rfl | rfl <;> exact by
      simp only [List.mem_cons, List.not_mem_nil, or_false]
      rintro needle (rfl | rfl) <;> exact ⟨_, _, rfl, by decide⟩
  | _ =>
    obtain rfl := List.mem_singleton.mp h
    simp only [List.mem_cons, List.not_mem_nil, or_false]
    rintro needle (rfl | rfl) <;> exact ⟨_, _, rfl, by decide⟩

theorem not_infix_harmless {d : Char} {rest text : List Char}
    (hd : (d != '<' && d != 'c' && d != '/') = false) (h : harmless text = true) :
    ¬ ('<' :: d :: rest) <:+: text := by
  induction text with
  | nil => exact fun hwithin => absurd (List.infix_nil.mp hwithin) (List.cons_ne_nil _ _)
  | cons c text ih =>
    intro hwithin
    rcases List.infix_cons_iff.mp hwithin with hstarts | hlater
    · obtain ⟨after, hafter⟩ := hstarts
      rw [← hafter, List.cons_append, List.cons_append, harmless, hd] at h
      exact absurd h (by simp)
    · refine ih ?_ hlater
      unfold harmless at h
      split at h
      · contradiction
      · exact absurd h (by decide)
      · next hsame =>
          obtain ⟨-, rfl⟩ := List.cons.inj hsame
          rw [Bool.and_eq_true] at h
          exact h.2
      · next hsame =>
          obtain ⟨-, rfl⟩ := List.cons.inj hsame
          exact h

theorem harmless_hubTexts {text : List Char} (h : text ∈ hubTexts) : harmless text = true := by
  have hquestion : harmless questionProtocolGuidance = true := by
    unfold questionProtocolGuidance
    repeat refine harmless_line (by decide +kernel) ?_
    rfl
  have himages : harmless imageAttachmentGuidance = true := by
    unfold imageAttachmentGuidance
    repeat refine harmless_line (by decide +kernel) ?_
    rfl
  have hfront : harmless hubRuntimeFront = true := by
    unfold hubRuntimeFront
    repeat refine harmless_line (by decide +kernel) ?_
    rfl
  have hpolicy : harmless executionPolicy = true := by
    unfold executionPolicy
    repeat refine harmless_line (by decide +kernel) ?_
    rfl
  have hagentRun : harmless agentRunGuidance = true := by
    unfold agentRunGuidance
    repeat refine harmless_line (by decide +kernel) ?_
    rfl
  have hback : harmless hubRuntimeBack = true := by
    unfold hubRuntimeBack
    repeat refine harmless_line (by decide +kernel) ?_
    rfl
  have hseed : harmless forkSeedHeader = true := by
    unfold forkSeedHeader
    repeat refine harmless_line (by decide +kernel) ?_
    rfl
  have hruntime {agentRun : List Char} (hrun : harmless agentRun = true) :
      harmless (hubRuntimeGuidanceWith agentRun) = true :=
    harmless_append (harmless_append (harmless_append hfront hpolicy) hrun) hback
  simp only [hubTexts, List.mem_cons, List.not_mem_nil, or_false] at h
  rcases h with h | h | h | h | h
  · rw [h, hquestion]
  · rw [h, himages]
  · rw [h, hubRuntimeGuidance, hruntime hagentRun]
  · rw [h, subagentHubRuntimeGuidance, hruntime rfl]
  · rw [h, hseed]

theorem hubTexts_unmarked (kind : GuidanceKind) (h : marker ∈ kind.markers) {text : List Char}
    (htext : text ∈ hubTexts) :
    ∀ needle ∈ [marker.1, marker.2], ¬ needle <:+: text := by
  intro needle hneedle
  obtain ⟨d, rest, rfl, hd⟩ := kind.marker_begins h needle hneedle
  exact not_infix_harmless hd (harmless_hubTexts htext)

/-! ## Blocks in front of a text -/

def block (kind : GuidanceKind) (body : List Char) : List Char :=
  wrapGuidanceBlock [] body kind.current.1 kind.current.2

def piece (kind : GuidanceKind) (body : Option (List Char)) : List Char :=
  match body with
  | none => []
  | some body => kind.block body

/-- What the strip of its own kind leaves of a block. -/
def remains (kind : GuidanceKind) (body : Option (List Char)) : List Char :=
  match body with
  | none => []
  | some body =>
    match find kind.current.2 ('\n' :: (body ++ ['\n'])) with
    | none => []
    | some skipped =>
      lstripNewlines (('\n' :: (body ++ ['\n'])).drop (skipped + kind.current.2.length) ++
        (kind.current.2 ++ ['\n', '\n']))

def keptText (kind : GuidanceKind) (body : Option (List Char)) (text : List Char) : List Char :=
  if body.isSome then text else stripGuidanceBlock kind.markers text

theorem wrap_eq (kind : GuidanceKind) (body text : List Char) :
    wrapGuidanceBlock text body kind.current.1 kind.current.2 = kind.block body ++ text := by
  simp [block, wrapGuidanceBlock]

theorem infix_body {body : List Char} (h : Spelling needle) :
    needle <:+: '\n' :: (body ++ ['\n']) ↔ needle <:+: body := by
  have hfront := @infix_break _ needle [] (body ++ ['\n']) '\n' h.line
  rw [List.nil_append, List.infix_nil] at hfront
  rw [hfront, infix_break h.line, List.infix_nil]
  simp [h.ne_nil]

variable {kind : GuidanceKind}

theorem infix_block {body : List Char} (h : Spelling needle) :
    needle <:+: kind.block body ↔
      needle <:+: kind.current.1 ∨ needle <:+: body ∨ needle <:+: kind.current.2 := by
  have hend := @infix_break _ needle [] [] '\n' h.line
  rw [List.nil_append, List.infix_nil, or_self, iff_false_intro h.ne_nil] at hend
  rw [block, wrapGuidanceBlock, infix_break h.line, infix_break h.line, infix_break h.line, hend,
    or_false]

theorem ended_block (kind : GuidanceKind) (body : List Char) : Ended '\n' (kind.block body) := by
  refine .inr ⟨kind.current.1 ++ '\n' :: (body ++ '\n' :: (kind.current.2 ++ ['\n'])), ?_⟩
  simp [block, wrapGuidanceBlock]

variable {other : GuidanceKind}

theorem quiet_block {body : List Char} (hne : kind ≠ other)
    (h : ∀ marker ∈ kind.markers, ¬ marker.1 <:+: body) :
    Quiet kind.markers (other.block body) where
  ended := ended_block other body
  unopened := by
    intro marker hmem hwithin
    obtain ⟨hclosing, hopening⟩ := opening_not_in kind other hmem
    rcases (infix_block (kind.spelling hmem).1).mp hwithin with h' | h' | h'
    · exact hopening hne h'
    · exact h marker hmem h'
    · exact hclosing h'

variable {body : Option (List Char)}

theorem quiet_piece (hne : kind ≠ other)
    (h : ∀ text ∈ body, ∀ marker ∈ kind.markers, ¬ marker.1 <:+: text) :
    Quiet kind.markers (other.piece body) := by
  cases body with
  | none => exact quiet_nil fun marker hmem => (kind.lettered marker hmem).1
  | some body => exact quiet_block hne (h body rfl)

theorem noLead_block (kind : GuidanceKind) (body text : List Char) :
    NoLead (kind.block body ++ text) := by
  obtain ⟨d, rest, hopening, -⟩ := kind.marker_begins kind.current_mem _ List.mem_cons_self
  rw [NoLead, block, wrapGuidanceBlock, hopening]
  simp

theorem noLead_piece {text : List Char} (h : NoLead text) : NoLead (kind.piece body ++ text) := by
  cases body with
  | none => exact h
  | some body => exact noLead_block kind body text

theorem noLead_keptText {text : List Char} (h : NoLead text) :
    NoLead (kind.keptText body text) := by
  rw [keptText]
  split
  · exact h
  · exact noLead_strip h

theorem strip_piece (kind : GuidanceKind) {front mid text : List Char}
    (hfront : Quiet kind.markers front) (hmid : body = none → Quiet kind.markers mid)
    (hlead : body ≠ none → NoLead (mid ++ text)) :
    stripGuidanceBlock kind.markers (front ++ (kind.piece body ++ (mid ++ text))) =
      front ++ (kind.remains body ++ (mid ++ kind.keptText body text)) := by
  rw [strip_front kind.lines hfront]
  cases body with
  | none =>
    rw [piece, List.nil_append, strip_front kind.lines (hmid rfl)]
    rfl
  | some body =>
    have hlead := lstripNewlines_eq_self (hlead (by simp))
    have hended : Ended '\n' ('\n' :: (body ++ ['\n'])) := .inr ⟨'\n' :: body, rfl⟩
    have hshape : kind.piece (some body) ++ (mid ++ text) = kind.current.1 ++
        ('\n' :: (body ++ ['\n']) ++ (kind.current.2 ++ '\n' :: '\n' :: (mid ++ text))) := by
      simp [piece, block, wrapGuidanceBlock]
    rw [hshape, strip_block kind.current_mem (kind.lettered _ kind.current_mem).1
      kind.current_only (kind.spelling kind.current_mem).2.line hended, remains, keptText,
      Option.isSome_some, if_pos rfl]
    cases find kind.current.2 ('\n' :: (body ++ ['\n'])) with
    | none =>
      dsimp only
      rw [List.nil_append, lstripNewlines, List.dropWhile_cons_of_pos (by simp),
        List.dropWhile_cons_of_pos (by simp)]
      exact congrArg (front ++ ·) hlead
    | some skipped =>
      have hbracket := (kind.spelling kind.current_mem).2.bracket
      dsimp only
      have hstrip := @lstripNewlines_append
        (('\n' :: (body ++ ['\n'])).drop (skipped + kind.current.2.length) ++
          (kind.current.2 ++ ['\n', '\n'])) (mid ++ text) '<' (by simp [hbracket]) (by decide)
      rw [← hstrip]
      simp

theorem remains_eq_nil_iff :
    kind.remains body = [] ↔ ∀ text ∈ body, ¬ kind.current.2 <:+: text := by
  cases body with
  | none => simp [remains]
  | some body =>
    have hspelling := (kind.spelling kind.current_mem).2
    have hfind := @find_eq_none _ _ kind.current.2 ('\n' :: (body ++ ['\n']))
    rw [infix_body hspelling] at hfind
    simp only [Option.mem_def, Option.some.injEq, forall_eq']
    rw [← hfind, remains]
    cases find kind.current.2 ('\n' :: (body ++ ['\n'])) with
    | none => simp
    | some =>
      dsimp only
      rw [lstripNewlines, List.dropWhile_eq_nil_iff]
      constructor
      · intro hall
        have hline := hall '<' (by simp [hspelling.bracket])
        exact absurd hline (by decide)
      · intro hnone
        cases hnone

theorem behind_closing {closing body : List Char} {skipped : Nat}
    (h : find closing ('\n' :: (body ++ ['\n'])) = some skipped) :
    ∃ rest, ('\n' :: (body ++ ['\n'])).drop (skipped + closing.length) = rest ∧ Ended '\n' rest ∧
      ∀ needle, Spelling needle → needle <:+: rest → needle <:+: body := by
  obtain ⟨before, after, hsplit, hbefore⟩ := exists_of_find h
  refine ⟨after, ?_, ?_, ?_⟩
  · rw [hsplit, ← hbefore, ← List.length_append, List.drop_left]
  · rcases List.eq_nil_or_concat after with rfl | ⟨init, last, rfl⟩
    · exact .inl rfl
    · rw [List.concat_eq_append] at hsplit ⊢
      rw [← List.append_assoc, ← List.cons_append] at hsplit
      have hlast := (List.append_inj' hsplit rfl).2
      exact .inr ⟨init, by rw [← hlast]⟩
  · intro needle hspelling hwithin
    rw [← infix_body hspelling, hsplit]
    exact hwithin.trans (List.suffix_append _ _).isInfix

theorem quiet_remains (h : ∀ text ∈ body, ∀ marker ∈ kind.markers, ¬ marker.1 <:+: text) :
    Quiet kind.markers (other.remains body) := by
  have hnil := quiet_nil fun marker hmem => (kind.lettered marker hmem).1
  cases body with
  | none => exact hnil
  | some body =>
    rw [remains]
    cases hfind : find other.current.2 ('\n' :: (body ++ ['\n'])) with
    | none => exact hnil
    | some =>
      dsimp only
      obtain ⟨rest, hrest, hended, hwithin⟩ := behind_closing hfind
      rw [hrest]
      have hbracket := (other.spelling other.current_mem).2.bracket
      have hsplit := @lstripNewlines_append (rest ++ other.current.2) ['\n', '\n'] '<'
        (by simp [hbracket]) (by decide)
      rw [List.append_assoc] at hsplit
      rw [hsplit]
      refine ⟨.inr ⟨lstripNewlines (rest ++ other.current.2) ++ ['\n'], by simp⟩, ?_⟩
      intro marker hmem hmarker
      have hspelling := (kind.spelling hmem).1
      rw [← hsplit] at hmarker
      have hwhole : marker.1 <:+: rest ++ (other.current.2 ++ ['\n', '\n']) :=
        hmarker.trans (List.dropWhile_suffix _).isInfix
      rcases (infix_ended_append hspelling.line hended).mp hwhole with hfront | hback
      · exact h body rfl marker hmem (hwithin marker.1 hspelling hfront)
      · rcases (infix_break hspelling.line).mp hback with hclosing | hline
        · exact (opening_not_in kind other hmem).1 hclosing
        · have hnone := @infix_break _ marker.1 [] [] '\n' hspelling.line
          rw [List.nil_append, List.infix_nil, or_self] at hnone
          exact hspelling.ne_nil (hnone.mp hline)

end GuidanceKind

/-! ## What blocks quote -/

namespace Injection

open GuidanceKind

def strippedBefore : GuidanceKind → List GuidanceKind
  | question => []
  | images => [question]
  | runtime => [question, images]
  | seed => [question, images, runtime]

def quotes (injection : Injection) : GuidanceKind → List (List Char)
  | question => []
  | images => injection.imagePaths
  | runtime => injection.runtimeBlock.toList.map Prod.snd
  | seed => injection.seedHistory.toList

def body (injection : Injection) : GuidanceKind → Option (List Char)
  | question => if injection.asksQuestions then some questionProtocolGuidance else none
  | images =>
    if injection.imagePaths = [] then none else some (imageAttachmentBody injection.imagePaths)
  | runtime =>
    injection.runtimeBlock.map fun (advice, context) => hubRuntimeBody advice.guidance context
  | seed => injection.seedHistory.map fun body => forkSeedHeader ++ '\n' :: '\n' :: body

/-- No block quotes an opening marker of a kind that is stripped before it. -/
def Unopened (injection : Injection) : Prop :=
  ∀ kind, ∀ quote ∈ injection.quotes kind, ∀ earlier ∈ strippedBefore kind,
    ∀ marker ∈ earlier.markers, ¬ marker.1 <:+: quote

/-- No block quotes an opening marker of another kind. -/
def Plain (injection : Injection) : Prop :=
  ∀ kind, ∀ quote ∈ injection.quotes kind, ∀ other, other ≠ kind →
    ∀ marker ∈ other.markers, ¬ marker.1 <:+: quote

/-- No block but that of the runtime, which escapes them, quotes its own closing marker. -/
def Unclosed (injection : Injection) : Prop :=
  ∀ kind, kind ≠ runtime → ∀ quote ∈ injection.quotes kind, ¬ kind.current.2 <:+: quote

/-- Some block is put in front of the text. -/
def HasBlock (injection : Injection) : Prop := ∃ kind, injection.body kind ≠ none

def Blockless (injection : Injection) (text : List Char) : Prop :=
  ∀ kind, injection.body kind = none → findBlock kind.markers text = none

variable {injection : Injection}

theorem prefixes_eq (injection : Injection) (text : List Char) :
    injection.withFirstTurnPrefixes text =
      seed.piece (injection.body seed) ++ (runtime.piece (injection.body runtime) ++ text) := by
  obtain ⟨imagePaths, asksQuestions, seedHistory, runtimeBlock⟩ := injection
  have hseed : (match seedHistory with
      | none => []
      | some body => wrapForkSeedHistory body) =
      seed.piece (seedHistory.map fun body => forkSeedHeader ++ '\n' :: '\n' :: body) := by
    cases seedHistory with
    | none => rfl
    | some =>
      simp only [Option.map_some, wrapForkSeedHistory, piece, block, wrapGuidanceBlock,
        List.append_assoc, List.cons_append]
  rw [withFirstTurnPrefixes]
  refine congrArg₂ (· ++ ·) hseed ?_
  cases runtimeBlock with
  | none => rfl
  | some => exact wrap_eq runtime _ _

theorem prompt_eq (injection : Injection) (text : List Char) : injection.prompt text =
    images.piece (injection.body images) ++ (question.piece (injection.body question) ++
      (seed.piece (injection.body seed) ++ (runtime.piece (injection.body runtime) ++ text))) := by
  have hquestion : ∀ rest : List Char,
      (if injection.asksQuestions then wrapQuestionProtocolGuidance rest else rest) =
        question.piece (injection.body question) ++ rest := by
    intro rest
    rw [body]
    split
    · exact wrap_eq question _ _
    · rfl
  have himages : ∀ rest : List Char, wrapImageAttachmentGuidance rest injection.imagePaths =
      images.piece (injection.body images) ++ rest := by
    intro rest
    rw [wrapImageAttachmentGuidance, body]
    split
    · rfl
    · exact wrap_eq images _ _
  rw [prompt, prefixes_eq, hquestion, himages]

theorem infix_of_escape {needle context : List Char} (hblank : ' ' ∉ needle)
    (h : needle <:+: escapeClosings context) : needle <:+: context := by
  have hstep : ∀ (marker : MarkerPair) (text : List Char), marker.2 ≠ [] →
      needle <:+: replace marker.2 (marker.2.take 2 ++ ' ' :: marker.2.drop 2) text →
        needle <:+: text := by
    intro marker text hne hwithin
    have hall := @infix_of_replace _ _ needle ' ' (marker.2.take 2) (marker.2.drop 2)
    rw [List.take_append_drop] at hall
    exact hall hne hblank text [] hwithin
  have hletters := runtime.lettered
  simp only [escapeClosings, markers, List.foldl_cons, List.foldl_nil] at h hletters
  apply hstep _ _ (hletters _ List.mem_cons_self).2
  exact hstep _ _ (hletters _ (List.mem_cons_of_mem _ List.mem_cons_self)).2 h

theorem closing_not_in_escape (context : List Char) :
    ¬ runtime.current.2 <:+: escapeClosings context := by
  intro h
  have hspelling := (runtime.spelling runtime.current_mem).2
  have hletters := runtime.lettered
  simp only [escapeClosings, markers, List.foldl_cons, List.foldl_nil] at h hletters
  have hlater := @infix_of_replace _ _ runtime.current.2 ' '
    ("<<<END_HUB_RUNTIME_V1>>>".toList.take 2) ("<<<END_HUB_RUNTIME_V1>>>".toList.drop 2)
  rw [List.take_append_drop] at hlater
  have hfirst := hlater (by decide) hspelling.blank _ [] h
  have hgone := @not_infix_replace _ _ ' ' (runtime.current.2.take 2) (runtime.current.2.drop 2)
    (by decide) (by decide)
  rw [List.take_append_drop] at hgone
  refine hgone hspelling.blank ?_ context [] ?_ hfirst
  · intro back hback hne hstarts
    obtain ⟨c, back, rfl⟩ := List.exists_cons_of_ne_nil hne
    have hhead : c = '<' := by
      obtain ⟨after, hafter⟩ := hstarts
      exact (List.cons.inj hafter).1
    have hmem := hback.subset List.mem_cons_self
    rw [hhead] at hmem
    exact absurd hmem (by decide)
  · intro back hback hne
    exact absurd (List.suffix_nil.mp hback) hne

variable {kind : GuidanceKind}

theorem exists_quote {body needle : List Char} (hspelling : Spelling needle)
    (hhub : ∀ text ∈ hubTexts, ¬ needle <:+: text) (hbody : injection.body kind = some body)
    (h : needle <:+: body) : ∃ quote ∈ injection.quotes kind, needle <:+: quote := by
  cases kind with
  | question =>
    rw [Injection.body] at hbody
    split at hbody
    · cases hbody
      exact absurd h (hhub _ (by simp [hubTexts]))
    · exact nomatch hbody
  | images =>
    rw [Injection.body] at hbody
    split at hbody
    · exact nomatch hbody
    · cases hbody
      rcases (infix_break hspelling.line).mp h with hguidance | hpaths
      · exact absurd hguidance (hhub _ (by simp [hubTexts]))
      · obtain ⟨line, hline, hwithin⟩ := infix_intercalate hspelling.line (.inl rfl)
          hspelling.ne_nil hpaths
        obtain ⟨path, hpath, rfl⟩ := List.mem_map.mp hline
        refine ⟨path, hpath, ?_⟩
        rcases (@infix_break _ needle ['-'] path ' ' hspelling.blank).mp hwithin with hdash | hin
        · exact absurd (hdash.subset hspelling.bracket) (by decide)
        · exact hin
  | runtime =>
    obtain ⟨⟨advice, context⟩, hruntime, rfl⟩ := Option.map_eq_some_iff.mp hbody
    refine ⟨context, by simp [quotes, hruntime], ?_⟩
    obtain ⟨part, hpart, hwithin⟩ := infix_intercalate hspelling.line (.inr rfl)
      hspelling.ne_nil h
    have hmem := List.mem_of_mem_filter hpart
    rw [List.mem_append, List.mem_singleton] at hmem
    rcases hmem with hguidance | rfl
    · apply absurd hwithin
      apply hhub
      cases advice with
      | chat =>
        rw [List.mem_singleton.mp hguidance]
        simp [hubTexts]
      | subagent =>
        rw [List.mem_singleton.mp hguidance]
        simp [hubTexts]
      | contextOnly => exact absurd hguidance List.not_mem_nil
    · exact infix_of_escape hspelling.blank hwithin
  | seed =>
    obtain ⟨text, hseed, rfl⟩ := Option.map_eq_some_iff.mp hbody
    refine ⟨text, by simp [quotes, hseed], ?_⟩
    rcases (infix_break hspelling.line).mp h with hheader | hrest
    · exact absurd hheader (hhub _ (by simp [hubTexts]))
    · have hline := @infix_break _ needle [] text '\n' hspelling.line
      rw [List.nil_append, List.infix_nil] at hline
      exact (hline.mp hrest).resolve_left hspelling.ne_nil

theorem infix_intercalate_of_mem {sep piece : List Char} {pieces : List (List Char)}
    (h : piece ∈ pieces) : piece <:+: sep.intercalate pieces := by
  induction pieces with
  | nil => exact absurd h List.not_mem_nil
  | cons first rest ih =>
    cases rest with
    | nil =>
      rw [List.mem_singleton.mp h, List.intercalate_singleton]
    | cons second rest =>
      rw [List.intercalate_cons_cons]
      rcases List.mem_cons.mp h with rfl | hrest
      · exact ⟨[], sep ++ sep.intercalate (second :: rest), by simp⟩
      · exact (ih hrest).trans (List.suffix_append _ _).isInfix

theorem quote_infix_body (hkind : kind ≠ runtime) {quote : List Char}
    (h : quote ∈ injection.quotes kind) : ∃ body ∈ injection.body kind, quote <:+: body := by
  cases kind with
  | question => exact absurd h List.not_mem_nil
  | images =>
    have hne : injection.imagePaths ≠ [] := List.ne_nil_of_mem h
    refine ⟨imageAttachmentBody injection.imagePaths, ?_, ?_⟩
    · rw [Injection.body, if_neg hne]
      rfl
    · have hline : quote <:+: '-' :: ' ' :: quote := ⟨['-', ' '], [], by simp⟩
      have hlines := @infix_intercalate_of_mem ['\n'] _ _
        (List.mem_map_of_mem (f := fun path => '-' :: ' ' :: path) h)
      refine (hline.trans hlines).trans ⟨imageAttachmentGuidance ++ ['\n'], [], ?_⟩
      simp only [imageAttachmentBody, List.append_assoc, List.singleton_append, List.append_nil]
      rfl
  | runtime => exact absurd rfl hkind
  | seed =>
    obtain ⟨text, htext, rfl⟩ : ∃ text, injection.seedHistory = some text ∧ text = quote := by
      rw [quotes, Option.mem_toList] at h
      exact ⟨quote, h, rfl⟩
    refine ⟨forkSeedHeader ++ '\n' :: '\n' :: text, ?_, ?_⟩
    · rw [Injection.body, htext]
      rfl
    · exact ⟨forkSeedHeader ++ ['\n', '\n'], [], by simp⟩

theorem unopened_body {other : GuidanceKind}
    (h : ∀ quote ∈ injection.quotes other, ∀ marker ∈ kind.markers, ¬ marker.1 <:+: quote) :
    ∀ text ∈ injection.body other, ∀ marker ∈ kind.markers, ¬ marker.1 <:+: text := by
  intro text htext marker hmem hwithin
  obtain ⟨quote, hquote, hin⟩ := exists_quote (kind.spelling hmem).1
    (fun hub hhub => hubTexts_unmarked kind hmem hhub _ List.mem_cons_self) htext hwithin
  exact h quote hquote marker hmem hin

theorem remains_eq_nil (h : ∀ quote ∈ injection.quotes kind, ¬ kind.current.2 <:+: quote) :
    kind.remains (injection.body kind) = [] := by
  rw [remains_eq_nil_iff]
  intro text htext hwithin
  obtain ⟨quote, hquote, hin⟩ := exists_quote (kind.spelling kind.current_mem).2
    (fun hub hhub => hubTexts_unmarked kind kind.current_mem hhub _
      (List.mem_cons_of_mem _ List.mem_cons_self)) htext hwithin
  exact h quote hquote hin

theorem remains_question : question.remains (injection.body question) = [] :=
  remains_eq_nil nofun

theorem remains_runtime : runtime.remains (injection.body runtime) = [] := by
  rw [remains_eq_nil_iff]
  intro text htext hwithin
  have hspelling := (runtime.spelling runtime.current_mem).2
  have hhub : ∀ hub ∈ hubTexts, ¬ runtime.current.2 <:+: hub := fun hub hhub =>
    hubTexts_unmarked runtime runtime.current_mem hhub _
      (List.mem_cons_of_mem _ List.mem_cons_self)
  obtain ⟨⟨advice, context⟩, -, rfl⟩ := Option.map_eq_some_iff.mp htext
  obtain ⟨part, hpart, hin⟩ := infix_intercalate hspelling.line (.inr rfl) hspelling.ne_nil hwithin
  have hmem := List.mem_of_mem_filter hpart
  rw [List.mem_append, List.mem_singleton] at hmem
  rcases hmem with hguidance | rfl
  · apply hhub part _ hin
    cases advice with
    | chat =>
      rw [List.mem_singleton.mp hguidance]
      simp [hubTexts]
    | subagent =>
      rw [List.mem_singleton.mp hguidance]
      simp [hubTexts]
    | contextOnly => exact absurd hguidance List.not_mem_nil
  · exact closing_not_in_escape context hin

def kept (injection : Injection) (text : List Char) : List Char :=
  seed.keptText (injection.body seed) (runtime.keptText (injection.body runtime)
    (images.keptText (injection.body images) (question.keptText (injection.body question) text)))

variable {text : List Char}

theorem extract_prompt (hlead : injection.HasBlock → NoLead text) (hopen : injection.Unopened)
    (hruntime : Quiet runtime.markers (images.remains (injection.body images)))
    (hseed : Quiet seed.markers (images.remains (injection.body images))) :
    extractUserText (injection.prompt text) = images.remains (injection.body images) ++
      (seed.remains (injection.body seed) ++ injection.kept text) := by
  have hquiet : ∀ {kind other : GuidanceKind}, kind ∈ strippedBefore other → kind ≠ other →
      Quiet kind.markers (other.piece (injection.body other)) := fun hbefore hne =>
    quiet_piece hne (unopened_body fun quote hquote => hopen _ quote hquote _ hbefore)
  have hnil : ∀ kind : GuidanceKind, Quiet kind.markers [] := fun kind =>
    quiet_nil fun marker hmem => (kind.lettered marker hmem).1
  have hmiddle : ∀ kind : GuidanceKind, kind ∈ strippedBefore seed → kind ∈ strippedBefore runtime →
      kind ≠ seed → kind ≠ runtime → Quiet kind.markers
        (seed.piece (injection.body seed) ++ runtime.piece (injection.body runtime)) :=
    fun kind hs hr hns hnr => (hquiet hs hns).append kind.lines (hquiet hr hnr)
  have hleads : ∀ {kind : GuidanceKind} {text : List Char}, (injection.HasBlock → NoLead text) →
      injection.HasBlock → NoLead (kind.keptText (injection.body kind) text) :=
    fun h hblock => noLead_keptText (h hblock)
  have hhas : ∀ {kind : GuidanceKind}, injection.body kind ≠ none → injection.HasBlock :=
    fun h => ⟨_, h⟩
  -- the four strips, one after the other
  have hfirst := @strip_piece (injection.body question) question _ _ text
    (@hquiet question images (by decide) (by decide))
    (fun _ => hmiddle question (by decide) (by decide) (by decide) (by decide)) fun h => by
      rw [List.append_assoc]
      exact noLead_piece (noLead_piece (hlead (hhas h)))
  rw [remains_question, List.nil_append] at hfirst
  have hsecond := @strip_piece (injection.body images) images [] _
    (question.keptText (injection.body question) text) (hnil images)
    (fun _ => hmiddle images (by decide) (by decide) (by decide) (by decide)) fun h => by
      rw [List.append_assoc]
      exact noLead_piece (noLead_piece (hleads hlead (hhas h)))
  rw [List.nil_append, List.nil_append] at hsecond
  have hthird := @strip_piece (injection.body runtime) runtime _ [] (images.keptText
    (injection.body images) (question.keptText (injection.body question) text))
    (hruntime.append runtime.lines (@hquiet runtime seed (by decide) (by decide)))
    (fun _ => hnil runtime) fun h => hleads (hleads hlead) (hhas h)
  rw [remains_runtime, List.nil_append, List.nil_append, List.nil_append, List.append_assoc,
    List.append_assoc] at hthird
  have hlast := @strip_piece (injection.body seed) seed _ [] (runtime.keptText
    (injection.body runtime) (images.keptText (injection.body images)
      (question.keptText (injection.body question) text))) hseed (fun _ => hnil seed)
    fun h => hleads (hleads (hleads hlead)) (hhas h)
  rw [List.nil_append, List.nil_append] at hlast
  rw [extractUserText, stripForkSeedHistory_eq, prompt_eq, stripQuestionProtocolGuidance,
    ← List.append_assoc (seed.piece _), hfirst, stripImageAttachmentGuidance, hsecond,
    stripHubRuntimeGuidance, List.append_assoc, hthird, hlast]
  rfl

/-! ## Which texts come back -/

theorem Plain.unopened (h : injection.Plain) : injection.Unopened := by
  intro kind quote hquote earlier hearlier
  apply h kind quote hquote earlier
  rintro rfl
  cases earlier <;> exact absurd hearlier (by decide)

theorem noLead_prompt (h : injection.HasBlock) (text : List Char) :
    NoLead (injection.prompt text) := by
  obtain ⟨kind, hkind⟩ := h
  rw [prompt_eq]
  cases himages : injection.body images with
  | some body => exact noLead_block images body _
  | none =>
    cases hquestion : injection.body question with
    | some body => exact noLead_block question body _
    | none =>
      cases hseed : injection.body seed with
      | some body => exact noLead_block seed body _
      | none =>
        cases hruntime : injection.body runtime with
        | some body => exact noLead_block runtime body _
        | none => cases kind <;> contradiction

theorem noLead_of_extract (hblock : injection.HasBlock)
    (h : extractUserText (injection.prompt text) = text) : NoLead text := by
  rw [← h, extractUserText, stripForkSeedHistory_eq]
  exact noLead_strip (noLead_strip (noLead_strip (noLead_strip (noLead_prompt hblock text))))

theorem length_keptText_le (kind : GuidanceKind) (body : Option (List Char)) (text : List Char) :
    (kind.keptText body text).length ≤ text.length := by
  rw [keptText]
  split
  · exact Nat.le_refl _
  · exact length_strip_le kind.lettered

theorem keptText_eq_self {body : Option (List Char)}
    (h : text.length ≤ (kind.keptText body text).length) : kind.keptText body text = text ∧
      (body = none → findBlock kind.markers text = none) := by
  cases body with
  | some => exact ⟨rfl, nofun⟩
  | none =>
    have hnone : findBlock kind.markers text = none := by
      by_contra hblock
      obtain ⟨place, hplace⟩ := Option.ne_none_iff_exists'.mp hblock
      have hlt : (kind.keptText none text).length < text.length :=
        strip_shorter kind.lettered hplace
      omega
    exact ⟨(strip_eq_self_iff kind.lettered).mpr hnone, fun _ => hnone⟩

theorem kept_eq_self_iff :
    injection.kept text = text ↔ injection.Blockless text := by
  constructor
  · intro hsame
    rw [kept] at hsame
    have hlength := congrArg List.length hsame
    have hq := length_keptText_le question (injection.body question) text
    have hi := length_keptText_le images (injection.body images)
      (question.keptText (injection.body question) text)
    have hr := length_keptText_le runtime (injection.body runtime) (images.keptText
      (injection.body images) (question.keptText (injection.body question) text))
    have hs := length_keptText_le seed (injection.body seed) (runtime.keptText
      (injection.body runtime) (images.keptText (injection.body images)
        (question.keptText (injection.body question) text)))
    obtain ⟨hquestion, hnoQuestion⟩ := @keptText_eq_self question text (injection.body question)
      (by omega)
    rw [hquestion] at hi hr hs hlength
    obtain ⟨himages, hnoImages⟩ := @keptText_eq_self images text (injection.body images) (by omega)
    rw [himages] at hr hs hlength
    obtain ⟨hruntime, hnoRuntime⟩ := @keptText_eq_self runtime text (injection.body runtime)
      (by omega)
    rw [hruntime] at hs hlength
    obtain ⟨-, hnoSeed⟩ := @keptText_eq_self seed text (injection.body seed) (by omega)
    intro kind
    cases kind with
    | question => exact hnoQuestion
    | images => exact hnoImages
    | runtime => exact hnoRuntime
    | seed => exact hnoSeed
  · intro hblockless
    have hkeeps : ∀ kind : GuidanceKind, kind.keptText (injection.body kind) text = text := by
      intro kind
      have hkind := hblockless kind
      rw [keptText]
      cases hbody : injection.body kind with
      | some => rfl
      | none => exact (strip_eq_self_iff kind.lettered).mpr (hkind hbody)
    rw [kept, hkeeps, hkeeps, hkeeps, hkeeps]

theorem kept_append {front : List Char}
    (h : ∀ kind, injection.body kind = none → Quiet kind.markers front) (text : List Char) :
    injection.kept (front ++ text) = front ++ injection.kept text := by
  have hstep : ∀ (kind : GuidanceKind) (rest : List Char),
      kind.keptText (injection.body kind) (front ++ rest) =
        front ++ kind.keptText (injection.body kind) rest := by
    intro kind rest
    have hkind := h kind
    cases hbody : injection.body kind with
    | some => rfl
    | none => exact strip_front kind.lines (hkind hbody)
  rw [kept, hstep, hstep, hstep, hstep]
  rfl

theorem front_eq_nil {front : List Char} {shorten : List Char → List Char}
    (hfront : ∀ text, shorten (front ++ text) = front ++ shorten text) :
    ∀ text, front ++ shorten text = text → front = [] := by
  intro text
  induction hn : text.length using Nat.strong_induction_on generalizing text with
  | _ n ih =>
    intro hsame
    by_contra hne
    have hpos := List.length_pos_iff.mpr hne
    have hlength := congrArg List.length hsame
    rw [List.length_append] at hlength
    refine hne (ih (shorten text).length (by omega) (shorten text) rfl ?_)
    have hagain := hfront (shorten text)
    rw [hsame] at hagain
    exact hagain.symm

end Injection

section Comes

variable (injection : Injection) (text : List Char)

open Injection GuidanceKind

end Comes

private def fourBlocks : Injection where
  imagePaths := ["/tmp/shot.png".toList]
  asksQuestions := true
  seedHistory := some "User: hello".toList
  runtimeBlock := some (.chat, "one report".toList)

end ClaudeHub
