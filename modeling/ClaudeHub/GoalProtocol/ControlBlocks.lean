import ClaudeHub.GoalProtocol.Openings
import ClaudeHub.Lib.Lists

/-! # What the sanitizer finds in its buffer

The closing tag, the opening tag and the truncated name that it looks for, each as a fact about
the text itself in place of its lower case.
-/

namespace ClaudeHub.GoalProtocol

open TextSearch Lines

variable {table : LowerTable} {tag : ControlTag} {opening : Opening} {i : Nat}
  {text front more found rest body after word : List Char}

theorem closer_tagName (tag : ControlTag) : TagName tag.closer := by
  cases tag
  · exact ⟨all_ascii (by decide), by decide, by decide⟩
  · exact ⟨all_ascii (by decide), by decide, by decide⟩

theorem splitBody_eq_some :
    splitBody tag text = some (body, after) ↔
      (∃ closer, Spelled lowersTo tag.closer closer ∧ text = body ++ (closer ++ after)) ∧
        ∀ j < body.length, startsWith lowersTo tag.closer (text.drop j) = false := by
  rw [splitBody, Option.map_eq_some_iff]
  constructor
  · rintro ⟨i, hi, heq⟩
    obtain ⟨rfl, rfl⟩ := Prod.mk.inj heq
    obtain ⟨hle, hat, hbefore⟩ := findAt_eq_some.mp hi
    obtain ⟨closer, rest, hcloser, hrest⟩ := startsWith_iff.mp hat
    refine ⟨⟨closer, hcloser, ?_⟩, ?_⟩
    · have hdrop : text.drop (i + tag.closer.length) = rest := by
        rw [← List.drop_drop, hrest, ← hcloser.length_eq, List.drop_left]
      rw [hdrop, ← hrest, List.take_append_drop]
    · intro j hj
      rw [List.length_take] at hj
      exact hbefore j (by omega)
  · rintro ⟨⟨closer, hcloser, rfl⟩, hbefore⟩
    refine ⟨body.length, findAt_eq_some.mpr ⟨?_, ?_, hbefore⟩, ?_⟩
    · simp
    · rw [List.drop_left]
      exact startsWith_iff.mpr ⟨closer, after, hcloser, rfl⟩
    · rw [List.take_left, ← List.drop_drop, List.drop_left, ← hcloser.length_eq, List.drop_left]

theorem splitBody_eq_none :
    splitBody tag text = none ↔ findAt (startsWith lowersTo tag.closer) text = none := by
  rw [splitBody, Option.map_eq_none_iff]

theorem startsWith_append_of_le {needle : List Char} (h : needle.length ≤ text.length)
    (more : List Char) :
    startsWith lowersTo needle (text ++ more) = startsWith lowersTo needle text := by
  rw [startsWith, startsWith, dropSpelled_append_of_le h, Option.isSome_map]

theorem startsWith_append {needle : List Char} (h : startsWith lowersTo needle text = true)
    (more : List Char) : startsWith lowersTo needle (text ++ more) = true := by
  obtain ⟨rest, hrest⟩ := Option.isSome_iff_exists.mp h
  rw [startsWith, dropSpelled_append hrest]
  rfl

theorem splitBody_append (h : splitBody tag text = some (body, after)) (more : List Char) :
    splitBody tag (text ++ more) = some (body, after ++ more) := by
  obtain ⟨⟨closer, hcloser, rfl⟩, hbefore⟩ := splitBody_eq_some.1 h
  refine splitBody_eq_some.2 ⟨⟨closer, hcloser, by simp⟩, ?_⟩
  intro j hj
  have hlength := hcloser.length_eq
  rw [List.drop_append_of_le_length (by rw [List.length_append]; omega), startsWith_append_of_le]
  · exact hbefore j hj
  · rw [List.length_drop, List.length_append, List.length_append]
    omega

theorem splitBody_of_append (h : splitBody tag (text ++ more) = some (body, after ++ more))
    : splitBody tag text = some (body, after) := by
  obtain ⟨⟨closer, hcloser, htext⟩, hbefore⟩ := splitBody_eq_some.1 h
  have heq : text = body ++ (closer ++ after) := by
    rw [← List.append_assoc, ← List.append_assoc] at htext
    rw [← List.append_assoc]
    exact List.append_cancel_right htext
  refine splitBody_eq_some.2 ⟨⟨closer, hcloser, heq⟩, ?_⟩
  intro j hj
  by_contra hstart
  rw [Bool.not_eq_false] at hstart
  have hle : j ≤ text.length := by
    rw [heq, List.length_append]
    omega
  have hmore := startsWith_append hstart more
  rw [← List.drop_append_of_le_length hle, hbefore j hj] at hmore
  contradiction

theorem splitBody_keep (h : splitBody tag text = none) (more : List Char) :
    splitBody tag (text ++ more) =
      (splitBody tag (text.drop (text.length - min text.length (tag.closer.length - 1)) ++
        more)).map fun split =>
          (text.take (text.length - min text.length (tag.closer.length - 1)) ++ split.1,
            split.2) := by
  generalize hcut : text.length - min text.length (tag.closer.length - 1) = cut
  have hle : cut ≤ text.length := by omega
  have hnone := findAt_eq_none.mp (splitBody_eq_none.1 h)
  have hbefore : ∀ j < (text.take cut).length, startsWith lowersTo tag.closer
      ((text.take cut).drop j ++ (text.drop cut ++ more)) = false := by
    intro j hj
    rw [List.length_take] at hj
    have hpos : 0 < tag.closer.length := by cases tag <;> decide
    rw [← List.append_assoc, ← List.drop_append_of_le_length (by rw [List.length_take]; omega),
      List.take_append_drop, startsWith_append_of_le]
    · exact hnone j (by omega)
    · rw [List.length_drop]
      omega
  have hfind := findAt_append_of_neg hbefore
  rw [← List.append_assoc, List.take_append_drop] at hfind
  rw [splitBody, hfind, splitBody, Option.map_map, Option.map_map]
  cases findAt (startsWith lowersTo tag.closer) (text.drop cut ++ more) with
  | none => rfl
  | some i =>
    have hsplit : text ++ more = text.take cut ++ (text.drop cut ++ more) := by
      rw [← List.append_assoc, List.take_append_drop]
    simp only [Option.map_some, Function.comp_apply]
    rw [hsplit, Nat.add_comm i, List.take_length_add_append, Nat.add_assoc,
      List.drop_length_add_append]

theorem findAt_closer_eq_none :
    findAt (startsWith (· == ·) tag.closer) (table.lower text) = none ↔
      splitBody tag text = none := by
  rw [findAt_lower (closer_tagName tag), Option.map_eq_none_iff, splitBody_eq_none]

/-- The cut behind a closing tag counts a `İ` of the body twice. -/
theorem findAt_closer (h : splitBody tag text = some (body, after)) :
    ∃ closeAt, findAt (startsWith (· == ·) tag.closer) (table.lower text) = some closeAt ∧
      text.drop (closeAt + tag.closer.length) = after.drop (body.count dottedCapitalI) := by
  obtain ⟨⟨closer, hcloser, htext⟩, hbefore⟩ := splitBody_eq_some.1 h
  have hfind : findAt (startsWith lowersTo tag.closer) text = some body.length := by
    refine findAt_eq_some.mpr ⟨?_, ?_, hbefore⟩
    · rw [htext]
      simp
    · rw [htext, List.drop_left]
      exact startsWith_iff.mpr ⟨closer, after, hcloser, rfl⟩
  refine ⟨body.length + body.count dottedCapitalI, ?_, ?_⟩
  · rw [findAt_lower (closer_tagName tag), hfind, Option.map_some, htext, List.take_left,
      length_lower]
  · rw [htext, ← hcloser.length_eq, Nat.add_assoc, ← List.drop_drop, List.drop_left,
      Nat.add_comm, ← List.drop_drop, List.drop_left]

theorem word_ascii (tag : ControlTag) : ∀ p ∈ tag.word, p.toNat < 128 := by
  cases tag <;> exact all_ascii (by decide)

theorem lower_eq_iff (hascii : ∀ p ∈ word, p.toNat < 128) :
    table.lower text = word ↔ Spelled lowersTo word text := by
  induction text generalizing word with
  | nil =>
    constructor
    · rintro rfl
      exact .nil
    · intro h
      cases h
      rfl
  | cons c text ih =>
    by_cases hc : c = dottedCapitalI
    · subst hc
      constructor
      · rintro rfl
        have hdot := hascii combiningDot (by
          rw [lower_cons, lowerChar_dottedCapitalI]
          simp)
        exact absurd hdot (by decide)
      · intro h
        cases h with
        | cons hsame =>
          rw [lowersTo_dottedCapitalI] at hsame
          contradiction
    · obtain ⟨d, hd, hsame⟩ := @lowerChar_single table c hc
      rw [lower_cons, hd, List.singleton_append]
      constructor
      · rintro rfl
        have hrest := ih fun p hp => hascii p (List.mem_cons_of_mem _ hp)
        refine .cons ?_ (hrest.1 rfl)
        rw [← hsame d (hascii d (List.mem_cons_self ..))]
        exact beq_self_eq_true d
      · intro h
        cases h with
        | @cons p _ ps _ hp htail =>
          have hrest := ih fun q hq => hascii q (List.mem_cons_of_mem _ hq)
          rw [← hsame p (hascii p (List.mem_cons_self ..))] at hp
          rw [hrest.2 htail, eq_of_beq hp]

theorem closerOf_word (tag : ControlTag) : closerOf tag.word = some tag.closer := by
  cases tag <;> decide

def Opening.Plain (opening : Opening) : Prop :=
  Spelled lowersTo opening.tag.word opening.word

theorem Opening.Plain.key (h : opening.Plain) : table.lower opening.word = opening.tag.word :=
  (lower_eq_iff (word_ascii opening.tag)).2 h

theorem length_le_lower : text.length ≤ (table.lower text).length := by
  rw [length_lower]
  omega

theorem closerOf_not_plain (hopens : OpensWith text found opening) (h : ¬ opening.Plain) :
    closerOf (table.lower opening.word) = none := by
  rw [closerOf, Option.map_eq_none_iff, List.find?_eq_none]
  intro tag _ htag
  have hlower : tag.word = table.lower opening.word := by simpa using htag
  have hspelled : Spelled lowersTo tag.word opening.word :=
    (lower_eq_iff (word_ascii tag)).1 hlower.symm
  have hlength := hspelled.length_eq
  have hword := spelled_word hopens.spelled
  rw [← hopens.word_eq] at hword
  have htags : tag = opening.tag := by
    have hlength' := hword.length_eq
    rw [hlength] at hlength'
    revert hlength'
    cases tag <;> cases opening.tag <;> decide
  rw [htags] at hspelled
  exact h hspelled

theorem isTruncated_iff : isTruncated text = true ↔
    ∃ tag : ControlTag, text.length ≤ tag.name.length ∧
      Spelled lowersTo (tag.name.take text.length) text := by
  rw [isTruncated, List.any_eq_true]
  constructor
  · rintro ⟨tag, -, htag⟩
    rw [Bool.and_eq_true, decide_eq_true_eq] at htag
    obtain ⟨found, rest, hfound, htext⟩ := startsWith_iff.mp htag.2
    have hlength := hfound.length_eq
    rw [List.length_take, Nat.min_eq_left htag.1, htext, List.length_append] at hlength
    have hrest : rest = [] := List.length_eq_zero_iff.mp (by omega)
    rw [hrest, List.append_nil] at htext
    rw [← htext] at hfound
    exact ⟨tag, htag.1, hfound⟩
  · rintro ⟨tag, hle, hfound⟩
    refine ⟨tag, by cases tag <;> decide, ?_⟩
    rw [Bool.and_eq_true, decide_eq_true_eq]
    exact ⟨hle, startsWith_iff.mpr ⟨text, [], hfound, (List.append_nil text).symm⟩⟩

theorem isTruncated_nil : isTruncated [] = true :=
  isTruncated_iff.2 ⟨.status, Nat.zero_le _, .nil⟩

theorem isTruncated_name (h : Spelled lowersTo tag.name found) : isTruncated found = true := by
  refine isTruncated_iff.2 ⟨tag, ?_, ?_⟩
  · rw [h.length_eq]
  · rw [h.length_eq, List.take_length]
    exact h

theorem isTruncated_of_append (h : isTruncated (text ++ more) = true) :
    isTruncated text = true := by
  obtain ⟨tag, hle, hfound⟩ := isTruncated_iff.1 h
  rw [List.length_append] at hle
  refine isTruncated_iff.2 ⟨tag, by omega, ?_⟩
  have htake := List.forall₂_take text.length hfound
  rw [List.take_left, List.take_take, List.length_append,
    Nat.min_eq_left (Nat.le_add_right ..)] at htake
  exact htake

theorem lower_eq_append (hascii : ∀ p ∈ word, p.toNat < 128)
    (h : table.lower text = front ++ word) :
    ∃ found, Spelled lowersTo word found ∧ found <:+ text := by
  induction text generalizing front with
  | nil =>
    obtain ⟨-, rfl⟩ := List.append_eq_nil_iff.mp h.symm
    exact ⟨[], .nil, List.suffix_refl []⟩
  | cons c text ih =>
    cases front with
    | nil => exact ⟨c :: text, (lower_eq_iff hascii).1 h, List.suffix_refl _⟩
    | cons d front =>
      by_cases hc : c = dottedCapitalI
      · rw [lower_cons, hc, lowerChar_dottedCapitalI] at h
        cases front with
        | nil =>
          obtain rfl := (List.cons.inj h).2
          exact absurd (hascii combiningDot (List.mem_cons_self ..)) (by decide)
        | cons =>
          obtain ⟨found, hfound, hsuffix⟩ := ih (List.cons.inj (List.cons.inj h).2).2
          exact ⟨found, hfound, hsuffix.trans (List.suffix_cons ..)⟩
      · obtain ⟨e, he, -⟩ := @lowerChar_single table c hc
        rw [lower_cons, he] at h
        obtain ⟨found, hfound, hsuffix⟩ := ih (List.cons.inj h).2
        exact ⟨found, hfound, hsuffix.trans (List.suffix_cons ..)⟩

theorem lower_append : table.lower (text ++ more) = table.lower text ++ table.lower more := by
  rw [LowerTable.lower, List.flatMap_append]
  rfl

theorem isSuffixOf_lower (hascii : ∀ p ∈ word, p.toNat < 128) :
    word.isSuffixOf (table.lower text) = true ↔
      ∃ found, Spelled lowersTo word found ∧ found <:+ text := by
  rw [List.isSuffixOf_iff_suffix]
  constructor
  · rintro ⟨front, hfront⟩
    exact lower_eq_append hascii hfront.symm
  · rintro ⟨found, hfound, front, rfl⟩
    rw [lower_append, (lower_eq_iff hascii).2 hfound]
    exact List.suffix_append ..

theorem name_ascii (tag : ControlTag) : ∀ p ∈ tag.name, p.toNat < 128 := by
  cases tag <;> exact all_ascii (by decide)

/-- The lengths that `_possible_opener_suffix` takes the largest of. -/
def openerSuffixes (table : LowerTable) (text : List Char) : List Nat :=
  controlTags.flatMap fun tag =>
    (List.range' 1 (min (table.lower text).length tag.name.length)).filter fun length =>
      (tag.name.take length).isSuffixOf (table.lower text)

theorem mem_openerSuffixes {length : Nat} : length ∈ openerSuffixes table text ↔
    1 ≤ length ∧ length ≤ text.length ∧ isTruncated (text.drop (text.length - length)) = true := by
  rw [openerSuffixes, List.mem_flatMap]
  constructor
  · rintro ⟨tag, -, hmem⟩
    obtain ⟨hrange, hsuffix⟩ := List.mem_filter.mp hmem
    obtain ⟨hpos, hlt⟩ := List.mem_range'_1.mp hrange
    have hascii : ∀ p ∈ tag.name.take length, p.toNat < 128 :=
      fun p hp => name_ascii tag p (List.mem_of_mem_take hp)
    obtain ⟨found, hfound, front, rfl⟩ := (isSuffixOf_lower hascii).1 hsuffix
    have hlength := hfound.length_eq
    rw [List.length_take, Nat.min_eq_left (by omega)] at hlength
    rw [List.length_append, hlength, Nat.add_sub_cancel, List.drop_left]
    refine ⟨hpos, Nat.le_add_left .., isTruncated_iff.2 ⟨tag, by omega, ?_⟩⟩
    rw [hlength]
    exact hfound
  · rintro ⟨hpos, hle, htruncated⟩
    obtain ⟨tag, hlength, hfound⟩ := isTruncated_iff.1 htruncated
    rw [List.length_drop, Nat.sub_sub_self hle] at hlength hfound
    have hascii : ∀ p ∈ tag.name.take length, p.toNat < 128 :=
      fun p hp => name_ascii tag p (List.mem_of_mem_take hp)
    have hlower := @length_le_lower table text
    refine ⟨tag, by cases tag <;> decide, List.mem_filter.mpr ⟨?_, ?_⟩⟩
    · exact List.mem_range'_1.mpr ⟨hpos, by omega⟩
    · exact (isSuffixOf_lower hascii).2 ⟨_, hfound, List.drop_suffix ..⟩

theorem findAt_isTruncated :
    possibleOpenerSuffix table text ≤ text.length ∧
      findAt isTruncated text = some (text.length - possibleOpenerSuffix table text) := by
  have hmax : possibleOpenerSuffix table text = 0 ∨
      possibleOpenerSuffix table text ∈ openerSuffixes table text :=
    List.foldl_max_eq_or_mem (openerSuffixes table text) 0
  have hle : possibleOpenerSuffix table text ≤ text.length := by
    rcases hmax with hzero | hmem
    · omega
    · exact (mem_openerSuffixes.1 hmem).2.1
  refine ⟨hle, findAt_eq_some.mpr ⟨Nat.sub_le .., ?_, ?_⟩⟩
  · rcases hmax with hzero | hmem
    · rw [hzero, Nat.sub_zero, List.drop_length]
      exact isTruncated_nil
    · exact (mem_openerSuffixes.1 hmem).2.2
  · intro j hj
    by_contra htruncated
    rw [Bool.not_eq_false] at htruncated
    have hmem : text.length - j ∈ openerSuffixes table text := by
      refine mem_openerSuffixes.2 ⟨by omega, Nat.sub_le .., ?_⟩
      rw [Nat.sub_sub_self (by omega)]
      exact htruncated
    have hlargest : text.length - j ≤ possibleOpenerSuffix table text :=
      List.le_foldl_max (Or.inr hmem)
    omega

end ClaudeHub.GoalProtocol
