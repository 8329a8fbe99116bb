import ClaudeHub.GoalProtocol.Sanitizer

/-! # Opening tags in a growing text

A tag that has been found is found again when more text arrives, and a text in which none has been
found can only have one that starts where its end is the start of a name.
-/

namespace ClaudeHub.GoalProtocol

open TextSearch Lines

variable {table : LowerTable} {tag other : ControlTag} {opening : Opening} {i : Nat}
  {text front more found rest : List Char}

theorem name_eq (tag : ControlTag) : tag.name = '<' :: ("goal-".toList ++ tag.word) := by
  cases tag <;> rfl

theorem bracket_not_mem_name (tag : ControlTag) : '<' ∉ "goal-".toList ++ tag.word := by
  cases tag <;> decide

theorem length_name (tag : ControlTag) : tag.name.length = 6 + tag.word.length := by
  cases tag <;> rfl

theorem spelled_name_bracket (h : Spelled ignoresCase tag.name found) :
    ∃ tail, found = '<' :: tail ∧ '<' ∉ tail := by
  rw [name_eq] at h
  cases h with
  | cons hbracket htail =>
    obtain rfl := eq_of_ignoresCase (by decide) hbracket
    exact ⟨_, rfl, bracket_not_mem htail (bracket_not_mem_name tag)⟩

theorem ignoresCase_eq {p c : Char} (hi : p ≠ 'i') (hs : p ≠ 's') :
    ignoresCase p c = lowersTo p c := by
  have hi' : (p == 'i') = false := beq_false_of_ne hi
  have hs' : (p == 's') = false := beq_false_of_ne hs
  rw [ignoresCase, hi', hs', Bool.false_and, Bool.false_and, Bool.or_false, Bool.or_false]

theorem spelled_stem {needle : List Char} (hneedle : ∀ p ∈ needle, p ≠ 'i' ∧ p ≠ 's')
    (h : Spelled ignoresCase needle found) : Spelled lowersTo needle found := by
  induction h with
  | nil => exact .nil
  | @cons p c ps cs hp _ ih =>
    have hne := hneedle p (List.mem_cons_self ..)
    rw [ignoresCase_eq hne.1 hne.2] at hp
    exact .cons hp (ih fun q hq => hneedle q (List.mem_cons_of_mem _ hq))

theorem drop_name (tag : ControlTag) : tag.name.drop 6 = tag.word := by
  cases tag <;> rfl

theorem spelled_word (h : Spelled ignoresCase tag.name found) :
    Spelled ignoresCase tag.word (found.drop 6) := by
  have hdrop := List.forall₂_drop 6 h
  rw [drop_name] at hdrop
  exact hdrop

theorem spelled_name_plain (h : Spelled ignoresCase tag.name found)
    (hword : Spelled lowersTo tag.word (found.drop 6)) : Spelled lowersTo tag.name found := by
  have hstem : Spelled ignoresCase "<goal-".toList (found.take 6) := by
    have htake := List.forall₂_take 6 h
    have hname : tag.name.take 6 = "<goal-".toList := by cases tag <;> decide
    rw [hname] at htake
    exact htake
  have hplain : ("<goal-".toList.all fun p => decide (p ≠ 'i' ∧ p ≠ 's')) = true := by decide
  have hsplit : Spelled lowersTo tag.name (found.take 6 ++ found.drop 6) :=
    List.rel_append (spelled_stem (fun p hp =>
      of_decide_eq_true (List.all_eq_true.mp hplain p hp)) hstem) hword
  rw [List.take_append_drop] at hsplit
  exact hsplit

theorem ignoresCase_apart {c : Char} (hc : ignoresCase 'c' c = true) :
    ignoresCase 's' c = false := by
  rw [ignoresCase_eq (by decide) (by decide)] at hc
  have hlower : c.toNat < 128 ∧ c.toLower = 'c' := by simpa [lowersTo] using hc
  have hlong : c ≠ longS := by
    rintro rfl
    exact absurd hlower.1 (by decide)
  have hlong' : (c == longS) = false := beq_false_of_ne hlong
  have hlowers : lowersTo 's' c = false := by simp [lowersTo, hlower.2]
  rw [ignoresCase, hlowers, hlong']
  rfl

theorem spelled_checkpoint (h : Spelled ignoresCase ControlTag.checkpoint.word found) :
    ∃ c tail, found = c :: tail ∧ ignoresCase 'c' c = true := by
  rw [show ControlTag.checkpoint.word = 'c' :: "heckpoint".toList by decide] at h
  cases h with
  | cons hc _ => exact ⟨_, _, rfl, hc⟩

theorem spelled_status (h : Spelled ignoresCase ControlTag.status.word found) :
    ∃ c tail, found = c :: tail ∧ ignoresCase 's' c = true := by
  rw [show ControlTag.status.word = 's' :: "tatus".toList by decide] at h
  cases h with
  | cons hs _ => exact ⟨_, _, rfl, hs⟩

theorem words_apart {other rest' : List Char}
    (h : Spelled ignoresCase ControlTag.checkpoint.word found)
    (hother : Spelled ignoresCase ControlTag.status.word other)
    (htext : found ++ rest = other ++ rest') : False := by
  obtain ⟨c, tail, rfl, hc⟩ := spelled_checkpoint h
  obtain ⟨d, tail', rfl, hd⟩ := spelled_status hother
  obtain ⟨rfl, -⟩ := List.cons.inj htext
  rw [ignoresCase_apart hc] at hd
  contradiction

theorem tag_unique {found' rest' : List Char} (h : Spelled ignoresCase tag.name found)
    (h' : Spelled ignoresCase other.name found') (htext : found ++ rest = found' ++ rest') :
    tag = other := by
  have hword := spelled_word h
  have hword' := spelled_word h'
  have hle : 6 ≤ found.length := by
    rw [h.length_eq, length_name]
    omega
  have hle' : 6 ≤ found'.length := by
    rw [h'.length_eq, length_name]
    omega
  have hdrop : found.drop 6 ++ rest = found'.drop 6 ++ rest' := by
    rw [← List.drop_append_of_le_length hle, htext, List.drop_append_of_le_length hle']
  cases tag <;> cases other
  · rfl
  · exact absurd hdrop fun h => words_apart hword hword' h
  · exact absurd hdrop.symm fun h => words_apart hword' hword h
  · rfl

/-- The text starts with the opening tag: its name, spelled `found`, and a delimiter. -/
structure OpensWith (text found : List Char) (opening : Opening) : Prop where
  text_eq : text = found ++ opening.rest
  spelled : Spelled ignoresCase opening.tag.name found
  delimited : opening.rest.head?.any opensTag = true
  word_eq : opening.word = found.drop 6

theorem openingAs_eq_some :
    openingAs tag text = some opening ↔
      ∃ found, OpensWith text found opening ∧ opening.tag = tag := by
  unfold openingAs
  constructor
  · intro h
    split at h
    · rename_i rest hrest
      split at h
      · rename_i hhead
        obtain ⟨found, hfound, rfl⟩ := dropSpelled_eq_some.mp hrest
        cases h
        refine ⟨found, ⟨rfl, hfound, hhead, ?_⟩, rfl⟩
        have hlength := hfound.length_eq
        rw [length_name] at hlength
        show ((found ++ rest).drop 6).take tag.word.length = found.drop 6
        rw [List.drop_append_of_le_length (by omega), List.take_append_of_le_length]
        · rw [List.take_of_length_le]
          rw [List.length_drop]
          omega
        · rw [List.length_drop]
          omega
      · contradiction
    · contradiction
  · rintro ⟨found, ⟨rfl, hfound, hhead, hword⟩, rfl⟩
    have hlength := hfound.length_eq
    rw [length_name] at hlength
    rw [dropSpelled_eq_some.mpr ⟨found, hfound, rfl⟩]
    dsimp only
    rw [if_pos hhead, List.drop_append_of_le_length (by omega), List.take_append_of_le_length,
      List.take_of_length_le, ← hword]
    · rw [List.length_drop]
      omega
    · rw [List.length_drop]
      omega

theorem openingHere_eq_some :
    openingHere text = some opening ↔ ∃ found, OpensWith text found opening := by
  constructor
  · intro h
    obtain ⟨tag, -, htag⟩ := List.exists_of_findSome?_eq_some h
    obtain ⟨found, hfound, -⟩ := openingAs_eq_some.1 htag
    exact ⟨found, hfound⟩
  · rintro ⟨found, hfound⟩
    have hhere : openingAs opening.tag text = some opening :=
      openingAs_eq_some.2 ⟨found, hfound, rfl⟩
    have hother : ∀ tag, tag ≠ opening.tag → openingAs tag text = none := by
      intro tag hne
      rw [Option.eq_none_iff_forall_ne_some]
      intro o ho
      obtain ⟨found', hfound', rfl⟩ := openingAs_eq_some.1 ho
      have htext : found' ++ o.rest = found ++ opening.rest := by
        rw [← hfound'.text_eq, ← hfound.text_eq]
      exact hne (tag_unique hfound'.spelled hfound.spelled htext)
    rw [openingHere, controlTags]
    cases htag : opening.tag with
    | checkpoint =>
      rw [htag] at hhere
      rw [List.findSome?_cons, hhere]
    | status =>
      rw [htag] at hhere
      rw [List.findSome?_cons, hother .checkpoint (by rw [htag]; decide), List.findSome?_cons,
        hhere]

def Opening.extend (opening : Opening) (more : List Char) : Opening :=
  { opening with rest := opening.rest ++ more }

theorem OpensWith.rest_ne_nil (h : OpensWith text found opening) : opening.rest ≠ [] := by
  intro hnil
  have hhead := h.delimited
  rw [hnil] at hhead
  contradiction

theorem OpensWith.append (h : OpensWith text found opening) (more : List Char) :
    OpensWith (text ++ more) found (opening.extend more) := by
  refine ⟨?_, h.spelled, ?_, h.word_eq⟩
  · rw [h.text_eq, List.append_assoc]
    rfl
  · have hhead := h.delimited
    cases hrest : opening.rest with
    | nil => exact absurd hrest h.rest_ne_nil
    | cons =>
      rw [hrest] at hhead
      rw [Opening.extend, hrest]
      exact hhead

theorem openingHere_append (h : openingHere text = some opening) (more : List Char) :
    openingHere (text ++ more) = some (opening.extend more) := by
  obtain ⟨found, hfound⟩ := openingHere_eq_some.1 h
  exact openingHere_eq_some.2 ⟨found, hfound.append more⟩

theorem not_opensTag : (('<' :: rest).head?.any opensTag) = false := by
  rw [List.head?_cons, Option.any_some]
  decide

theorem OpensWith.bracket (h : OpensWith (front ++ '<' :: rest) found opening)
    (hfront : front ≠ []) : ∃ behind, opening.rest = behind ++ '<' :: rest ∧
      front = found ++ behind ∧ behind ≠ [] := by
  obtain ⟨tail, rfl, htail⟩ := spelled_name_bracket h.spelled
  have htext := h.text_eq
  have hhead := h.delimited
  rcases List.append_eq_append_iff.mp htext with ⟨gap, hgap, hrest⟩ | ⟨gap, hgap, hrest⟩
  · cases gap with
    | nil =>
      rw [← show '<' :: rest = opening.rest from hrest, not_opensTag] at hhead
      contradiction
    | cons =>
      obtain ⟨rfl, -⟩ := List.cons.inj hrest
      cases front with
      | nil => exact absurd rfl hfront
      | cons =>
        have hmem : '<' ∈ tail := by
          rw [(List.cons.inj hgap).2]
          simp
        exact absurd hmem htail
  · refine ⟨gap, hrest, hgap, ?_⟩
    rintro rfl
    rw [hrest, List.nil_append, not_opensTag] at hhead
    contradiction

theorem OpensWith.restrict {behind : List Char} (h : OpensWith (front ++ more) found opening)
    (hfront : front = found ++ behind) (hne : behind ≠ []) :
    OpensWith front found { opening with rest := behind } ∧ opening.rest = behind ++ more := by
  have hrest : opening.rest = behind ++ more := by
    have htext := h.text_eq
    rw [hfront, List.append_assoc] at htext
    exact (List.append_cancel_left htext).symm
  refine ⟨⟨hfront, h.spelled, ?_, h.word_eq⟩, hrest⟩
  have hhead := h.delimited
  cases behind with
  | nil => exact absurd rfl hne
  | cons =>
    rw [hrest] at hhead
    exact hhead

theorem findOpening_eq_some :
    findOpening text = some (i, opening) ↔
      i ≤ text.length ∧ openingHere (text.drop i) = some opening ∧
        ∀ j < i, openingHere (text.drop j) = none := by
  rw [findOpening, Option.bind_eq_some_iff]
  constructor
  · rintro ⟨k, hk, hmap⟩
    obtain ⟨hle, -, hbefore⟩ := findAt_eq_some.mp hk
    obtain ⟨o, ho, heq⟩ := Option.map_eq_some_iff.mp hmap
    obtain ⟨rfl, rfl⟩ := Prod.mk.inj heq
    refine ⟨hle, ho, ?_⟩
    intro j hj
    exact Option.not_isSome_iff_eq_none.mp (by rw [hbefore j hj]; exact Bool.false_ne_true)
  · rintro ⟨hle, hhere, hbefore⟩
    refine ⟨i, findAt_eq_some.mpr ⟨hle, ?_, ?_⟩, ?_⟩
    · rw [hhere]
      rfl
    · intro j hj
      rw [hbefore j hj]
      rfl
    · rw [hhere]
      rfl

theorem findOpening_eq_none :
    findOpening text = none ↔ ∀ j ≤ text.length, openingHere (text.drop j) = none := by
  constructor
  · intro h j hj
    by_contra hsome
    obtain ⟨o, ho⟩ := Option.ne_none_iff_exists'.mp hsome
    have hfound : (findAt (fun rest => (openingHere rest).isSome) text).isSome = true :=
      isSome_findAt.mpr ⟨j, hj, by rw [ho]; rfl⟩
    obtain ⟨i, hi⟩ := Option.isSome_iff_exists.mp hfound
    obtain ⟨-, hat, -⟩ := findAt_eq_some.mp hi
    obtain ⟨o', ho'⟩ := Option.isSome_iff_exists.mp hat
    rw [findOpening, hi, Option.bind_some, ho'] at h
    contradiction
  · intro h
    rw [Option.eq_none_iff_forall_ne_some]
    rintro ⟨i, opening⟩ hsome
    obtain ⟨hle, hhere, -⟩ := findOpening_eq_some.1 hsome
    rw [h i hle] at hhere
    contradiction

theorem findOpening_append (h : findOpening text = some (i, opening)) (more : List Char) :
    findOpening (text ++ more) = some (i, opening.extend more) := by
  obtain ⟨hle, hhere, hbefore⟩ := findOpening_eq_some.1 h
  refine findOpening_eq_some.2 ⟨?_, ?_, ?_⟩
  · rw [List.length_append]
    omega
  · rw [List.drop_append_of_le_length hle]
    exact openingHere_append hhere more
  · intro j hj
    rw [Option.eq_none_iff_forall_ne_some]
    intro o ho
    obtain ⟨found, hfound⟩ := openingHere_eq_some.1 hhere
    obtain ⟨tail, rfl, -⟩ := spelled_name_bracket hfound.spelled
    obtain ⟨found', hfound'⟩ := openingHere_eq_some.1 ho
    have hsplit : text.drop j =
        (text.drop j).take (i - j) ++ '<' :: (tail ++ opening.rest) := by
      have hdrop : text.drop i = '<' :: (tail ++ opening.rest) := hfound.text_eq
      rw [← hdrop]
      have hdrop' : text.drop i = (text.drop j).drop (i - j) := by
        rw [List.drop_drop]
        congr 1
        omega
      rw [hdrop', List.take_append_drop]
    have hne : (text.drop j).take (i - j) ≠ [] := by
      rw [← List.length_pos_iff_ne_nil, List.length_take, List.length_drop]
      omega
    rw [List.drop_append_of_le_length (by omega)] at hfound'
    have hopens := hfound'
    rw [hsplit, List.append_assoc, List.cons_append] at hopens
    obtain ⟨behind, -, hfront, -⟩ := hopens.bracket hne
    have hinside : text.drop j = found' ++ (behind ++ '<' :: (tail ++ opening.rest)) := by
      rw [← List.append_assoc, ← hfront]
      exact hsplit
    have hthere := openingHere_eq_some.2 ⟨_, (hfound'.restrict hinside (by simp)).1⟩
    rw [hbefore j hj] at hthere
    contradiction

theorem findOpening_of_append (h : findOpening (text ++ more) = some (i, opening))
    (hrest : opening.rest = rest ++ more) (hne : rest ≠ []) :
    findOpening text = some (i, { opening with rest := rest }) ∧ i ≤ text.length := by
  obtain ⟨hle, hhere, hbefore⟩ := findOpening_eq_some.1 h
  obtain ⟨found, hfound⟩ := openingHere_eq_some.1 hhere
  have htext : text = (text ++ more).take i ++ (found ++ rest) := by
    have hsplit : text ++ more = (text ++ more).take i ++ (found ++ (rest ++ more)) := by
      rw [← hrest, ← hfound.text_eq, List.take_append_drop]
    rw [← List.append_assoc found, ← List.append_assoc] at hsplit
    exact List.append_cancel_right hsplit
  have hlength : ((text ++ more).take i).length = i := by
    rw [List.length_take]
    omega
  have hi : i ≤ text.length := by
    rw [htext, List.length_append, hlength]
    omega
  have hdrop : text.drop i = found ++ rest := by
    rw [htext, List.drop_append, hlength, Nat.sub_self,
      List.drop_of_length_le (Nat.le_of_eq hlength)]
    rfl
  rw [List.drop_append_of_le_length hi] at hfound
  refine ⟨findOpening_eq_some.2 ⟨hi, ?_, ?_⟩, hi⟩
  · exact openingHere_eq_some.2 ⟨found, (hfound.restrict hdrop hne).1⟩
  · intro j hj
    rw [Option.eq_none_iff_forall_ne_some]
    intro o ho
    have hmore := openingHere_append ho more
    rw [← List.drop_append_of_le_length (by omega), hbefore j hj] at hmore
    contradiction

end ClaudeHub.GoalProtocol
