import ClaudeHub.GoalProtocol.Owed

/-! # What a reply shows that arrives in deltas

The sanitizer's output is compared with the text without its control blocks, for every split of
the text into deltas.
-/

namespace ClaudeHub.GoalProtocol

open TextSearch Lines

variable {table : LowerTable} {tag : ControlTag} {opening : Opening} {i fuel : Nat}
  {text front more found rest body after word visible pending : List Char}
  {inside : Option (List Char)} {final : Bool}

attribute [local simp] feedLoop

theorem feedLoop_nil : feedLoop table final fuel ⟨[], inside⟩ = some ([], ⟨[], inside⟩) := by
  cases fuel <;> simp [feedLoop]

theorem feedLoop_unclosed (h : pending ≠ []) (hsplit : splitBody tag pending = none) :
    feedLoop table final (fuel + 1) ⟨pending, some tag.word⟩ =
      some ([], ⟨pending.drop (pending.length - min pending.length (tag.closer.length - 1)),
        some tag.word⟩) := by
  rw [feedLoop, if_neg h]
  dsimp only
  rw [closerOf_word]
  dsimp only
  rw [findAt_closer_eq_none.2 hsplit]

theorem feedLoop_closed (h : pending ≠ [])
    (hsplit : splitBody tag pending = some (body, after)) :
    feedLoop table final (fuel + 1) ⟨pending, some tag.word⟩ =
      feedLoop table final fuel ⟨after.drop (body.count dottedCapitalI), none⟩ := by
  obtain ⟨closeAt, hclose, hdrop⟩ := @findAt_closer table _ _ _ _ hsplit
  rw [feedLoop, if_neg h]
  dsimp only
  rw [closerOf_word]
  dsimp only
  rw [hclose]
  dsimp only
  rw [hdrop]

theorem feedLoop_opening (hopening : findOpening pending = some (i, opening)) :
    feedLoop table final (fuel + 1) ⟨pending, none⟩ =
      (feedLoop table final fuel ⟨opening.rest, some (table.lower opening.word)⟩).map
        fun fed => (pending.take i ++ fed.1, fed.2) := by
  have hne : pending ≠ [] := by
    rintro rfl
    exact absurd (length_opening hopening) (Nat.not_lt_zero _)
  rw [feedLoop, if_neg hne]
  dsimp only
  rw [hopening]

theorem feedLoop_plain (h : pending ≠ []) (hopening : findOpening pending = none) :
    feedLoop table final (fuel + 1) ⟨pending, none⟩ =
      some (pending.take (pending.length - possibleOpenerSuffix table pending),
        ⟨if final then [] else pending.drop (pending.length - possibleOpenerSuffix table pending),
          none⟩) := by
  rw [feedLoop, if_neg h]
  dsimp only
  rw [hopening]

theorem Owes.feedLoop_more (h : Owes (pending ++ more) inside visible)
    (hfuel : pending.length ≤ fuel) :
    ∃ shown sanitizer owed, feedLoop table false fuel ⟨pending, inside⟩ = some (shown, sanitizer) ∧
      visible = shown ++ owed ∧ Owes (sanitizer.pending ++ more) sanitizer.inside owed := by
  induction fuel generalizing pending inside visible with
  | zero =>
    obtain rfl := List.length_eq_zero_iff.mp (Nat.le_zero.mp hfuel)
    exact ⟨[], ⟨[], inside⟩, visible, rfl, rfl, h⟩
  | succ fuel ih =>
    by_cases hne : pending = []
    · subst hne
      exact ⟨[], ⟨[], inside⟩, visible, feedLoop_nil, rfl, h⟩
    · cases inside with
      | some =>
        obtain ⟨tag, rfl⟩ := h.tag_of
        cases hsplit : splitBody tag pending with
        | none =>
          rw [feedLoop_unclosed hne hsplit]
          exact ⟨[], _, visible, rfl, rfl, h.keep hsplit⟩
        | some split =>
          obtain ⟨body, after⟩ := split
          have hlt := length_after hsplit
          rw [feedLoop_closed hne hsplit]
          refine ih (h.leave rfl (splitBody_append hsplit more)) ?_
          rw [List.length_drop]
          omega
      | none =>
        cases hopening : findOpening pending with
        | none =>
          obtain ⟨owed, hvisible, howed⟩ := @Owes.release table _ _ _ h hopening
          rw [feedLoop_plain hne hopening]
          exact ⟨_, _, owed, rfl, hvisible, howed⟩
        | some first =>
          obtain ⟨i, opening⟩ := first
          cases h with
          | outside hclean =>
            obtain ⟨visible, hvisible, howes⟩ :=
              @Clean.enter table _ _ _ hclean (findOpening_append hopening more)
            have hlt := length_opening hopening
            obtain ⟨hle, -, -⟩ := findOpening_eq_some.1 hopening
            rw [List.take_append_of_le_length hle] at hvisible
            replace howes : Owes (opening.rest ++ more)
              (some (table.lower opening.word)) visible := howes
            obtain ⟨shown, sanitizer, owed, hloop, hshown, howed⟩ := ih howes (by omega)
            rw [feedLoop_opening hopening, hloop, Option.map_some]
            refine ⟨_, sanitizer, owed, rfl, ?_, howed⟩
            rw [hvisible, hshown, List.append_assoc]

theorem Owes.feedLoop_final (h : Owes pending inside visible) (hfuel : pending.length ≤ fuel) :
    (feedLoop table true fuel ⟨pending, inside⟩).map Prod.fst = some visible := by
  induction fuel generalizing pending inside visible with
  | zero =>
    obtain rfl := List.length_eq_zero_iff.mp (Nat.le_zero.mp hfuel)
    rw [feedLoop_nil, h.nothing]
    rfl
  | succ fuel ih =>
    by_cases hne : pending = []
    · subst hne
      rw [feedLoop_nil, h.nothing]
      rfl
    · cases inside with
      | some =>
        obtain ⟨tag, rfl⟩ := h.tag_of
        cases hsplit : splitBody tag pending with
        | none =>
          rw [feedLoop_unclosed hne hsplit, h.nothing_inside hsplit]
          rfl
        | some split =>
          obtain ⟨body, after⟩ := split
          have hlt := length_after hsplit
          have hbehind := @Owes.leave tag pending [] body after _ visible h rfl
            (by rw [List.append_nil]; exact hsplit)
          rw [List.append_nil] at hbehind
          rw [feedLoop_closed hne hsplit]
          refine ih hbehind ?_
          rw [List.length_drop]
          omega
      | none =>
        cases h with
        | outside hclean =>
          cases hopening : findOpening pending with
          | none =>
            obtain ⟨-, hfind⟩ := @findAt_isTruncated table pending
            rw [feedLoop_plain hne hopening, visibleText_plain hopening, withoutTruncated,
              hfind]
            rfl
          | some first =>
            obtain ⟨i, opening⟩ := first
            obtain ⟨visible, hvisible, howes⟩ := @Clean.enter table _ _ _ hclean hopening
            have hlt := length_opening hopening
            obtain ⟨fed, hfed, hshown⟩ := Option.map_eq_some_iff.mp
              (ih howes (by omega))
            rw [feedLoop_opening hopening, hfed, hvisible, ← hshown]
            rfl

theorem Owes.feedAll {deltas : List (List Char)} {sanitizer : Sanitizer}
    (h : Owes (sanitizer.pending ++ deltas.flatten) sanitizer.inside visible)
    (hne : deltas ≠ []) : sanitizer.feedAll table deltas = some visible := by
  induction deltas generalizing sanitizer visible with
  | nil => exact absurd rfl hne
  | cons delta deltas ih =>
    cases deltas with
    | nil =>
      rw [List.flatten_cons, List.flatten_nil, List.append_nil] at h
      exact h.feedLoop_final (Nat.le_refl _)
    | cons =>
      rw [List.flatten_cons, ← List.append_assoc] at h
      obtain ⟨shown, left, owed, hloop, hvisible, howed⟩ :=
        @Owes.feedLoop_more table _ _ _ _ _ h (Nat.le_refl _)
      have hfeed : sanitizer.feed table delta false = some (shown, left) := hloop
      have hrest := ih howed (by simp)
      rw [Sanitizer.feedAll, hfeed, Option.bind_eq_bind, Option.bind_some]
      dsimp only
      rw [hrest, hvisible]
      rfl

/-- Whatever the deltas in which the text arrives, the sanitizer shows the text without its
control blocks and without a truncated name at its end. -/
def ShownExactly (table : LowerTable) (text : List Char) : Prop :=
  ∀ deltas : List (List Char), deltas ≠ [] → deltas.flatten = text →
    ({} : Sanitizer).feedAll table deltas = some (visibleText text)

theorem Clean.shownExactly (h : Clean text) : ShownExactly table text := by
  rintro deltas hne rfl
  have howes : Owes (([] : List Char) ++ deltas.flatten) none (visibleText deltas.flatten) :=
    .outside h
  exact howes.feedAll hne

/-! ## Texts that it gets wrong -/

theorem feed_block {delta behind : List Char}
    (hopening : findOpening (delta ++ more) = some (i, opening)) (hplain : opening.Plain)
    (hsplit : splitBody opening.tag opening.rest = some (body, behind ++ more))
    (hbehind : behind.length ≤ body.count dottedCapitalI) :
    ({} : Sanitizer).feed table delta false = some ((delta ++ more).take i, {}) := by
  obtain ⟨⟨closer, hcloser, hrest⟩, -⟩ := splitBody_eq_some.1 hsplit
  rw [← List.append_assoc closer, ← List.append_assoc] at hrest
  have hne : body ++ (closer ++ behind) ≠ [] := by
    intro hnil
    have hlength := hcloser.length_eq
    rw [(List.append_eq_nil_iff.mp (List.append_eq_nil_iff.mp hnil).2).1] at hlength
    revert hlength
    cases opening.tag <;> decide
  obtain ⟨hfirst, hle⟩ := findOpening_of_append hopening hrest hne
  have hclosed : splitBody opening.tag (body ++ (closer ++ behind)) = some (body, behind) := by
    rw [hrest] at hsplit
    exact splitBody_of_append hsplit
  have hlt := length_opening hfirst
  have hlt' := length_after hclosed
  obtain ⟨fuel, hfuel⟩ : ∃ fuel, delta.length = fuel + 2 := ⟨delta.length - 2, by
    dsimp only at hlt
    omega⟩
  have hkey : table.lower opening.word = opening.tag.word := hplain.key
  rw [Sanitizer.feed]
  show feedLoop table false delta.length ⟨delta, none⟩ = _
  rw [hfuel, feedLoop_opening hfirst]
  dsimp only
  rw [hkey, feedLoop_closed hne hclosed, List.drop_of_length_le hbehind, feedLoop_nil,
    List.take_append_of_le_length hle, Option.map_some, List.append_nil]

theorem exists_block (hopening : findOpening text = some (i, opening))
    (hsplit : splitBody opening.tag opening.rest = some (body, after ++ more)) :
    ∃ delta, delta ++ more = text := by
  obtain ⟨⟨closer, -, hrest⟩, -⟩ := splitBody_eq_some.1 hsplit
  obtain ⟨-, hhere, -⟩ := findOpening_eq_some.1 hopening
  obtain ⟨found, hfound⟩ := openingHere_eq_some.1 hhere
  refine ⟨text.take i ++ (found ++ (body ++ (closer ++ after))), ?_⟩
  have htext : text.take i ++ (found ++ opening.rest) = text := by
    rw [← hfound.text_eq, List.take_append_drop]
  rw [hrest] at htext
  simpa using htext

theorem feed_raises (hopening : findOpening text = some (i, opening)) (hplain : ¬ opening.Plain) :
    ({} : Sanitizer).feed table text final = none := by
  obtain ⟨-, hhere, -⟩ := findOpening_eq_some.1 hopening
  obtain ⟨found, hfound⟩ := openingHere_eq_some.1 hhere
  have hlt := length_opening hopening
  have hpos := List.length_pos_of_ne_nil hfound.rest_ne_nil
  obtain ⟨fuel, hfuel⟩ : ∃ fuel, text.length = fuel + 2 := ⟨text.length - 2, by omega⟩
  rw [Sanitizer.feed]
  show feedLoop table final text.length ⟨text, none⟩ = _
  rw [hfuel, feedLoop_opening hopening, feedLoop, if_neg hfound.rest_ne_nil]
  dsimp only
  rw [closerOf_not_plain hfound hplain]
  rfl

theorem feedAll_cons {delta : List Char} {deltas : List (List Char)} {sanitizer left : Sanitizer}
    (hne : deltas ≠ []) (hfeed : sanitizer.feed table delta false = some (visible, left)) :
    sanitizer.feedAll table (delta :: deltas) =
      (left.feedAll table deltas).map (visible ++ ·) := by
  cases deltas with
  | nil => exact absurd rfl hne
  | cons next deltas =>
    rw [Sanitizer.feedAll, hfeed, Option.bind_eq_bind, Option.bind_some]
    dsimp only
    cases left.feedAll table (next :: deltas) with
    | none => rfl
    | some => rfl

theorem exists_careful (text : List Char) :
    ∃ deltas : List (List Char), deltas ≠ [] ∧ deltas.flatten = text ∧
      ∀ shown, ({} : Sanitizer).feedAll table deltas = some shown → shown = visibleText text := by
  induction hn : text.length using Nat.strong_induction_on generalizing text with
  | _ n ih =>
    subst hn
    cases hopening : findOpening text with
    | none =>
      refine ⟨[text], by simp, by simp, ?_⟩
      intro shown hshown
      have hclean : ShownExactly table text := (Clean.plain hopening).shownExactly
      rw [hclean [text] (by simp) (by simp)] at hshown
      exact (Option.some.inj hshown).symm
    | some first =>
      obtain ⟨i, opening⟩ := first
      by_cases hplain : opening.Plain
      · cases hsplit : splitBody opening.tag opening.rest with
        | none =>
          refine ⟨[text], by simp, by simp, ?_⟩
          intro shown hshown
          have hclean : ShownExactly table text :=
            (Clean.unclosed hopening hplain hsplit).shownExactly
          rw [hclean [text] (by simp) (by simp)] at hshown
          exact (Option.some.inj hshown).symm
        | some split =>
          obtain ⟨body, after⟩ := split
          have hlt := length_opening hopening
          have hlt' := length_after hsplit
          obtain ⟨deltas, hne, rfl, hshown⟩ := ih after.length (by omega) after rfl
          obtain ⟨delta, rfl⟩ : ∃ delta, delta ++ deltas.flatten = text :=
            @exists_block _ _ _ deltas.flatten body [] hopening hsplit
          refine ⟨delta :: deltas, by simp, by simp, ?_⟩
          intro shown hall
          have hfeed := @feed_block table _ _ _ _ delta [] hopening hplain hsplit
            (Nat.zero_le _)
          rw [feedAll_cons hne hfeed] at hall
          obtain ⟨rest, hrest, rfl⟩ := Option.map_eq_some_iff.mp hall
          rw [hshown rest hrest, visibleText_closed hopening hsplit]
      · refine ⟨[text], by simp, by simp, ?_⟩
        intro shown hshown
        have hraises := @feed_raises table _ _ _ true hopening hplain
        rw [Sanitizer.feedAll, hraises] at hshown
        contradiction

theorem clean_of_shownExactly (h : ShownExactly table text) : Clean text := by
  induction hn : text.length using Nat.strong_induction_on generalizing text with
  | _ n ih =>
    subst hn
    cases hopening : findOpening text with
    | none => exact .plain hopening
    | some first =>
      obtain ⟨i, opening⟩ := first
      have hplain : opening.Plain := by
        by_contra hplain
        have hraises := @feed_raises table _ _ _ true hopening hplain
        have hwhole := h [text] (by simp) (by simp)
        rw [Sanitizer.feedAll, hraises] at hwhole
        contradiction
      cases hsplit : splitBody opening.tag opening.rest with
      | none => exact .unclosed hopening hplain hsplit
      | some split =>
        obtain ⟨body, after⟩ := split
        have hlt := length_opening hopening
        have hlt' := length_after hsplit
        -- the first delta ends `d` characters behind the closing tag
        have hbehind : ∀ d, d ≤ body.count dottedCapitalI → d ≤ after.length →
            ∀ deltas : List (List Char), deltas ≠ [] → deltas.flatten = after.drop d →
              ({} : Sanitizer).feedAll table deltas = some (visibleText after) := by
          intro d hd hle deltas hne hflatten
          have hsplit' : splitBody opening.tag opening.rest =
              some (body, after.take d ++ deltas.flatten) := by
            rw [hflatten, List.take_append_drop]
            exact hsplit
          obtain ⟨delta, rfl⟩ : ∃ delta, delta ++ deltas.flatten = text :=
            exists_block hopening hsplit'
          have hfeed := @feed_block table _ _ _ _ delta _ hopening hplain hsplit'
            (by rw [List.length_take]; omega)
          have hall := h (delta :: deltas) (by simp) (by simp)
          rw [feedAll_cons hne hfeed, visibleText_closed hopening hsplit] at hall
          obtain ⟨rest, hrest, heq⟩ := Option.map_eq_some_iff.mp hall
          rw [hrest, List.append_cancel_left heq]
        have hshown : ∀ d, d ≤ body.count dottedCapitalI → d ≤ after.length →
            visibleText (after.drop d) = visibleText after := by
          intro d hd hle
          obtain ⟨deltas, hne, hflatten, hcareful⟩ := @exists_careful table (after.drop d)
          exact (hcareful _ (hbehind d hd hle deltas hne hflatten)).symm
        refine .closed hopening hplain hsplit ?_ hshown
        intro d hd hle
        refine ih (after.drop d).length ?_ ?_ rfl
        · rw [List.length_drop]
          omega
        · intro deltas hne hflatten
          rw [hbehind d hd hle deltas hne hflatten, hshown d hd hle]

/-- The sanitizer shows the text without its control blocks, in whatever deltas it arrives, if and
only if every opening tag it reaches is spelled plainly and no `İ` in a closed block moves the cut
behind it to where the rest shows something else. -/
theorem shownExactly_iff (table : LowerTable) (text : List Char) :
    ShownExactly table text ↔ Clean text :=
  ⟨clean_of_shownExactly, Clean.shownExactly⟩

private def dottedBody : List Char :=
  "ab <goal-status state=\"complete\">İ</goal-status>cd".toList

private def longSpelling : List Char := "ab <goal-ſtatus>".toList

private def asciiLetters : LowerTable := ⟨id, fun _ h => h⟩

theorem not_shownExactly :
    ¬ ShownExactly asciiLetters dottedBody ∧ ¬ ShownExactly asciiLetters longSpelling := by
  have hdotted : ({} : Sanitizer).feedAll asciiLetters [dottedBody] ≠
      some (visibleText dottedBody) := by decide +kernel
  have hlong : ({} : Sanitizer).feedAll asciiLetters [longSpelling] ≠
      some (visibleText longSpelling) := by decide +kernel
  constructor
  · intro h
    exact hdotted (h [dottedBody] (by simp) (by simp))
  · intro h
    exact hlong (h [longSpelling] (by simp) (by simp))

end ClaudeHub.GoalProtocol
