import ClaudeHub.GoalProtocol.ControlBlocks

/-! # What the sanitizer owes

The text without its control blocks, the texts that the sanitizer gets right, and what it has to
show from any point of such a text on. A `İ` in the body of a block moves the cut behind its
closing tag, as far as the text behind it has arrived.
-/

namespace ClaudeHub.GoalProtocol

open TextSearch Lines

variable {table : LowerTable} {tag : ControlTag} {opening : Opening} {i : Nat}
  {text front more found rest body after word visible : List Char}

attribute [local simp] visibleWithin

theorem OpensWith.length_rest (h : OpensWith text found opening) :
    opening.rest.length < text.length := by
  obtain ⟨tail, rfl, -⟩ := spelled_name_bracket h.spelled
  rw [h.text_eq, List.length_append, List.length_cons]
  omega

theorem length_opening (h : findOpening text = some (i, opening)) :
    opening.rest.length < text.length := by
  obtain ⟨hle, hhere, -⟩ := findOpening_eq_some.1 h
  obtain ⟨found, hfound⟩ := openingHere_eq_some.1 hhere
  have hlength := hfound.length_rest
  rw [List.length_drop] at hlength
  omega

theorem length_after (h : splitBody tag text = some (body, after)) :
    after.length < text.length := by
  obtain ⟨⟨closer, hcloser, rfl⟩, -⟩ := splitBody_eq_some.1 h
  have hpos : 0 < tag.closer.length := by cases tag <;> decide
  rw [List.length_append, List.length_append, hcloser.length_eq]
  omega

theorem visibleWithin_stable {fuel : Nat} (h : text.length < fuel) :
    visibleWithin fuel text = visibleText text := by
  induction hn : text.length using Nat.strong_induction_on generalizing text fuel with
  | _ n ih =>
    subst hn
    obtain ⟨fuel, rfl⟩ : ∃ k, fuel = k + 1 := ⟨fuel - 1, by omega⟩
    rw [visibleText, visibleWithin, visibleWithin]
    cases hopening : findOpening text with
    | none => rfl
    | some found =>
      obtain ⟨i, opening⟩ := found
      dsimp only
      cases hsplit : splitBody opening.tag opening.rest with
      | none => rfl
      | some split =>
        obtain ⟨body, after⟩ := split
        have hlt := length_opening hopening
        have hlt' := length_after hsplit
        dsimp only
        rw [ih after.length (by omega) (by omega) rfl,
          ih after.length (by omega) (by omega) rfl]

theorem visibleText_plain (h : findOpening text = none) :
    visibleText text = withoutTruncated text := by
  rw [visibleText, visibleWithin, h]

theorem visibleText_unclosed (h : findOpening text = some (i, opening))
    (hsplit : splitBody opening.tag opening.rest = none) :
    visibleText text = text.take i := by
  rw [visibleText, visibleWithin, h]
  dsimp only
  rw [hsplit, List.append_nil]

theorem visibleText_closed (h : findOpening text = some (i, opening))
    (hsplit : splitBody opening.tag opening.rest = some (body, after)) :
    visibleText text = text.take i ++ visibleText after := by
  have hlt := length_opening h
  have hlt' := length_after hsplit
  rw [visibleText, visibleWithin, h]
  dsimp only
  rw [hsplit]
  dsimp only
  rw [visibleWithin_stable (by omega)]

/-- Nothing starts in these first characters: neither a tag nor a truncated name. -/
def Free (front text : List Char) : Prop :=
  ∀ j < front.length, openingHere (front.drop j ++ text) = none ∧
    isTruncated (front.drop j ++ text) = false

theorem findOpening_free (h : Free front text) :
    findOpening (front ++ text) =
      (findOpening text).map fun found => (front.length + found.1, found.2) := by
  have hbefore : ∀ j < front.length, openingHere ((front ++ text).drop j) = none := by
    intro j hj
    rw [List.drop_append_of_le_length (Nat.le_of_lt hj)]
    exact (h j hj).1
  cases hopening : findOpening text with
  | none =>
    refine findOpening_eq_none.2 fun j hj => ?_
    rcases Nat.lt_or_ge j front.length with hlt | hge
    · exact hbefore j hlt
    · rw [List.length_append] at hj
      obtain ⟨k, rfl⟩ : ∃ k, j = front.length + k := ⟨j - front.length, by omega⟩
      rw [List.drop_length_add_append]
      exact findOpening_eq_none.1 hopening k (by omega)
  | some found =>
    obtain ⟨i, opening⟩ := found
    obtain ⟨hle, hhere, hnone⟩ := findOpening_eq_some.1 hopening
    refine findOpening_eq_some.2 ⟨?_, ?_, ?_⟩
    · rw [List.length_append]
      exact Nat.add_le_add_left hle _
    · rw [List.drop_length_add_append]
      exact hhere
    · intro j hj
      rcases Nat.lt_or_ge j front.length with hlt | hge
      · exact hbefore j hlt
      · obtain ⟨k, rfl⟩ : ∃ k, j = front.length + k := ⟨j - front.length, by omega⟩
        rw [List.drop_length_add_append]
        exact hnone k (by dsimp only at hj; omega)

theorem findAt_isTruncated_isSome (text : List Char) :
    ∃ i, i ≤ text.length ∧ findAt isTruncated text = some i := by
  have hsome : (findAt isTruncated text).isSome = true := by
    refine isSome_findAt.mpr ⟨text.length, Nat.le_refl _, ?_⟩
    rw [List.drop_length]
    exact isTruncated_nil
  obtain ⟨i, hi⟩ := Option.isSome_iff_exists.mp hsome
  exact ⟨i, (findAt_eq_some.mp hi).1, hi⟩

theorem visibleText_free (h : Free front text) :
    visibleText (front ++ text) = front ++ visibleText text := by
  have hopening := findOpening_free h
  cases hfound : findOpening text with
  | none =>
    rw [hfound, Option.map_none] at hopening
    have hfind := findAt_append_of_neg fun j hj => (h j hj).2
    obtain ⟨i, -, hi⟩ := findAt_isTruncated_isSome text
    rw [visibleText_plain hopening, visibleText_plain hfound, withoutTruncated, withoutTruncated,
      hfind, hi, Option.map_some, Option.getD_some, Option.getD_some, Nat.add_comm,
      List.take_length_add_append]
  | some found =>
    obtain ⟨i, opening⟩ := found
    rw [hfound, Option.map_some] at hopening
    cases hsplit : splitBody opening.tag opening.rest with
    | none =>
      rw [visibleText_unclosed hopening hsplit, visibleText_unclosed hfound hsplit,
        List.take_length_add_append]
    | some split =>
      obtain ⟨body, after⟩ := split
      rw [visibleText_closed hopening hsplit, visibleText_closed hfound hsplit,
        List.take_length_add_append, List.append_assoc]

/-- Every opening tag that the search reaches is spelled with letters whose lower case it is, and
behind the closing tag of a block with `İ` in its body as many characters can be missing without a
change in what the rest shows. -/
inductive Clean : List Char → Prop
  | plain {text : List Char} (hopening : findOpening text = none) : Clean text
  | unclosed {text : List Char} {i : Nat} {opening : Opening}
      (hopening : findOpening text = some (i, opening)) (hplain : opening.Plain)
      (hsplit : splitBody opening.tag opening.rest = none) : Clean text
  | closed {text : List Char} {i : Nat} {opening : Opening} {body after : List Char}
      (hopening : findOpening text = some (i, opening)) (hplain : opening.Plain)
      (hsplit : splitBody opening.tag opening.rest = some (body, after))
      (hclean : ∀ d, d ≤ body.count dottedCapitalI → d ≤ after.length → Clean (after.drop d))
      (hshown : ∀ d, d ≤ body.count dottedCapitalI → d ≤ after.length →
        visibleText (after.drop d) = visibleText after) : Clean text

theorem Clean.opening_plain (h : Clean text) (hopening : findOpening text = some (i, opening)) :
    opening.Plain := by
  cases h with
  | plain hnone =>
    rw [hnone] at hopening
    contradiction
  | unclosed hsome hplain =>
    obtain ⟨-, rfl⟩ := Prod.mk.inj (Option.some.inj (hsome.symm.trans hopening))
    exact hplain
  | closed hsome hplain =>
    obtain ⟨-, rfl⟩ := Prod.mk.inj (Option.some.inj (hsome.symm.trans hopening))
    exact hplain

theorem Clean.of_free (hfree : Free front text) (h : Clean (front ++ text)) : Clean text := by
  have hfound := findOpening_free hfree
  cases hopening : findOpening text with
  | none => exact .plain hopening
  | some found =>
    obtain ⟨i, opening⟩ := found
    rw [hopening, Option.map_some] at hfound
    cases h with
    | plain hnone =>
      rw [hnone] at hfound
      contradiction
    | unclosed hsome hplain hsplit =>
      obtain ⟨-, rfl⟩ := Prod.mk.inj (Option.some.inj (hsome.symm.trans hfound))
      exact .unclosed hopening hplain hsplit
    | closed hsome hplain hsplit hclean hshown =>
      obtain ⟨-, rfl⟩ := Prod.mk.inj (Option.some.inj (hsome.symm.trans hfound))
      exact .closed hopening hplain hsplit hclean hshown

/-! ## What the sanitizer still owes -/

/-- The text from the buffer on, the block the sanitizer is inside of, and what it has to show. -/
inductive Owes : List Char → Option (List Char) → List Char → Prop
  | outside {text : List Char} (hclean : Clean text) : Owes text none (visibleText text)
  | unclosed {text : List Char} {tag : ControlTag} (hsplit : splitBody tag text = none) :
      Owes text (some tag.word) []
  | closed {text : List Char} {tag : ControlTag} {body after visible : List Char}
      (hsplit : splitBody tag text = some (body, after))
      (hclean : ∀ d, d ≤ body.count dottedCapitalI → d ≤ after.length → Clean (after.drop d))
      (hshown : ∀ d, d ≤ body.count dottedCapitalI → d ≤ after.length →
        visibleText (after.drop d) = visible) : Owes text (some tag.word) visible

theorem Clean.enter (h : Clean text) (hopening : findOpening text = some (i, opening)) :
    ∃ visible, visibleText text = text.take i ++ visible ∧
      Owes opening.rest (some (table.lower opening.word)) visible := by
  have hplain := h.opening_plain hopening
  rw [hplain.key]
  cases h with
  | plain hnone =>
    rw [hnone] at hopening
    contradiction
  | unclosed hsome _ hsplit =>
    obtain ⟨-, rfl⟩ := Prod.mk.inj (Option.some.inj (hsome.symm.trans hopening))
    refine ⟨[], ?_, .unclosed hsplit⟩
    rw [visibleText_unclosed hopening hsplit, List.append_nil]
  | closed hsome _ hsplit hclean hshown =>
    obtain ⟨-, rfl⟩ := Prod.mk.inj (Option.some.inj (hsome.symm.trans hopening))
    exact ⟨_, visibleText_closed hopening hsplit, .closed hsplit hclean hshown⟩

theorem Owes.tag_of (h : Owes text (some word) visible) : ∃ tag : ControlTag, word = tag.word := by
  cases h with
  | unclosed _ => exact ⟨_, rfl⟩
  | closed _ _ _ => exact ⟨_, rfl⟩

theorem Owes.nothing (h : Owes [] (inside : Option (List Char)) visible) : visible = [] := by
  cases h with
  | outside => rfl
  | unclosed => rfl
  | closed hsplit _ _ => exact absurd (length_after hsplit) (Nat.not_lt_zero _)

theorem word_injective {tag other : ControlTag} (h : tag.word = other.word) : tag = other := by
  revert h
  cases tag <;> cases other <;> decide

theorem Owes.leave (h : Owes text (some word) visible) (hword : word = tag.word)
    (hsplit : splitBody tag text = some (body, after ++ more)) :
    Owes (after.drop (body.count dottedCapitalI) ++ more) none visible := by
  have hdrop : after.drop (body.count dottedCapitalI) ++ more =
      (after ++ more).drop (min (body.count dottedCapitalI) after.length) := by
    rw [List.drop_append_of_le_length (Nat.min_le_right ..)]
    congr 1
    rw [List.drop_eq_drop_iff, Nat.min_assoc, Nat.min_self]
  have hle : min (body.count dottedCapitalI) after.length ≤ (after ++ more).length := by
    rw [List.length_append]
    omega
  cases h with
  | @unclosed other hnone =>
    rw [word_injective hword, hsplit] at hnone
    contradiction
  | @closed other body' after' _ hsome hclean hshown =>
    rw [word_injective hword, hsplit] at hsome
    obtain ⟨rfl, rfl⟩ := Prod.mk.inj (Option.some.inj hsome)
    rw [hdrop, ← hshown _ (Nat.min_le_left ..) hle]
    exact .outside (hclean _ (Nat.min_le_left ..) hle)

theorem Owes.nothing_inside (h : Owes text (some tag.word) visible)
    (hsplit : splitBody tag text = none) : visible = [] := by
  generalize htag : tag.word = word at h
  cases h with
  | unclosed => rfl
  | closed hsome =>
    rw [← word_injective htag, hsplit] at hsome
    contradiction

theorem Owes.keep (h : Owes (text ++ more) (some tag.word) visible)
    (hsplit : splitBody tag text = none) :
    Owes (text.drop (text.length - min text.length (tag.closer.length - 1)) ++ more)
      (some tag.word) visible := by
  have hkeep := splitBody_keep hsplit more
  generalize htag : tag.word = word at h
  cases h with
  | @unclosed other hnone =>
    rw [← word_injective htag] at hnone
    rw [hnone] at hkeep
    rw [← htag]
    exact .unclosed (Option.map_eq_none_iff.mp hkeep.symm)
  | @closed other body after _ hsome hclean hshown =>
    rw [← word_injective htag] at hsome
    rw [hsome] at hkeep
    obtain ⟨⟨body', after'⟩, hrest, heq⟩ := Option.map_eq_some_iff.mp hkeep.symm
    obtain ⟨rfl, rfl⟩ := Prod.mk.inj heq
    have hcount : body'.count dottedCapitalI ≤
        (text.take (text.length - min text.length (tag.closer.length - 1)) ++
          body').count dottedCapitalI := by
      rw [List.count_append]
      omega
    rw [← htag]
    exact .closed hrest (fun d hd => hclean d (Nat.le_trans hd hcount))
      fun d hd => hshown d (Nat.le_trans hd hcount)

theorem Clean.free (h : Clean (text ++ more)) (hopening : findOpening text = none) :
    Free (text.take (text.length - possibleOpenerSuffix table text))
      (text.drop (text.length - possibleOpenerSuffix table text) ++ more) := by
  obtain ⟨hle, hfind⟩ := @findAt_isTruncated table text
  generalize text.length - possibleOpenerSuffix table text = cut at hfind
  obtain ⟨hcut, -, hbefore⟩ := findAt_eq_some.mp hfind
  have hjoin : ∀ j < cut, (text.take cut).drop j ++ (text.drop cut ++ more) =
      text.drop j ++ more := by
    intro j hj
    rw [← List.append_assoc, ← List.drop_append_of_le_length (by rw [List.length_take]; omega),
      List.take_append_drop]
  have htruncated : ∀ j < cut, isTruncated (text.drop j ++ more) = false := by
    intro j hj
    by_contra htrue
    rw [Bool.not_eq_false] at htrue
    have hthere := isTruncated_of_append htrue
    rw [hbefore j hj] at hthere
    contradiction
  -- the first tag of the whole text is spelled plainly, and has its name behind the cut
  have hopen : ∀ j < cut, openingHere (text.drop j ++ more) = none := by
    cases hwhole : findOpening (text ++ more) with
    | none =>
      intro j hj
      have hnone := findOpening_eq_none.1 hwhole j (by rw [List.length_append]; omega)
      rw [List.drop_append_of_le_length (by omega)] at hnone
      exact hnone
    | some first =>
      obtain ⟨i, opening⟩ := first
      obtain ⟨-, hhere, hearlier⟩ := findOpening_eq_some.1 hwhole
      have hbehind : cut ≤ i := by
        apply Nat.le_of_not_lt
        intro hlt
        rw [List.drop_append_of_le_length (by omega)] at hhere
        obtain ⟨found, hfound⟩ := openingHere_eq_some.1 hhere
        have hword := h.opening_plain hwhole
        rw [Opening.Plain, hfound.word_eq] at hword
        have hname := spelled_name_plain hfound.spelled hword
        rcases List.append_eq_append_iff.mp hfound.text_eq with
          ⟨gap, hgap, -⟩ | ⟨gap, hgap, -⟩
        · -- the name ends behind the text, so the text ends in a truncated name
          have hpart := isTruncated_name hname
          rw [hgap] at hpart
          have hthere := isTruncated_of_append hpart
          rw [hbefore i hlt] at hthere
          contradiction
        · cases gap with
          | nil =>
            have hpart := isTruncated_name hname
            rw [← List.append_nil found, ← hgap, hbefore i hlt] at hpart
            contradiction
          | cons =>
            have hthere := openingHere_eq_some.2 ⟨found, (hfound.restrict hgap (by simp)).1⟩
            rw [findOpening_eq_none.1 hopening i (by omega)] at hthere
            contradiction
      intro j hj
      have hnone := hearlier j (by omega)
      rw [List.drop_append_of_le_length (by omega)] at hnone
      exact hnone
  intro j hj
  rw [List.length_take] at hj
  rw [hjoin j (by omega)]
  exact ⟨hopen j (by omega), htruncated j (by omega)⟩

theorem Owes.release (h : Owes (text ++ more) none visible) (hopening : findOpening text = none) :
    ∃ owed, visible = text.take (text.length - possibleOpenerSuffix table text) ++ owed ∧
      Owes (text.drop (text.length - possibleOpenerSuffix table text) ++ more) none owed := by
  cases h with
  | outside hclean =>
    have hfree := @Clean.free table text more hclean hopening
    have hsplit : text ++ more = text.take (text.length - possibleOpenerSuffix table text) ++
        (text.drop (text.length - possibleOpenerSuffix table text) ++ more) := by
      rw [← List.append_assoc, List.take_append_drop]
    have hrest := hclean
    rw [hsplit] at hrest
    refine ⟨_, ?_, .outside (hrest.of_free hfree)⟩
    rw [← visibleText_free hfree, ← hsplit]

end ClaudeHub.GoalProtocol
