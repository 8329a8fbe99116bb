import ClaudeHub.Lib.TextSearch
import Mathlib.Data.List.Infix

/-! # The first place of one text in another

A needle without some character is found on one side of it or on the other. So fronts that end in
such a character are searched apart from what follows them.
-/

universe u

namespace Needle

section Breaks

variable {α : Type u} {needle text front more : List α} {c : α}

theorem prefix_break (hc : c ∉ needle) : needle <+: front ++ c :: more ↔ needle <+: front := by
  constructor
  · intro h
    by_cases hlength : needle.length ≤ front.length
    · exact List.prefix_of_prefix_length_le h (List.prefix_append _ _) hlength
    · have hlonger : front ++ [c] <+: needle := by
        apply List.prefix_of_prefix_length_le _ h
        · simp only [List.length_append, List.length_singleton]
          omega
        · exact ⟨more, by simp⟩
      exact absurd (hlonger.subset (by simp)) hc
  · exact fun h => h.trans (List.prefix_append _ _)

theorem infix_break (hc : c ∉ needle) :
    needle <:+: front ++ c :: more ↔ needle <:+: front ∨ needle <:+: more := by
  induction front with
  | nil =>
    have hnil := @prefix_break _ needle [] more c hc
    rw [List.nil_append] at hnil
    rw [List.nil_append, List.infix_cons_iff, hnil, List.prefix_nil, List.infix_nil]
  | cons d front ih =>
    have hcons := @prefix_break _ needle (d :: front) more c hc
    rw [List.cons_append] at hcons
    rw [List.cons_append, List.infix_cons_iff, List.infix_cons_iff, hcons, ih, or_assoc]

/-- A needle with none of the characters of a separator is in one of the joined texts. -/
theorem infix_intercalate {sep : List α} (hc : c ∉ needle) (hsep : sep = [c] ∨ sep = [c, c])
    {texts : List (List α)} (hne : needle ≠ []) (h : needle <:+: sep.intercalate texts) :
    ∃ text ∈ texts, needle <:+: text := by
  induction texts with
  | nil =>
    rw [List.intercalate_nil, List.infix_nil] at h
    exact absurd h hne
  | cons first rest ih =>
    cases rest with
    | nil =>
      rw [List.intercalate_singleton] at h
      exact ⟨first, List.mem_cons_self, h⟩
    | cons second rest =>
      have hsplit : needle <:+: first ∨ needle <:+: sep.intercalate (second :: rest) := by
        rcases hsep with rfl | rfl
        · rw [List.intercalate_cons_cons, List.append_assoc, List.singleton_append] at h
          exact (infix_break hc).mp h
        · rw [List.intercalate_cons_cons, List.append_assoc] at h
          rcases (infix_break hc).mp h with hfirst | hmore
          · exact .inl hfirst
          · have hnil := (@infix_break _ needle [] _ c hc).mp hmore
            rcases hnil with hnil | hrest
            · exact absurd (List.infix_nil.mp hnil) hne
            · exact .inr hrest
      rcases hsplit with hfirst | hrest
      · exact ⟨first, List.mem_cons_self, hfirst⟩
      · obtain ⟨text, hmem, htext⟩ := ih hrest
        exact ⟨text, List.mem_cons_of_mem _ hmem, htext⟩

theorem infix_iff_exists_drop : needle <:+: text ↔ ∃ i ≤ text.length, needle <+: text.drop i := by
  constructor
  · rintro ⟨before, after, rfl⟩
    refine ⟨before.length, by simp, ?_⟩
    rw [List.append_assoc, List.drop_left]
    exact List.prefix_append _ _
  · rintro ⟨i, -, h⟩
    exact h.isInfix.trans (List.drop_suffix i text).isInfix

/-- Nothing of a needle without the character starts in the front and ends behind it. -/
def Ended (c : α) (front : List α) : Prop := front = [] ∨ ∃ init, front = init ++ [c]

theorem Ended.append {back : List α} (hfront : Ended c front) (hback : Ended c back) :
    Ended c (front ++ back) := by
  rcases hback with rfl | ⟨init, rfl⟩
  · rw [List.append_nil]
    exact hfront
  · exact .inr ⟨front ++ init, (List.append_assoc _ _ _).symm⟩

theorem infix_ended_append (hc : c ∉ needle) (hended : Ended c front) :
    needle <:+: front ++ more ↔ needle <:+: front ∨ needle <:+: more := by
  rcases hended with rfl | ⟨init, rfl⟩
  · rw [List.nil_append, List.infix_nil]
    constructor
    · exact .inr
    · rintro (rfl | h)
      · exact List.nil_infix
      · exact h
  · rw [List.append_assoc, List.singleton_append, infix_break hc, infix_break hc, List.infix_nil]
    constructor
    · rintro (h | h)
      · exact .inl (.inl h)
      · exact .inr h
    · rintro ((h | rfl) | h)
      · exact .inl h
      · exact .inl List.nil_infix
      · exact .inr h

end Breaks

variable {α : Type u} [DecidableEq α] {needle text front more : List α} {c : α}

/-- `text.find(needle)` -/
def find (needle text : List α) : Option Nat :=
  TextSearch.findAt (fun rest => needle.isPrefixOf rest) text

theorem find_eq_some {i : Nat} : find needle text = some i ↔
    i ≤ text.length ∧ needle <+: text.drop i ∧ ∀ j < i, ¬ needle <+: text.drop j := by
  rw [find, TextSearch.findAt_eq_some, List.isPrefixOf_iff_prefix]
  refine and_congr_right fun _ => and_congr_right fun _ => forall_congr' fun j =>
    imp_congr_right fun _ => ?_
  rw [← List.isPrefixOf_iff_prefix, Bool.not_eq_true]

theorem find_eq_none : find needle text = none ↔ ¬ needle <:+: text := by
  rw [find, TextSearch.findAt_eq_none, infix_iff_exists_drop, not_exists]
  refine forall_congr' fun i => ?_
  rw [not_and, ← List.isPrefixOf_iff_prefix, Bool.not_eq_true]

/-- What stands around the first place of a needle. -/
theorem exists_of_find {i : Nat} (h : find needle text = some i) :
    ∃ before after, text = before ++ needle ++ after ∧ before.length = i := by
  obtain ⟨hle, ⟨after, hafter⟩, -⟩ := find_eq_some.mp h
  refine ⟨text.take i, after, ?_, List.length_take_of_le hle⟩
  rw [List.append_assoc, hafter, List.take_append_drop]

theorem find_self : find needle (needle ++ text) = some 0 := by
  rw [find_eq_some]
  exact ⟨Nat.zero_le _, List.prefix_append _ _, fun j hj => absurd hj (Nat.not_lt_zero j)⟩

/-- A place that is found is found with more text behind it. -/
theorem find_append_of_some {i : Nat} (h : find needle text = some i) (more : List α) :
    find needle (text ++ more) = some i := by
  obtain ⟨hle, hat, hbefore⟩ := find_eq_some.mp h
  have hlength : needle.length + i ≤ text.length := by
    have hneedle := hat.length_le
    rw [List.length_drop] at hneedle
    omega
  rw [find_eq_some]
  refine ⟨by simp; omega, ?_, ?_⟩
  · rw [List.drop_append_of_le_length hle]
    exact hat.trans (List.prefix_append _ _)
  · intro j hj hstarts
    rw [List.drop_append_of_le_length (by omega)] at hstarts
    apply hbefore j hj
    apply List.prefix_of_prefix_length_le hstarts (List.prefix_append _ _)
    rw [List.length_drop]
    omega

theorem find_front (hc : c ∉ needle) (hended : Ended c front) (hfree : ¬ needle <:+: front) :
    find needle (front ++ text) = (find needle text).map (· + front.length) := by
  apply TextSearch.findAt_append_of_neg
  intro i hi
  rw [← Bool.not_eq_true, List.isPrefixOf_iff_prefix]
  intro hstarts
  rcases hended with rfl | ⟨init, rfl⟩
  · exact absurd hi (Nat.not_lt_zero i)
  · apply hfree
    rw [List.length_append, List.length_singleton] at hi
    rw [List.drop_append_of_le_length (by omega : i ≤ init.length), List.append_assoc,
      List.singleton_append, prefix_break hc] at hstarts
    have hinit := hstarts.isInfix.trans (List.drop_suffix i init).isInfix
    exact hinit.trans (List.prefix_append _ _).isInfix

/-- `text.replace(old, new)` where that many characters are of a place already replaced. -/
def replaceFrom (old new : List α) : Nat → List α → List α
  | _, [] => []
  | skip + 1, _ :: text => replaceFrom old new skip text
  | 0, c :: text =>
    if old.isPrefixOf (c :: text) then new ++ replaceFrom old new (old.length - 1) text
    else c :: replaceFrom old new 0 text

/-- `text.replace(old, new)` of an `old` that is not empty -/
def replace (old new text : List α) : List α := replaceFrom old new 0 text

theorem replaceFrom_eq (old new : List α) (skip : Nat) (text : List α) :
    replaceFrom old new skip text = replace old new (text.drop skip) := by
  induction skip generalizing text with
  | zero => rfl
  | succ skip ih =>
    cases text with
    | nil => rfl
    | cons c text => exact ih text

theorem replace_there {old new : List α} (hold : old ≠ []) :
    replace old new (old ++ text) = new ++ replace old new text := by
  obtain ⟨c, old', rfl⟩ := List.exists_cons_of_ne_nil hold
  have hstarts : (c :: old').isPrefixOf (c :: (old' ++ text)) = true :=
    List.isPrefixOf_iff_prefix.mpr ⟨text, rfl⟩
  rw [replace, List.cons_append, replaceFrom, if_pos hstarts, replaceFrom_eq, List.length_cons,
    Nat.add_sub_cancel, List.drop_left]

theorem replace_elsewhere {old new : List α} (h : ¬ old <+: c :: text) :
    replace old new (c :: text) = c :: replace old new text := by
  rw [← List.isPrefixOf_iff_prefix] at h
  rw [replace, replaceFrom, if_neg h]
  rfl

theorem replace_induction {old : List α} (hold : old ≠ []) {P : List α → Prop} (hnil : P [])
    (hplace : ∀ text, P text → P (old ++ text))
    (hcons : ∀ c text, ¬ old <+: c :: text → P text → P (c :: text)) (text : List α) : P text := by
  induction hn : text.length using Nat.strong_induction_on generalizing text with
  | _ n ih =>
    cases text with
    | nil => exact hnil
    | cons c text =>
      by_cases h : old <+: c :: text
      · obtain ⟨rest, hrest⟩ := h
        have hpos := List.length_pos_iff.mpr hold
        have hlength := congrArg List.length hrest
        rw [List.length_append, hn] at hlength
        rw [← hrest]
        exact hplace rest (ih rest.length (by omega) rest rfl)
      · exact hcons c text h (ih text.length (by rw [← hn]; simp) text rfl)

/-- Where a replacement puts a character in, texts without the character come from the original. -/
theorem infix_of_replace {left right : List α} (hold : left ++ right ≠ []) (hc : c ∉ needle) :
    ∀ text front, needle <:+: front ++ replace (left ++ right) (left ++ c :: right) text →
      needle <:+: front ++ text := by
  refine replace_induction hold ?_ ?_ ?_
  · exact fun front h => h
  · intro text ih front h
    rw [replace_there hold, List.append_assoc, ← List.append_assoc, List.cons_append,
      infix_break hc] at h
    rcases h with hleft | hright
    · refine hleft.trans ⟨[], right ++ text, ?_⟩
      simp
    · refine (ih right hright).trans ⟨front ++ left, [], ?_⟩
      simp
  · intro d text hnot ih front h
    rw [replace_elsewhere hnot, List.append_cons] at h
    rw [List.append_cons]
    exact ih (front ++ [d]) h

/-- What is replaced is gone, when no end of its right part starts it again. -/
theorem not_infix_replace {left right : List α} (hright : right ≠ []) (hleft : left ≠ [])
    (hc : c ∉ left ++ right)
    (hends : ∀ back, back <:+ right → back ≠ [] → ¬ back <+: left ++ right) :
    ∀ text front, (∀ back, back <:+ front → back ≠ [] → ¬ (left ++ right) <+: back ++ text) →
      ¬ (left ++ right) <:+: front ++ replace (left ++ right) (left ++ c :: right) text := by
  have hold : left ++ right ≠ [] := by simp [hleft]
  refine replace_induction hold ?_ ?_ ?_
  · intro front hfront hwithin
    rw [show replace (left ++ right) (left ++ c :: right) [] = [] from rfl,
      List.append_nil] at hwithin
    obtain ⟨before, after, rfl⟩ := hwithin
    apply hfront (left ++ right ++ after) ⟨before, by simp⟩ (by simp [hleft])
    exact ⟨after, by simp⟩
  · intro text ih front hfront hwithin
    rw [replace_there hold, List.append_assoc, ← List.append_assoc, List.cons_append,
      infix_break hc] at hwithin
    rcases hwithin with hwithin | hwithin
    · obtain ⟨before, after, hsame⟩ := hwithin
      have hlength : before.length < front.length := by
        have hsizes := congrArg List.length hsame
        have hpos := List.length_pos_iff.mpr hright
        simp only [List.length_append] at hsizes
        omega
      rw [List.append_assoc] at hsame
      rcases List.append_eq_append_iff.mp hsame with ⟨back, rfl, hrest⟩ | ⟨back, rfl, -⟩
      · have hne : back ≠ [] := by
          rintro rfl
          simp at hlength
        apply hfront back ⟨before, rfl⟩ hne
        have hwhole : (left ++ right) <+: back ++ left := ⟨after, hrest⟩
        refine hwhole.trans ⟨right ++ text, ?_⟩
        simp
      · rw [List.length_append] at hlength
        omega
    · apply ih right _ hwithin
      intro back hback hne hstarts
      apply hends back hback hne
      apply List.prefix_of_prefix_length_le (List.prefix_append _ text) hstarts
      have hle := hback.length_le
      rw [List.length_append]
      omega
  · intro d text hnot ih front hfront hwithin
    rw [replace_elsewhere hnot, List.append_cons] at hwithin
    apply ih (front ++ [d]) _ hwithin
    intro back hback hne hstarts
    rcases List.suffix_concat_iff.mp hback with rfl | ⟨init, rfl, hinit⟩
    · exact hne rfl
    · rw [List.append_assoc, List.singleton_append] at hstarts
      cases init with
      | nil => exact hnot hstarts
      | cons e init => exact hfront (e :: init) hinit (List.cons_ne_nil _ _) hstarts

end Needle
