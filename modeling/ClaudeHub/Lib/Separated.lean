import Mathlib.Data.List.Infix

/-! # Pieces joined by a separator

Joining pieces that do not contain the separator loses nothing: the joined text is
the prefix of another, with a separator after it, exactly when its pieces are the
first pieces of the other and not all of them.
-/

namespace Separated

universe u

variable {α : Type u} {sep : α}

/-- `sep.join(pieces)`. -/
def joinWith (sep : α) : List (List α) → List α
  | [] => []
  | [piece] => piece
  | piece :: next :: rest => piece ++ sep :: joinWith sep (next :: rest)

@[simp] theorem joinWith_singleton (piece : List α) : joinWith sep [piece] = piece := rfl

theorem joinWith_cons (piece : List α) {rest : List (List α)} (h : rest ≠ []) :
    joinWith sep (piece :: rest) = piece ++ sep :: joinWith sep rest := by
  cases rest with
  | nil => exact absurd rfl h
  | cons => rfl

theorem joinWith_append {front back : List (List α)} (hfront : front ≠ []) (hback : back ≠ []) :
    joinWith sep (front ++ back) = joinWith sep front ++ sep :: joinWith sep back := by
  induction front with
  | nil => exact absurd rfl hfront
  | cons piece front ih =>
    by_cases hrest : front = []
    · subst hrest
      simp [joinWith_cons piece hback]
    · rw [List.cons_append, joinWith_cons piece (by simp [hrest]), ih hrest,
        joinWith_cons piece hrest, List.append_assoc, List.cons_append]

/-- The first separator of a text is where its first piece ends. -/
theorem append_sep_inj {a b x y : List α} (ha : sep ∉ a) (hb : sep ∉ b)
    (h : a ++ sep :: x = b ++ sep :: y) : a = b ∧ x = y := by
  induction a generalizing b with
  | nil =>
    cases b with
    | nil => exact ⟨rfl, (List.cons.inj h).2⟩
    | cons c =>
      have : sep = c := (List.cons.inj h).1
      exact absurd (this ▸ List.mem_cons_self ..) hb
  | cons c a ih =>
    cases b with
    | nil =>
      have : c = sep := (List.cons.inj h).1
      exact absurd (this ▸ List.mem_cons_self ..) ha
    | cons =>
      obtain ⟨rfl, htail⟩ := List.cons.inj h
      obtain ⟨rfl, hxy⟩ := ih (fun hmem => ha (List.mem_cons_of_mem _ hmem))
        (fun hmem => hb (List.mem_cons_of_mem _ hmem)) htail
      exact ⟨rfl, hxy⟩

/-- Pieces that do not contain the separator. -/
def Free (sep : α) (pieces : List (List α)) : Prop := ∀ piece ∈ pieces, sep ∉ piece

theorem Free.tail {piece : List α} {rest : List (List α)} (h : Free sep (piece :: rest)) :
    Free sep rest := fun other hother => h other (List.mem_cons_of_mem _ hother)

theorem joinWith_inj {as bs : List (List α)} (ha : Free sep as) (hb : Free sep bs)
    (hane : as ≠ []) (hbne : bs ≠ []) (h : joinWith sep as = joinWith sep bs) : as = bs := by
  induction as generalizing bs with
  | nil => exact absurd rfl hane
  | cons a as ih =>
    cases bs with
    | nil => exact absurd rfl hbne
    | cons b bs =>
      have hasep := ha a (by simp)
      have hbsep := hb b (by simp)
      by_cases hanil : as = []
      · subst hanil
        by_cases hbnil : bs = []
        · subst hbnil
          simpa using h
        · rw [joinWith_singleton, joinWith_cons b hbnil] at h
          exact absurd (h ▸ by simp : sep ∈ a) hasep
      · by_cases hbnil : bs = []
        · subst hbnil
          rw [joinWith_singleton, joinWith_cons a hanil] at h
          exact absurd (h ▸ by simp : sep ∈ b) hbsep
        · rw [joinWith_cons a hanil, joinWith_cons b hbnil] at h
          obtain ⟨rfl, hrest⟩ := append_sep_inj hasep hbsep h
          rw [ih ha.tail hb.tail hanil hbnil hrest]

/-- A joined text and a separator start another joined text only at a piece's end. -/
theorem prefix_of_joinWith_prefix {as bs : List (List α)} (ha : Free sep as) (hb : Free sep bs)
    (hane : as ≠ []) (h : (joinWith sep as ++ [sep]) <+: joinWith sep bs) :
    ∃ rest, rest ≠ [] ∧ bs = as ++ rest := by
  induction as generalizing bs with
  | nil => exact absurd rfl hane
  | cons a as ih =>
    obtain ⟨more, hmore⟩ := h
    cases bs with
    | nil => simp [joinWith] at hmore
    | cons b bs =>
      have hasep := ha a (by simp)
      have hbsep := hb b (by simp)
      by_cases hbnil : bs = []
      · subst hbnil
        rw [joinWith_singleton] at hmore
        exact absurd (hmore ▸ by simp : sep ∈ b) hbsep
      · rw [joinWith_cons b hbnil] at hmore
        by_cases hanil : as = []
        · subst hanil
          simp only [joinWith_singleton, List.append_assoc, List.singleton_append] at hmore
          obtain ⟨rfl, -⟩ := append_sep_inj hasep hbsep hmore
          exact ⟨bs, hbnil, rfl⟩
        · rw [joinWith_cons a hanil] at hmore
          simp only [List.append_assoc, List.cons_append] at hmore
          obtain ⟨rfl, hrest⟩ := append_sep_inj hasep hbsep hmore
          obtain ⟨rest, hne, rfl⟩ := ih ha.tail hb.tail hanil
            ⟨more, by simpa [List.append_assoc] using hrest⟩
          exact ⟨rest, hne, rfl⟩

theorem joinWith_prefix_of_append {as rest : List (List α)} (hane : as ≠ []) (hrest : rest ≠ []) :
    (joinWith sep as ++ [sep]) <+: joinWith sep (as ++ rest) := by
  rw [joinWith_append hane hrest]
  exact ⟨joinWith sep rest, by simp⟩

end Separated
