import Mathlib.Data.List.Basic

/-! # The last place in a list where a test holds -/

namespace List

universe u

variable {α : Type u} {p : α → Bool} {l m : List α} {a : α} {i : Nat}

def lastIdx? (p : α → Bool) : List α → Option Nat
  | [] => none
  | a :: l =>
    match l.lastIdx? p with
    | some i => some (i + 1)
    | none => if p a then some 0 else none

attribute [local simp] lastIdx?

theorem lastIdx?_eq_none : l.lastIdx? p = none ↔ ∀ a ∈ l, p a = false := by
  induction l with
  | nil => simp [lastIdx?]
  | cons a l ih =>
    rw [lastIdx?]
    cases hlast : l.lastIdx? p with
    | some =>
      have hfound := mt ih.mpr (by simp [hlast])
      simp only [reduceCtorEq, false_iff]
      exact fun h => hfound fun b hb => h b (mem_cons_of_mem a hb)
    | none =>
      have hrest := ih.mp hlast
      cases ha : p a with
      | true => simp [ha]
      | false => simpa [ha] using hrest

theorem lastIdx?_append (l m : List α) :
    (l ++ m).lastIdx? p = ((m.lastIdx? p).map (l.length + ·)).or (l.lastIdx? p) := by
  induction l with
  | nil => cases hm : m.lastIdx? p <;> simp [lastIdx?, hm]
  | cons a l ih =>
    rw [cons_append, lastIdx?, ih]
    cases hm : m.lastIdx? p with
    | none => simp [lastIdx?]
    | some =>
      simp only [Option.map_some, Option.some_or, length_cons, Option.some.injEq]
      omega

/-- Items that fail the test leave the last place where it holds. -/
theorem lastIdx?_append_of_forall (h : ∀ a ∈ m, p a = false) :
    (l ++ m).lastIdx? p = l.lastIdx? p := by
  rw [lastIdx?_append, lastIdx?_eq_none.2 h]
  rfl

theorem lastIdx?_concat (h : p a = true) : (l ++ [a]).lastIdx? p = some l.length := by
  rw [lastIdx?_append]
  simp [lastIdx?, h]

theorem getElem?_concat_eq_some {b : α} :
    (l ++ [a])[i]? = some b ↔ l[i]? = some b ∨ i = l.length ∧ a = b := by
  rw [getElem?_append]
  split
  · rename_i hlt
    simp [Nat.ne_of_lt hlt]
  · rename_i hge
    have hnone : l[i]? = none := getElem?_eq_none (Nat.not_lt.mp hge)
    rw [hnone, getElem?_singleton]
    split
    · rename_i hzero
      have hlength : i = l.length := by omega
      simp [hlength]
    · rename_i hpos
      have hlength : i ≠ l.length := by omega
      simp [hlength]

theorem getElem?_append_of_some (m : List α) (h : l[i]? = some a) : (l ++ m)[i]? = some a := by
  rw [getElem?_append_left (getElem?_eq_some_iff.mp h).1]
  exact h

end List
