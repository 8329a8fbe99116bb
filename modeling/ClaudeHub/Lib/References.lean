import ClaudeHub.Lib.Table

/-! # Names bound to objects

An object stays where it is made, and a name is bound to the place of its object. Rebinding a
name makes a new object and leaves the old one to whoever still holds its place, so a later
change at the old place does not show under the name.
-/

universe u v

/-- Objects by place, and the names that are bound to some of them. -/
structure References (κ : Type u) (α : Type v) where
  cells : List α
  names : Dict κ Nat
  bound : ∀ row ∈ names.rows, row.2 < cells.length
  /-- No two names share an object. -/
  distinct : ∀ row ∈ names.rows, ∀ row' ∈ names.rows, row.2 = row'.2 → row.1 = row'.1

namespace References

variable {κ : Type u} {α : Type v}

instance [DecidableEq κ] [DecidableEq α] : DecidableEq (References κ α) := fun r s =>
  decidable_of_iff (r.cells = s.cells ∧ r.names = s.names) (by cases r; cases s; simp)

def empty : References κ α where
  cells := []
  names := Table.empty
  bound _ h := nomatch h
  distinct _ h := nomatch h

variable [DecidableEq κ]

def place? (r : References κ α) (k : κ) : Option Nat := r.names.lookup k

/-- The object that a name is bound to. -/
def get? (r : References κ α) (k : κ) : Option α := (r.place? k).bind fun place => r.cells[place]?

/-- The objects that have a name. -/
def values (r : References κ α) : List α := r.names.rows.filterMap fun row => r.cells[row.2]?

theorem place?_lt {r : References κ α} {k : κ} {place : Nat} (h : r.place? k = some place) :
    place < r.cells.length :=
  r.bound _ (Dict.lookup_eq_some.mp h)

theorem place?_inj {r : References κ α} {k j : κ} {place : Nat} (hk : r.place? k = some place)
    (hj : r.place? j = some place) : k = j :=
  r.distinct _ (Dict.lookup_eq_some.mp hk) _ (Dict.lookup_eq_some.mp hj) rfl

/-- Bind a name to a new object. -/
def rebind (r : References κ α) (k : κ) (a : α) : References κ α where
  cells := r.cells ++ [a]
  names := r.names.set k r.cells.length
  bound row hrow := by
    rw [List.length_append, List.length_singleton]
    rcases Table.mem_insert.mp hrow with rfl | ⟨hold, -⟩
    · exact Nat.lt_succ_self _
    · exact Nat.lt_succ_of_lt (r.bound row hold)
  distinct row hrow row' hrow' heq := by
    rcases Table.mem_insert.mp hrow with rfl | ⟨hold, -⟩
    · rcases Table.mem_insert.mp hrow' with rfl | ⟨hold', -⟩
      · rfl
      · exact absurd heq (Nat.ne_of_gt (r.bound row' hold'))
    · rcases Table.mem_insert.mp hrow' with rfl | ⟨hold', -⟩
      · exact absurd heq (Nat.ne_of_lt (r.bound row hold))
      · exact r.distinct row hold row' hold' heq

/-- Change the object at a place. -/
def modify (r : References κ α) (place : Nat) (f : α → α) : References κ α where
  cells := r.cells.modify place f
  names := r.names
  bound row hrow := by
    rw [List.length_modify]
    exact r.bound row hrow
  distinct := r.distinct

def unbind (r : References κ α) (k : κ) : References κ α where
  cells := r.cells
  names := Table.erase r.names k
  bound row hrow := r.bound row (Table.mem_erase.mp hrow).1
  distinct row hrow row' hrow' :=
    r.distinct row (Table.mem_erase.mp hrow).1 row' (Table.mem_erase.mp hrow').1

section

variable (r : References κ α)
include r

theorem place?_rebind (k j : κ) (a : α) :
    (r.rebind k a).place? j = if j = k then some r.cells.length else r.place? j :=
  Dict.lookup_set r.names k j r.cells.length

theorem get?_rebind (k j : κ) (a : α) :
    (r.rebind k a).get? j = if j = k then some a else r.get? j := by
  unfold get?
  rw [place?_rebind]
  split
  · simp [rebind]
  · cases hplace : r.place? j with
    | none => rfl
    | some place =>
      simp only [Option.bind_some, rebind]
      rw [List.getElem?_append_left (place?_lt hplace)]

@[simp] theorem place?_modify (place : Nat) (f : α → α) (j : κ) :
    (r.modify place f).place? j = r.place? j := rfl

theorem get?_modify (place : Nat) (f : α → α) (j : κ) : (r.modify place f).get? j
      = if r.place? j = some place then (r.get? j).map f else r.get? j := by
  unfold get?
  rw [place?_modify]
  cases hplace : r.place? j with
  | none => simp
  | some other =>
    simp only [Option.bind_some, Option.some.injEq, modify, List.getElem?_modify]
    by_cases h : other = place
    · simp [h]
    · have hne : place ≠ other := fun heq => h heq.symm
      simp [h, hne]

theorem place?_unbind (k j : κ) : (r.unbind k).place? j = if j = k then none else r.place? j :=
  Dict.lookup_erase r.names k j

theorem get?_unbind (k j : κ) : (r.unbind k).get? j = if j = k then none else r.get? j := by
  unfold get?
  rw [place?_unbind]
  split <;> rfl

theorem get?_isSome (k : κ) : (r.get? k).isSome = (r.place? k).isSome := by
  unfold get?
  cases hplace : r.place? k with
  | none => rfl
  | some place => simp [place?_lt hplace]

end

theorem mem_values {r : References κ α} {a : α} : a ∈ r.values ↔ ∃ k, r.get? k = some a := by
  unfold values
  rw [List.mem_filterMap]
  constructor
  · rintro ⟨⟨k, place⟩, hrow, ha⟩
    refine ⟨k, ?_⟩
    rw [get?, place?, Dict.lookup_eq_some.mpr hrow]
    exact ha
  · rintro ⟨k, hk⟩
    obtain ⟨place, hplace, ha⟩ := Option.bind_eq_some_iff.mp hk
    exact ⟨(k, place), Dict.lookup_eq_some.mp hplace, ha⟩

end References
