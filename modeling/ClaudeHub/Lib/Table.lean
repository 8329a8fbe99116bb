import Mathlib.Data.List.Nodup
import Mathlib.Data.List.Basic

/-! # Insertion-ordered tables

A table keeps its rows in insertion order and no two rows share a key. Writing
a row under a key already present replaces that row in place, as a dictionary
assignment does; `erase` drops the row and `insert` of a new key appends.
-/

universe u v

/-- Rows in insertion order, no two of them with the same key. -/
structure Table {α : Type u} {κ : Type v} (key : α → κ) where
  rows : List α
  nodup : (rows.map key).Nodup

namespace Table

variable {α : Type u} {κ : Type v} {key : α → κ}

instance [DecidableEq α] : DecidableEq (Table key) := fun s t =>
  decidable_of_iff (s.rows = t.rows) (by cases s; cases t; simp)

theorem ext_rows {s t : Table key} (h : s.rows = t.rows) : s = t := by
  cases s
  cases t
  congr

def empty : Table key := ⟨[], List.nodup_nil⟩

instance : Inhabited (Table key) := ⟨empty⟩

@[simp] theorem rows_empty : (empty : Table key).rows = [] := rfl

variable {t : Table key}

theorem eq_of_mem {r r' : α} (h : r ∈ t.rows) (h' : r' ∈ t.rows) (hkey : key r = key r') : r = r' :=
  List.inj_on_of_nodup_map t.nodup h h' hkey

/-- Drop the rows that fail a test. -/
def filter (t : Table key) (p : α → Bool) : Table key where
  rows := t.rows.filter p
  nodup := t.nodup.sublist (List.filter_sublist.map key)

variable {p : α → Bool} {r : α}

@[simp] theorem mem_filter {p : α → Bool} : r ∈ (t.filter p).rows ↔ r ∈ t.rows ∧ p r = true := by
  simp [filter]

theorem filter_eq_self (h : ∀ r ∈ t.rows, p r = true) : t.filter p = t :=
  ext_rows (List.filter_eq_self.mpr h)

variable [DecidableEq κ]

/-- The row stored under a key. -/
def get? (t : Table key) (k : κ) : Option α := t.rows.find? fun r => key r = k

private theorem map_key_replace (rows : List α) (r : α) :
    (rows.map fun x => if key x = key r then r else x).map key = rows.map key := by
  rw [List.map_map]
  refine List.map_congr_left fun x _ => ?_
  by_cases h : key x = key r <;> simp [h]

variable {rows : List α}

private theorem nodup_insertRows (hnodup : (rows.map key).Nodup) (r : α) :
    ((if key r ∈ rows.map key then rows.map fun x => if key x = key r then r else x
      else rows ++ [r]).map key).Nodup := by
  split
  · rw [map_key_replace]
    exact hnodup
  · next hnew =>
      rw [List.map_append]
      refine List.nodup_append.mpr ⟨hnodup, by simp, ?_⟩
      intro k hk j hj heq
      obtain rfl : j = key r := by simpa using hj
      exact hnew (heq ▸ hk)

/-- Write a row under its own key: in place when the key is present, else at the end. -/
def insert (t : Table key) (r : α) : Table key where
  rows := if key r ∈ t.rows.map key then t.rows.map fun x => if key x = key r then r else x
    else t.rows ++ [r]
  nodup := nodup_insertRows t.nodup r

/-- Drop the row stored under a key. -/
def erase (t : Table key) (k : κ) : Table key := t.filter fun r => key r ≠ k

/-- Rewrite every row by a function that keeps its key. -/
def map (t : Table key) (f : α → α) (hkey : ∀ r, key (f r) = key r) : Table key where
  rows := t.rows.map f
  nodup := by
    have h : (t.rows.map f).map key = t.rows.map key := by
      rw [List.map_map]
      exact List.map_congr_left fun r _ => hkey r
    rw [h]
    exact t.nodup

theorem map_eq_self {f : α → α} {hkey : ∀ r, key (f r) = key r} (h : ∀ r ∈ t.rows, f r = r) :
    t.map f hkey = t :=
  ext_rows ((List.map_congr_left h).trans (List.map_id _))

/-- The last `n` rows. -/
def keepLast (t : Table key) (n : Nat) : Table key where
  rows := t.rows.drop (t.rows.length - n)
  nodup := t.nodup.sublist ((List.drop_sublist _ _).map key)

/-- The table of what a key-preserving function makes of the rows. -/
def project {β : Type v} {key' : β → κ} (t : Table key) (f : α → β)
    (hkey : ∀ r, key' (f r) = key r) : Table key' where
  rows := t.rows.map f
  nodup := by
    have h : (t.rows.map f).map key' = t.rows.map key := by
      rw [List.map_map]
      exact List.map_congr_left fun r _ => hkey r
    rw [h]
    exact t.nodup

/-! ## Lookup -/

variable {k : κ}

theorem get?_eq_some : t.get? k = some r ↔ r ∈ t.rows ∧ key r = k := by
  constructor
  · intro h
    exact ⟨List.mem_of_find?_eq_some h, by simpa using List.find?_some h⟩
  · rintro ⟨hmem, hkey⟩
    cases hfind : t.get? k with
    | none =>
      have := List.find?_eq_none.mp hfind r hmem
      simp [hkey] at this
    | some r' =>
      have hmem' : r' ∈ t.rows := List.mem_of_find?_eq_some hfind
      have hkey' : key r' = k := by simpa using List.find?_some hfind
      rw [eq_of_mem hmem' hmem (hkey'.trans hkey.symm)]

theorem get?_eq_none : t.get? k = none ↔ ∀ r ∈ t.rows, key r ≠ k := by
  simp [get?, List.find?_eq_none]

theorem key_of_get? (h : t.get? k = some r) : key r = k :=
  (get?_eq_some.1 h).2

@[simp] theorem get?_empty (k : κ) : (empty : Table key).get? k = none := rfl

theorem mem_insert {r x : α} : x ∈ (t.insert r).rows ↔ x = r ∨ (x ∈ t.rows ∧ key x ≠ key r) := by
  unfold insert
  by_cases hold : key r ∈ t.rows.map key
  · simp only [hold, if_true, List.mem_map]
    constructor
    · rintro ⟨y, hy, rfl⟩
      by_cases h : key y = key r
      · simp [h]
      · simp [h, hy]
    · rintro (rfl | ⟨hx, hne⟩)
      · obtain ⟨y, hy, hkey⟩ := List.mem_map.mp hold
        exact ⟨y, hy, by simp [hkey]⟩
      · exact ⟨x, hx, by simp [hne]⟩
  · simp only [hold, if_false, List.mem_append, List.mem_singleton]
    constructor
    · rintro (hx | rfl)
      · exact .inr ⟨hx, fun h => hold (h ▸ List.mem_map_of_mem hx)⟩
      · exact .inl rfl
    · rintro (rfl | ⟨hx, -⟩)
      · exact .inr rfl
      · exact .inl hx

theorem map_key_insert (t : Table key) (r : α) : (t.insert r).rows.map key =
    t.rows.map key ++ if (t.get? (key r)).isSome then [] else [key r] := by
  have hsome : (t.get? (key r)).isSome = true ↔ key r ∈ t.rows.map key := by
    simp [get?, List.find?_isSome]
  simp only [insert, hsome]
  split
  · rw [map_key_replace, List.append_nil]
  · rw [List.map_append]
    rfl

@[simp] theorem get?_insert_self (t : Table key) (r : α) : (t.insert r).get? (key r) = some r :=
  get?_eq_some.2 ⟨mem_insert.2 (.inl rfl), rfl⟩

theorem get?_insert_ne (t : Table key) (h : k ≠ key r) : (t.insert r).get? k = t.get? k := by
  cases hget : t.get? k with
  | none =>
    refine get?_eq_none.2 fun x hx => ?_
    rcases mem_insert.1 hx with rfl | ⟨hx, -⟩
    · exact fun hk => h hk.symm
    · exact get?_eq_none.1 hget x hx
  | some =>
    obtain ⟨hx, hkey⟩ := get?_eq_some.1 hget
    exact get?_eq_some.2 ⟨mem_insert.2 (.inr ⟨hx, hkey ▸ h⟩), hkey⟩

theorem get?_insert (t : Table key) (r : α) (k : κ) :
    (t.insert r).get? k = if k = key r then some r else t.get? k := by
  by_cases h : k = key r
  · subst h
    simp
  · simp [h, get?_insert_ne t h]

theorem insert_eq_self (h : t.get? (key r) = some r) : t.insert r = t := by
  have hmem := (get?_eq_some.1 h).1
  refine ext_rows ?_
  refine (if_pos (List.mem_map_of_mem hmem)).trans ?_
  refine (List.map_congr_left fun x hx => ?_).trans (List.map_id _)
  split
  next hkey => exact (eq_of_mem hx hmem hkey).symm
  · rfl

@[simp] theorem mem_erase {k : κ} : r ∈ (t.erase k).rows ↔ r ∈ t.rows ∧ key r ≠ k := by
  simp [erase]

theorem get?_erase (t : Table key) (k j : κ) :
    (t.erase k).get? j = if j = k then none else t.get? j := by
  by_cases h : j = k
  · subst h
    simp only [if_true]
    exact get?_eq_none.2 fun r hr => (mem_erase.1 hr).2
  · simp only [h, if_false]
    cases hget : t.get? j with
    | none => exact get?_eq_none.2 fun r hr => get?_eq_none.1 hget r (mem_erase.1 hr).1
    | some =>
      obtain ⟨hr, hkey⟩ := get?_eq_some.1 hget
      exact get?_eq_some.2 ⟨mem_erase.2 ⟨hr, hkey ▸ h⟩, hkey⟩

theorem lookup_listed {β : Type v} (t : Table key) (p : α → Bool) (f : α → β) (hr : r ∈ t.rows) :
    ((t.rows.filter p).map fun x => (key x, f x)).lookup (key r) =
      if p r then some (f r) else none := by
  obtain ⟨rows, hnodup⟩ := t
  induction rows with
  | nil => simp at hr
  | cons x rows ih =>
    simp only [List.map_cons, List.nodup_cons] at hnodup
    obtain ⟨hnew, hrest⟩ := hnodup
    have hnone : ∀ y ∈ rows.filter p, key x ≠ key y := by
      intro y hy heq
      exact hnew (heq ▸ List.mem_map_of_mem (List.mem_filter.mp hy).1)
    rcases List.mem_cons.mp hr with rfl | hmem
    · by_cases hp : p r = true
      · simp [hp]
      · simp only [hp, List.filter_cons, Bool.false_eq_true, if_false]
        rw [List.lookup_eq_none_iff]
        intro pair hpair
        obtain ⟨y, hy, rfl⟩ := List.mem_map.mp hpair
        simpa using hnone y hy
    · have hne : (key r == key x) = false := by
        refine beq_eq_false_iff_ne.mpr fun heq => hnew (heq ▸ List.mem_map_of_mem hmem)
      by_cases hp : p x = true
      · simpa [hp, List.lookup_cons, hne] using ih hrest hmem
      · simpa [hp] using ih hrest hmem

/-- Dropping a row that was written under a new key undoes the write. -/
theorem erase_insert_new (h : t.get? (key r) = none) : (t.insert r).erase (key r) = t := by
  have hne : ∀ x ∈ t.rows, key x ≠ key r := get?_eq_none.1 h
  have hnew : key r ∉ t.rows.map key := by
    intro hr
    obtain ⟨x, hx, heq⟩ := List.mem_map.mp hr
    exact hne x hx heq
  have hrows : (t.insert r).rows = t.rows ++ [r] := if_neg hnew
  refine ext_rows ?_
  simp only [erase, filter, hrows, List.filter_append]
  rw [List.filter_eq_self.mpr (fun x hx => by simpa using hne x hx)]
  simp

@[simp] theorem get?_map (t : Table key) (f : α → α) (hkey : ∀ r, key (f r) = key r) (k : κ) :
    (t.map f hkey).get? k = (t.get? k).map f := by
  unfold get? map
  rw [List.find?_map]
  simp [Function.comp_def, hkey]

@[simp] theorem get?_project {β : Type v} {key' : β → κ} (t : Table key) (f : α → β)
    (hkey : ∀ r, key' (f r) = key r) (k : κ) :
    (t.project f hkey).get? k = (t.get? k).map f := by
  unfold get? project
  rw [List.find?_map]
  simp [Function.comp_def, hkey]

/-- The dictionary of the rows: a later row takes the place of one with its key. -/
def ofList (rows : List α) : Table key := rows.foldl insert empty

private theorem rows_foldl_insert (t : Table key) (h : ((t.rows ++ rows).map key).Nodup) :
    (rows.foldl insert t).rows = t.rows ++ rows := by
  induction rows generalizing t with
  | nil => simp
  | cons r rows ih =>
    have hnew : key r ∉ t.rows.map key := by
      rw [List.map_append] at h
      intro hr
      exact (List.nodup_append.mp h).2.2 _ hr _ (by simp) rfl
    have hrows : (t.insert r).rows = t.rows ++ [r] := if_neg hnew
    rw [List.foldl_cons, ih, hrows, List.append_assoc]
    · rfl
    · rw [hrows, List.append_assoc]
      exact h

/-- Rows with distinct keys are kept as they are. -/
theorem rows_ofList (h : (rows.map key).Nodup) : (ofList rows : Table key).rows = rows :=
  rows_foldl_insert empty h

/-- `dict.update`: write every row of another table. -/
def update (t other : Table key) : Table key := other.rows.foldl insert t

private theorem get?_foldl_insert (h : (rows.map key).Nodup) (t : Table key) (k : κ) :
    (rows.foldl insert t).get? k = (rows.find? fun r => key r = k).or (t.get? k) := by
  induction rows generalizing t with
  | nil => simp
  | cons r rows ih =>
    rw [List.map_cons, List.nodup_cons] at h
    rw [List.foldl_cons, ih h.2, get?_insert]
    by_cases hk : k = key r
    · subst hk
      have hnone : (rows.find? fun x => key x = key r) = none := by
        refine List.find?_eq_none.mpr fun x hx hkey => h.1 ?_
        have : key x = key r := by simpa using hkey
        exact this ▸ List.mem_map_of_mem hx
      simp [hnone]
    · have hne : key r ≠ k := fun heq => hk heq.symm
      simp [hk, hne]

theorem get?_update (t other : Table key) (k : κ) :
    (t.update other).get? k = (other.get? k).or (t.get? k) :=
  get?_foldl_insert other.nodup t k

private theorem countP_replace_le (hnodup : (rows.map key).Nodup) (r : α) (p : α → Bool) :
    (rows.map fun x => if key x = key r then r else x).countP p ≤ rows.countP p + 1 := by
  induction rows with
  | nil => simp
  | cons x rows ih =>
    simp only [List.map_cons, List.nodup_cons] at hnodup
    by_cases hx : key x = key r
    · have hrest : (rows.map fun y => if key y = key r then r else y) = rows := by
        refine (List.map_congr_left fun y hy => ?_).trans (List.map_id _)
        have hne : key y ≠ key r := fun heq =>
          hnodup.1 (hx.trans heq.symm ▸ List.mem_map_of_mem hy)
        simp [hne]
      rw [List.map_cons, if_pos hx, hrest, List.countP_cons, List.countP_cons]
      split <;> omega
    · rw [List.map_cons, if_neg hx, List.countP_cons, List.countP_cons]
      have hle := ih hnodup.2
      omega

/-- Writing a row adds at most one to a count. -/
theorem countP_insert_le (t : Table key) (r : α) (p : α → Bool) :
    (t.insert r).rows.countP p ≤ t.rows.countP p + 1 := by
  unfold insert
  dsimp only
  split
  · exact countP_replace_le t.nodup r p
  · rw [List.countP_append, List.countP_singleton]
    split <;> omega

theorem countP_insert_of_get? {r old : α} (hold : t.get? (key r) = some old)
    (h : p r = true → p old = true) : (t.insert r).rows.countP p ≤ t.rows.countP p := by
  obtain ⟨hmem, hkey⟩ := get?_eq_some.1 hold
  have hpresent : key r ∈ t.rows.map key := hkey ▸ List.mem_map_of_mem hmem
  have hrows : (t.insert r).rows = t.rows.map fun x => if key x = key r then r else x := by
    simp [insert, hpresent]
  rw [hrows, List.countP_map]
  apply List.countP_mono_left
  intro x hx hp
  by_cases hsame : key x = key r
  · obtain rfl : x = old := eq_of_mem hx hmem (hsame.trans hkey.symm)
    exact h (by simpa [hsame] using hp)
  · simpa [hsame] using hp

theorem countP_insert_of_not (t : Table key) (h : p r = false) :
    (t.insert r).rows.countP p ≤ t.rows.countP p := by
  cases hget : t.get? (key r) with
  | some => exact countP_insert_of_get? hget (by simp [h])
  | none =>
    have hnew : key r ∉ t.rows.map key := by
      rintro hmem
      obtain ⟨x, hx, hkey⟩ := List.mem_map.mp hmem
      exact get?_eq_none.1 hget x hx hkey
    simp [insert, hnew, h]

theorem countP_erase_le (t : Table key) (k : κ) (p : α → Bool) :
    (t.erase k).rows.countP p ≤ t.rows.countP p :=
  List.filter_sublist.countP_le

end Table

/-- A dictionary is a table of pairs keyed by their first component. -/
abbrev Dict (κ : Type u) (β : Type v) := Table (Prod.fst : κ × β → κ)

namespace Dict

variable {κ : Type u} {β : Type v} [DecidableEq κ]

def lookup (d : Dict κ β) (k : κ) : Option β := (d.get? k).map Prod.snd

def set (d : Dict κ β) (k : κ) (v : β) : Dict κ β := d.insert (k, v)

def dropKeys (d : Dict κ β) (keys : List κ) : Dict κ β := d.filter fun entry => entry.1 ∉ keys

theorem lookup_set (d : Dict κ β) (k j : κ) (v : β) :
    (d.set k v).lookup j = if j = k then some v else d.lookup j := by
  unfold lookup set
  rw [Table.get?_insert]
  by_cases h : j = k <;> simp [h]

@[simp] theorem lookup_empty (k : κ) : lookup (Table.empty : Dict κ β) k = none := rfl

theorem lookup_eq_some {d : Dict κ β} {k : κ} {v : β} : d.lookup k = some v ↔ (k, v) ∈ d.rows := by
  unfold lookup
  constructor
  · intro h
    obtain ⟨⟨k', v'⟩, hget, rfl⟩ := Option.map_eq_some_iff.mp h
    obtain ⟨hmem, rfl⟩ := Table.get?_eq_some.1 hget
    exact hmem
  · intro h
    rw [Table.get?_eq_some.2 ⟨h, rfl⟩]
    rfl

theorem lookup_erase (d : Dict κ β) (k j : κ) :
    Dict.lookup (Table.erase d k) j = if j = k then none else d.lookup j := by
  unfold lookup
  rw [Table.get?_erase]
  split <;> rfl

theorem lookup_filter (d : Dict κ β) (p : κ × β → Bool) (k : κ) :
    Dict.lookup (Table.filter d p) k = (d.lookup k).filter fun v => p (k, v) := by
  ext v
  rw [lookup_eq_some, Table.mem_filter, Option.filter_eq_some_iff, lookup_eq_some]

/-- Changing the values under their keys. -/
theorem lookup_map (d : Dict κ β) (f : κ × β → β) (k : κ) :
    Dict.lookup (Table.map d (fun entry => (entry.1, f entry)) fun _ => rfl) k =
      (d.lookup k).map fun v => f (k, v) := by
  unfold lookup
  rw [Table.get?_map]
  cases hget : d.get? k with
  | none => rfl
  | some entry =>
    obtain rfl : entry.1 = k := Table.key_of_get? hget
    rfl

end Dict
