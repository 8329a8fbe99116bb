import Mathlib.Data.List.Nodup
import Mathlib.Data.List.Perm.Subperm
import ClaudeHub.Lib.Table

/-! # Directories

A directory names its files. Writing and moving replace what the target name holds, as a
replacement by renaming does, and a name out of an injective family can always be found that
is not taken.
-/

universe u v

abbrev Directory (ν : Type u) (β : Type v) := Dict ν β

namespace Directory

variable {ν : Type u} {β : Type v} [DecidableEq ν]

def empty : Directory ν β := Table.empty

/-- What a file holds. -/
def read (d : Directory ν β) (name : ν) : Option β := d.lookup name

def write (d : Directory ν β) (name : ν) (content : β) : Directory ν β := d.set name content

def remove (d : Directory ν β) (name : ν) : Directory ν β := Table.erase d name

/-- Rename a file over whatever the target name holds; a missing file stays missing. -/
def move (d : Directory ν β) (source target : ν) : Directory ν β :=
  match d.read source with
  | none => d
  | some content => (d.remove source).write target content

@[simp] theorem read_empty (name : ν) : (empty : Directory ν β).read name = none := rfl

theorem read_write (d : Directory ν β) (name other : ν) (content : β) :
    (d.write name content).read other = if other = name then some content else d.read other :=
  Dict.lookup_set d name other content

theorem read_remove (d : Directory ν β) (name other : ν) :
    (d.remove name).read other = if other = name then none else d.read other :=
  Dict.lookup_erase d name other

variable {source target : ν}

theorem read_move_other (d : Directory ν β) {other : ν} (hs : other ≠ source) (ht : other ≠ target) :
    (d.move source target).read other = d.read other := by
  unfold move
  split
  · rfl
  · rw [read_write, if_neg ht, read_remove, if_neg hs]

variable {d : Directory ν β}

theorem read_move_target (target : ν) {content : β} (h : d.read source = some content) :
    (d.move source target).read target = some content := by
  unfold move
  rw [h]
  simp [read_write]

theorem read_move_source (hne : source ≠ target) : (d.move source target).read source = none := by
  unfold move
  cases h : d.read source with
  | none => exact h
  | some => simp [read_write, read_remove, hne]

theorem read_move_of_missing {other : ν} (hother : d.read other = none) (hne : other ≠ target) :
    (d.move source target).read other = none := by
  by_cases hs : other = source
  · subst hs
    exact read_move_source hne
  · rw [d.read_move_other hs hne, hother]

def firstFree (d : Directory ν β) (name : Nat → ν) : Nat :=
  ((List.range (d.rows.length + 1)).find? fun n => (d.read (name n)).isNone).getD
    (d.rows.length + 1)

theorem exists_free (d : Directory ν β) {name : Nat → ν} (hname : Function.Injective name) :
    ∃ n ∈ List.range (d.rows.length + 1), d.read (name n) = none := by
  by_contra hall
  push Not at hall
  have hsub : (List.range (d.rows.length + 1)).map name ⊆ d.rows.map Prod.fst := by
    intro k hk
    obtain ⟨n, hn, rfl⟩ := List.mem_map.mp hk
    obtain ⟨content, hcontent⟩ := Option.ne_none_iff_exists'.mp (hall n hn)
    exact List.mem_map.mpr ⟨_, Dict.lookup_eq_some.mp hcontent, rfl⟩
  have hnodup : ((List.range (d.rows.length + 1)).map name).Nodup :=
    List.nodup_range.map hname
  have hle := (hnodup.subperm hsub).length_le
  simp only [List.length_map, List.length_range] at hle
  omega

theorem read_firstFree (d : Directory ν β) {name : Nat → ν} (hname : Function.Injective name) :
    d.read (name (d.firstFree name)) = none := by
  obtain ⟨n, hn, hfree⟩ := d.exists_free hname
  unfold firstFree
  cases hfind : (List.range (d.rows.length + 1)).find? fun n => (d.read (name n)).isNone with
  | none =>
    have hnone := List.find?_eq_none.mp hfind n hn
    simp [hfree] at hnone
  | some =>
    have hm := List.find?_some hfind
    simpa using hm

/-- Some file has this content. -/
def Holds (d : Directory ν β) (content : β) : Prop := ∃ name, d.read name = some content

/-- Some file of another name has this content. -/
def HoldsBeside (d : Directory ν β) (name : ν) (content : β) : Prop :=
  ∃ other, other ≠ name ∧ d.read other = some content

theorem Holds.beside {name : ν} {content : β} (h : d.Holds content)
    (hname : d.read name ≠ some content) : d.HoldsBeside name content := by
  obtain ⟨other, hother⟩ := h
  refine ⟨other, ?_, hother⟩
  rintro rfl
  exact hname hother

theorem holds_write {name : ν} {new content : β} :
    (d.write name new).Holds content ↔ new = content ∨ d.HoldsBeside name content := by
  constructor
  · rintro ⟨other, hother⟩
    rw [read_write] at hother
    split at hother
    · exact .inl (Option.some.inj hother)
    · next hne => exact .inr ⟨other, hne, hother⟩
  · rintro (rfl | ⟨other, hne, hother⟩)
    · exact ⟨name, by simp [read_write]⟩
    · exact ⟨other, by rw [read_write, if_neg hne, hother]⟩

theorem holds_remove {name : ν} {content : β} :
    (d.remove name).Holds content ↔ d.HoldsBeside name content := by
  constructor
  · rintro ⟨other, hother⟩
    rw [read_remove] at hother
    split at hother
    · exact nomatch hother
    · next hne => exact ⟨other, hne, hother⟩
  · rintro ⟨other, hne, hother⟩
    exact ⟨other, by rw [read_remove, if_neg hne, hother]⟩

theorem holds_move {moved content : β} (hsource : d.read source = some moved)
    (hne : source ≠ target) :
    (d.move source target).Holds content ↔ d.HoldsBeside target content := by
  constructor
  · rintro ⟨other, hother⟩
    by_cases ht : other = target
    · subst ht
      rw [read_move_target other hsource] at hother
      exact ⟨source, hne, hsource.trans hother⟩
    · by_cases hs : other = source
      · subst hs
        rw [read_move_source hne] at hother
        exact nomatch hother
      · rw [d.read_move_other hs ht] at hother
        exact ⟨other, ht, hother⟩
  · rintro ⟨other, ht, hother⟩
    by_cases hs : other = source
    · subst hs
      exact ⟨target, read_move_target target hother⟩
    · exact ⟨other, by rw [d.read_move_other hs ht, hother]⟩

/-- A move to a name that is free costs nothing. -/
theorem Holds.move {content : β} (h : d.Holds content) (hfree : d.read target = none) :
    (d.move source target).Holds content := by
  cases hsource : d.read source with
  | none =>
    rw [Directory.move, hsource]
    exact h
  | some =>
    have hne : source ≠ target := by
      rintro rfl
      rw [hfree] at hsource
      exact nomatch hsource
    exact (holds_move hsource hne).mpr (h.beside (by simp [hfree]))

instance [DecidableEq β] (d : Directory ν β) (content : β) : Decidable (d.Holds content) :=
  decidable_of_iff (∃ row ∈ d.rows, row.2 = content) (by
    constructor
    · rintro ⟨row, hmem, rfl⟩
      exact ⟨row.1, Dict.lookup_eq_some.mpr hmem⟩
    · rintro ⟨name, hname⟩
      exact ⟨(name, content), Dict.lookup_eq_some.mp hname, rfl⟩)

end Directory
