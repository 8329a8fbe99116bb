import ClaudeHub.Dot.Lessons
import ClaudeHub.Lib.Runs
import Mathlib.Algebra.GroupWithZero.Nat

/-! # Votes reach the live lesson

While no lesson that was merged is made live again and no lesson has more tasks than it keeps,
merges form a forest whose roots are the lessons that were not merged. A vote then goes to the root,
a task is counted for it once, and merging moves votes without losing any.
-/

namespace ClaudeHub

open Acyclic Relation StepSystem

namespace Lessons

variable {lessons : List Lesson} {id a b keepId otherId : String} {lesson keep other : Lesson}
  {change : Lesson → Lesson}

def MergedInto (lessons : List Lesson) (a b : String) : Prop :=
  ∃ lesson ∈ lessons, lesson.id = a ∧ lesson.mergedInto = some b

def LeadsTo (lessons : List Lesson) (id : String) (lesson : Lesson) : Prop :=
  lesson ∈ lessons ∧ ReflTransGen (MergedInto lessons) id lesson.id

def liveVotes (lessons : List Lesson) : Nat :=
  (lessons.map fun lesson => if lesson.dropped then 0 else lesson.votes).sum

def amended (id : String) (change : Lesson → Lesson) (lessons : List Lesson) : List Lesson :=
  lessons.map fun lesson => if lesson.id = id then change lesson else lesson

theorem amended_of_forall_ne (h : ∀ lesson ∈ lessons, lesson.id ≠ id) :
    amended id change lessons = lessons := by
  refine (List.map_congr_left fun lesson hlesson => ?_).trans (List.map_id _)
  exact if_neg (h lesson hlesson)

theorem amendFirst_eq (hnodup : (lessons.map Lesson.id).Nodup) :
    amendFirst id change lessons = amended id change lessons := by
  induction lessons with
  | nil => rfl
  | cons first rest ih =>
    rw [List.map_cons, List.nodup_cons] at hnodup
    rw [amendFirst, amended, List.map_cons]
    by_cases hid : first.id = id
    · have hrest : ∀ lesson ∈ rest, lesson.id ≠ id := by
        intro lesson hlesson heq
        exact hnodup.1 (List.mem_map.mpr ⟨lesson, hlesson, heq.trans hid.symm⟩)
      rw [if_pos hid, if_pos hid]
      exact congrArg _ (amended_of_forall_ne hrest).symm
    · rw [if_neg hid, if_neg hid, ih hnodup.2]
      rfl

theorem amendLast_eq (hnodup : (lessons.map Lesson.id).Nodup) :
    amendLast id change lessons = amended id change lessons := by
  have hreverse : (lessons.reverse.map Lesson.id).Nodup := by
    rw [List.map_reverse]
    exact List.nodup_reverse.mpr hnodup
  rw [amendLast, amendFirst_eq hreverse, amended, amended, ← List.map_reverse, List.reverse_reverse]

theorem map_id_amended (hid : ∀ lesson, (change lesson).id = lesson.id) :
    (amended id change lessons).map Lesson.id = lessons.map Lesson.id := by
  rw [amended, List.map_map]
  refine List.map_congr_left fun lesson _ => ?_
  rw [Function.comp_apply]
  split
  · exact hid lesson
  · rfl

section

variable (hnodup : (lessons.map Lesson.id).Nodup)
include hnodup

theorem eq_of_id {other : Lesson} (hlesson : lesson ∈ lessons) (hother : other ∈ lessons)
    (hid : lesson.id = other.id) : lesson = other :=
  List.inj_on_of_nodup_map hnodup hlesson hother hid

theorem byId_eq_some : byId lessons id = some lesson ↔ lesson ∈ lessons ∧ lesson.id = id := by
  constructor
  · intro h
    have hmem := List.mem_of_find?_eq_some h
    exact ⟨List.mem_reverse.mp hmem, by simpa using List.find?_some h⟩
  · rintro ⟨hmem, hid⟩
    cases hfind : byId lessons id with
    | none =>
      have hnone := List.find?_eq_none.mp hfind lesson (List.mem_reverse.mpr hmem)
      exact absurd (decide_eq_true hid) hnone
    | some other =>
      have hother := List.mem_reverse.mp (List.mem_of_find?_eq_some hfind)
      have hsame : other.id = id := by simpa using List.find?_some hfind
      rw [eq_of_id hnodup hother hmem (hsame.trans hid.symm)]

theorem mem_amended (hmem : lesson ∈ lessons) (hid : lesson.id = id) {other : Lesson} :
    other ∈ amended id change lessons ↔
      other = change lesson ∨ other ∈ lessons ∧ other.id ≠ id := by
  rw [amended, List.mem_map]
  constructor
  · rintro ⟨old, hold, rfl⟩
    split
    · next heq =>
        rw [eq_of_id hnodup hold hmem (heq.trans hid.symm)]
        exact .inl rfl
    · next hne => exact .inr ⟨hold, hne⟩
  · rintro (rfl | ⟨hother, hne⟩)
    · exact ⟨lesson, hmem, if_pos hid⟩
    · exact ⟨other, hother, if_neg hne⟩

theorem liveVotes_amended (hmem : lesson ∈ lessons) (hid : lesson.id = id) :
    liveVotes (amended id change lessons) + (if lesson.dropped then 0 else lesson.votes) =
      liveVotes lessons + (if (change lesson).dropped then 0 else (change lesson).votes) := by
  obtain ⟨front, rest, rfl⟩ := List.append_of_mem hmem
  rw [List.map_append, List.map_cons, List.nodup_append, List.nodup_cons] at hnodup
  obtain ⟨-, ⟨hrest, -⟩, hfront⟩ := hnodup
  have hfrontNe : ∀ other ∈ front, other.id ≠ id := by
    intro other hother heq
    exact hfront other.id (List.mem_map_of_mem hother) lesson.id (List.mem_cons_self ..)
      (heq.trans hid.symm)
  have hrestNe : ∀ other ∈ rest, other.id ≠ id := by
    intro other hother heq
    exact hrest (List.mem_map.mpr ⟨other, hother, heq.trans hid.symm⟩)
  have hsplit : amended id change (front ++ lesson :: rest) = front ++ change lesson :: rest := by
    have hf := @amended_of_forall_ne _ _ change hfrontNe
    have hr := @amended_of_forall_ne _ _ change hrestNe
    unfold amended at hf hr ⊢
    rw [List.map_append, List.map_cons, hf, hr, if_pos hid]
  rw [hsplit]
  simp only [liveVotes, List.map_append, List.map_cons, List.sum_append, List.sum_cons]
  omega

theorem mem_mergeOne (hkeep : keep ∈ lessons) (hother : other ∈ lessons) (hne : other.id ≠ keep.id)
    (hlive : other.dropped = false) {found : Lesson} :
    found ∈ mergeOne keep.id lessons other.id ↔ found = mergedAway keep.id other ∨
      found = absorbed other keep ∨ found ∈ lessons ∧ found.id ≠ keep.id ∧ found.id ≠ other.id := by
  have hids : (amended keep.id (absorbed other) lessons).map Lesson.id =
      lessons.map Lesson.id := map_id_amended fun _ => rfl
  have hafter : ((amended keep.id (absorbed other) lessons).map Lesson.id).Nodup := by
    rw [hids]
    exact hnodup
  have hotherAfter : other ∈ amended keep.id (absorbed other) lessons :=
    (mem_amended hnodup hkeep rfl).2 (.inr ⟨hother, hne⟩)
  rw [mergeOne, (byId_eq_some hnodup).2 ⟨hother, rfl⟩]
  simp only [hlive, Bool.false_eq_true, ↓reduceIte]
  rw [amendLast_eq hnodup, amendLast_eq hafter, mem_amended hafter hotherAfter rfl,
    mem_amended hnodup hkeep rfl]
  constructor
  · rintro (rfl | ⟨rfl | ⟨hold, hkept⟩, hfound⟩)
    · exact .inl rfl
    · exact .inr (.inl rfl)
    · exact .inr (.inr ⟨hold, hkept, hfound⟩)
  · rintro (rfl | rfl | ⟨hold, hkept, hfound⟩)
    · exact .inl rfl
    · exact .inr ⟨.inl rfl, hne.symm⟩
    · exact .inr ⟨.inr ⟨hold, hkept⟩, hfound⟩

theorem map_id_mergeOne (keepId otherId : String) :
    (mergeOne keepId lessons otherId).map Lesson.id = lessons.map Lesson.id := by
  unfold mergeOne
  split
  · rfl
  · next other _ =>
      have hids : (amended keepId (absorbed other) lessons).map Lesson.id =
          lessons.map Lesson.id := map_id_amended fun _ => rfl
      split
      · rfl
      · rw [amendLast_eq hnodup, amendLast_eq (by rw [hids]; exact hnodup)]
        have hmerged : (amended otherId (mergedAway keepId)
            (amended keepId (absorbed other) lessons)).map Lesson.id =
              (amended keepId (absorbed other) lessons).map Lesson.id := map_id_amended fun _ => rfl
        exact hmerged.trans hids

theorem liveVotes_mergeOne (hkeep : keep ∈ lessons) (hkeepLive : keep.dropped = false)
    (hne : otherId ≠ keep.id) :
    liveVotes (mergeOne keep.id lessons otherId) = liveVotes lessons := by
  unfold mergeOne
  cases hfind : byId lessons otherId with
  | none => rfl
  | some other =>
    obtain ⟨hother, rfl⟩ := (byId_eq_some hnodup).1 hfind
    cases hlive : other.dropped with
    | true => simp only [hlive, ↓reduceIte]
    | false =>
      have hids : (amended keep.id (absorbed other) lessons).map Lesson.id =
          lessons.map Lesson.id := map_id_amended fun _ => rfl
      have hafter : ((amended keep.id (absorbed other) lessons).map Lesson.id).Nodup := by
        rw [hids]
        exact hnodup
      have hotherAfter : other ∈ amended keep.id (absorbed other) lessons :=
        (mem_amended hnodup hkeep rfl).2 (.inr ⟨hother, hne⟩)
      have hadded := @liveVotes_amended _ _ _ (absorbed other) hnodup hkeep rfl
      have htaken := @liveVotes_amended _ _ _ (mergedAway keep.id) hafter hotherAfter rfl
      simp only [hlive, Bool.false_eq_true, ↓reduceIte]
      rw [amendLast_eq hnodup, amendLast_eq hafter]
      simp only [absorbed, mergedAway, hkeepLive, hlive, Bool.false_eq_true,
        ↓reduceIte] at hadded htaken
      omega

theorem keep_mergeOne (hkeep : keep ∈ lessons) (hkeepLive : keep.dropped = false)
    (hne : otherId ≠ keep.id) :
    ∃ kept ∈ mergeOne keep.id lessons otherId, kept.id = keep.id ∧ kept.dropped = false := by
  cases hfind : byId lessons otherId with
  | none =>
    rw [mergeOne, hfind]
    exact ⟨keep, hkeep, rfl, hkeepLive⟩
  | some other =>
    obtain ⟨hother, rfl⟩ := (byId_eq_some hnodup).1 hfind
    cases hlive : other.dropped with
    | true =>
      rw [mergeOne, hfind]
      simp only [hlive, ↓reduceIte]
      exact ⟨keep, hkeep, rfl, hkeepLive⟩
    | false =>
      exact ⟨absorbed other keep,
        (mem_mergeOne hnodup hkeep hother hne hlive).2 (.inr (.inl rfl)), rfl, hkeepLive⟩

theorem liveVotes_merged {others : List String}
    (hkeep : ∃ keep ∈ lessons, keep.id = keepId ∧ keep.dropped = false)
    (hothers : ∀ other ∈ others, other ≠ keepId) :
    liveVotes (others.foldl (mergeOne keepId) lessons) = liveVotes lessons := by
  induction others generalizing lessons with
  | nil => rfl
  | cons other others ih =>
    obtain ⟨keep, hmem, rfl, hlive⟩ := hkeep
    have hne := hothers other List.mem_cons_self
    have hnodupAfter : ((mergeOne keep.id lessons other).map Lesson.id).Nodup := by
      rw [map_id_mergeOne hnodup]
      exact hnodup
    rw [List.foldl_cons, ih hnodupAfter (keep_mergeOne hnodup hmem hlive hne)
      fun later hlater => hothers later (List.mem_cons_of_mem _ hlater)]
    exact liveVotes_mergeOne hnodup hmem hlive hne

end

theorem known_of_path (hmem : lesson ∈ lessons)
    (hpath : ReflTransGen (MergedInto lessons) id lesson.id) : id ∈ lessons.map Lesson.id := by
  rcases ReflTransGen.cases_head hpath with rfl | ⟨_, ⟨other, hother, hid, -⟩, -⟩
  · exact List.mem_map_of_mem hmem
  · exact List.mem_map.mpr ⟨other, hother, hid⟩

theorem followMerges_eq (hnodup : (lessons.map Lesson.id).Nodup) {rank : String → Nat}
    (hrank : ∀ {a b}, MergedInto lessons a b → b ∈ lessons.map Lesson.id → rank b < rank a)
    (hmem : lesson ∈ lessons) (hroot : lesson.mergedInto = none) {hops : Nat}
    (hpath : ReflTransGen (MergedInto lessons) id lesson.id) (hhops : rank id ≤ hops) :
    followMerges lessons hops (byId lessons id) = some lesson := by
  induction hops generalizing id with
  | zero =>
    rcases ReflTransGen.cases_head hpath with rfl | ⟨next, hstep, hrest⟩
    · rw [(byId_eq_some hnodup).2 ⟨hmem, rfl⟩]
      rfl
    · have hlt := hrank hstep (known_of_path hmem hrest)
      omega
  | succ hops ih =>
    rcases ReflTransGen.cases_head hpath with rfl | ⟨next, hstep, hrest⟩
    · rw [(byId_eq_some hnodup).2 ⟨hmem, rfl⟩, followMerges, hroot]
    · have hlt := hrank hstep (known_of_path hmem hrest)
      obtain ⟨first, hfirst, hid, hnext⟩ := hstep
      rw [(byId_eq_some hnodup).2 ⟨hfirst, hid⟩, followMerges, hnext]
      exact ih hrest (by omega)

theorem leadsTo_of_followMerges (hnodup : (lessons.map Lesson.id).Nodup) {hops : Nat}
    (h : followMerges lessons hops (byId lessons id) = some lesson) :
    LeadsTo lessons id lesson := by
  induction hops generalizing id with
  | zero =>
    obtain ⟨hmem, rfl⟩ := (byId_eq_some hnodup).1 h
    exact ⟨hmem, .refl⟩
  | succ hops ih =>
    cases hfirst : byId lessons id with
    | none =>
      rw [hfirst] at h
      exact absurd h.symm (Option.some_ne_none _)
    | some first =>
      obtain ⟨hmem, rfl⟩ := (byId_eq_some hnodup).1 hfirst
      rw [hfirst, followMerges] at h
      cases hnext : first.mergedInto with
      | none =>
        rw [hnext] at h
        obtain rfl : first = lesson := Option.some.inj h
        exact ⟨hmem, .refl⟩
      | some =>
        rw [hnext] at h
        obtain ⟨hlast, hpath⟩ := ih h
        exact ⟨hlast, .head ⟨first, hmem, rfl, hnext⟩ hpath⟩

end Lessons

open Lessons

/-- What holds of the lessons and their ballots while merges stand. -/
structure LessonsOk (lessons : List Lesson) (ballots : List Ballot) : Prop where
  nodup : (lessons.map Lesson.id).Nodup
  acyclic : ∀ id, ¬ TransGen (MergedInto lessons) id id
  targets : ∀ {a b}, MergedInto lessons a b → b ∈ lessons.map Lesson.id
  merged_dropped : ∀ lesson ∈ lessons, lesson.dropped = false → lesson.mergedInto = none
  tasks_nodup : ∀ lesson ∈ lessons, lesson.tasks.Nodup
  /-- The tasks of a lesson that was not merged are those whose ballots lead to it. -/
  tasks : ∀ lesson ∈ lessons, lesson.mergedInto = none → ∀ task, task ∈ lesson.tasks ↔
    ∃ ballot ∈ ballots, ballot.taskId = task ∧
      ReflTransGen (MergedInto lessons) ballot.lessonId lesson.id
  known : ∀ ballot ∈ ballots, ballot.lessonId ∈ lessons.map Lesson.id
  ballots_nodup : ballots.Nodup

namespace LessonsOk

variable {lessons : List Lesson} {ballots : List Ballot} {id keepId otherId : String}
  {lesson keep other : Lesson} {change : Lesson → Lesson}

theorem start : LessonsOk [] [] where
  nodup := List.nodup_nil
  acyclic := by
    intro id hpath
    obtain ⟨_, ⟨lesson, hlesson, -⟩, -⟩ := TransGen.head'_iff.mp hpath
    exact absurd hlesson List.not_mem_nil
  targets := fun ⟨lesson, hlesson, _⟩ => absurd hlesson List.not_mem_nil
  merged_dropped := fun lesson hlesson => absurd hlesson List.not_mem_nil
  tasks_nodup := fun lesson hlesson => absurd hlesson List.not_mem_nil
  tasks := fun lesson hlesson => absurd hlesson List.not_mem_nil
  known := fun ballot hballot => absurd hballot List.not_mem_nil
  ballots_nodup := List.nodup_nil

section

variable (h : LessonsOk lessons ballots)
include h

theorem no_step (hmem : lesson ∈ lessons) (hroot : lesson.mergedInto = none) (b : String) :
    ¬ MergedInto lessons lesson.id b := by
  rintro ⟨other, hother, hid, hnext⟩
  rw [eq_of_id h.nodup hother hmem hid, hroot] at hnext
  exact absurd hnext (Option.some_ne_none b).symm

theorem path_from_root (hmem : lesson ∈ lessons) (hroot : lesson.mergedInto = none) {b : String}
    (hpath : ReflTransGen (MergedInto lessons) lesson.id b) : b = lesson.id := by
  rcases ReflTransGen.cases_head hpath with heq | ⟨next, hstep, -⟩
  · exact heq.symm
  · exact absurd hstep (h.no_step hmem hroot next)

theorem followMerges_eq (hleads : LeadsTo lessons id lesson) (hlive : lesson.dropped = false) :
    followMerges lessons lessons.length (byId lessons id) = some lesson := by
  obtain ⟨rank, hle, hrank⟩ := exists_rank h.acyclic (lessons.map Lesson.id)
  have hhops := hle id
  rw [List.length_map] at hhops
  exact Lessons.followMerges_eq h.nodup hrank hleads.1 (h.merged_dropped lesson hleads.1 hlive)
    hleads.2 hhops

theorem mergedInto_amended (hmem : lesson ∈ lessons) (hid : (change lesson).id = lesson.id)
    (hmerged : (change lesson).mergedInto = lesson.mergedInto) :
    MergedInto (amended lesson.id change lessons) = MergedInto lessons := by
  funext a b
  apply propext
  constructor
  · rintro ⟨found, hfound, rfl, hnext⟩
    rcases (mem_amended h.nodup hmem rfl).1 hfound with rfl | ⟨hold, -⟩
    · exact ⟨lesson, hmem, hid.symm, hmerged ▸ hnext⟩
    · exact ⟨found, hold, rfl, hnext⟩
  · rintro ⟨found, hfound, rfl, hnext⟩
    by_cases heq : found.id = lesson.id
    · rw [eq_of_id h.nodup hfound hmem heq] at hnext ⊢
      exact ⟨change lesson, (mem_amended h.nodup hmem rfl).2 (.inl rfl), hid, hmerged.trans hnext⟩
    · exact ⟨found, (mem_amended h.nodup hmem rfl).2 (.inr ⟨hfound, heq⟩), rfl, hnext⟩

theorem amended (hmem : lesson ∈ lessons) (hid : ∀ lesson, (change lesson).id = lesson.id)
    (hmerged : (change lesson).mergedInto = lesson.mergedInto)
    (hdropped : (change lesson).dropped = false → lesson.mergedInto = none)
    (hnodup : (change lesson).tasks.Nodup) {more : List Ballot}
    (htasks : ∀ task, task ∈ (change lesson).tasks ↔
      task ∈ lesson.tasks ∨ ∃ ballot ∈ more, ballot.taskId = task)
    (hmore : ∀ ballot ∈ more, ballot.lessonId = lesson.id ∧ lesson.mergedInto = none)
    (hballots : (ballots ++ more).Nodup) :
    LessonsOk (Lessons.amended lesson.id change lessons) (ballots ++ more) := by
  have hlinks := h.mergedInto_amended hmem (hid lesson) hmerged
  have hids : (Lessons.amended lesson.id change lessons).map Lesson.id = lessons.map Lesson.id :=
    map_id_amended hid
  constructor
  · rw [hids]
    exact h.nodup
  · rw [hlinks]
    exact h.acyclic
  · intro a b hstep
    rw [hlinks] at hstep
    rw [hids]
    exact h.targets hstep
  · intro found hfound hlive
    rcases (mem_amended h.nodup hmem rfl).1 hfound with rfl | ⟨hold, -⟩
    · rw [hmerged]
      exact hdropped hlive
    · exact h.merged_dropped found hold hlive
  · intro found hfound
    rcases (mem_amended h.nodup hmem rfl).1 hfound with rfl | ⟨hold, -⟩
    · exact hnodup
    · exact h.tasks_nodup found hold
  · intro found hfound hroot task
    rw [hlinks]
    simp only [List.mem_append, or_and_right, exists_or]
    rcases (mem_amended h.nodup hmem rfl).1 hfound with rfl | ⟨hold, hne⟩
    · rw [hmerged] at hroot
      rw [htasks, h.tasks lesson hmem hroot, hid]
      refine or_congr_right ⟨?_, ?_⟩
      · rintro ⟨ballot, hballot, htask⟩
        refine ⟨ballot, hballot, htask, ?_⟩
        rw [(hmore ballot hballot).1]
      · rintro ⟨ballot, hballot, htask, -⟩
        exact ⟨ballot, hballot, htask⟩
    · rw [h.tasks found hold hroot]
      constructor
      · exact .inl
      · rintro (hballot | ⟨ballot, hballot, -, hpath⟩)
        · exact hballot
        · obtain ⟨hlesson, hlessonRoot⟩ := hmore ballot hballot
          rw [hlesson] at hpath
          exact absurd (h.path_from_root hmem hlessonRoot hpath) hne
  · intro ballot hballot
    rw [hids]
    rcases List.mem_append.mp hballot with hold | hnew
    · exact h.known ballot hold
    · rw [(hmore ballot hnew).1]
      exact List.mem_map_of_mem hmem
  · exact hballots

/-! ## One operation -/

theorem add (hnew : lesson.id ∉ lessons.map Lesson.id) (hmerged : lesson.mergedInto = none)
    (hnodup : lesson.tasks.Nodup) : LessonsOk (lessons ++ [lesson])
      (ballots ++ lesson.tasks.map fun task => ⟨lesson.id, task⟩) := by
  have hlinks : MergedInto (lessons ++ [lesson]) = MergedInto lessons := by
    funext a b
    apply propext
    constructor
    · rintro ⟨found, hfound, hid, hnext⟩
      rcases List.mem_append.mp hfound with hold | hlast
      · exact ⟨found, hold, hid, hnext⟩
      · rw [List.mem_singleton.mp hlast, hmerged] at hnext
        exact absurd hnext (Option.some_ne_none b).symm
    · rintro ⟨found, hfound, hid, hnext⟩
      exact ⟨found, List.mem_append_left _ hfound, hid, hnext⟩
  have hends : ∀ {a : String}, a ∈ lessons.map Lesson.id →
      ¬ ReflTransGen (MergedInto lessons) a lesson.id := by
    intro a ha hpath
    rcases ReflTransGen.cases_tail hpath with heq | ⟨b, -, hstep⟩
    · rw [heq] at hnew
      exact hnew ha
    · exact hnew (h.targets hstep)
  have hstarts : ∀ {b : String}, ReflTransGen (MergedInto lessons) lesson.id b →
      b = lesson.id := by
    intro b hpath
    rcases ReflTransGen.cases_head hpath with heq | ⟨next, ⟨found, hfound, hid, -⟩, -⟩
    · exact heq.symm
    · exact absurd (List.mem_map.mpr ⟨found, hfound, hid⟩) hnew
  constructor
  · rw [List.map_append, List.map_singleton]
    exact h.nodup.append_new hnew
  · rw [hlinks]
    exact h.acyclic
  · intro a b hstep
    rw [hlinks] at hstep
    rw [List.map_append]
    exact List.mem_append_left _ (h.targets hstep)
  · intro found hfound hlive
    rcases List.mem_append.mp hfound with hold | hlast
    · exact h.merged_dropped found hold hlive
    · rw [List.mem_singleton.mp hlast]
      exact hmerged
  · intro found hfound
    rcases List.mem_append.mp hfound with hold | hlast
    · exact h.tasks_nodup found hold
    · rw [List.mem_singleton.mp hlast]
      exact hnodup
  · intro found hfound hroot task
    rw [hlinks]
    simp only [List.mem_append, or_and_right, exists_or]
    rcases List.mem_append.mp hfound with hold | hlast
    · rw [h.tasks found hold hroot]
      refine (or_iff_left ?_).symm
      rintro ⟨ballot, hballot, -, hpath⟩
      obtain ⟨_, -, rfl⟩ := List.mem_map.mp hballot
      exact hnew (hstarts hpath ▸ List.mem_map_of_mem hold)
    · rw [List.mem_singleton.mp hlast]
      constructor
      · intro htask
        exact .inr ⟨⟨lesson.id, task⟩, List.mem_map_of_mem htask, rfl, .refl⟩
      · rintro (⟨ballot, hballot, -, hpath⟩ | ⟨ballot, hballot, rfl, -⟩)
        · exact absurd hpath (hends (h.known ballot hballot))
        · obtain ⟨other, hother, rfl⟩ := List.mem_map.mp hballot
          exact hother
  · intro ballot hballot
    rw [List.map_append]
    rcases List.mem_append.mp hballot with hold | hlast
    · exact List.mem_append_left _ (h.known ballot hold)
    · obtain ⟨task, -, rfl⟩ := List.mem_map.mp hlast
      exact List.mem_append_right _ (List.mem_singleton.mpr rfl)
  · refine List.nodup_append.mpr ⟨h.ballots_nodup, ?_, ?_⟩
    · exact hnodup.map fun a b hab => congrArg Ballot.taskId hab
    · intro ballot hballot other hother heq
      obtain ⟨task, -, rfl⟩ := List.mem_map.mp hother
      rw [heq] at hballot
      exact hnew (h.known _ hballot)

theorem mergeOne (hkeep : keep ∈ lessons) (hkeepLive : keep.dropped = false)
    (hother : other ∈ lessons) (hlive : other.dropped = false) (hne : other.id ≠ keep.id)
    (hroom : (([] : List String).addNew (keep.tasks ++ other.tasks)).length ≤ lessonTaskLimit) :
    LessonsOk (Lessons.mergeOne keep.id lessons other.id) ballots := by
  have hmem := fun found => @mem_mergeOne _ _ _ h.nodup hkeep hother hne hlive found
  have hids := map_id_mergeOne h.nodup keep.id other.id
  have hkeepRoot := h.merged_dropped keep hkeep hkeepLive
  have hotherRoot := h.merged_dropped other hother hlive
  have hlinks : ∀ a b, MergedInto (Lessons.mergeOne keep.id lessons other.id) a b ↔
      MergedInto lessons a b ∨ a = other.id ∧ b = keep.id := by
    intro a b
    constructor
    · rintro ⟨found, hfound, rfl, hnext⟩
      rcases (hmem found).1 hfound with rfl | rfl | ⟨hold, -⟩
      · exact .inr ⟨rfl, (Option.some.inj hnext).symm⟩
      · have hnone : (absorbed other keep).mergedInto = none := hkeepRoot
        rw [hnone] at hnext
        exact absurd hnext (Option.some_ne_none b).symm
      · exact .inl ⟨found, hold, rfl, hnext⟩
    · rintro (⟨found, hfound, rfl, hnext⟩ | ⟨rfl, rfl⟩)
      · have hroots : found.id ≠ keep.id ∧ found.id ≠ other.id := by
          constructor
          · intro heq
            rw [eq_of_id h.nodup hfound hkeep heq, hkeepRoot] at hnext
            exact absurd hnext (Option.some_ne_none b).symm
          · intro heq
            rw [eq_of_id h.nodup hfound hother heq, hotherRoot] at hnext
            exact absurd hnext (Option.some_ne_none b).symm
        exact ⟨found, (hmem found).2 (.inr (.inr ⟨hfound, hroots⟩)), rfl, hnext⟩
      · exact ⟨mergedAway keep.id other, (hmem _).2 (.inl rfl), rfl, rfl⟩
  have hpaths : ∀ {a x}, ReflTransGen (MergedInto (Lessons.mergeOne keep.id lessons other.id)) a x ↔
      ReflTransGen (MergedInto lessons) a x ∨
        x = keep.id ∧ ReflTransGen (MergedInto lessons) a other.id :=
    link_iff hlinks (h.no_step hkeep hkeepRoot) hne.symm
  have htasks : (absorbed other keep).tasks =
      ([] : List String).addNew (keep.tasks ++ other.tasks) := by
    unfold absorbed
    rw [List.keepLast, Nat.sub_eq_zero_of_le hroom, List.drop_zero]
  constructor
  · rw [hids]
    exact h.nodup
  · refine redirect h.acyclic (t := other.id) ?_ ?_
    · intro a b hne hstep
      rcases (hlinks a b).mp hstep with hold | ⟨rfl, -⟩
      · exact hold
      · exact absurd rfl hne
    · intro b hstep hback
      rcases (hlinks _ b).mp hstep with hold | ⟨-, rfl⟩
      · exact h.no_step hother hotherRoot b hold
      · exact hne (h.path_from_root hkeep hkeepRoot hback)
  · intro a b hstep
    rw [hids]
    rcases (hlinks a b).mp hstep with hold | ⟨-, rfl⟩
    · exact h.targets hold
    · exact List.mem_map_of_mem hkeep
  · intro found hfound hfoundLive
    rcases (hmem found).1 hfound with rfl | rfl | ⟨hold, -⟩
    · exact Bool.noConfusion hfoundLive
    · exact hkeepRoot
    · exact h.merged_dropped found hold hfoundLive
  · intro found hfound
    rcases (hmem found).1 hfound with rfl | rfl | ⟨hold, -⟩
    · exact h.tasks_nodup other hother
    · rw [htasks]
      exact List.nodup_nil.addNew _
    · exact h.tasks_nodup found hold
  · intro found hfound hroot task
    rcases (hmem found).1 hfound with rfl | rfl | ⟨hold, hkept, -⟩
    · exact absurd hroot (Option.some_ne_none _)
    · rw [htasks, List.mem_addNew, List.mem_append, h.tasks keep hkeep hkeepRoot,
        h.tasks other hother hotherRoot]
      constructor
      · rintro (hnil | ⟨ballot, hballot, htask, hpath⟩ | ⟨ballot, hballot, htask, hpath⟩)
        · exact absurd hnil List.not_mem_nil
        · exact ⟨ballot, hballot, htask, hpaths.2 (.inl hpath)⟩
        · exact ⟨ballot, hballot, htask, hpaths.2 (.inr ⟨rfl, hpath⟩)⟩
      · rintro ⟨ballot, hballot, htask, hpath⟩
        rcases hpaths.1 hpath with hpath | ⟨-, hpath⟩
        · exact .inr (.inl ⟨ballot, hballot, htask, hpath⟩)
        · exact .inr (.inr ⟨ballot, hballot, htask, hpath⟩)
    · rw [h.tasks found hold hroot]
      constructor
      · rintro ⟨ballot, hballot, htask, hpath⟩
        exact ⟨ballot, hballot, htask, hpaths.2 (.inl hpath)⟩
      · rintro ⟨ballot, hballot, htask, hpath⟩
        rcases hpaths.1 hpath with hpath | ⟨heq, -⟩
        · exact ⟨ballot, hballot, htask, hpath⟩
        · exact absurd heq hkept
  · intro ballot hballot
    rw [hids]
    exact h.known ballot hballot
  · exact h.ballots_nodup

theorem merged {others shared : List String}
    (hkeep : ∃ keep ∈ lessons, keep.id = keepId ∧ keep.dropped = false)
    (hothers : ∀ other ∈ others, other ≠ keepId) (hlimit : shared.length ≤ lessonTaskLimit)
    (hshared : ∀ lesson ∈ lessons, lesson.dropped = false →
      lesson.id = keepId ∨ lesson.id ∈ others → lesson.tasks ⊆ shared) :
    LessonsOk (others.foldl (Lessons.mergeOne keepId) lessons) ballots := by
  induction others generalizing lessons with
  | nil => exact h
  | cons otherId others ih =>
    obtain ⟨keep, hmem, rfl, hkeepLive⟩ := hkeep
    have hne := hothers otherId List.mem_cons_self
    have hlater := fun later hlater => hothers later (List.mem_cons_of_mem _ hlater)
    have hrest : ∀ lesson ∈ lessons, lesson.dropped = false →
        lesson.id = keep.id ∨ lesson.id ∈ others → lesson.tasks ⊆ shared := by
      intro lesson hlesson hlive hid
      exact hshared lesson hlesson hlive (hid.imp_right (List.mem_cons_of_mem _))
    have hsame : Lessons.mergeOne keep.id lessons otherId = lessons →
        LessonsOk ((otherId :: others).foldl (Lessons.mergeOne keep.id) lessons) ballots := by
      intro heq
      rw [List.foldl_cons, heq]
      exact ih h ⟨keep, hmem, rfl, hkeepLive⟩ hlater hrest
    cases hfind : byId lessons otherId with
    | none =>
      apply hsame
      rw [Lessons.mergeOne, hfind]
    | some other =>
      obtain ⟨hother, rfl⟩ := (byId_eq_some h.nodup).1 hfind
      cases hlive : other.dropped with
      | true =>
        apply hsame
        rw [Lessons.mergeOne, hfind]
        simp only [hlive, ↓reduceIte]
      | false =>
        have hboth : (([] : List String).addNew (keep.tasks ++ other.tasks)) ⊆ shared := by
          intro task htask
          rcases List.mem_addNew.1 htask with hnil | htask
          · exact absurd hnil List.not_mem_nil
          · rcases List.mem_append.mp htask with hin | hin
            · exact hshared keep hmem hkeepLive (.inl rfl) hin
            · exact hshared other hother hlive (.inr List.mem_cons_self) hin
        have hroom : (([] : List String).addNew (keep.tasks ++ other.tasks)).length ≤
            lessonTaskLimit :=
          (List.subperm_of_subset (List.nodup_nil.addNew _) hboth).length_le.trans hlimit
        rw [List.foldl_cons]
        refine ih (h.mergeOne hmem hkeepLive hother hlive hne hroom)
          (keep_mergeOne h.nodup hmem hkeepLive hne) hlater ?_
        intro lesson hlesson hlessonLive hid
        rcases (mem_mergeOne h.nodup hmem hother hne hlive).1 hlesson with
          rfl | rfl | ⟨hold, -⟩
        · exact Bool.noConfusion hlessonLive
        · have htasks : (absorbed other keep).tasks ⊆ shared :=
            fun task htask => hboth (List.mem_of_mem_drop htask)
          exact htasks
        · exact hrest lesson hold hlessonLive hid

end

end LessonsOk

/-! ## Runs -/

namespace LessonRun

def sharedTasks (lessons : List Lesson) (ids : List String) : List String :=
  ([] : List String).addNew
    ((lessons.filter fun lesson => !lesson.dropped && decide (lesson.id ∈ ids)).flatMap Lesson.tasks)

/-- A new lesson has an id of its own, what is made live again was not merged, and a lesson that
gets tasks has room for them. -/
def Sound (run : LessonRun) : LessonOp → Prop
  | .add _ _ hex => ∀ lesson ∈ run.lessons, lesson.id ≠ "l-" ++ hex
  | .vote lessonId taskId => ∀ task ∈ given taskId, ∀ lesson, LeadsTo run.lessons lessonId lesson →
      lesson.dropped = false → task ∈ lesson.tasks ∨ lesson.tasks.length < lessonTaskLimit
  | .update lessonId _ dropped => dropped = some false → ∀ lesson ∈ run.lessons,
      lesson.id = lessonId → lesson.mergedInto = none
  | .merge keepId otherIds =>
    (sharedTasks run.lessons (keepId :: otherIds)).length ≤ lessonTaskLimit

end LessonRun

namespace LessonsOk

variable {lessons after : List Lesson} {ballots : List Ballot} {taskId : Option String}
  {lessonId : String}

theorem step_add {rule hex : String} {lesson : Lesson} (h : LessonsOk lessons ballots)
    (hsound : ∀ lesson ∈ lessons, lesson.id ≠ "l-" ++ hex)
    (hadd : addLesson lessons rule taskId hex = .ok (after, lesson)) :
    LessonsOk after (ballots ++ (given taskId).toList.map fun task => ⟨lesson.id, task⟩) := by
  rw [addLesson] at hadd
  cases hclean : cleanRule rule with
  | error =>
    rw [hclean] at hadd
    exact nomatch hadd
  | ok =>
    rw [hclean] at hadd
    obtain ⟨rfl, rfl⟩ := Prod.mk.inj (Except.ok.inj hadd)
    apply h.add
    · intro hmem
      obtain ⟨other, hother, hid⟩ := List.mem_map.mp hmem
      exact hsound other hother hid
    · rfl
    · cases given taskId with
      | none => exact List.nodup_nil
      | some task => exact List.nodup_singleton task

theorem voted {lesson : Lesson} (h : LessonsOk lessons ballots) (hmem : lesson ∈ lessons)
    (hlive : lesson.dropped = false) (hnew : ∀ task ∈ given taskId, task ∉ lesson.tasks)
    (hroom : ∀ task ∈ given taskId, lesson.tasks.length < lessonTaskLimit) :
    LessonsOk (Lessons.amended lesson.id (Lessons.voted taskId) lessons)
      (ballots ++ (given taskId).toList.map fun task => ⟨lesson.id, task⟩) := by
  have hroot := h.merged_dropped lesson hmem hlive
  have hchanged := fun hnodup => @LessonsOk.amended lessons ballots lesson (Lessons.voted taskId) h
    hmem (fun _ => rfl) rfl (fun _ => hroot) hnodup
  cases htask : given taskId with
  | none =>
    have hsame : (Lessons.voted taskId lesson).tasks = lesson.tasks := by
      rw [Lessons.voted, htask]
    apply hchanged
    · rw [hsame]
      exact h.tasks_nodup lesson hmem
    · intro task
      rw [hsame]
      simp
    · exact fun ballot hballot => absurd hballot List.not_mem_nil
    · exact (List.append_nil ballots).symm ▸ h.ballots_nodup
  | some task =>
    have hfresh := hnew task htask
    have htasks : (Lessons.voted taskId lesson).tasks = lesson.tasks ++ [task] := by
      have hlt := hroom task htask
      have hzero : (lesson.tasks ++ [task]).length - lessonTaskLimit = 0 := by
        rw [List.length_append, List.length_singleton]
        omega
      rw [Lessons.voted, htask]
      dsimp only
      rw [List.keepLast, hzero, List.drop_zero]
    apply hchanged
    · rw [htasks]
      exact (h.tasks_nodup lesson hmem).append_new hfresh
    · intro other
      rw [htasks]
      simp [eq_comm]
    · intro ballot hballot
      rw [List.mem_singleton.mp hballot]
      exact ⟨rfl, hroot⟩
    · apply h.ballots_nodup.append_new
      intro hballot
      exact hfresh ((h.tasks lesson hmem hroot task).2 ⟨_, hballot, rfl, .refl⟩)

theorem step_vote {found : Option Lesson} (h : LessonsOk lessons ballots)
    (hsound : ∀ task ∈ given taskId, ∀ lesson, LeadsTo lessons lessonId lesson →
      lesson.dropped = false → task ∈ lesson.tasks ∨ lesson.tasks.length < lessonTaskLimit)
    (hvote : voteLesson lessons lessonId taskId = .ok (after, found)) :
    LessonsOk after (ballots ++ LessonRun.ballotFor lessons lessonId taskId) := by
  rw [voteLesson] at hvote
  cases hfollow : followMerges lessons lessons.length (byId lessons lessonId) with
  | none =>
    have hballot : LessonRun.ballotFor lessons lessonId taskId = [] := by
      rw [LessonRun.ballotFor, hfollow]
    simp only [hfollow] at hvote
    obtain ⟨rfl, -⟩ := Prod.mk.inj (Except.ok.inj hvote)
    rw [hballot, List.append_nil]
    exact h
  | some lesson =>
    have hleads := leadsTo_of_followMerges h.nodup hfollow
    simp only [hfollow] at hvote
    cases hdropped : lesson.dropped with
    | true =>
      simp only [hdropped, ↓reduceIte] at hvote
      exact nomatch hvote
    | false =>
      simp only [hdropped, Bool.false_eq_true, ↓reduceIte] at hvote
      by_cases hany : (given taskId).any (· ∈ lesson.tasks) = true
      · have hballot : LessonRun.ballotFor lessons lessonId taskId = [] := by
          rw [LessonRun.ballotFor, hfollow]
          cases htask : given taskId with
          | none => rfl
          | some =>
            rw [htask, Option.any_some, decide_eq_true_iff] at hany
            exact if_pos (.inr hany)
        rw [if_pos hany] at hvote
        obtain ⟨rfl, -⟩ := Prod.mk.inj (Except.ok.inj hvote)
        rw [hballot, List.append_nil]
        exact h
      · have hnew : ∀ task ∈ given taskId, task ∉ lesson.tasks := by
          intro task htask hmem
          rw [Option.mem_def.mp htask, Option.any_some] at hany
          exact hany (decide_eq_true hmem)
        have hballot : LessonRun.ballotFor lessons lessonId taskId =
            (given taskId).toList.map fun task => ⟨lesson.id, task⟩ := by
          rw [LessonRun.ballotFor, hfollow]
          cases htask : given taskId with
          | none => rfl
          | some task =>
            refine if_neg ?_
            rw [hdropped, not_or]
            exact ⟨Bool.false_ne_true, hnew task htask⟩
        rw [if_neg hany] at hvote
        obtain ⟨rfl, -⟩ := Prod.mk.inj (Except.ok.inj hvote)
        rw [hballot, amendLast_eq h.nodup]
        exact h.voted hleads.1 hdropped hnew fun task htask =>
          (hsound task htask lesson hleads hdropped).resolve_left (hnew task htask)

theorem step_update {rule : Option String} {dropped : Option Bool} {found : Option Lesson}
    (h : LessonsOk lessons ballots)
    (hsound : dropped = some false → ∀ lesson ∈ lessons, lesson.id = lessonId →
      lesson.mergedInto = none)
    (hupdate : updateLesson lessons lessonId rule dropped = .ok (after, found)) :
    LessonsOk after ballots := by
  rw [updateLesson] at hupdate
  cases hclean : rule.mapM cleanRule with
  | error =>
    rw [hclean] at hupdate
    exact nomatch hupdate
  | ok clean =>
    rw [hclean] at hupdate
    cases hfind : lessons.find? fun lesson => lesson.id = lessonId with
    | none =>
      simp only [hfind] at hupdate
      obtain ⟨rfl, -⟩ := Prod.mk.inj (Except.ok.inj hupdate)
      exact h
    | some lesson =>
      simp only [hfind] at hupdate
      obtain ⟨rfl, -⟩ := Prod.mk.inj (Except.ok.inj hupdate)
      have hmem := List.mem_of_find?_eq_some hfind
      have hid : lesson.id = lessonId := by simpa using List.find?_some hfind
      subst hid
      rw [amendFirst_eq h.nodup, ← List.append_nil ballots]
      apply @LessonsOk.amended lessons ballots lesson (updated clean dropped) h hmem
        (fun _ => rfl) rfl
      · intro hlive
        cases hdropped : dropped with
        | none =>
          rw [hdropped] at hlive
          exact h.merged_dropped lesson hmem hlive
        | some value =>
          rw [hdropped] at hlive
          have hvalue : value = false := hlive
          rw [hvalue] at hdropped
          exact hsound hdropped lesson hmem rfl
      · exact h.tasks_nodup lesson hmem
      · intro task
        simp [updated]
      · exact fun ballot hballot => absurd hballot List.not_mem_nil
      · rw [List.append_nil]
        exact h.ballots_nodup

end LessonsOk

namespace Lessons

theorem mergeLessons_eq_ok {lessons after : List Lesson} {keepId : String}
    {otherIds : List String} {kept : Option Lesson} (hnodup : (lessons.map Lesson.id).Nodup)
    (h : mergeLessons lessons keepId otherIds = .ok (after, kept)) :
    (∃ keep ∈ lessons, keep.id = keepId ∧ keep.dropped = false) ∧
      after = (otherLessons keepId otherIds).foldl (mergeOne keepId) lessons := by
  rw [mergeLessons] at h
  cases hkeep : byId lessons keepId with
  | none =>
    simp only [hkeep] at h
    exact nomatch h
  | some keep =>
    obtain ⟨hmem, rfl⟩ := (byId_eq_some hnodup).1 hkeep
    simp only [hkeep] at h
    cases hmissing : (otherLessons keep.id otherIds).find? fun other =>
        (byId lessons other).isNone with
    | some =>
      simp only [hmissing] at h
      exact nomatch h
    | none =>
      simp only [hmissing] at h
      cases hdropped : keep.dropped with
      | true =>
        simp only [hdropped, ↓reduceIte] at h
        exact nomatch h
      | false =>
        simp only [hdropped, Bool.false_eq_true, ↓reduceIte, Except.ok.injEq,
          Prod.mk.injEq] at h
        exact ⟨⟨keep, hmem, rfl, hdropped⟩, h.1.symm⟩

theorem ne_of_mem_otherLessons {keepId other : String} {otherIds : List String}
    (h : other ∈ otherLessons keepId otherIds) : other ≠ keepId := by
  simpa using (List.mem_filter.mp h).2

end Lessons

theorem LessonsOk.step {run next : LessonRun} {op : LessonOp}
    (h : LessonsOk run.lessons run.ballots) (hsound : run.Sound op)
    (hstep : run.step op = some next) : LessonsOk next.lessons next.ballots := by
  cases op with
  | add rule taskId hex =>
    rw [LessonRun.step] at hstep
    cases hadd : addLesson run.lessons rule taskId hex with
    | error =>
      simp only [hadd, Option.some.injEq] at hstep
      exact hstep ▸ h
    | ok =>
      simp only [hadd, Option.some.injEq] at hstep
      exact hstep ▸ h.step_add hsound hadd
  | vote lessonId taskId =>
    rw [LessonRun.step] at hstep
    cases hvote : voteLesson run.lessons lessonId taskId with
    | error =>
      simp only [hvote, Option.some.injEq] at hstep
      exact hstep ▸ h
    | ok =>
      simp only [hvote, Option.some.injEq] at hstep
      exact hstep ▸ h.step_vote hsound hvote
  | update lessonId rule dropped =>
    rw [LessonRun.step] at hstep
    cases hupdate : updateLesson run.lessons lessonId rule dropped with
    | error =>
      simp only [hupdate, Option.some.injEq] at hstep
      exact hstep ▸ h
    | ok =>
      simp only [hupdate, Option.some.injEq] at hstep
      exact hstep ▸ h.step_update hsound hupdate
  | merge keepId otherIds =>
    rw [LessonRun.step] at hstep
    cases hmerge : mergeLessons run.lessons keepId otherIds with
    | error =>
      simp only [hmerge, Option.some.injEq] at hstep
      exact hstep ▸ h
    | ok =>
      simp only [hmerge, Option.some.injEq] at hstep
      obtain ⟨hkeep, hafter⟩ := mergeLessons_eq_ok h.nodup hmerge
      subst hstep
      dsimp only
      rw [hafter]
      refine h.merged hkeep (fun other hother => ne_of_mem_otherLessons hother) hsound ?_
      intro lesson hlesson hlive hid task htask
      have hmem : lesson.id ∈ keepId :: otherIds := by
        rcases hid with heq | hother
        · exact List.mem_cons.mpr (.inl heq)
        · have hin := (List.mem_filter.mp hother).1
          rcases List.mem_addNew.1 hin with hnil | hin
          · exact absurd hnil List.not_mem_nil
          · exact List.mem_cons_of_mem _ hin
      refine List.mem_addNew.2 (.inr (List.mem_flatMap.mpr ⟨lesson, ?_, htask⟩))
      rw [List.mem_filter]
      exact ⟨hlesson, by rw [hlive, decide_eq_true hmem]; rfl⟩

/-- A task has a vote that a lesson was given, itself or through merges. -/
def Counted (run : LessonRun) (taskId : Option String) (lesson : Lesson) : Prop :=
  ∃ ballot ∈ run.ballots, given taskId = some ballot.taskId ∧
    ReflTransGen (MergedInto run.lessons) ballot.lessonId lesson.id

private def pathLesson : Lesson :=
  { id := "l-aa0001", rule := "Say the output path", votes := 1, tasks := ["task-1"] }

private def locationLesson : Lesson :=
  { id := "l-aa0002", rule := "Give the output location", votes := 1, tasks := ["task-2"] }

private def mergedRun : LessonRun where
  lessons := [{ pathLesson with votes := 2, tasks := ["task-1", "task-2"] },
    { locationLesson with dropped := true, mergedInto := some "l-aa0001" }]
  ballots := [⟨"l-aa0001", "task-1"⟩, ⟨"l-aa0002", "task-2"⟩]

private def cyclicOps : List LessonOp :=
  [.add "Say the output path" none "aa0001", .add "Give the output location" none "aa0002",
    .merge "l-aa0001" ["l-aa0002"], .update "l-aa0002" none (some false),
    .merge "l-aa0002" ["l-aa0001"]]

end ClaudeHub
