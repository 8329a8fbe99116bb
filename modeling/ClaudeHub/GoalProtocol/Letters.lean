import ClaudeHub.Lib.TextSearch

/-! # Letters of a protocol tag

Tags are compared in two ways: with the lower case of a text, and with regular expressions that
ignore case. Outside ASCII the two differ on the letters `i`, `k` and `s`, and the lower case of
a text is longer than the text where it has a capital `İ`.
-/

namespace ClaudeHub

open TextSearch

def dottedCapitalI : Char := '\u0130'

def dotlessI : Char := '\u0131'

def longS : Char := '\u017f'

def kelvinSign : Char := '\u212a'

def combiningDot : Char := '\u0307'

/-- The lower case of the characters that have one character outside ASCII for it. -/
structure LowerTable where
  other : Char → Char
  other_nonascii : ∀ c : Char, 128 ≤ c.toNat → 128 ≤ (other c).toNat

/-- `str.lower` of one character -/
def LowerTable.lowerChar (table : LowerTable) (c : Char) : List Char :=
  if c.toNat < 128 then [c.toLower]
  else if c = dottedCapitalI then ['i', combiningDot]
  else if c = kelvinSign then ['k']
  else [table.other c]

def LowerTable.lower (table : LowerTable) (text : List Char) : List Char :=
  text.flatMap table.lowerChar

/-- The character that `str.lower` turns into this one, for an ASCII character. -/
def lowersTo (p c : Char) : Bool :=
  (decide (c.toNat < 128) && c.toLower == p) || (c == kelvinSign && p == 'k')

/-- What a character of a pattern takes with `re.IGNORECASE`, for an ASCII character that is
not a capital letter. -/
def ignoresCase (p c : Char) : Bool :=
  lowersTo p c || (p == 'i' && (c == dottedCapitalI || c == dotlessI)) || (p == 's' && c == longS)

/-- A tag as it is searched for in a lower-cased text. -/
structure TagName (needle : List Char) : Prop where
  ascii : ∀ p ∈ needle, p.toNat < 128
  opens : needle.head? = some '<'
  ends : needle.getLast? ≠ some 'i'

theorem all_ascii {letters : List Char}
    (h : (letters.all fun p => decide (p.toNat < 128)) = true) : ∀ p ∈ letters, p.toNat < 128 :=
  fun p hp => of_decide_eq_true (List.all_eq_true.mp h p hp)

variable {table : LowerTable} {p c : Char} {needle text : List Char}

theorem lowerChar_dottedCapitalI : table.lowerChar dottedCapitalI = ['i', combiningDot] := by
  rw [LowerTable.lowerChar, if_neg (by decide), if_pos rfl]

theorem lowersTo_dottedCapitalI : lowersTo p dottedCapitalI = false := by
  simp [lowersTo, dottedCapitalI, kelvinSign]

theorem lowerChar_single (hc : c ≠ dottedCapitalI) :
    ∃ d, table.lowerChar c = [d] ∧ ∀ p : Char, p.toNat < 128 → (p == d) = lowersTo p c := by
  by_cases hascii : c.toNat < 128
  · refine ⟨c.toLower, by rw [LowerTable.lowerChar, if_pos hascii], ?_⟩
    intro p _
    have hkelvin : c ≠ kelvinSign := by
      rintro rfl
      exact absurd hascii (by decide)
    simp [lowersTo, hascii, hkelvin, Bool.beq_comm]
  · by_cases hkelvin : c = kelvinSign
    · refine ⟨'k', by rw [LowerTable.lowerChar, if_neg hascii, if_neg hc, if_pos hkelvin], ?_⟩
      intro p _
      simp [lowersTo, hkelvin, show ¬ kelvinSign.toNat < 128 by decide]
    · refine ⟨table.other c, by rw [LowerTable.lowerChar, if_neg hascii, if_neg hc,
        if_neg hkelvin], ?_⟩
      intro p hp
      have hne : p ≠ table.other c := by
        rintro rfl
        have hother := table.other_nonascii c (by omega)
        omega
      have hkelvin' : (c == kelvinSign) = false := beq_false_of_ne hkelvin
      simp [lowersTo, hascii, hkelvin', hne]

theorem eq_of_toLower {p c : Char} (hp : p.toNat < 97 ∨ 122 < p.toNat) (h : c.toLower = p) :
    c = p := by
  unfold Char.toLower at h
  split at h
  · rename_i hcapital
    have hlow : 65 ≤ c.toNat := UInt32.le_iff_toNat_le.mp hcapital.1
    have hhigh : c.toNat ≤ 90 := UInt32.le_iff_toNat_le.mp hcapital.2
    have hval : p.toNat = c.toNat + 32 := by
      rw [← h]
      show (c.val + ('a'.val - 'A'.val)).toNat = c.val.toNat + 32
      have hsmall : c.val.toNat + 32 < 4294967296 := by
        show c.toNat + 32 < 4294967296
        omega
      rw [UInt32.toNat_add]
      exact Nat.mod_eq_of_lt hsmall
    omega
  · exact h

theorem eq_of_ignoresCase (hp : p.toNat < 97 ∨ 122 < p.toNat) (h : ignoresCase p c = true) :
    c = p := by
  have hi : p ≠ 'i' := by
    rintro rfl
    exact absurd hp (by decide)
  have hk : p ≠ 'k' := by
    rintro rfl
    exact absurd hp (by decide)
  have hs : p ≠ 's' := by
    rintro rfl
    exact absurd hp (by decide)
  have hlower : c.toNat < 128 ∧ c.toLower = p := by
    simpa [ignoresCase, lowersTo, hk, hi, hs] using h
  exact eq_of_toLower hp hlower.2

theorem bracket_not_mem {found : List Char} (h : Spelled ignoresCase needle found)
    (hneedle : '<' ∉ needle) : '<' ∉ found := by
  induction h with
  | nil => simp
  | @cons p d ps cs hsame hrest ih =>
    rw [List.mem_cons, not_or] at hneedle ⊢
    refine ⟨?_, ih hneedle.2⟩
    rintro rfl
    have hp : '<' = p := by
      simpa [ignoresCase, lowersTo, dottedCapitalI, dotlessI, longS, kelvinSign] using hsame
    exact hneedle.1 hp

@[simp] theorem lower_cons : table.lower (c :: text) = table.lowerChar c ++ table.lower text := rfl

theorem length_lower : (table.lower text).length = text.length + text.count dottedCapitalI := by
  induction text with
  | nil => rfl
  | cons c text ih =>
    by_cases hc : c = dottedCapitalI
    · subst hc
      rw [lower_cons, lowerChar_dottedCapitalI, List.length_append, ih, List.count_cons_self]
      simp only [List.length_cons, List.length_nil]
      omega
    · obtain ⟨d, hd, -⟩ := @lowerChar_single table c hc
      rw [lower_cons, hd, List.count_cons_of_ne hc, List.singleton_append, List.length_cons,
        List.length_cons, ih]
      omega

theorem startsWith_lower (hascii : ∀ p ∈ needle, p.toNat < 128)
    (hends : needle.getLast? ≠ some 'i') :
    startsWith (· == ·) needle (table.lower text) = startsWith lowersTo needle text := by
  induction needle generalizing text with
  | nil => rfl
  | cons p ps ih =>
    have hps : ∀ q ∈ ps, q.toNat < 128 := fun q hq => hascii q (List.mem_cons_of_mem _ hq)
    cases text with
    | nil => rfl
    | cons c text =>
      by_cases hc : c = dottedCapitalI
      · subst hc
        rw [lower_cons, lowerChar_dottedCapitalI, startsWith_cons_cons,
          lowersTo_dottedCapitalI, Bool.false_and]
        show startsWith (· == ·) (p :: ps) ('i' :: combiningDot :: table.lower text) = false
        cases ps with
        | nil =>
          have hp : p ≠ 'i' := by simpa using hends
          simp [hp]
        | cons q =>
          have hq : q ≠ combiningDot := by
            rintro rfl
            exact absurd (hps combiningDot (by simp)) (by decide)
          simp [hq]
      · obtain ⟨d, hd, hsame⟩ := @lowerChar_single table c hc
        have hlast : ps.getLast? ≠ some 'i' := by
          cases ps with
          | nil => simp
          | cons => simpa [List.getLast?_cons_cons] using hends
        rw [lower_cons, hd, List.singleton_append, startsWith_cons_cons,
          startsWith_cons_cons, ih hps hlast, hsame p (hascii p (by simp))]

/-- No tag starts at the second character of a lower-cased `İ`. -/
theorem TagName.not_combiningDot (h : TagName needle) (text : List Char) :
    startsWith (· == ·) needle (combiningDot :: text) = false := by
  cases needle with
  | nil => exact absurd h.opens (by simp)
  | cons p =>
    obtain rfl : p = '<' := by simpa using h.opens
    rw [startsWith_cons_cons, show ('<' == combiningDot) = false by decide, Bool.false_and]

theorem TagName.not_in_lowerChar (h : TagName needle)
    (hnot : startsWith lowersTo needle (c :: text) = false) :
    ∀ i < (table.lowerChar c).length,
      startsWith (· == ·) needle ((table.lowerChar c).drop i ++ table.lower text) = false := by
  intro i hi
  have hstart := @startsWith_lower table needle (c :: text) h.ascii h.ends
  rw [hnot, lower_cons] at hstart
  by_cases hc : c = dottedCapitalI
  · subst hc
    rw [lowerChar_dottedCapitalI] at hi hstart ⊢
    match i with
    | 0 => exact hstart
    | 1 => exact h.not_combiningDot _
  · obtain ⟨d, hd, -⟩ := @lowerChar_single table c hc
    rw [hd] at hi hstart ⊢
    obtain rfl : i = 0 := by simpa using hi
    exact hstart

theorem length_lower_take_succ {i : Nat} :
    (table.lower ((c :: text).take (i + 1))).length =
      (table.lower (text.take i)).length + (table.lowerChar c).length := by
  rw [List.take_succ_cons, lower_cons, List.length_append, Nat.add_comm]

/-- `lowered.find(name)`: the index is a place of the lower-cased text. -/
theorem findAt_lower (h : TagName needle) :
    findAt (startsWith (· == ·) needle) (table.lower text) =
      (findAt (startsWith lowersTo needle) text).map
        fun i => (table.lower (text.take i)).length := by
  induction text with
  | nil =>
    cases needle with
    | nil => exact absurd h.opens (by simp)
    | cons => rfl
  | cons c text ih =>
    by_cases hat : startsWith lowersTo needle (c :: text) = true
    · have hstart := @startsWith_lower table needle (c :: text) h.ascii h.ends
      rw [hat] at hstart
      rw [findAt_of_pos hstart, findAt_of_pos hat]
      rfl
    · rw [Bool.not_eq_true] at hat
      rw [lower_cons, findAt_append_of_neg (h.not_in_lowerChar hat), ih,
        findAt_cons_of_neg hat, Option.map_map, Option.map_map]
      congr 1
      funext i
      exact length_lower_take_succ.symm

/-- `lowered.rfind(name)` -/
theorem rfindAt_lower (h : TagName needle) :
    rfindAt (startsWith (· == ·) needle) (table.lower text) =
      (rfindAt (startsWith lowersTo needle) text).map
        fun i => (table.lower (text.take i)).length := by
  induction text with
  | nil =>
    cases needle with
    | nil => exact absurd h.opens (by simp)
    | cons => rfl
  | cons c text ih =>
    by_cases hat : startsWith lowersTo needle (c :: text) = true
    · have hstart := @startsWith_lower table needle (c :: text) h.ascii h.ends
      have hc : c ≠ dottedCapitalI := by
        rintro rfl
        cases needle with
        | nil => exact absurd h.opens (by simp)
        | cons =>
          rw [startsWith_cons_cons, lowersTo_dottedCapitalI] at hat
          contradiction
      obtain ⟨d, hd, -⟩ := @lowerChar_single table c hc
      rw [hat, lower_cons, hd, List.singleton_append] at hstart
      rw [lower_cons, hd, List.singleton_append, rfindAt, rfindAt, hstart, hat, ih]
      cases rfindAt (startsWith lowersTo needle) text with
      | none => rfl
      | some =>
        simp only [Option.map_some, Option.some_or, length_lower_take_succ, hd]
        rfl
    · rw [Bool.not_eq_true] at hat
      rw [lower_cons, rfindAt_append_of_neg (h.not_in_lowerChar hat), ih,
        rfindAt_cons_of_neg hat, Option.map_map, Option.map_map]
      congr 1
      funext i
      exact length_lower_take_succ.symm

end ClaudeHub
