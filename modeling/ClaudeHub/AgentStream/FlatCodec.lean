import Mathlib.Data.List.Infix
import ClaudeHub.AgentStream.Store

/-! # A codec for flat events

The line format at its smallest: an event with one number beside its sequence is
the object `{"stream_sequence":N,"index":M}`. It instantiates `LineCodec`, so the
results about stores are not about an empty class of codecs.
-/

namespace ClaudeHub

open Lines

namespace FlatCodec

def digitChar (n : Nat) : Char := Char.ofNat (48 + n % 10)

def isDigit (c : Char) : Bool := 48 ≤ c.toNat && c.toNat ≤ 57

def decimalAux : Nat → Nat → List Char
  | 0, _ => []
  | fuel + 1, n =>
    if n < 10 then [digitChar n] else decimalAux fuel (n / 10) ++ [digitChar n]

def decimal (n : Nat) : List Char := decimalAux (n + 1) n

def value (digits : List Char) : Nat := digits.foldl (fun acc c => 10 * acc + (c.toNat - 48)) 0

theorem digitChar_toNat (n : Nat) : (digitChar n).toNat = 48 + n % 10 := by
  have h : n % 10 < 10 := Nat.mod_lt n (by omega)
  have hvalid : (48 + n % 10).isValidChar := .inl (by omega)
  rw [digitChar, Char.ofNat, dif_pos hvalid]
  rfl

theorem isDigit_digitChar (n : Nat) : isDigit (digitChar n) = true := by
  have h : n % 10 < 10 := Nat.mod_lt n (by omega)
  simp only [isDigit, digitChar_toNat, Bool.and_eq_true, decide_eq_true_eq]
  omega

theorem isDigit_of_mem_decimalAux {fuel n : Nat} {c : Char} (h : c ∈ decimalAux fuel n) :
    isDigit c = true := by
  induction fuel generalizing n with
  | zero => simp [decimalAux] at h
  | succ fuel ih =>
    unfold decimalAux at h
    split at h
    · rw [List.mem_singleton.mp h]
      exact isDigit_digitChar n
    · rcases List.mem_append.mp h with hleft | hright
      · exact ih hleft
      · rw [List.mem_singleton.mp hright]
        exact isDigit_digitChar n

theorem value_decimalAux {fuel n : Nat} (h : n < fuel) : value (decimalAux fuel n) = n := by
  induction fuel generalizing n with
  | zero => omega
  | succ fuel ih =>
    unfold decimalAux
    split
    · simp only [value, List.foldl_cons, List.foldl_nil, digitChar_toNat]
      omega
    · have hrec := ih (n := n / 10) (by omega)
      simp only [value, List.foldl_append, List.foldl_cons, List.foldl_nil,
        digitChar_toNat] at hrec ⊢
      rw [hrec]
      omega

theorem value_decimal (n : Nat) : value (decimal n) = n := value_decimalAux (Nat.lt_succ_self n)

theorem isDigit_of_mem_decimal {n : Nat} {c : Char} (h : c ∈ decimal n) : isDigit c = true :=
  isDigit_of_mem_decimalAux h

def sequenceKey : List Char := "\x7b\"stream_sequence\":".toList

def indexKey : List Char := ",\"index\":".toList

def openText (event : AgentStreamEvent Nat) : List Char :=
  sequenceKey ++ decimal event.streamSequence ++ indexKey ++ decimal event.fields

def dump (event : AgentStreamEvent Nat) : List Char := openText event ++ ['\x7d']

def loads (text : List Char) : Option (AgentStreamEvent Nat) :=
  if text.count '\x7b' ≠ 1 ∨ text.count '\x7d' ≠ 1 then none
  else do
    let rest ← text.dropPrefix? sequenceKey
    let rest' ← (rest.dropWhile isDigit).dropPrefix? indexKey
    if rest'.dropWhile isDigit = ['\x7d'] then
      some ⟨value (rest.takeWhile isDigit), value (rest'.takeWhile isDigit)⟩
    else none

theorem span_digits {digits rest : List Char} (hdigits : ∀ c ∈ digits, isDigit c = true)
    {c : Char} (hc : isDigit c = false) :
    (digits ++ c :: rest).takeWhile isDigit = digits ∧
      (digits ++ c :: rest).dropWhile isDigit = c :: rest := by
  induction digits with
  | nil => simp [hc]
  | cons d digits ih =>
    have hd := hdigits d (by simp)
    simpa [hd] using ih fun e he => hdigits e (List.mem_cons_of_mem _ he)

theorem count_decimal {c : Char} (hc : isDigit c = false) (n : Nat) :
    (decimal n).count c = 0 := by
  refine List.count_eq_zero.mpr fun hmem => ?_
  rw [isDigit_of_mem_decimal hmem] at hc
  exact Bool.noConfusion hc

section

variable (event : AgentStreamEvent Nat)
include event

theorem count_openText : (openText event).count '\x7b' = 1 ∧ (openText event).count '\x7d' = 0 := by
  simp only [openText, List.count_append,
    count_decimal (show isDigit '\x7b' = false by decide),
    count_decimal (show isDigit '\x7d' = false by decide)]
  decide

theorem count_dump : (dump event).count '\x7b' = 1 ∧ (dump event).count '\x7d' = 1 := by
  have hopen := count_openText event
  simp [dump, List.count_append, hopen.1, hopen.2]

theorem loads_dump : loads (dump event) = some event := by
  obtain ⟨sequence, index⟩ := event
  have hcounts := count_dump ⟨sequence, index⟩
  have hrest : dump ⟨sequence, index⟩ = sequenceKey ++
      (decimal sequence ++ (indexKey ++ (decimal index ++ ['\x7d']))) := by
    simp [dump, openText]
  have hkey : indexKey = ',' :: indexKey.tail := rfl
  have hsequence := @span_digits (decimal sequence) (indexKey.tail ++ (decimal index ++ ['\x7d']))
    (fun c hc => isDigit_of_mem_decimal hc) ',' (by decide)
  have hindex := @span_digits (decimal index) [] (fun c hc => isDigit_of_mem_decimal hc)
    '\x7d' (by decide)
  rw [← List.cons_append, ← hkey] at hsequence
  unfold loads
  rw [if_neg (by simp [hcounts.1, hcounts.2])]
  rw [hrest, List.dropPrefix?_append_of_beq _ (beq_self_eq_true sequenceKey)]
  simp only [Option.bind_eq_bind, Option.bind_some, hsequence.1, hsequence.2]
  rw [List.dropPrefix?_append_of_beq _ (beq_self_eq_true indexKey)]
  simp [hindex.1, hindex.2, value_decimal]

theorem newline_free : '\n' ∉ dump event := by
  have hdigits (n : Nat) : '\n' ∉ decimal n :=
    List.count_eq_zero.mp (count_decimal (by decide) n)
  have hkeys : '\n' ∉ sequenceKey ∧ '\n' ∉ indexKey := by decide
  simp [dump, openText, hdigits, hkeys.1, hkeys.2]

theorem strip_dump : strip (dump event) = dump event :=
  strip_of_ends (by decide) (by decide) _

end

theorem one_le_count_piece {event : AgentStreamEvent Nat} {piece : List Char} (hne : piece ≠ [])
    (hpart : piece <+: dump event) : 1 ≤ piece.count '\x7b' := by
  obtain ⟨rest, hrest⟩ := hpart
  cases piece with
  | nil => exact (hne rfl).elim
  | cons c =>
    have hc : c = '\x7b' := (List.cons.inj hrest).1
    simp [hc]

theorem count_torn {line : List Char} (h : TornLine dump line) :
    1 ≤ line.count '\x7b' ∧ (line.count '\x7d' = 0 ∨ 2 ≤ line.count '\x7b') := by
  induction h with
  | @part event piece hne hpart hproper =>
    have hopen : piece <+: openText event := by
      rcases List.prefix_concat_iff.mp hpart with hwhole | hopen
      · exact (hproper hwhole).elim
      · exact hopen
    have hle := hopen.sublist.count_le '\x7d'
    rw [(count_openText event).2] at hle
    exact ⟨one_le_count_piece hne hpart, .inl (by omega)⟩
  | @afterWhole before _ _ hne hpart =>
    have hbefore := (count_dump before).1
    have hpiece := one_le_count_piece hne hpart
    rw [List.count_append]
    omega
  | afterTorn _ hne hpart =>
    have hpiece := one_le_count_piece hne hpart
    rw [List.count_append]
    omega

theorem loads_torn (line : List Char) (h : TornLine dump line) : loads (strip line) = none := by
  have hcounts := count_torn h
  unfold loads
  rw [if_pos]
  rw [count_strip (by decide), count_strip (by decide)]
  omega

end FlatCodec

def flatCodec : LineCodec Nat where
  dump := FlatCodec.dump
  loads := FlatCodec.loads
  loads_dump := FlatCodec.loads_dump
  dump_ne_nil := fun event => by simp [FlatCodec.dump]
  newline_free := FlatCodec.newline_free
  strip_dump := FlatCodec.strip_dump
  loads_torn := FlatCodec.loads_torn

end ClaudeHub
