import Mathlib.Data.List.Basic

/-! # Base64

Three bytes are four letters of six bits each, and a shorter end is padded. The reading skips what
is no letter, and stops at a padding that completes a group of four. The letters of the alphabet for
addresses are written, and both alphabets are read.
-/

namespace Base64

def letter (bits : Nat) : Char :=
  if bits < 26 then Char.ofNat ('A'.toNat + bits)
  else if bits < 52 then Char.ofNat ('a'.toNat + (bits - 26))
  else if bits < 62 then Char.ofNat ('0'.toNat + (bits - 52))
  else if bits = 62 then '-'
  else '_'

def bitsOf (c : Char) : Option Nat :=
  if c.isUpper then some (c.toNat - 'A'.toNat)
  else if c.isLower then some (c.toNat - 'a'.toNat + 26)
  else if c.isDigit then some (c.toNat - '0'.toNat + 52)
  else if c = '-' ∨ c = '+' then some 62
  else if c = '_' ∨ c = '/' then some 63
  else none

def encode : List UInt8 → List Char
  | a :: b :: c :: rest =>
    letter (a.toNat / 4) :: letter (a.toNat % 4 * 16 + b.toNat / 16) ::
      letter (b.toNat % 16 * 4 + c.toNat / 64) :: letter (c.toNat % 64) :: encode rest
  | [a, b] =>
    [letter (a.toNat / 4), letter (a.toNat % 4 * 16 + b.toNat / 16), letter (b.toNat % 16 * 4), '=']
  | [a] => [letter (a.toNat / 4), letter (a.toNat % 4 * 16), '=', '=']
  | [] => []

/-- Where the reading of a group of four stands. -/
inductive Group
  | start
  /-- One letter read, with its bits. -/
  | one (left : Nat)
  /-- Two letters read, with the bits not yet in a byte. -/
  | two (left : Nat)
  | three (left : Nat)
  deriving DecidableEq, Repr

/-- The letters of the group read so far. -/
def Group.size : Group → Nat
  | .start => 0
  | .one _ => 1
  | .two _ => 2
  | .three _ => 3

/-- One letter more: the byte it completes, if it does, and the group after it. -/
def Group.next (bits : Nat) : Group → List UInt8 × Group
  | .start => ([], .one bits)
  | .one left => ([UInt8.ofNat (left * 4 + bits / 16)], .two (bits % 16))
  | .two left => ([UInt8.ofNat (left * 16 + bits / 4)], .three (bits % 4))
  | .three left => ([UInt8.ofNat (left * 64 + bits)], .start)

def decodeFrom (group : Group) (pads : Nat) : List Char → Option (List UInt8)
  | [] => if group = .start then some [] else none
  | c :: rest =>
    if c = '=' then
      if 2 ≤ group.size then
        if 4 ≤ group.size + (pads + 1) then some [] else decodeFrom group (pads + 1) rest
      else decodeFrom group pads rest
    else
      match bitsOf c with
      | none => decodeFrom group pads rest
      | some bits =>
        (decodeFrom (group.next bits).2 0 rest).map ((group.next bits).1 ++ ·)

def decode (text : List Char) : Option (List UInt8) := decodeFrom .start 0 text

theorem letter_ne_pad {bits : Nat} (h : bits < 64) : letter bits ≠ '=' := by
  have hall : ∀ bits : Fin 64, letter bits ≠ '=' := by decide
  exact hall ⟨bits, h⟩

theorem bitsOf_letter {bits : Nat} (h : bits < 64) : bitsOf (letter bits) = some bits := by
  have hall : ∀ bits : Fin 64, bitsOf (letter bits) = some bits.val := by decide
  exact hall ⟨bits, h⟩

theorem decodeFrom_letter {bits : Nat} (h : bits < 64) (group : Group) (pads : Nat)
    (rest : List Char) : decodeFrom group pads (letter bits :: rest) =
      (decodeFrom (group.next bits).2 0 rest).map ((group.next bits).1 ++ ·) := by
  rw [decodeFrom, if_neg (letter_ne_pad h), bitsOf_letter h]

theorem ofNat_eq {n : Nat} (byte : UInt8) (h : n = byte.toNat) : UInt8.ofNat n = byte := by
  rw [h, UInt8.ofNat_toNat]

theorem decode_encode (bytes : List UInt8) : decode (encode bytes) = some bytes := by
  suffices hall : ∀ pads, decodeFrom .start pads (encode bytes) = some bytes from hall 0
  induction bytes using encode.induct with
  | case1 a b c rest ih =>
    intro pads
    have ha := a.toNat_lt
    have hb := b.toNat_lt
    have hc := c.toNat_lt
    rw [encode, decodeFrom_letter (by omega), decodeFrom_letter (by omega),
      decodeFrom_letter (by omega), decodeFrom_letter (by omega)]
    simp only [Group.next, ih 0, Option.map_some, List.nil_append, List.cons_append]
    rw [ofNat_eq a (by omega), ofNat_eq b (by omega),
      ofNat_eq c (by omega)]
  | case2 a b =>
    intro pads
    have ha := a.toNat_lt
    have hb := b.toNat_lt
    rw [encode, decodeFrom_letter (by omega), decodeFrom_letter (by omega),
      decodeFrom_letter (by omega)]
    have hend : decodeFrom (.three (b.toNat % 16 * 4 % 4)) 0 ['='] = some [] := by
      rw [decodeFrom, if_pos rfl, if_pos (by simp [Group.size]), if_pos (by simp [Group.size])]
    simp only [Group.next, hend, Option.map_some, List.nil_append, List.cons_append]
    rw [ofNat_eq a (by omega), ofNat_eq b (by omega)]
  | case3 a =>
    intro pads
    have ha := a.toNat_lt
    rw [encode, decodeFrom_letter (by omega), decodeFrom_letter (by omega)]
    have hend : decodeFrom (.two (a.toNat % 4 * 16 % 16)) 0 ['=', '='] = some [] := by
      rw [decodeFrom, if_pos rfl, if_pos (by simp [Group.size]),
        if_neg (by simp [Group.size]), decodeFrom,
        if_pos rfl, if_pos (by simp [Group.size]), if_pos (by simp [Group.size])]
    simp only [Group.next, hend, Option.map_some, List.nil_append, List.cons_append]
    rw [ofNat_eq a (by omega)]
  | case4 =>
    intro pads
    rfl

/-- What is written of some bytes begins with a letter. -/
theorem encode_cons (a : UInt8) (bytes : List UInt8) :
    ∃ rest, encode (a :: bytes) = letter (a.toNat / 4) :: rest := by
  match bytes with
  | [] => exact ⟨_, rfl⟩
  | [_] => exact ⟨_, rfl⟩
  | _ :: _ :: _ => exact ⟨_, rfl⟩

/-- What is written has letters and padding only. -/
theorem mem_encode {bytes : List UInt8} {c : Char} (h : c ∈ encode bytes) :
    c = '=' ∨ ∃ bits, bits < 64 ∧ c = letter bits := by
  induction bytes using encode.induct with
  | case1 a b c' rest ih =>
    have ha := a.toNat_lt
    have hb := b.toNat_lt
    have hc := c'.toNat_lt
    rw [encode] at h
    simp only [List.mem_cons] at h
    rcases h with h | h | h | h | h
    · exact .inr ⟨_, by omega, h⟩
    · exact .inr ⟨_, by omega, h⟩
    · exact .inr ⟨_, by omega, h⟩
    · exact .inr ⟨_, by omega, h⟩
    · exact ih h
  | case2 a b =>
    have ha := a.toNat_lt
    have hb := b.toNat_lt
    rw [encode] at h
    simp only [List.mem_cons, List.not_mem_nil, or_false] at h
    rcases h with h | h | h | h
    · exact .inr ⟨_, by omega, h⟩
    · exact .inr ⟨_, by omega, h⟩
    · exact .inr ⟨_, by omega, h⟩
    · exact .inl h
  | case3 a =>
    have ha := a.toNat_lt
    rw [encode] at h
    simp only [List.mem_cons, List.not_mem_nil, or_false] at h
    rcases h with h | h | h | h
    · exact .inr ⟨_, by omega, h⟩
    · exact .inr ⟨_, by omega, h⟩
    · exact .inl h
    · exact .inl h
  | case4 => exact absurd h List.not_mem_nil

end Base64
