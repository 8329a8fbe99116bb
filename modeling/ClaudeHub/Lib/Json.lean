import Mathlib.Data.List.Basic

/-! # JSON texts

Values as a reader of JSON texts finds them, and the compact text of an object whose members are
texts, in ASCII. What is written reads back as itself.
-/

namespace Json

/-- A number or another bare word stands as it is written, an object with its members in order. -/
inductive Value
  | word (literal : List Char)
  | string (text : List Char)
  | array (items : List Value)
  | object (members : List (List Char × Value))

def hexDigit (n : Nat) : Char :=
  if n < 10 then Char.ofNat ('0'.toNat + n) else Char.ofNat ('a'.toNat + (n - 10))

def hexValue (c : Char) : Option Nat :=
  if '0' ≤ c ∧ c ≤ '9' then some (c.toNat - '0'.toNat)
  else if 'a' ≤ c ∧ c ≤ 'f' then some (c.toNat - 'a'.toNat + 10)
  else if 'A' ≤ c ∧ c ≤ 'F' then some (c.toNat - 'A'.toNat + 10)
  else none

def unicodeEscape (n : Nat) : List Char :=
  ['\\', 'u', hexDigit (n / 4096), hexDigit (n / 256 % 16), hexDigit (n / 16 % 16),
    hexDigit (n % 16)]

def hexFour (a b c d : Char) : Option Nat := do
  let a ← hexValue a
  let b ← hexValue b
  let c ← hexValue c
  let d ← hexValue d
  some (a * 4096 + b * 256 + c * 16 + d)

/-- The letter that stands for a character after a backslash. -/
def shortEscapes : List (Char × Char) :=
  [('"', '"'), ('\\', '\\'), ('n', '\n'), ('r', '\r'), ('t', '\t'), ('f', '\x0c'), ('b', '\x08')]

def isPlain (c : Char) : Bool := ' ' ≤ c && c ≤ '~'

/-- A character of a text, in ASCII. One past the basic plane is a pair of surrogates. -/
def escapeChar (c : Char) : List Char :=
  match shortEscapes.find? fun pair => pair.2 == c with
  | some pair => ['\\', pair.1]
  | none =>
    if isPlain c then [c]
    else if c.toNat < 0x10000 then unicodeEscape c.toNat
    else
      unicodeEscape (0xd800 + (c.toNat - 0x10000) / 0x400) ++
        unicodeEscape (0xdc00 + (c.toNat - 0x10000) % 0x400)

def isHighSurrogate (n : Nat) : Bool := 0xd800 ≤ n && n < 0xdc00

def isLowSurrogate (n : Nat) : Bool := 0xdc00 ≤ n && n < 0xe000

def joinSurrogates (high low : Nat) : Char :=
  Char.ofNat (0x10000 + (high - 0xd800) * 0x400 + (low - 0xdc00))

/-- `/` may be escaped too. -/
def unescape (letter : Char) : Option Char :=
  if letter = '/' then some '/'
  else (shortEscapes.find? fun pair => pair.1 == letter).map Prod.snd

def withChar (c : Char) (scanned : Option (List Char × List Char)) :
    Option (List Char × List Char) :=
  scanned.map fun (text, rest) => (c :: text, rest)

/-- A text after its opening quote, and what follows its closing one. A surrogate without its
partner is refused: no text holds one. -/
def scanString : List Char → Option (List Char × List Char)
  | [] => none
  | '"' :: rest => some ([], rest)
  | ['\\'] => none
  | '\\' :: letter :: rest =>
    if letter = 'u' then
      match rest with
      | a :: b :: c :: d :: rest =>
        match hexFour a b c d with
        | none => none
        | some n =>
          if isHighSurrogate n then
            match rest with
            | '\\' :: 'u' :: a :: b :: c :: d :: rest =>
              match hexFour a b c d with
              | none => none
              | some low =>
                if isLowSurrogate low then
                  withChar (joinSurrogates n low) (scanString rest)
                else none
            | _ => none
          else if isLowSurrogate n then none
          else withChar (Char.ofNat n) (scanString rest)
      | _ => none
    else
      match unescape letter with
      | none => none
      | some c => withChar c (scanString rest)
  | c :: rest => if c.toNat < 0x20 then none else withChar c (scanString rest)

def isBlank (c : Char) : Bool := c == ' ' || c == '\t' || c == '\n' || c == '\r'

def skipBlank (text : List Char) : List Char := text.dropWhile isBlank

def scanNatural : List Char → Option (List Char × List Char)
  | '0' :: rest => some (['0'], rest)
  | c :: rest =>
    if c.isDigit then some (c :: rest.takeWhile Char.isDigit, rest.dropWhile Char.isDigit)
    else none
  | [] => none

def scanDigits (mark text rest : List Char) : List Char × List Char :=
  if rest.takeWhile Char.isDigit = [] then ([], text)
  else (mark ++ rest.takeWhile Char.isDigit, rest.dropWhile Char.isDigit)

def scanFraction (text : List Char) : List Char × List Char :=
  match text with
  | '.' :: rest => scanDigits ['.'] text rest
  | _ => ([], text)

def scanExponent (text : List Char) : List Char × List Char :=
  match text with
  | e :: sign :: rest =>
    if e = 'e' ∨ e = 'E' then
      if sign = '+' ∨ sign = '-' then scanDigits [e, sign] text rest
      else scanDigits [e] text (sign :: rest)
    else ([], text)
  | _ => ([], text)

def scanUnsigned (text : List Char) : Option (List Char × List Char) := do
  let (whole, rest) ← scanNatural text
  let (fraction, rest) := scanFraction rest
  let (exponent, rest) := scanExponent rest
  some (whole ++ fraction ++ exponent, rest)

def scanNumber : List Char → Option (List Char × List Char)
  | '-' :: rest => withChar '-' (scanUnsigned rest)
  | text => scanUnsigned text

def bareWords : List (List Char) :=
  ["null".toList, "true".toList, "false".toList, "NaN".toList, "Infinity".toList,
    "-Infinity".toList]

def scanWord (text : List Char) : Option (List Char × List Char) :=
  match bareWords.find? fun word => word.isPrefixOf text with
  | some word => some (word, text.drop word.length)
  | none => scanNumber text

mutual

def scanValue : Nat → List Char → Option (Value × List Char)
  | 0, _ => none
  | fuel + 1, text =>
    match text with
    | '"' :: rest => (scanString rest).map fun (text, rest) => (.string text, rest)
    | '\x7b' :: rest =>
      match skipBlank rest with
      | '\x7d' :: rest => some (.object [], rest)
      | rest => (scanMembers fuel rest).map fun (members, rest) => (.object members, rest)
    | '[' :: rest =>
      match skipBlank rest with
      | ']' :: rest => some (.array [], rest)
      | rest => (scanItems fuel rest).map fun (items, rest) => (.array items, rest)
    | text => (scanWord text).map fun (literal, rest) => (.word literal, rest)

def scanMembers : Nat → List Char → Option (List (List Char × Value) × List Char)
  | 0, _ => none
  | fuel + 1, text => do
      let '"' :: rest := text | none
      let (key, rest) ← scanString rest
      let ':' :: rest := skipBlank rest | none
      let (value, rest) ← scanValue fuel (skipBlank rest)
      match skipBlank rest with
      | '\x7d' :: rest => some ([(key, value)], rest)
      | ',' :: rest => do
          let (members, rest) ← scanMembers fuel (skipBlank rest)
          some ((key, value) :: members, rest)
      | _ => none

def scanItems : Nat → List Char → Option (List Value × List Char)
  | 0, _ => none
  | fuel + 1, text => do
      let (value, rest) ← scanValue fuel text
      match skipBlank rest with
      | ']' :: rest => some ([value], rest)
      | ',' :: rest => do
          let (items, rest) ← scanItems fuel (skipBlank rest)
          some (value :: items, rest)
      | _ => none

end

/-- The value that the whole text is. Every value takes a character at least. -/
def loads (text : List Char) : Option Value := do
  let (value, rest) ← scanValue (text.length + 1) (skipBlank text)
  if skipBlank rest = [] then some value else none

/-- A repeated name stands for its last member. -/
def Value.member (name : List Char) : Value → Option Value
  | .object members => members.reverse.lookup name
  | _ => none

def dumpString (text : List Char) : List Char := '"' :: (text.flatMap escapeChar ++ ['"'])

def dumpMember (pair : List Char × List Char) : List Char :=
  dumpString pair.1 ++ ':' :: dumpString pair.2

/-- The members after the first one, and the closing brace. -/
def dumpRest : List (List Char × List Char) → List Char
  | [] => ['\x7d']
  | pair :: rest => ',' :: (dumpMember pair ++ dumpRest rest)

def dumps : List (List Char × List Char) → List Char
  | [] => ['\x7b', '\x7d']
  | pair :: rest => '\x7b' :: (dumpMember pair ++ dumpRest rest)

/-! ## Reading what was written -/

attribute [local simp] scanString

theorem hexValue_hexDigit {n : Nat} (h : n < 16) : hexValue (hexDigit n) = some n := by
  have hall : ∀ n : Fin 16, hexValue (hexDigit n) = some n.val := by decide
  exact hall ⟨n, h⟩

theorem hexFour_hexDigits {n : Nat} (h : n < 0x10000) :
    hexFour (hexDigit (n / 4096)) (hexDigit (n / 256 % 16)) (hexDigit (n / 16 % 16))
      (hexDigit (n % 16)) = some n := by
  rw [hexFour, hexValue_hexDigit (by omega), hexValue_hexDigit (by omega),
    hexValue_hexDigit (by omega), hexValue_hexDigit (by omega)]
  simp only [Option.bind_eq_bind, Option.bind_some]
  congr 1
  omega

theorem isSurrogate_toNat (c : Char) :
    isHighSurrogate c.toNat = false ∧ isLowSurrogate c.toNat = false := by
  have hvalid : c.toNat.isValidChar := c.valid
  unfold isHighSurrogate isLowSurrogate
  simp only [Bool.and_eq_false_iff, decide_eq_false_iff_not]
  rcases hvalid with hlow | hhigh <;> omega

theorem joinSurrogates_split {c : Char} (h : ¬ c.toNat < 0x10000) :
    joinSurrogates (0xd800 + (c.toNat - 0x10000) / 0x400)
      (0xdc00 + (c.toNat - 0x10000) % 0x400) = c := by
  unfold joinSurrogates
  rw [show 0x10000 + (0xd800 + (c.toNat - 0x10000) / 0x400 - 0xd800) * 0x400 +
      (0xdc00 + (c.toNat - 0x10000) % 0x400 - 0xdc00) = c.toNat by omega]
  exact Char.ofNat_toNat c

theorem toNat_lt (c : Char) : c.toNat < 0x110000 := by
  have hvalid : c.toNat.isValidChar := c.valid
  rcases hvalid with hlow | hhigh <;> omega

theorem scanString_unicodeEscape {n : Nat} (h : n < 0x10000) (hhigh : isHighSurrogate n = false)
    (hlow : isLowSurrogate n = false) (rest : List Char) :
    scanString (unicodeEscape n ++ rest) = withChar (Char.ofNat n) (scanString rest) := by
  simp only [unicodeEscape, List.cons_append, List.nil_append]
  rw [scanString]
  simp only [↓reduceIte, hexFour_hexDigits h, hhigh, hlow, Bool.false_eq_true]

theorem scanString_pair {high low : Nat} (hhigh : isHighSurrogate high = true)
    (hlow : isLowSurrogate low = true) (rest : List Char) :
    scanString (unicodeEscape high ++ (unicodeEscape low ++ rest)) =
      withChar (joinSurrogates high low) (scanString rest) := by
  have hhigh' : high < 0x10000 := by
    have h := (Bool.and_eq_true_iff.mp hhigh).2
    have := of_decide_eq_true h
    omega
  have hlow' : low < 0x10000 := by
    have h := (Bool.and_eq_true_iff.mp hlow).2
    have := of_decide_eq_true h
    omega
  simp only [unicodeEscape, List.cons_append, List.nil_append]
  rw [scanString]
  simp only [↓reduceIte, hexFour_hexDigits hhigh', hexFour_hexDigits hlow', hhigh, hlow]

theorem scanString_short {letter c : Char} (hletter : letter ≠ 'u')
    (hc : unescape letter = some c) (rest : List Char) :
    scanString ('\\' :: letter :: rest) = withChar c (scanString rest) := by
  rw [scanString.eq_def]
  simp only [hletter, ↓reduceIte, hc]

theorem scanString_escapeChar (c : Char) (rest : List Char) :
    scanString (escapeChar c ++ rest) = withChar c (scanString rest) := by
  unfold escapeChar
  cases hshort : shortEscapes.find? fun pair => pair.2 == c with
  | some pair =>
    have hc : pair.2 = c := by simpa using List.find?_some hshort
    have hmem := List.mem_of_find?_eq_some hshort
    simp only [List.cons_append, List.nil_append]
    rw [← hc]
    simp only [shortEscapes, List.mem_cons, List.not_mem_nil, or_false] at hmem
    rcases hmem with rfl | rfl | rfl | rfl | rfl | rfl | rfl <;>
      exact scanString_short (by decide) (by decide) rest
  | none =>
    rw [List.find?_eq_none] at hshort
    have hquote : c ≠ '"' := fun h => hshort ('"', '"') (by decide) (by simp [h])
    have hslash : c ≠ '\\' := fun h => hshort ('\\', '\\') (by decide) (by simp [h])
    by_cases hplain : isPlain c = true
    · have hspace : ' '.toNat ≤ c.toNat := by
        simp only [isPlain, Bool.and_eq_true, decide_eq_true_eq] at hplain
        exact hplain.1
      have hnot : ¬ c.toNat < 0x20 := Nat.not_lt.mpr hspace
      simp only [hplain, ↓reduceIte, List.cons_append, List.nil_append]
      rw [scanString]
      · rw [if_neg hnot]
      all_goals simp [hquote, hslash]
    · simp only [hplain, Bool.false_eq_true, ↓reduceIte]
      by_cases hbasic : c.toNat < 0x10000
      · rw [if_pos hbasic, scanString_unicodeEscape hbasic (isSurrogate_toNat c).1
          (isSurrogate_toNat c).2, Char.ofNat_toNat]
      · have hlt := toNat_lt c
        rw [if_neg hbasic, List.append_assoc, scanString_pair, joinSurrogates_split hbasic]
        · simp only [isHighSurrogate, Bool.and_eq_true, decide_eq_true_eq]
          omega
        · simp only [isLowSurrogate, Bool.and_eq_true, decide_eq_true_eq]
          omega

theorem scanString_dumpString (text rest : List Char) :
    scanString (text.flatMap escapeChar ++ '"' :: rest) = some (text, rest) := by
  induction text with
  | nil => rfl
  | cons c text ih => rw [List.flatMap_cons, List.append_assoc, scanString_escapeChar, ih]; rfl

theorem skipBlank_cons {c : Char} (h : isBlank c = false) (rest : List Char) :
    skipBlank (c :: rest) = c :: rest := by
  rw [skipBlank, List.dropWhile_cons, h]
  rfl

/-- A member reads back with what follows it. -/
theorem scanValue_string (fuel : Nat) (text rest : List Char) :
    scanValue (fuel + 1) (dumpString text ++ rest) = some (.string text, rest) := by
  rw [dumpString, List.cons_append, List.append_assoc, scanValue]
  simp only [List.cons_append, List.nil_append, scanString_dumpString, Option.map_some]

def asValues (members : List (List Char × List Char)) : List (List Char × Value) :=
  members.map fun pair => (pair.1, .string pair.2)

/-- One member is read before what follows it is looked at. -/
theorem scanMembers_dumpMember (fuel : Nat) (pair : List Char × List Char) (rest : List Char) :
    scanMembers (fuel + 2) (dumpMember pair ++ rest) =
      match skipBlank rest with
      | '\x7d' :: rest => some ([(pair.1, .string pair.2)], rest)
      | ',' :: rest => do
          let (members, rest) ← scanMembers (fuel + 1) (skipBlank rest)
          some ((pair.1, .string pair.2) :: members, rest)
      | _ => none := by
  have hvalue : skipBlank (dumpString pair.2 ++ rest) = dumpString pair.2 ++ rest :=
    skipBlank_cons (by decide) _
  rw [dumpMember, dumpString, List.cons_append, List.cons_append, List.append_assoc,
    List.append_assoc, scanMembers]
  simp only [List.cons_append, List.nil_append, scanString_dumpString, Option.bind_eq_bind,
    Option.bind_some, skipBlank_cons (show isBlank ':' = false by decide), hvalue,
    scanValue_string]

theorem scanMembers_dumpRest (pair : List Char × List Char)
    (members : List (List Char × List Char)) {fuel : Nat} (hfuel : members.length + 2 ≤ fuel)
    (rest : List Char) :
    scanMembers fuel (dumpMember pair ++ (dumpRest members ++ rest)) =
      some (asValues (pair :: members), rest) := by
  induction members generalizing pair fuel with
  | nil =>
    obtain ⟨more, rfl⟩ := Nat.exists_eq_add_of_le' (show 2 ≤ fuel by omega)
    rw [scanMembers_dumpMember, dumpRest, List.cons_append, skipBlank_cons (by decide)]
    rfl
  | cons second members ih =>
    obtain ⟨more, rfl⟩ := Nat.exists_eq_add_of_le' (show 2 ≤ fuel by omega)
    have hskip : skipBlank (dumpMember second ++ (dumpRest members ++ rest)) =
        dumpMember second ++ (dumpRest members ++ rest) := skipBlank_cons (by decide) _
    rw [scanMembers_dumpMember, dumpRest, List.cons_append, List.append_assoc,
      skipBlank_cons (by decide)]
    simp only [hskip]
    rw [ih second (by rw [List.length_cons] at hfuel; omega)]
    rfl

/-- There are fewer members than characters. -/
theorem length_lt_dumpRest (members : List (List Char × List Char)) :
    members.length < (dumpRest members).length := by
  induction members with
  | nil => decide
  | cons =>
    rw [dumpRest, List.length_cons, List.length_cons, List.length_append]
    omega

theorem scanValue_members {fuel : Nat} {text rest : List Char}
    {members : List (List Char × Value)}
    (h : scanMembers fuel ('"' :: text) = some (members, rest)) :
    scanValue (fuel + 1) ('\x7b' :: '"' :: text) = some (.object members, rest) := by
  rw [scanValue, skipBlank_cons (by decide)]
  exact congrArg (Option.map fun scanned => (Value.object scanned.1, scanned.2)) h

theorem loads_dumps (pair : List Char × List Char) (members : List (List Char × List Char)) :
    loads (dumps (pair :: members)) = some (.object (asValues (pair :: members))) := by
  have hlength := length_lt_dumpRest members
  have hmembers := @scanMembers_dumpRest pair members (dumps (pair :: members)).length
    (by rw [dumps, List.length_cons, List.length_append]; omega) []
  rw [List.append_nil] at hmembers
  have hvalue := scanValue_members hmembers
  have hdumps : skipBlank (dumps (pair :: members)) = dumps (pair :: members) :=
    skipBlank_cons (by decide) _
  rw [loads, hdumps]
  exact congrArg (Option.bind · _) hvalue

end Json
