import ClaudeHub.Lib.Base64
import ClaudeHub.Lib.Json
import ClaudeHub.Models.Enums
import ClaudeHub.TaskBoard.IsoFormat

/-! # The cursor of the board's done tasks

A cursor is the place of one task in the order of the board: its two timestamps and its id, as a
JSON object in Base64.
-/

namespace ClaudeHub

/-- `ValueError("Invalid tasks_cursor")`, and the same with `: missing created_at`. -/
inductive CursorError
  | invalid
  | missingCreatedAt
  deriving DecidableEq, Repr

def CursorError.message : CursorError → String
  | .invalid => "Invalid tasks_cursor"
  | .missingCreatedAt => "Invalid tasks_cursor: missing created_at"

def encodeUtf8 (text : List Char) : List UInt8 := (String.ofList text).toUTF8.data.toList

def decodeUtf8 (bytes : List UInt8) : Option (List Char) :=
  (String.fromUTF8? ⟨bytes.toArray⟩).map String.toList

def encodeBoardTasksCursor (updatedAt createdAt : Timestamp) (taskId : TaskId) : String :=
  let raw := Json.dumps [("updated_at".toList, IsoFormat.isoformat updatedAt),
    ("created_at".toList, IsoFormat.isoformat createdAt), ("id".toList, taskId.toList)]
  String.ofList (Base64.encode (encodeUtf8 raw))

section Decode

-- `str` of a JSON value that is no text
variable (strOf : Json.Value → List Char)

def strValue : Json.Value → List Char
  | .string text => text
  | value => strOf value

def decodeBoardTasksCursor (cursor : String) :
    Except CursorError (Timestamp × Timestamp × TaskId) := do
  let some payload := (do
    let cursor ← if cursor.toList.all fun c => c.toNat < 128 then some cursor.toList else none
    let raw ← Base64.decode cursor
    let text ← decodeUtf8 raw
    Json.loads text) | throw .invalid
  let .object _ := payload | throw .invalid
  let some createdAt := payload.member "created_at".toList | throw .missingCreatedAt
  let some updatedAt := payload.member "updated_at".toList | throw .invalid
  let some updatedAt := IsoFormat.fromisoformat (strValue strOf updatedAt) | throw .invalid
  let some createdAt := IsoFormat.fromisoformat (strValue strOf createdAt) | throw .invalid
  let some taskId := payload.member "id".toList | throw .invalid
  if strValue strOf taskId = [] then throw .invalid
  return (updatedAt, createdAt, String.ofList (strValue strOf taskId))

theorem decodeUtf8_encodeUtf8 (text : List Char) : decodeUtf8 (encodeUtf8 text) = some text := by
  have hdecode : String.fromUTF8? (String.ofList text).toUTF8 = some (String.ofList text) :=
    dif_pos (String.ofList text).isValidUTF8
  rw [decodeUtf8, encodeUtf8, Array.toArray_toList, hdecode, Option.map_some, String.toList_ofList]

theorem encodeUtf8_ne_nil {text : List Char} (h : text ≠ []) : encodeUtf8 text ≠ [] := by
  intro hnil
  have hdecode := decodeUtf8_encodeUtf8 text
  have hempty : decodeUtf8 [] = some [] := decodeUtf8_encodeUtf8 []
  rw [hnil, hempty] at hdecode
  exact h (Option.some.inj hdecode).symm

theorem cursor_cons (updatedAt createdAt : Timestamp) (taskId : TaskId) :
    ∃ bits rest, bits < 64 ∧
      (encodeBoardTasksCursor updatedAt createdAt taskId).toList = Base64.letter bits :: rest := by
  unfold encodeBoardTasksCursor
  rw [String.toList_ofList]
  cases hbytes : encodeUtf8 (Json.dumps [("updated_at".toList, IsoFormat.isoformat updatedAt),
      ("created_at".toList, IsoFormat.isoformat createdAt), ("id".toList, taskId.toList)]) with
  | nil => exact absurd hbytes (encodeUtf8_ne_nil (by rw [Json.dumps]; exact List.cons_ne_nil _ _))
  | cons a bytes =>
    obtain ⟨rest, hrest⟩ := Base64.encode_cons a bytes
    have hlt := a.toNat_lt
    exact ⟨a.toNat / 4, rest, by omega, hrest⟩

theorem encode_ascii (bytes : List UInt8) :
    (Base64.encode bytes).all (fun c => decide (c.toNat < 128)) = true := by
  have hall : ∀ bits : Fin 64, (Base64.letter bits).toNat < 128 := by decide
  rw [List.all_eq_true]
  intro c hc
  rcases Base64.mem_encode hc with rfl | ⟨bits, hlt, rfl⟩
  · rfl
  · exact decide_eq_true (hall ⟨bits, hlt⟩)

theorem decode_encode_cursor (updatedAt createdAt : Timestamp) {taskId : TaskId}
    (h : taskId ≠ "") :
    decodeBoardTasksCursor strOf (encodeBoardTasksCursor updatedAt createdAt taskId) =
      .ok (updatedAt, createdAt, taskId) := by
  have hne : taskId.toList ≠ [] := by
    intro hnil
    exact h (String.toList_eq_nil_iff.mp hnil)
  unfold decodeBoardTasksCursor encodeBoardTasksCursor
  simp only [String.toList_ofList, encode_ascii, ↓reduceIte, Option.bind_eq_bind,
    Option.bind_some, Base64.decode_encode, decodeUtf8_encodeUtf8, Json.loads_dumps]
  have hmembers (a b c : List Char) : let members := Json.Value.object (Json.asValues
      [("updated_at".toList, a), ("created_at".toList, b), ("id".toList, c)])
      members.member "updated_at".toList = some (.string a) ∧
      members.member "created_at".toList = some (.string b) ∧
      members.member "id".toList = some (.string c) := ⟨rfl, rfl, rfl⟩
  simp only [hmembers, strValue, IsoFormat.fromisoformat_isoformat, hne, ↓reduceIte,
    String.ofList_toList]
  rfl

end Decode

end ClaudeHub
