/- The two cursor codecs: what they give back and what they answer to any text. -/
import Fleet.Api.Pagination

namespace Fleet.Api
open Fleet.Lib

/-! ## Encoding any aware datetime -/

def encodeStampCursor (taskId : String) (createdAt : DateTime.Stamp) : String :=
  Base64.b64encode (utf8 (Json.obj
    [("id", .str taskId), ("created_at", .str createdAt.isoformat)]).dumpsPlain)

theorem encodeStampCursor_utc (taskId : String) (createdAt : Time) :
    encodeStampCursor taskId ⟨createdAt, some 0⟩ = encodeTaskCursor taskId createdAt := by
  rw [encodeStampCursor, DateTime.isoformat_utc]
  rfl

theorem decodeTaskCursor_stamp (backend : Backend) (taskId : String) {createdAt : DateTime.Stamp}
    (aware : createdAt.Aware) :
    decodeTaskCursor backend (encodeStampCursor taskId createdAt) = .ok (taskId, createdAt) := by
  have data := cursorData_record [("id", taskId), ("created_at", createdAt.isoformat)] (by simp)
  have id : (Json.obj [("id", .str taskId), ("created_at", .str createdAt.isoformat)]).subscript
      "id" = .ok (.str taskId) := rfl
  have at' : (Json.obj [("id", .str taskId), ("created_at", .str createdAt.isoformat)]).subscript
      "created_at" = .ok (.str createdAt.isoformat) := by
    simp [Json.subscript, Dict.get?_cons]
  have time : DateTime.fromisoformat (backend.str (.str createdAt.isoformat)) = some createdAt :=
    DateTime.fromisoformat_stamp aware
  simp only [Json.record, List.map_cons, List.map_nil] at data
  simp only [decodeTaskCursor, encodeStampCursor, data, id, at', time, bind, Except.bind, pure, Except.pure]
  rfl

/-! ## Reading any text

The decoders over any reader of JSON texts: whatever values it gives, they are objects or
they are not, and the only exceptions of reading are subclasses of `ValueError`. -/

/-- What the decoders use of Python. The `none` of `data` and of `fromisoformat` stands for
a `ValueError`, and that of `members` for a value that is not an object, whose subscription
by a text raises a `TypeError`. -/
structure CursorReader where
  Value : Type
  Text : Type
  data : String → Option Value
  members : Value → Option (String → Option Value)
  typeError : Value → String
  str : Value → Text
  fromisoformat : Text → Option DateTime.Stamp

namespace CursorReader
variable (r : CursorReader)

def loads (cursor : String) : Except PyError r.Value :=
  match r.data cursor with
  | some value => .ok value
  | none => .error .valueError

def subscript (value : r.Value) (key : String) : Except PyError r.Value :=
  match r.members value with
  | none => .error (.typeError (r.typeError value))
  | some members =>
      match members key with
      | some v => .ok v
      | none => .error .keyError

def decodeTaskCursor (cursor : String) : Except Failure (r.Text × DateTime.Stamp) :=
  let read : Except PyError (r.Text × DateTime.Stamp) := do
    let data ← r.loads cursor
    let taskId ← r.subscript data "id"
    let createdAt ← r.subscript data "created_at"
    match r.fromisoformat (r.str createdAt) with
    | some d => return (r.str taskId, d)
    | none => .error .valueError
  match read with
  | .ok position => .ok position
  | .error _ => .error invalidCursor

/-- The `except` clause of this decoder does not name `TypeError`. -/
def decodeCursor (cursor : String) : Except Failure r.Text :=
  let read : Except PyError r.Text := do
    let data ← r.loads cursor
    let workflowId ← r.subscript data "id"
    return r.str workflowId
  match read with
  | .ok workflowId => .ok workflowId
  | .error (.typeError message) => .error (.python message)
  | .error _ => .error invalidCursor

/-- The text decodes to a JSON value that is not an object. -/
def Foreign (cursor : String) : Prop := ∃ value, r.data cursor = some value ∧ r.members value = none

end CursorReader

/-- A value is returned, or an `InputValidationError` is raised. -/
def Graceful {α : Type} (answer : Except Failure α) : Prop :=
  (∃ value, answer = .ok value) ∨ ∃ e, answer = .error (.api e) ∧ e.kind = .inputValidation

theorem graceful_ok {α : Type} (value : α) : Graceful (.ok value) := .inl ⟨value, rfl⟩

theorem graceful_invalidCursor {α : Type} : Graceful (.error invalidCursor : Except Failure α) :=
  .inr ⟨_, rfl, rfl⟩

theorem not_graceful_python {α : Type} (message : String) :
    ¬ Graceful (.error (.python message) : Except Failure α) := by
  rintro (⟨value, same⟩ | ⟨e, same, -⟩) <;> cases same

namespace CursorReader
variable (r : CursorReader)

theorem decodeTaskCursor_graceful (cursor : String) : Graceful (r.decodeTaskCursor cursor) := by
  unfold decodeTaskCursor
  dsimp only
  split
  · exact graceful_ok _
  · exact graceful_invalidCursor

theorem decodeCursor_foreign {cursor : String} (foreign : r.Foreign cursor) :
    ∃ message, r.decodeCursor cursor = .error (.python message) := by
  obtain ⟨value, read, other⟩ := foreign
  refine ⟨r.typeError value, ?_⟩
  simp only [decodeCursor, loads, read, subscript, other, bind, Except.bind]

theorem decodeCursor_plain {cursor : String} (plain : ¬ r.Foreign cursor) :
    Graceful (r.decodeCursor cursor) := by
  cases read : r.data cursor with
  | none =>
      simp only [decodeCursor, loads, read, bind, Except.bind]
      exact graceful_invalidCursor
  | some value =>
      cases shape : r.members value with
      | none => exact absurd ⟨value, read, shape⟩ plain
      | some members =>
          cases found : members "id" with
          | none =>
              simp only [decodeCursor, loads, read, subscript, shape, found, bind, Except.bind]
              exact graceful_invalidCursor
          | some id =>
              simp only [decodeCursor, loads, read, subscript, shape, found, bind, Except.bind,
                pure, Except.pure]
              exact graceful_ok _

theorem decodeCursor_graceful_iff (cursor : String) :
    Graceful (r.decodeCursor cursor) ↔ ¬ r.Foreign cursor := by
  refine ⟨fun graceful foreign => ?_, r.decodeCursor_plain⟩
  obtain ⟨message, raised⟩ := r.decodeCursor_foreign foreign
  rw [raised] at graceful
  exact not_graceful_python message graceful

end CursorReader

/-! ## The readers of the listings -/

def Backend.cursorReader (backend : Backend) : CursorReader where
  Value := Json
  Text := String
  data := fun cursor => (cursorData cursor).toOption
  members := fun
    | .obj d => some (Dict.get? d)
    | _ => none
  typeError := fun value =>
    match value.subscript "id" with
    | .error (.typeError message) => message
    | _ => ""
  str := backend.str
  fromisoformat := DateTime.fromisoformat

section backend
variable (backend : Backend)

theorem cursorData_error {cursor : String} {e : PyError} (h : cursorData cursor = .error e) :
    e = .valueError := by
  unfold cursorData Json.loads at h
  split at h
  · split at h <;> cases h
    rfl
  · cases h
    rfl

theorem cursorReader_loads (cursor : String) : backend.cursorReader.loads cursor = cursorData cursor := by
  have data : backend.cursorReader.data cursor = (cursorData cursor).toOption := rfl
  rw [CursorReader.loads, data]
  cases read : cursorData cursor with
  | ok value => rfl
  | error e => rw [cursorData_error read]; rfl

theorem cursorReader_subscript (value : Json) (key : String) :
    backend.cursorReader.subscript value key = value.subscript key := by
  cases value with
  | null | bool | num | real | str | arr => rfl
  | obj d =>
      have members : backend.cursorReader.members (.obj d) = some (Dict.get? d) := rfl
      simp only [CursorReader.subscript, members, Json.subscript]
      cases Dict.get? d key <;> rfl

theorem decodeCursor_reader (cursor : String) :
    decodeCursor backend cursor = backend.cursorReader.decodeCursor cursor := by
  unfold decodeCursor CursorReader.decodeCursor
  rw [cursorReader_loads]
  cases read : cursorData cursor with
  | error e => rw [cursorData_error read]; rfl
  | ok value =>
      have same := cursorReader_subscript backend value "id"
      simp only [bind, Except.bind]
      rw [same]
      cases value.subscript "id" with
      | ok id => rfl
      | error e => cases e <;> rfl

theorem decodeTaskCursor_reader (cursor : String) :
    decodeTaskCursor backend cursor = backend.cursorReader.decodeTaskCursor cursor := by
  unfold decodeTaskCursor CursorReader.decodeTaskCursor
  rw [cursorReader_loads]
  cases read : cursorData cursor with
  | error e => rfl
  | ok value =>
      simp only [bind, Except.bind]
      rw [cursorReader_subscript, cursorReader_subscript]
      cases value.subscript "id" with
      | error e => rfl
      | ok id =>
          cases value.subscript "created_at" with
          | error e => rfl
          | ok createdAt =>
              have time : backend.cursorReader.fromisoformat (backend.cursorReader.str createdAt) =
                  DateTime.fromisoformat (backend.str createdAt) := rfl
              simp only [time]
              cases DateTime.fromisoformat (backend.str createdAt) <;> rfl

end backend

/-! ## Both codecs -/

/-- Both codecs give back what they encoded, and both answer to every text but those the
second decoder finds no object in. -/
theorem cursor_codecs (backend : Backend) (r : CursorReader) :
    (∀ taskId createdAt, createdAt.Aware →
        decodeTaskCursor backend (encodeStampCursor taskId createdAt) = .ok (taskId, createdAt)) ∧
      (∀ workflowId, decodeCursor backend (encodeCursor workflowId) = .ok workflowId) ∧
      ∀ cursor, (Graceful (r.decodeTaskCursor cursor) ∧ Graceful (r.decodeCursor cursor)) ↔
        ¬ r.Foreign cursor := by
  refine ⟨fun taskId _ aware => decodeTaskCursor_stamp backend taskId aware,
    decodeCursor_encode backend, fun cursor => ?_⟩
  rw [r.decodeCursor_graceful_iff]
  exact and_iff_right (r.decodeTaskCursor_graceful cursor)

namespace Demo

def eastern : DateTime.Stamp := ⟨1772841600000001, some 19800000000⟩

theorem eastern_aware : eastern.Aware := ⟨by decide, 19800000000, rfl, by decide⟩

end Demo

theorem cursor_codecs_eastern :
    decodeTaskCursor Demo.backend (encodeStampCursor "task-a" Demo.eastern) =
      .ok ("task-a", Demo.eastern) :=
  (cursor_codecs Demo.backend Demo.backend.cursorReader).1 "task-a" Demo.eastern
    Demo.eastern_aware

/-- The text is the base64 of `[1]`: the two decoders part. -/
theorem list_cursor_raises :
    (∃ message, decodeCursor Demo.backend "WzFd" = .error (.python message)) ∧
      decodeTaskCursor Demo.backend "WzFd" = .error invalidCursor := by
  have read : cursorData "WzFd" = .ok (.arr [.num 1]) := by decide +kernel
  refine ⟨⟨"list indices must be integers or slices, not str", ?_⟩, ?_⟩
  · simp only [decodeCursor, read, bind, Except.bind, Json.subscript]
  · simp only [decodeTaskCursor, read, bind, Except.bind, Json.subscript]

end Fleet.Api
