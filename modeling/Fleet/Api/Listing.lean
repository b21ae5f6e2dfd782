/- The paginated listings: their filters, their cursors and their queries. -/
import Mathlib.Data.Prod.Lex
import Fleet.Lib.DateTime
import Fleet.Lib.JsonRead
import Fleet.Lib.Paging
import Fleet.Api.Crud

namespace Fleet.Api
open Fleet.Lib Fleet.Lib.Paging

/-- The order of a text column: total, and two texts take one place only if they are
equal. -/
structure Collation where
  Key : Type
  order : LinearOrder Key
  key : String → Key
  injective : Function.Injective key

instance (c : Collation) : LinearOrder c.Key := c.order

/-- What the listings leave to their surroundings: the order of texts in the database,
the instant of a wall clock without a time zone (read by the process where it bounds a
filter, by the database session where it is in a cursor) and `str` of a value that is not
a text. -/
structure Backend where
  collation : Collation
  processZone : Int → Option Time
  sessionZone : Int → Option Time
  repr : Json → String

def Backend.str (backend : Backend) : Json → String
  | .str s => s
  | value => backend.repr value

/-- The instant as a query parameter; a `datetime` holds only those of the years 1 to
9999. -/
def instantOf (zone : Int → Option Time) (d : DateTime.Stamp) : Except Failure Time :=
  match d.offset with
  | some offset =>
      if DateTime.Representable (d.wall - offset) then .ok (d.wall - offset)
      else .error (.db .valueOutOfRange)
  | none =>
      match zone d.wall with
      | some t => .ok t
      | none => .error (.db .valueOutOfRange)

/-! ## Filters -/

def readFilter {α : Type} (read : String → Except Failure α) : Option String → Except Failure (Option α)
  | none => .ok none
  | some text => (read text).map some

def invalidFilter (name text suggestion : String) : Failure := .api {
  kind := .inputValidation
  code := .invalidInput
  message := s!"Invalid {name} filter '{text}'."
  suggestion := some suggestion }

def oneOf (values : List String) : String :=
  let validValues := ", ".intercalate values
  s!"Use one of: {validValues}."

def parseStatusFilter (text : String) : Except Failure TaskStatus :=
  match TaskStatus.ofValue? text with
  | some st => .ok st
  | none => .error (invalidFilter "status" text (oneOf (TaskStatus.all.map TaskStatus.value)))

def parsePriorityFilter (text : String) : Except Failure TaskPriority :=
  match TaskPriority.ofValue? text with
  | some p => .ok p
  | none => .error (invalidFilter "priority" text (oneOf (TaskPriority.all.map TaskPriority.value)))

def parseTimestampFilter (name sample text : String) : Except Failure DateTime.Stamp :=
  match DateTime.fromisoformat text with
  | some d => .ok d
  | none => .error (.api {
      kind := .inputValidation
      code := .invalidInput
      message := s!"Invalid '{name}' timestamp: '{text}'."
      suggestion := some s!"Use ISO 8601 format, e.g. '{sample}'." })

def parseSince : String → Except Failure DateTime.Stamp := parseTimestampFilter "since" "2026-03-07T00:00:00Z"

def parseUntil : String → Except Failure DateTime.Stamp := parseTimestampFilter "until" "2026-03-07T23:59:59Z"

structure TaskQuery where
  status : Option String := none
  priority : Option String := none
  caller : Option String := none
  since : Option String := none
  until' : Option String := none

structure TaskFilter where
  status : Option TaskStatus
  priority : Option TaskPriority
  caller : Option String
  since : Option DateTime.Stamp
  until' : Option DateTime.Stamp

def TaskQuery.parse (q : TaskQuery) : Except Failure TaskFilter := do
  let status ← readFilter parseStatusFilter q.status
  let priority ← readFilter parsePriorityFilter q.priority
  let since ← readFilter parseSince q.since
  let until' ← readFilter parseUntil q.until'
  return { status, priority, caller := q.caller, since, until' }

def boundOf (backend : Backend) : Option DateTime.Stamp → Except Failure (Option Time)
  | some d => (instantOf backend.processZone d).map some
  | none => .ok none

def bindOptional : Option String → Except Failure Unit
  | some text => bindText text
  | none => .ok ()

/-- The bounds as parameters of the query; the caller is to be one as well. -/
def TaskFilter.bounds (backend : Backend) (f : TaskFilter) : Except Failure (Option Time × Option Time) := do
  let since ← boundOf backend f.since
  let until' ← boundOf backend f.until'
  bindOptional f.caller
  return (since, until')

/-- The `WHERE` clause; both bounds are inclusive. -/
def TaskFilter.admits (f : TaskFilter) (bounds : Option Time × Option Time) (t : Task) : Bool :=
  f.status.all (fun st => t.status = st) && f.priority.all (fun p => t.priority = p)
    && f.caller.all (fun caller => t.principalAgentId = caller)
    && bounds.1.all (fun since => since ≤ t.createdAt) && bounds.2.all (fun until' => t.createdAt ≤ until')

/-! ## Cursors -/

def invalidCursor : Failure := .api {
  kind := .inputValidation
  code := .invalidInput
  message := "Invalid pagination cursor."
  suggestion := some "Use the cursor value returned from a previous list response." }

/-- `json.loads(base64.b64decode(cursor))`. -/
def cursorData (cursor : String) : Except PyError Json :=
  match Base64.b64decode cursor with
  | .ok data => Json.loads data
  | .error _ => .error .valueError

def encodeTaskCursor (taskId : String) (createdAt : Time) : String :=
  Base64.b64encode (utf8 (Json.obj
    [("id", .str taskId), ("created_at", .str (DateTime.isoformat createdAt))]).dumpsPlain)

def decodeTaskCursor (backend : Backend) (cursor : String) : Except Failure (String × DateTime.Stamp) :=
  let read : Except PyError (String × DateTime.Stamp) := do
    let data ← cursorData cursor
    let taskId ← data.subscript "id"
    let createdAt ← data.subscript "created_at"
    match DateTime.fromisoformat (backend.str createdAt) with
    | some d => return (backend.str taskId, d)
    | none => .error .valueError
  match read with
  | .ok position => .ok position
  | .error _ => .error invalidCursor

def encodeCursor (workflowId : String) : String :=
  Base64.b64encode (utf8 (Json.obj [("id", .str workflowId)]).dumpsPlain)

/-- Data that is not an object raises a `TypeError`, which is not caught here. -/
def decodeCursor (backend : Backend) (cursor : String) : Except Failure String :=
  let read : Except PyError String := do
    let data ← cursorData cursor
    let workflowId ← data.subscript "id"
    return backend.str workflowId
  match read with
  | .ok workflowId => .ok workflowId
  | .error (.typeError message) => .error (.python message)
  | .error _ => .error invalidCursor

/-! ### What a cursor is read as -/

theorem cursorData_record (fields : List (String × String)) (distinct : (fields.map Prod.fst).Nodup) :
    cursorData (Base64.b64encode (utf8 (Json.obj (Json.record fields)).dumpsPlain)) =
      .ok (.obj (Json.record fields)) := by
  rw [cursorData, Base64.b64decode_b64encode]
  exact Json.loads_record distinct

theorem decodeTaskCursor_encode (backend : Backend) (taskId : String) {createdAt : Time}
    (inside : DateTime.Representable createdAt) :
    decodeTaskCursor backend (encodeTaskCursor taskId createdAt) = .ok (taskId, ⟨createdAt, some 0⟩) := by
  have data := cursorData_record [("id", taskId), ("created_at", DateTime.isoformat createdAt)]
    (by simp)
  have id : (Json.obj [("id", .str taskId), ("created_at", .str (DateTime.isoformat createdAt))]).subscript
      "id" = .ok (.str taskId) := rfl
  have at' : (Json.obj [("id", .str taskId), ("created_at", .str (DateTime.isoformat createdAt))]).subscript
      "created_at" = .ok (.str (DateTime.isoformat createdAt)) := by
    simp [Json.subscript, Dict.get?_cons]
  have time : DateTime.fromisoformat (backend.str (.str (DateTime.isoformat createdAt))) =
      some ⟨createdAt, some 0⟩ := DateTime.fromisoformat_isoformat inside
  simp only [Json.record, List.map_cons, List.map_nil] at data
  simp only [decodeTaskCursor, encodeTaskCursor, data, id, at', time, bind, Except.bind, pure, Except.pure]
  rfl

theorem decodeCursor_encode (backend : Backend) (workflowId : String) :
    decodeCursor backend (encodeCursor workflowId) = .ok workflowId := by
  have data := cursorData_record [("id", workflowId)] (by simp)
  have id : (Json.obj [("id", .str workflowId)]).subscript "id" = .ok (.str workflowId) := rfl
  simp only [Json.record, List.map_cons, List.map_nil] at data
  simp only [decodeCursor, encodeCursor, data, id, bind, Except.bind, pure, Except.pure]
  rfl

/-! ## Listings -/

section page
variable {ρ κ : Type} [LinearOrder κ]

def afterCursor (key : ρ → κ) : Option κ → List ρ → List ρ
  | none, rows => rows
  | some position, rows => past key position rows

/-- The count of the selected rows, and one more row than the page takes. -/
def listPage (selected : Store → List ρ) (key : ρ → κ) (cursor : Except Failure (Option κ)) (encode : ρ → String)
    (limit : Nat) : Db (Page ρ String) := do
  let totalCount ← Db.query fun s => (selected s).length
  let position ← Db.ofExcept cursor
  let fetched ← Db.query fun s => (ordered key (afterCursor key position (selected s))).take (limit + 1)
  return Page.ofFetched limit encode totalCount fetched

theorem listPage_run (selected : Store → List ρ) (key : ρ → κ) (cursor : Except Failure (Option κ))
    (encode : ρ → String) (limit : Nat) (s : Store) :
    (listPage selected key cursor encode limit).run Store.flush s =
      (cursor.map fun position =>
        let rows := ordered key (afterCursor key position (selected s))
        ⟨rows.take limit, (lastShown limit rows).map encode, limit < rows.length, (selected s).length⟩, s) := by
  cases cursor with
  | error e => rfl
  | ok position =>
      dsimp only [Except.map]
      rw [← ofFetched_eq]
      rfl

end page

/-- The order of the task list: by time of creation and then by id, the latest first. -/
def taskKey (backend : Backend) (createdAt : Time) (id : String) :
    (Time ×ₗ backend.collation.Key)ᵒᵈ := OrderDual.toDual (toLex (createdAt, backend.collation.key id))

def taskPosition (backend : Backend) (cursor : Option String) :
    Except Failure (Option (Time ×ₗ backend.collation.Key)ᵒᵈ) :=
  match cursor with
  | none => .ok none
  | some cursor => do
      let (taskId, createdAt) ← decodeTaskCursor backend cursor
      let createdAt ← instantOf backend.sessionZone createdAt
      bindText taskId
      return some (taskKey backend createdAt taskId)

def selectTasks (workflowId : String) (admits : Task → Bool) (s : Store) : List Task :=
  s.tasks.rows.filter fun t => t.workflowId = workflowId && admits t

def listTasks (backend : Backend) (workflowId : String) (query : TaskQuery) (cursor : Option String)
    (limit : Nat) : Db (Page Task String) := do
  let _ ← getWorkflowOr404 workflowId
  let filter ← Db.ofExcept query.parse
  let bounds ← Db.ofExcept (filter.bounds backend)
  listPage (selectTasks workflowId (filter.admits bounds)) (fun t => taskKey backend t.createdAt t.id)
    (taskPosition backend cursor) (fun t => encodeTaskCursor t.id t.createdAt) limit

/-! ### Workflows -/

def AgentStatus.value : AgentStatus → String
  | registered => "registered"
  | active => "active"
  | unreachable => "unreachable"
  | suspended => "suspended"

def WorkflowStatus.value : WorkflowStatus → String
  | active => "active"
  | deprecated => "deprecated"

/-- `WorkflowStatus(value)`; `none` stands for the `ValueError`. -/
def WorkflowStatus.ofValue? (v : String) : Option WorkflowStatus :=
  [WorkflowStatus.active, .deprecated].find? (fun st => st.value = v)

def parseWorkflowStatus (text : String) : Except Failure WorkflowStatus :=
  match WorkflowStatus.ofValue? text with
  | some st => .ok st
  | none => .error (invalidFilter "status" text "Use 'active' or 'deprecated'.")

structure WorkflowQuery where
  status : Option String := none
  owner : Option String := none
  tag : Option String := none

/-- Without a status, the active workflows are listed. -/
def WorkflowQuery.parseStatus (q : WorkflowQuery) : Except Failure WorkflowStatus :=
  match q.status with
  | some text => parseWorkflowStatus text
  | none => .ok .active

open Sql.Expr in
/-- The conditions of the `WHERE` clause. The tag is bound as the text that `json.dumps` makes. -/
def WorkflowQuery.conditions (q : WorkflowQuery) : List Sql.Expr :=
  [apply .equal (value .enum) (value .enum)]
    ++ q.owner.toList.map (fun _ => apply .equal (value .varchar) (value .varchar))
    ++ q.tag.toList.map (fun _ => apply .contains (value .jsonb) (value .varchar))

/-- What the conditions say where they are resolved. -/
def WorkflowQuery.admits (q : WorkflowQuery) (status : WorkflowStatus) (w : Workflow) : Bool :=
  w.status = status && q.owner.all (fun owner => w.ownerAgentId = owner)

/-- A workflow with the status of its owner, where the owner still exists. -/
def withOwnerStatus (s : Store) (w : Workflow) : Workflow × Option String :=
  (w, (s.agents.find? w.ownerAgentId).map fun a => a.status.value)

def selectWorkflows (admits : Workflow → Bool) (s : Store) : List (Workflow × Option String) :=
  (s.workflows.rows.filter admits).map (withOwnerStatus s)

def workflowPosition (backend : Backend) (cursor : Option String) :
    Except Failure (Option backend.collation.Key) :=
  match cursor with
  | none => .ok none
  | some cursor => do
      let cursorId ← decodeCursor backend cursor
      bindText cursorId
      return some (backend.collation.key cursorId)

def listWorkflows (backend : Backend) (query : WorkflowQuery) (cursor : Option String) (limit : Nat) :
    Db (Page (Workflow × Option String) String) := do
  let status ← Db.ofExcept query.parseStatus
  Db.under query.conditions do
    Db.ofExcept (bindOptional query.owner)
    listPage (selectWorkflows (query.admits status)) (fun row => backend.collation.key row.1.id)
      (workflowPosition backend cursor) (fun row => encodeCursor row.1.id) limit

end Fleet.Api
