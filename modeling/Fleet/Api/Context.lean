/- Context injection: counting, the context sequence, and the injection itself. -/
import Mathlib.Algebra.Ring.Int.Defs
import Fleet.Lib.Lines
import Fleet.Api.Lifecycle

namespace Fleet.Api
open Fleet.Lib

def contextEvents (s : Store) (taskId : String) : List TaskEvent :=
  (s.eventsOf taskId).filter (fun e => e.eventType = "context_injected")

def countContextInjections (taskId : String) : Db Nat :=
  Db.query fun s => (contextEvents s taskId).length

/-- `order_by(created_at.desc()).limit(1)`; among rows of one instant the one
stored last. -/
def latest : List TaskEvent → Option TaskEvent
  | [] => none
  | e :: es =>
      match latest es with
      | none => some e
      | some l => if l.createdAt < e.createdAt then some e else some l

/-! ## The number a value says -/

/-- The zero of each script's decimal digits. -/
def decimalZeros : List Nat := [
  0x30, 0x660, 0x6F0, 0x7C0, 0x966, 0x9E6, 0xA66, 0xAE6, 0xB66, 0xBE6, 0xC66, 0xCE6, 0xD66, 0xDE6, 0xE50,
  0xED0, 0xF20, 0x1040, 0x1090, 0x17E0, 0x1810, 0x1946, 0x19D0, 0x1A80, 0x1A90, 0x1B50, 0x1BB0, 0x1C40,
  0x1C50, 0xA620, 0xA8D0, 0xA900, 0xA9D0, 0xA9F0, 0xAA50, 0xABF0, 0xFF10, 0x104A0, 0x10D30, 0x11066,
  0x110F0, 0x11136, 0x111D0, 0x112F0, 0x11450, 0x114D0, 0x11650, 0x116C0, 0x11730, 0x118E0, 0x11950,
  0x11C50, 0x11D50, 0x11DA0, 0x11F50, 0x16A60, 0x16AC0, 0x16B50, 0x1D7CE, 0x1D7D8, 0x1D7E2, 0x1D7EC,
  0x1D7F6, 0x1E140, 0x1E2F0, 0x1E4F0, 0x1E950, 0x1FBF0]

def digit? (c : Char) : Option Nat :=
  (decimalZeros.find? fun first => first ≤ c.toNat && c.toNat < first + 10).map fun first => c.toNat - first

/-- Digits, and single underscores between them. -/
def digits? : List Char → Option (List Nat)
  | [] => none
  | [c] => (digit? c).map fun d => [d]
  | c :: '_' :: rest => do return (← digit? c) :: (← digits? rest)
  | c :: rest => do return (← digit? c) :: (← digits? rest)

/-- The separators 28 to 31 are no blanks here. -/
def intBlank (c : Char) : Bool := isSpace c && !(28 ≤ c.toNat && c.toNat ≤ 31)

/-- `int(text)`, with the limit of a process on the number of digits. -/
def intOfText (text : String) : Option Int := do
  let body := ((text.toList.dropWhile intBlank).reverse.dropWhile intBlank).reverse
  let digits ← digits? (match body with
    | '+' :: rest | '-' :: rest | rest => rest)
  let magnitude : Nat := digits.foldl (fun n d => 10 * n + d) 0
  if 4300 < digits.length then none
  else if body.head? = some '-' then some (-(magnitude : Int)) else some magnitude

example : intOfText " -1_0" = some (-10) := by decide

/-- `int(value)`. -/
def toInt (value : Json) : Except Failure Int :=
  match value with
  | .num n => .ok n
  | .bool b => .ok (if b then 1 else 0)
  | .real m e => .ok (if 0 ≤ e then m * 10 ^ e.toNat else m.tdiv (10 ^ (-e).toNat))
  | .str s =>
      match intOfText s with
      | some n => .ok n
      | none => .error (.python "ValueError: invalid literal for int()")
  | .null | .arr _ | .obj _ =>
      .error (.python "TypeError: int() argument must be a string or a number")

theorem toInt_error {value : Json} {e : Failure} (h : toInt value = .error e) :
    e.isPauseTimeout = false := by
  unfold toInt at h
  split at h <;> try (cases h; try rfl)
  split at h <;> cases h
  rfl

def getMaxContextSequence (taskId : String) : Db Int := do
  let row ← Db.query (fun s => latest (contextEvents s taskId))
  match row.bind TaskEvent.data with
  | none => return 0
  | some data => Db.ofExcept (toInt ((data.get? "context_sequence").getD (.num 0)))

def contextInjectableStatuses : List TaskStatus := [.running, .paused]

def notInjectable (task : Task) : FleetAPIError where
  kind := .state
  code := .contextRejected
  message := "Context injection rejected for task '" ++ task.id ++ "'. Current status: '"
    ++ task.status.value ++ "'. Context can only be injected when task status is: paused, running."

def outOfSequence (taskId : String) (sequence last : Int) : FleetAPIError where
  kind := .state
  code := .contextRejected
  message := s!"Out-of-sequence context injection for task '{taskId}'. Received sequence {sequence}, but last accepted context sequence is {last}. Sequence must be strictly greater than {last}."

structure ContextRequest where
  workflowId : String
  taskId : String
  callerAgentId : String
  contextType : String
  payload : Dict
  sequence : Int
  urgency : String := "normal"

/-- The payload of a `context_injected` event written by the principal side. -/
def injectionData (req : ContextRequest) (contextId : String) : Dict :=
  [ ("context_id", .str contextId),
    ("context_type", .str req.contextType),
    ("context_sequence", .num req.sequence),
    ("payload", .obj req.payload),
    ("urgency", .str req.urgency),
    ("injected_by", .str req.callerAgentId) ]

def injectionEvent (clk : Clock) (hex : String) (req : ContextRequest) (taskId : String)
    (last : Int) : TaskEvent where
  taskId := taskId
  eventType := "context_injected"
  data := some (injectionData req ("ctx-" ++ hex))
  sequence := last + 1
  createdAt := clk.now

def contextLinks (workflowId taskId : String) : Dict :=
  [ ("task", .obj [("href", .str s!"/workflows/{workflowId}/tasks/{taskId}")]),
    ("stream", .obj [("href", .str s!"/workflows/{workflowId}/tasks/{taskId}/stream")]),
    ("workflow", .obj [("href", .str s!"/workflows/{workflowId}")]) ]

def injectContext (env : Env) (clk : Clock) (hex : String) (req : ContextRequest) : Db Dict := do
  let task ← authorized req.workflowId req.taskId req.callerAgentId "inject context"
  Db.ensure (task.status ∈ contextInjectableStatuses) (notInjectable task)
  let lastContext ← getMaxContextSequence req.taskId
  Db.ensure (lastContext < req.sequence) (outOfSequence req.taskId req.sequence lastContext)
  let last ← Db.query (fun s => s.maxSequence task.id)
  Db.commit { newEvents := [injectionEvent clk hex req task.id last] }
  return [
    ("context_id", .str ("ctx-" ++ hex)),
    ("task_id", .str req.taskId),
    ("context_type", .str req.contextType),
    ("sequence", .num req.sequence),
    ("status", .str "accepted"),
    ("accepted_at", .str (env.isoformat clk.now)),
    ("_links", .obj (contextLinks req.workflowId req.taskId))]

section wp
variable {G : Store → Store → Prop} {R : Store → Work → Prop} {s : Store}

theorem wp_getMaxContextSequence {taskId : String} {Q : Except Failure Int → Store → Prop}
    (h : ∀ s', G s s' → ∀ r, (∀ e, r = .error e → e.isPauseTimeout = false) → Q r s') :
    (getMaxContextSequence taskId).wp Store.flush G R Q s := by
  simp only [getMaxContextSequence, Prog.wp_bind, Db.wp_query]
  intro s' rely
  cases (latest (contextEvents s' taskId)).bind TaskEvent.data with
  | none => exact h s' rely _ fun e impossible => by cases impossible
  | some data => exact h s' rely _ fun e raised => toInt_error raised

end wp
end Fleet.Api
