/- Task creation, the idempotency check and the queries the sidecar polls. -/
import Mathlib.Data.List.Sort
import Fleet.Api.Store

namespace Fleet.Api
open Fleet.Lib

/-- `jsonschema.validate(instance, schema)`: no answer, `ValidationError` or `SchemaError`. -/
inductive SchemaVerdict where
  | conforms
  | invalid (message : String)
  | badSchema (message : String)

structure Settings where
  fleetLineageMaxDepth : Nat
  fleetPauseTtlSeconds : Int

/-- The configuration and the library functions the operations call: the
SHA-256 digest of the key-sorted JSON text of an input, the schema validator and
`datetime.isoformat`. -/
structure Env where
  settings : Settings
  inputDigest : Dict → String
  validateSchema : Dict → Dict → SchemaVerdict
  isoformat : Time → String

def newTaskId (hex : String) : String := "task-" ++ hex

theorem newTaskId_ne_empty (hex : String) : newTaskId hex ≠ "" := by
  intro empty
  have := congrArg String.length empty
  simp [newTaskId, String.length_append] at this

/-- `a or b` for an optional string: the empty string counts as absent. -/
def orElse (a : Option String) (b : String) : String :=
  match a with
  | some v => if v = "" then b else v
  | none => b

/-- `a or b` for an optional number: zero counts as absent. -/
def orElseInt (a b : Option Int) : Option Int :=
  match a with
  | some n => if n = 0 then b else some n
  | none => b

def invalidPriority (priority : String) : FleetAPIError where
  kind := .inputValidation
  code := .invalidInput
  message := s!"Invalid priority '{priority}'. Must be one of: low, normal, high, critical."
  suggestion := some "Use one of: low, normal, high, critical."

def parsePriority (priority : String) : Except Failure TaskPriority :=
  match TaskPriority.ofValue? priority with
  | some p => .ok p
  | none => .error (.api (invalidPriority priority))

theorem parsePriority_error {priority : String} {e : Failure}
    (h : parsePriority priority = .error e) : e.isPauseTimeout = false := by
  unfold parsePriority at h
  split at h <;> cases h
  rfl

/-! ## Idempotency -/

def idempotencyMismatch (key : String) : FleetAPIError where
  kind := .inputValidation
  code := .idempotencyMismatch
  message := s!"Idempotency key '{key}' was already used with different input."
  suggestion :=
    some "Use a new idempotency key for different input, or resend the original input."

def checkIdempotency (env : Env) (key : String) (input : Dict) : Db (Option Task) := do
  match ← Db.query (fun s => s.byIdempotencyKey? key) with
  | none => return none
  | some existing =>
      Db.ensure (env.inputDigest existing.input = env.inputDigest input) (idempotencyMismatch key)
      return some existing

/-- The check is skipped when the request carries no key. -/
def replayOf (env : Env) (key : Option String) (input : Dict) : Db (Option Task) :=
  match key with
  | none => pure none
  | some key => checkIdempotency env key input

/-! ## Creation -/

def getWorkflowOr404 (workflowId : String) : Db Workflow :=
  Db.fetch (fun s => s.workflows.find? workflowId) {
    kind := .notFound
    code := .workflowNotFound
    message := s!"Workflow '{workflowId}' not found."
    suggestion := some "Check the workflow ID. Use GET /workflows to list available workflows."
    links := [("workflows", .str "/workflows")] }

def validateInput (env : Env) (input : Dict) (schema : Option Dict) : Except Failure Unit :=
  match schema with
  | none => .ok ()
  | some schema =>
      match env.validateSchema input schema with
      | .conforms => .ok ()
      | .invalid message => .error (.api {
          kind := .inputValidation
          code := .invalidInput
          message := s!"Input validation failed: {message}"
          suggestion := some "Check the input against the workflow's input_schema."
          links := [("workflow_schema", .str "/workflows")] })
      | .badSchema message => .error (.schema message)

theorem validateInput_error {env : Env} {input : Dict} {schema : Option Dict} {e : Failure}
    (h : validateInput env input schema = .error e) : e.isPauseTimeout = false := by
  unfold validateInput at h
  split at h
  · cases h
  · split at h <;> cases h <;> rfl

def checkAgentNotSuspended (agentId : String) : Db Unit := do
  let agent ← Db.query (fun s => s.agents.find? agentId)
  Db.ensure (agent.all (fun a => a.status ≠ .suspended) = true) {
    kind := .infrastructure
    code := .agentSuspended
    message := s!"Executor agent '{agentId}' is suspended."
    suggestion := some "The executor agent is currently unavailable. Try again later." }

structure CreateRequest where
  workflowId : String
  callerAgentId : String
  input : Dict
  executorAgentId : Option String := none
  priority : String := "normal"
  timeoutSeconds : Option Int := none
  idempotencyKey : Option String := none
  metadata : Option Dict := none
  callbackUrl : Option String := none

/-- The first event of every task. -/
def createdEvent (taskId caller : String) (origin : Dict) (now : Time) : TaskEvent where
  taskId := taskId
  eventType := "created"
  data := some ([("status", .str "accepted"), ("caller", .str caller)] ++ origin)
  sequence := 1
  createdAt := now

@[simp] theorem createdEvent_taskId (taskId caller : String) (origin : Dict) (now : Time) :
    (createdEvent taskId caller origin now).taskId = taskId := rfl

/-- The creation of a task, by the statements that it reads the store with. -/
def createTaskWith (replay : Db (Option Task)) (getWorkflow : Db Workflow) (checkAgent : String → Db Unit)
    (env : Env) (clk : Clock) (hex : String) (req : CreateRequest) : Db (Task × Workflow × Bool) := do
  match ← replay with
  | some existing =>
      let workflow ← getWorkflow
      return (existing, workflow, true)
  | none =>
      let workflow ← getWorkflow
      let executor := orElse req.executorAgentId workflow.ownerAgentId
      checkAgent executor
      Db.ofExcept (validateInput env req.input workflow.inputSchema)
      let priority ← Db.ofExcept (parsePriority req.priority)
      let task : Task := {
        id := newTaskId hex
        workflowId := req.workflowId
        principalAgentId := req.callerAgentId
        executorAgentId := some executor
        status := .accepted
        input := req.input
        result := .null
        priority := priority
        timeoutSeconds := orElseInt req.timeoutSeconds workflow.timeoutSeconds
        parentTaskId := none
        rootTaskId := none
        lineageDepth := 0
        delegationDepth := 0
        callbackUrl := req.callbackUrl
        idempotencyKey := req.idempotencyKey
        createdAt := clk.now
        startedAt := none
        completedAt := none
        pausedAt := none
        metadata := req.metadata }
      Db.commit {
        newTask := some task
        newEvents := [createdEvent task.id req.callerAgentId [] clk.now] }
      let task ← Db.refresh task
      return (task, workflow, false)

/-- Where the database takes every text as a parameter. -/
def createTask (env : Env) (clk : Clock) (hex : String) (req : CreateRequest) : Db (Task × Workflow × Bool) :=
  createTaskWith (replayOf env req.idempotencyKey req.input) (getWorkflowOr404 req.workflowId)
    checkAgentNotSuspended env clk hex req

/-! ## Pending tasks and signals -/

/-- The sort weight of the pending query, higher first. -/
def priorityOrder : TaskPriority → Nat
  | .critical => 4
  | .high => 3
  | .normal => 2
  | .low => 1

/-- The agent's accepted tasks by priority, then by age, as the clauses of the
pending query say it. -/
def pendingTasks (s : Store) (agentId : String) : List Task :=
  (s.tasks.rows.filter (fun t => t.executorAgentId = some agentId ∧ t.status = .accepted)).insertionSort
    fun a b => priorityOrder b.priority < priorityOrder a.priority ∨
      (priorityOrder a.priority = priorityOrder b.priority ∧ a.createdAt ≤ b.createdAt)

/-- One element of the `signals` array. -/
structure SignalItem where
  taskId : String
  signalType : String
  timestamp : String
  payload : Option Dict
  deriving DecidableEq

def signalEventTypes : List String := ["pause_requested", "resume_requested", "context_injected"]

def activeStatuses : List TaskStatus := [.running, .paused]

def isActiveFor (agentId : String) (t : Task) : Bool :=
  t.executorAgentId = some agentId && t.status ∈ activeStatuses

def activeTaskIds (s : Store) (agentId : String) : List String :=
  (s.tasks.rows.filter (isActiveFor agentId)).map Task.id

/-- The signal events of the active tasks, oldest first. Rows of one instant
keep the order in which they were stored. -/
def signalEvents (s : Store) (ids : List String) : List TaskEvent :=
  (s.events.rows.filter (fun e => e.taskId ∈ ids ∧ e.eventType ∈ signalEventTypes)).insertionSort
    fun a b => a.createdAt ≤ b.createdAt

/-- An event without data, or with empty data, carries no payload. -/
def eventSignal (env : Env) (e : TaskEvent) : SignalItem where
  taskId := e.taskId
  signalType := e.eventType
  timestamp := env.isoformat e.createdAt
  payload := if e.dataD = [] then none else e.data

/-- The conditions on the rows that were terminated of late. `literal(60).op(…)` is not
applied to an operand: it remains a function, which is bound as a value of the type that
`func.now()` has in SQLAlchemy. -/
def recentlyTerminatedConditions : List Sql.Expr := [
  .apply .equal (.value .varchar) (.value .varchar),
  .apply .equal (.value .enum) (.value .enum),
  .isNotNull (.value .timestamptz),
  .apply .atLeast (.value .timestamptz) (.apply .minus (.value .timestamptz) (.value .timestamp))]

/-- The rows by the first three conditions, as the last one has no value. -/
def isTerminatedFor (agentId : String) (t : Task) : Bool :=
  t.executorAgentId = some agentId && (t.status = .cancelled || t.status = .redirected)
    && t.completedAt.isSome

/-- A cancelled or redirected task is reported by its status, not by an event. -/
def stopSignal (env : Env) (t : Task) : SignalItem where
  taskId := t.id
  signalType := if t.status = .cancelled then "cancel_requested" else "redirect_requested"
  timestamp := (t.completedAt.map env.isoformat).getD ""
  payload := none

def getPendingSignals (env : Env) (agentId : String) : Db (List SignalItem) := do
  let ids ← Db.query (fun s => activeTaskIds s agentId)
  if ids = [] then return []
  let signals ← Db.query (fun s => (signalEvents s ids).map (eventSignal env))
  let terminated ← Db.select recentlyTerminatedConditions fun s => s.tasks.rows.filter (isTerminatedFor agentId)
  return signals ++ terminated.map (stopSignal env)

/-! ## Preconditions of the statements -/

section wp
variable {G : Store → Store → Prop} {R : Store → Work → Prop} {s : Store} (env : Env)

@[simp] theorem wp_replayOf (key : Option String) (input : Dict)
    (Q : Except Failure (Option Task) → Store → Prop) :
    (replayOf env key input).wp Store.flush G R Q s ↔
      (key = none → Q (.ok none) s) ∧
      ∀ k, key = some k → ∀ s', G s s' →
        (s'.byIdempotencyKey? k = none → Q (.ok none) s') ∧
        ∀ t, s'.byIdempotencyKey? k = some t →
          (env.inputDigest t.input = env.inputDigest input → Q (.ok (some t)) s') ∧
          (env.inputDigest t.input ≠ env.inputDigest input →
            Q (.error (.api (idempotencyMismatch k))) s') := by
  cases key with
  | none => simp [replayOf]
  | some k =>
      simp only [replayOf, checkIdempotency, Prog.wp_bind, Db.wp_query, reduceCtorEq,
        IsEmpty.forall_iff, Option.some.injEq, true_and, forall_eq']
      refine forall_congr' fun s' => imp_congr_right fun _ => ?_
      cases s'.byIdempotencyKey? k with
      | none => simp
      | some t => simp

end wp
end Fleet.Api
