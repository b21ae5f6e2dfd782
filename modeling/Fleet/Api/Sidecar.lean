/- Executor-side event processing. -/
import Fleet.Api.Lifecycle

namespace Fleet.Api
open Fleet.Lib

def validEventTypes : List String :=
  ["status", "progress", "log", "completed", "failed", "heartbeat", "context_injected",
    "escalation"]

structure EventRequest where
  taskId : String
  eventType : String
  data : Dict
  sequence : Int
  executorAgentId : String

/-! ## Refusals -/

def invalidEventType (eventType : String) : FleetAPIError where
  kind := .inputValidation
  code := .invalidInput
  message := s!"Invalid event_type '{eventType}'."
  suggestion := some
    "Use one of: completed, context_injected, escalation, failed, heartbeat, log, progress, status."

def eventTaskNotFound (taskId : String) : FleetAPIError where
  kind := .notFound
  code := .taskNotFound
  message := s!"Task '{taskId}' not found."
  suggestion := some "Check the task ID."

def notExecutor (agentId taskId : String) : FleetAPIError where
  kind := .auth
  code := .notAuthorized
  message := s!"Agent '{agentId}' is not the executor of task '{taskId}'. Only the assigned executor can post events."
  suggestion := some "Authenticate as the task's executor agent."

def sequenceTooLow (sequence last : Int) (taskId : String) : FleetAPIError where
  kind := .inputValidation
  code := .invalidInput
  message := s!"Sequence {sequence} is not greater than the last sequence {last} for task '{taskId}'."
  suggestion := some "Use a sequence number greater than the previous event."

/-- The value as an f-string shows it; only strings are shown in full here. -/
def shown : Json → String
  | .str s => s
  | _ => "<value>"

def invalidStatus (status : Json) : FleetAPIError where
  kind := .inputValidation
  code := .invalidInput
  message := "Invalid status '" ++ shown status ++ "'."
  suggestion := some
    "Use one of: accepted, running, paused, completed, failed, cancelled, retasked, redirected."

def cannotTransition (task : Task) (target : String) : FleetAPIError where
  kind := .state
  code := .invalidStateTransition
  message := "Cannot transition task '" ++ task.id ++ "' from '" ++ task.status.value ++ "' to '"
    ++ target ++ "'."

def missingProgress : FleetAPIError where
  kind := .inputValidation
  code := .invalidInput
  message := "Progress event requires a 'progress' field in data."
  suggestion := some "Include 'progress' (0-100) in the event data payload."

/-! ## What an event does to the task -/

def moveTo (task : Task) (nowUtc : Time) (status : TaskStatus) : Except Failure Task :=
  match task.transitionTo nowUtc status with
  | .ok task' => .ok task'
  | .error _ => .error (.api (cannotTransition task status.value))

def onStatus (clk : Clock) (data : Dict) (task : Task) : Except Failure Task := do
  let requested := (data.get? "status").getD (.str "")
  match requested.str?.bind TaskStatus.ofValue? with
  | none => .error (.api (invalidStatus requested))
  | some status =>
      let task ← moveTo task clk.nowUtc status
      return { task with
        startedAt := if status = .running ∧ task.startedAt = none then some clk.now
          else task.startedAt }

/-- The quality keys reach the row only when the loaded metadata was null or
empty: otherwise the loaded object is changed in place, which the session does
not notice. -/
def qualityMetadata (data : Dict) (metadata : Option Dict) : Option Dict :=
  let fields := (["quality", "warnings"].filter (fun k => data.get k ≠ .null)).map
    fun k => (k, data.get k)
  if fields = [] then metadata
  else if metadata.getD [] = [] then some fields else metadata

def onCompleted (clk : Clock) (data : Dict) (task : Task) : Except Failure Task := do
  let task ← moveTo task clk.nowUtc .completed
  return { task with
    result := data.get "result"
    metadata := qualityMetadata data task.metadata }

def onFailed (clk : Clock) (data : Dict) (task : Task) : Except Failure Task := do
  let task ← moveTo task clk.nowUtc .failed
  return { task with
    result := .obj [("error_code", data.get "error_code"), ("message", data.get "message")] }

/-- As for the quality keys: progress reaches the row only when the loaded
metadata was null. -/
def onProgress (data : Dict) (task : Task) : Except Failure Task :=
  if !data.has "progress" then .error (.api missingProgress)
  else
    let message := if (data.get "message").truthy then [("progress_message", data.get "message")]
      else []
    let progress := [("progress", data.get "progress")] ++ message
    .ok { task with metadata := some (task.metadata.getD progress) }

/-- Log, heartbeat, context and escalation events change nothing. -/
def applyEvent (clk : Clock) (eventType : String) (data : Dict) (task : Task) :
    Except Failure Task :=
  if eventType = "status" then onStatus clk data task
  else if eventType = "completed" then onCompleted clk data task
  else if eventType = "failed" then onFailed clk data task
  else if eventType = "progress" then onProgress data task
  else .ok task

def sidecarEvent (clk : Clock) (req : EventRequest) : TaskEvent where
  taskId := req.taskId
  eventType := req.eventType
  data := some req.data
  sequence := req.sequence
  createdAt := clk.now

/-- The event, the task after it, and whether a callback was scheduled. -/
def processSidecarEvent (clk : Clock) (req : EventRequest) : Db (TaskEvent × Task × Bool) := do
  Db.ensure (req.eventType ∈ validEventTypes) (invalidEventType req.eventType)
  let task ← Db.fetch (fun s => s.tasks.find? req.taskId) (eventTaskNotFound req.taskId)
  Db.ensure (task.executorAgentId = some req.executorAgentId)
    (notExecutor req.executorAgentId req.taskId)
  let last ← Db.query (fun s => s.maxSequence req.taskId)
  Db.ensure (last < req.sequence) (sequenceTooLow req.sequence last req.taskId)
  let task' ← Db.ofExcept (applyEvent clk req.eventType req.data task)
  Db.commit { dirty := some (task, task'), newEvents := [sidecarEvent clk req] }
  let task' ← Db.refresh task'
  return (sidecarEvent clk req, task', isTerminal task'.status && task'.callbackUrl.isSome)

end Fleet.Api
