/- The sidecar's data models and their validation. -/
import Fleet.Lib.Json

namespace Fleet.Agent
open Fleet.Lib

inductive SignalType where
  | pauseRequested | resumeRequested | cancelRequested | redirectRequested | contextInjection
  deriving DecidableEq, Repr

namespace SignalType

def value : SignalType → String
  | pauseRequested => "pause_requested"
  | resumeRequested => "resume_requested"
  | cancelRequested => "cancel_requested"
  | redirectRequested => "redirect_requested"
  | contextInjection => "context_injection"

def all : List SignalType :=
  [pauseRequested, resumeRequested, cancelRequested, redirectRequested, contextInjection]

def ofValue? (v : String) : Option SignalType := all.find? (fun t => t.value = v)

@[simp] theorem ofValue?_value (t : SignalType) : ofValue? t.value = some t := by
  cases t <;> decide

def stops : SignalType → Bool
  | cancelRequested | redirectRequested => true
  | pauseRequested | resumeRequested | contextInjection => false

end SignalType

structure Signal where
  taskId : String
  signalType : SignalType
  timestamp : String
  payload : Option Dict
  deriving DecidableEq

/-- A field typed `dict | None` with default `None`; the outer `none` is the
`ValidationError`. -/
def optionalDict : Option Json → Option (Option Dict)
  | none | some .null => some none
  | some (.obj d) => some (some d)
  | some _ => none

/-- `Signal.model_validate`; unknown keys are ignored, `none` stands for the
`ValidationError`. -/
def Signal.modelValidate : Json → Option Signal
  | .obj d => do
      let taskId ← (Dict.get? d "task_id").bind Json.str?
      let signalType ← ((Dict.get? d "signal_type").bind Json.str?).bind SignalType.ofValue?
      let timestamp ← (Dict.get? d "timestamp").bind Json.str?
      let payload ← optionalDict (Dict.get? d "payload")
      return { taskId, signalType, timestamp, payload }
  | _ => none

/-- An event on its way from the sidecar to the service. -/
structure TaskEvent where
  eventType : String
  data : Option Dict
  sequence : Int
  deriving DecidableEq

/-- A task retrieved from the service, awaiting local execution. -/
structure PendingTask where
  taskId : String
  workflowId : String
  input : Dict
  priority : String
  timeoutSeconds : Option Int
  createdAt : String

end Fleet.Agent
