/- Error codes, the exception hierarchy and the HTTP status each answer carries. -/
import Fleet.Lib.Json

namespace Fleet.Api
open Fleet.Lib

inductive ErrorCode where
  | endpointNotFound | workflowNotFound | taskNotFound
  | invalidSignature | agentNotRegistered | timestampExpired | notAuthorized
  | workflowExists | agentExists
  | invalidInput | idempotencyMismatch
  | rateLimited
  | executionTimeout | executionFailed
  | executorUnreachable | agentSuspended
  | badGateway
  | deprecatedPath
  | invalidStateTransition | taskNotPausable | taskNotPaused | pauseTimeout | contextRejected
  | retaskNotReviewable | retaskDepthExceeded | redirectNotPossible
  deriving DecidableEq, Repr

def ErrorCode.value : ErrorCode → String
  | endpointNotFound => "ENDPOINT_NOT_FOUND"
  | workflowNotFound => "WORKFLOW_NOT_FOUND"
  | taskNotFound => "TASK_NOT_FOUND"
  | invalidSignature => "INVALID_SIGNATURE"
  | agentNotRegistered => "AGENT_NOT_REGISTERED"
  | timestampExpired => "TIMESTAMP_EXPIRED"
  | notAuthorized => "NOT_AUTHORIZED"
  | workflowExists => "WORKFLOW_EXISTS"
  | agentExists => "AGENT_EXISTS"
  | invalidInput => "INVALID_INPUT"
  | idempotencyMismatch => "IDEMPOTENCY_MISMATCH"
  | rateLimited => "RATE_LIMITED"
  | executionTimeout => "EXECUTION_TIMEOUT"
  | executionFailed => "EXECUTION_FAILED"
  | executorUnreachable => "EXECUTOR_UNREACHABLE"
  | agentSuspended => "AGENT_SUSPENDED"
  | badGateway => "BAD_GATEWAY"
  | deprecatedPath => "DEPRECATED_PATH"
  | invalidStateTransition => "INVALID_STATE_TRANSITION"
  | taskNotPausable => "TASK_NOT_PAUSABLE"
  | taskNotPaused => "TASK_NOT_PAUSED"
  | pauseTimeout => "PAUSE_TIMEOUT"
  | contextRejected => "CONTEXT_REJECTED"
  | retaskNotReviewable => "RETASK_NOT_REVIEWABLE"
  | retaskDepthExceeded => "RETASK_DEPTH_EXCEEDED"
  | redirectNotPossible => "REDIRECT_NOT_POSSIBLE"

/-- `ERROR_STATUS_CODES`. -/
def ErrorCode.httpStatus : ErrorCode → Nat
  | endpointNotFound | workflowNotFound | taskNotFound => 404
  | invalidSignature | agentNotRegistered | timestampExpired => 401
  | notAuthorized => 403
  | workflowExists | agentExists => 409
  | invalidInput | idempotencyMismatch => 422
  | rateLimited => 429
  | executionTimeout => 504
  | executionFailed => 500
  | executorUnreachable | agentSuspended => 503
  | badGateway => 502
  | deprecatedPath => 301
  | invalidStateTransition | taskNotPausable | taskNotPaused => 409
  | pauseTimeout => 408
  | contextRejected | retaskNotReviewable => 409
  | retaskDepthExceeded => 422
  | redirectNotPossible => 409

/-- The subclasses of `FleetAPIError`. -/
inductive ErrorKind where
  | notFound | auth | conflict | inputValidation | state | infrastructure
  deriving DecidableEq, Repr

structure FleetAPIError where
  kind : ErrorKind
  code : ErrorCode
  message : String
  suggestion : Option String := none
  links : Dict := []
  deriving DecidableEq

/-- The flat error format. -/
def FleetAPIError.toDict (e : FleetAPIError) : Dict :=
  [("error", .bool true), ("code", .str e.code.value), ("message", .str e.message)] ++
    (match e.suggestion with
      | some suggestion => if suggestion = "" then [] else [("suggestion", .str suggestion)]
      | none => []) ++
    if e.links = [] then [] else [("_links", .obj e.links)]

theorem FleetAPIError.toDict_code (e : FleetAPIError) :
    e.toDict.get? "code" = some (.str e.code.value) := rfl

/-- Errors the database raises: at a commit, and for a statement that it cannot run. -/
inductive DbError where
  | duplicateTaskId | duplicateIdempotencyKey | duplicateSequence | foreignKey | valueOutOfRange
  | undefinedOperator | invalidText
  deriving DecidableEq, Repr

/-- Whatever ends a request early: an error of the API, of the database, of the schema
library, or a Python `TypeError` or `ValueError`. -/
inductive Failure where
  | api (e : FleetAPIError)
  | db (e : DbError)
  | schema (message : String)
  | python (message : String)
  deriving DecidableEq

/-- Every failure outside the hierarchy reaches the catch-all handler. -/
def Failure.httpStatus : Failure → Nat
  | .api e => e.code.httpStatus
  | .db _ | .schema _ | .python _ => ErrorCode.executionFailed.httpStatus

def Failure.code? : Failure → Option ErrorCode
  | .api e => some e.code
  | .db _ | .schema _ | .python _ => none

def Failure.isPauseTimeout (f : Failure) : Bool := f.code? = some .pauseTimeout

end Fleet.Api
