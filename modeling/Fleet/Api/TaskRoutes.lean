/- The task endpoints: what they call and what they answer. -/
import Fleet.Api.AuthErrors
import Fleet.Api.KeyExpiry
import Fleet.Api.ListRoutes

namespace Fleet.Api
open Fleet.Lib

/-- `a or b` for two optional strings: the empty string counts as absent. -/
def orKey (a b : Option String) : Option String :=
  match a with
  | some v => if v = "" then b else some v
  | none => b

/-! ## Request bodies -/

structure TaskRunRequest where
  input : Dict
  executor : Option String := none
  priority : String := "normal"
  timeoutSeconds : Option Int := none
  idempotencyKey : Option String := none
  metadata : Option Dict := none
  callbackUrl : Option String := none

structure TaskRetaskRequest where
  refinement : Refinement
  priority : Option String := none

structure TaskRedirectRequest where
  reason : String
  newInput : Dict
  inheritProgress : Bool := false
  priority : Option String := none

structure ContextInjectionRequest where
  contextType : String
  payload : Dict
  sequence : Int
  urgency : String := "normal"

structure TaskEventRequest where
  eventType : String
  data : Dict := []
  sequence : Int

/-! ### The arguments of the services -/

def TaskRunRequest.request (body : TaskRunRequest) (workflowId agentId : String) (header : Option String) :
    CreateRequest where
  workflowId
  callerAgentId := agentId
  input := body.input
  executorAgentId := body.executor
  priority := body.priority
  timeoutSeconds := body.timeoutSeconds
  idempotencyKey := orKey header body.idempotencyKey
  metadata := body.metadata
  callbackUrl := body.callbackUrl

def TaskRetaskRequest.request (body : TaskRetaskRequest) (workflowId taskId agentId : String)
    (header : Option String) : RetaskRequest where
  workflowId
  taskId
  callerAgentId := agentId
  refinement := body.refinement
  priority := body.priority
  idempotencyKey := header

def TaskRedirectRequest.request (body : TaskRedirectRequest) (workflowId taskId agentId : String)
    (header : Option String) : RedirectRequest where
  workflowId
  taskId
  callerAgentId := agentId
  reason := body.reason
  newInput := body.newInput
  inheritProgress := body.inheritProgress
  priority := body.priority
  idempotencyKey := header

def ContextInjectionRequest.request (body : ContextInjectionRequest) (workflowId taskId agentId : String) :
    ContextRequest where
  workflowId
  taskId
  callerAgentId := agentId
  contextType := body.contextType
  payload := body.payload
  sequence := body.sequence
  urgency := body.urgency

def TaskEventRequest.request (body : TaskEventRequest) (taskId agentId : String) : EventRequest where
  taskId
  eventType := body.eventType
  data := body.data
  sequence := body.sequence
  executorAgentId := agentId

/-! ## Responses -/

section responses
variable (env : Env)

def idempotencyBlock (task : Task) (key : String) (isReplay : Bool) : Json := .obj [
  ("key", .str key),
  ("status", .str (if isReplay then "replayed" else "created")),
  ("expires_at", .str (env.isoformat task.expiresAt))]

def buildTaskResponse (task : Task) (workflow : Workflow) (isReplay : Bool) (idempotencyKey : Option String) :
    Dict :=
  [ ("task_id", .str task.id),
    ("workflow_id", .str task.workflowId),
    ("status", .str task.status.value),
    ("caller", .str task.principalAgentId),
    ("executor", .ofOption task.executorAgentId),
    ("input", .obj task.input),
    ("priority", .str task.priority.value),
    ("timeout_seconds", (task.timeoutSeconds.map .num).getD .null),
    ("created_at", .str (env.isoformat task.createdAt)),
    ("estimated_duration_seconds", (workflow.estimatedDurationSeconds.map .num).getD .null),
    ("_links", .obj (buildTaskLinks task.id task.workflowId task.status)) ]
    ++ ((orKey idempotencyKey task.idempotencyKey).toList.map fun key =>
        ("idempotency", idempotencyBlock env task key isReplay))

def buildCancelLinks (taskId workflowId : String) : Dict := [
  ("self", hrefTo (taskPath workflowId taskId)),
  ("workflow", hrefTo ("/workflows/" ++ workflowId)),
  ("rerun", .obj [("method", .str "POST"), ("href", .str ("/workflows/" ++ workflowId ++ "/run"))])]

def cancelResponse (task : Task) (cancelledBy : String) (reason : Option String) : Dict := [
  ("task_id", .str task.id),
  ("workflow_id", .str task.workflowId),
  ("caller", .str task.principalAgentId),
  ("executor", .ofOption task.executorAgentId),
  ("status", .str task.status.value),
  ("input", .obj task.input),
  ("result", task.result),
  ("priority", .str task.priority.value),
  ("created_at", .str (env.isoformat task.createdAt)),
  ("completed_at", isoOrNull env task.completedAt),
  ("cancelled_at", isoOrNull env task.completedAt),
  ("cancelled_by", .str cancelledBy),
  ("reason", .ofOption reason),
  ("_links", .obj (buildCancelLinks task.id task.workflowId))]

def lineageBlock (next : Task) (chain : List String) : Json := .obj [
  ("depth", .num next.lineageDepth),
  ("root_task_id", .ofOption next.rootTaskId),
  ("chain", .arr (chain.map .str))]

/-- The links of a successor: its own under the workflow of the path, and one to the task
it continues. -/
def successorLinks (workflowId rel : String) (next old : Task) : Dict :=
  buildTaskLinks next.id workflowId next.status ++ [(rel, hrefTo (taskPath workflowId old.id))]

/-- The key a retask or a redirect was sent with. -/
def headerBlock (next : Task) (isReplay : Bool) (idempotencyKey : Option String) : Dict :=
  idempotencyKey.toList.map fun key => ("idempotency", idempotencyBlock env next key isReplay)

def retaskResponse (workflowId : String) (next old : Task) (isReplay : Bool) (chain : List String)
    (injectedCount : Nat) (idempotencyKey : Option String) : Dict :=
  [ ("task_id", .str next.id),
    ("parent_task_id", .ofOption next.parentTaskId),
    ("workflow_id", .str next.workflowId),
    ("status", .str next.status.value),
    ("caller", .str next.principalAgentId),
    ("executor", .ofOption next.executorAgentId),
    ("priority", .str next.priority.value),
    ("created_at", .str (env.isoformat next.createdAt)),
    ("lineage", lineageBlock next chain),
    ("inherited_context", .obj [
      ("original_input", .bool true),
      ("original_result", .bool (old.result ≠ .null)),
      ("injected_contexts", .num injectedCount)]),
    ("_links", .obj (successorLinks workflowId "parent" next old)) ]
    ++ headerBlock env next isReplay idempotencyKey

def redirectResponse (workflowId : String) (next old : Task) (isReplay : Bool) (chain : List String)
    (idempotencyKey : Option String) : Dict :=
  [ ("task_id", .str next.id),
    ("workflow_id", .str next.workflowId),
    ("status", .str next.status.value),
    ("redirected_from", .str old.id),
    ("lineage", lineageBlock next chain),
    ("caller", .str next.principalAgentId),
    ("executor", .ofOption next.executorAgentId),
    ("priority", .str next.priority.value),
    ("created_at", .str (env.isoformat next.createdAt)),
    ("_links", .obj (successorLinks workflowId "redirected_from" next old)) ]
    ++ headerBlock env next isReplay idempotencyKey

def pauseResponse (task : Task) : Dict :=
  let ttl := env.settings.fleetPauseTtlSeconds
  [ ("task_id", .str task.id),
    ("workflow_id", .str task.workflowId),
    ("status", .str task.status.value),
    ("paused_at", isoOrNull env task.pausedAt),
    ("paused_state", .obj [
      ("progress", metadataGet task "progress" (.num 0)),
      ("message", metadataGet task "progress_message" .null),
      ("resumable", .bool true),
      ("state_ttl_seconds", .num ttl),
      ("expires_at", isoOrNull env (task.pausedAt.map (· + ttl * 1000000)))]),
    ("_links", .obj (buildTaskLinks task.id task.workflowId task.status)) ]

def resumeResponse (task : Task) (event : TaskEvent) : Dict := [
  ("task_id", .str task.id),
  ("workflow_id", .str task.workflowId),
  ("status", .str task.status.value),
  ("resumed_at", .str (env.isoformat event.createdAt)),
  ("paused_duration_seconds", (event.dataD.get? "paused_duration_seconds").getD (.num 0)),
  ("progress", metadataGet task "progress" (.num 0)),
  ("_links", .obj (buildTaskLinks task.id task.workflowId task.status))]

/-- `eventId` is the number that the database gave the row of the event. -/
def eventResponse (eventId : Int) (event : TaskEvent) (task : Task) : Dict := [
  ("received", .bool true),
  ("event_id", .num eventId),
  ("task_id", .str task.id),
  ("event_type", .str event.eventType),
  ("sequence", .num event.sequence),
  ("created_at", .str (env.isoformat event.createdAt)),
  ("_links", .obj [
    ("task", hrefTo (taskPath task.workflowId task.id)),
    ("events", hrefTo ("/tasks/" ++ task.id ++ "/events"))])]

end responses

/-! ## Handlers -/

section handlers
variable (env : Env)

def getTask (workflowId taskId : String) : Db Task := do
  let _ ← getWorkflowOr404 workflowId
  Db.fetch (fun s => (s.tasks.find? taskId).filter (fun t => t.workflowId = workflowId)) {
    kind := .notFound
    code := .taskNotFound
    message := s!"Task '{taskId}' not found in workflow '{workflowId}'."
    suggestion := some "Check the task ID. Use GET /workflows/\x7bworkflow_id\x7d/tasks to list tasks."
    links := [("tasks", hrefTo ("/workflows/" ++ workflowId ++ "/tasks"))] }

def runTaskEndpoint (clk : Clock) (hex workflowId agentId : String) (body : TaskRunRequest)
    (header : Option String) : Db HttpResponse := do
  let (task, workflow, isReplay) ← createTask env clk hex (body.request workflowId agentId header)
  return {
    statusCode := if isReplay then 200 else 202
    content := buildTaskResponse env task workflow isReplay (orKey header body.idempotencyKey) }

def getTaskEndpoint (workflowId taskId : String) : Db HttpResponse := do
  return { statusCode := 200, content := taskToDetailResponse env (← getTask workflowId taskId) }

def cancelTaskEndpoint (clk : Clock) (workflowId taskId agentId : String) (reason : Option String) :
    Db HttpResponse := do
  let task ← cancelTask clk workflowId taskId agentId reason
  return { statusCode := 200, content := cancelResponse env task agentId reason }

def retaskTaskEndpoint (clk : Clock) (hex workflowId taskId agentId : String) (body : TaskRetaskRequest)
    (header : Option String) : Db HttpResponse := do
  let (next, old, isReplay) ← retaskTask env clk hex (body.request workflowId taskId agentId header)
  let chain ← buildLineageChain next
  let injectedCount ← countContextInjections old.id
  return {
    statusCode := if isReplay then 200 else 201
    content := retaskResponse env workflowId next old isReplay chain injectedCount header }

def redirectTaskEndpoint (clk : Clock) (hex workflowId taskId agentId : String) (body : TaskRedirectRequest)
    (header : Option String) : Db HttpResponse := do
  let (next, old, isReplay) ← redirectTask env clk hex (body.request workflowId taskId agentId header)
  let chain ← buildLineageChain next
  return {
    statusCode := if isReplay then 200 else 201
    content := redirectResponse env workflowId next old isReplay chain header }

def pauseTaskEndpoint (clk : Clock) (workflowId taskId agentId : String) (reason : Option String) :
    Db HttpResponse := do
  let (task, _) ← pauseTask env clk workflowId taskId agentId reason
  return { statusCode := 200, content := pauseResponse env task }

def resumeTaskEndpoint (clk : Clock) (workflowId taskId agentId : String) (priority : Option String) :
    Db HttpResponse := do
  let (task, event) ← resumeTask env clk workflowId taskId agentId priority
  return { statusCode := 200, content := resumeResponse env task event }

def injectContextEndpoint (clk : Clock) (hex workflowId taskId agentId : String)
    (body : ContextInjectionRequest) : Db HttpResponse := do
  let result ← injectContext env clk hex (body.request workflowId taskId agentId)
  return { statusCode := 202, content := result }

def postTaskEvent (clk : Clock) (eventId : Int) (taskId agentId : String) (body : TaskEventRequest) :
    Db HttpResponse := do
  let (event, task, _) ← processSidecarEvent clk (body.request taskId agentId)
  return { statusCode := 201, content := eventResponse env eventId event task }

end handlers
end Fleet.Api
