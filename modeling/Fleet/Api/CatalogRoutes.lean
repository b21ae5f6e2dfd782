/- The agent and the workflow endpoints: what they call and what they answer. -/
import Fleet.Api.TaskRoutes
import Fleet.Api.Registration
import Fleet.Api.Workflows
import Fleet.Api.PendingQuery

namespace Fleet.Api
open Fleet.Lib

/-! ## Agents -/

/-- A commit to the table of the agents; `mark` is the bulk update of a sweep. -/
inductive AgentWork where
  | insert (agent : Agent)
  | heartbeat (loaded : Agent) (now : Time)
  | mark (staleIds : List String)

namespace Store

def flushAgent (w : AgentWork) (s : Store) : Except CatalogFailure Store :=
  match w with
  | .insert agent =>
      if !agent.fits then .error .valueOutOfRange
      else
        match s.agents.insert? agent with
        | some agents => .ok { s with agents }
        | none => .error .duplicateKey
  | .heartbeat loaded now =>
      match s.agents.find? loaded.id with
      | none => .error .staleRow
      | some _ => .ok (commitHeartbeat s loaded now)
  | .mark staleIds => .ok (markUnreachable s (markable s staleIds))

end Store

abbrev Agents := Prog Store AgentWork CatalogFailure

namespace Agents
variable {α : Type}

def raise (e : FleetAPIError) : Agents α := Prog.raise (.raised (.api e))

def get (agentId : String) : Agents (Option Agent) := .read fun s => pure (s.agents.find? agentId)

def commit (w : AgentWork) : Agents Unit := Prog.commit w (pure ())

def refresh (agent : Agent) : Agents Agent := do
  return (← get agent.id).getD agent

end Agents

def registerAgent (now : Time) (body : RegisterAgentRequest) : Agents Agent := do
  Agents.commit (.insert (body.row now))
  Agents.refresh (body.row now)

def heartbeat (now : Time) (agentId : String) : Agents (Option Agent) := do
  match ← Agents.get agentId with
  | none => return none
  | some agent =>
      Agents.commit (.heartbeat agent now)
      return some (← Agents.refresh (agent.heartbeat now))

def sweep (timeoutSeconds : Int) (now : Time) : Agents Unit := do
  let ids ← Prog.read fun s => pure (staleIds s (now - timeoutSeconds * 1000000))
  if ids = [] then return ()
  Agents.commit (.mark ids)

/-! ### Responses -/

def link (href method : String) : Json := .obj [("href", .str href), ("method", .str method)]

def agentLinks (agentId : String) : Dict := [
  ("self", link ("/agents/" ++ agentId) "GET"),
  ("heartbeat", link ("/agents/" ++ agentId ++ "/heartbeat") "POST"),
  ("workflows", link "/workflows" "GET")]

def onboardingStep (step : Int) (action endpoint hint : String) : Json := .obj [
  ("step", .num step),
  ("action", .str action),
  ("endpoint", .str endpoint),
  ("hint", .str hint)]

def onboardingSteps (agentId : String) : List Json := [
  onboardingStep 1 "Send your first heartbeat to activate the agent" ("/agents/" ++ agentId ++ "/heartbeat")
    "POST with a signed request to transition from registered to active",
  onboardingStep 2 "Register a workflow" "/workflows" "POST a workflow definition to begin accepting tasks",
  onboardingStep 3 "Check the manifest for available endpoints" "/manifest"
    "GET /manifest returns the full API surface"]

def stringsJson (values : Option (List String)) : Json := (values.map fun v => .arr (v.map .str)).getD .null

section responses
-- `dump` is `model_dump(mode="json")` of a `datetime`
variable (dump : Time → String)

def agentFields (agent : Agent) : Dict := [
  ("agent_id", .str agent.id),
  ("display_name", .ofOption agent.displayName),
  ("public_key", .str agent.publicKey),
  ("capabilities", stringsJson agent.capabilities),
  ("status", .str agent.status.value),
  ("registered_at", .str (dump agent.registeredAt))]

def buildRegisterResponse (agent : Agent) : Dict :=
  agentFields dump agent ++ [
    ("onboarding", .arr (onboardingSteps agent.id)),
    ("_links", .obj (agentLinks agent.id))]

def heartbeatResponse (agent : Agent) : Dict := [
  ("agent_id", .str agent.id),
  ("status", .str agent.status.value),
  ("last_heartbeat", (agent.lastHeartbeat.map fun at' => .str (dump at')).getD .null),
  ("_links", .obj (agentLinks agent.id))]

def agentResponse (agent : Agent) : Dict :=
  agentFields dump agent ++ [
    ("last_heartbeat", (agent.lastHeartbeat.map fun at' => .str (dump at')).getD .null),
    ("_links", .obj (agentLinks agent.id))]

end responses

def pendingTaskItem (env : Env) (task : Task) : Json := .obj [
  ("task_id", .str task.id),
  ("workflow_id", .str task.workflowId),
  ("input", .obj task.input),
  ("priority", .str task.priority.value),
  ("timeout_seconds", (task.timeoutSeconds.map .num).getD .null),
  ("created_at", .str (env.isoformat task.createdAt))]

def signalItemJson (item : SignalItem) : Json := .obj ([
  ("task_id", .str item.taskId),
  ("signal_type", .str item.signalType),
  ("timestamp", .str item.timestamp)] ++ item.payload.toList.map fun payload => ("payload", .obj payload))

def pendingResponse (env : Env) (agentId : String) (tasks : List Task) (signals : List SignalItem) : Dict := [
  ("data", .arr (tasks.map (pendingTaskItem env))),
  ("signals", .arr (signals.map signalItemJson)),
  ("_links", .obj [("self", hrefTo ("/agents/" ++ agentId ++ "/tasks/pending"))])]

/-! ### Handlers -/

section handlers
variable (dump : Time → String)

def agentNotFound (agentId suggestion : String) : FleetAPIError where
  kind := .notFound
  code := .endpointNotFound
  message := s!"Agent '{agentId}' not found"
  suggestion := some suggestion
  links := [("register", hrefTo "/agents/register")]

def registerAgentEndpoint (now : Time) (body : RegisterAgentRequest) : Agents HttpResponse := do
  match ← Agents.get body.agentId with
  | some existing =>
      if existing.publicKey = body.publicKey then
        return { statusCode := 200, content := buildRegisterResponse dump existing }
      else Agents.raise (agentExists body.agentId)
  | none =>
      let agent ← registerAgent now body
      return { statusCode := 201, content := buildRegisterResponse dump agent }

/-- `auth` is the agent of the request, `agentId` the one of the path. -/
def heartbeatEndpoint (now : Time) (auth agentId : String) : Agents HttpResponse :=
  if auth ≠ agentId then Agents.raise {
    kind := .auth
    code := .notAuthorized
    message := s!"Agent '{auth}' cannot send heartbeat for '{agentId}'"
    suggestion := some "You can only send heartbeats for your own agent_id." }
  else do
    match ← heartbeat now agentId with
    | none => Agents.raise (agentNotFound agentId "Register the agent first via POST /agents/register")
    | some agent => return { statusCode := 200, content := heartbeatResponse dump agent }

def getAgentEndpoint (agentId : String) : Agents HttpResponse := do
  match ← Agents.get agentId with
  | none => Agents.raise (agentNotFound agentId
      "Check the agent_id or register a new agent via POST /agents/register")
  | some agent => return { statusCode := 200, content := agentResponse dump agent }

end handlers

def getPendingTasksEndpoint (env : Env) (value : SqlCall → Task → Int) (auth agentId : String) : Db HttpResponse :=
  if auth ≠ agentId then Db.raise {
    kind := .auth
    code := .notAuthorized
    message := s!"Agent '{auth}' cannot view pending tasks for '{agentId}'."
    suggestion := some "You can only poll pending tasks for your own agent_id." }
  else do
    let tasks ← getPendingTasks value agentId
    let signals ← getPendingSignals env agentId
    return { statusCode := 200, content := pendingResponse env agentId tasks signals }

/-! ## Workflows -/

structure WorkflowCreateRequest where
  id : String
  name : String
  description : Option String := none
  tags : Option (List String) := none
  inputSchema : Option Dict := none
  outputSchema : Option Dict := none
  timeoutSeconds : Option Int := none
  resultRetentionDays : Int := 30

/-- `fieldsSet` is `model_fields_set`. -/
structure WorkflowUpdateRequest where
  name : Option String := none
  description : Option String := none
  tags : Option (List String) := none
  inputSchema : Option Dict := none
  outputSchema : Option Dict := none
  timeoutSeconds : Option Int := none
  resultRetentionDays : Option Int := none
  status : Option String := none
  fieldsSet : List String := []

section workflows
variable (env : Env)

def workflowOnboarding (workflowId : String) : Json := .arr [
  .obj [
    ("step", .num 1),
    ("action", .str "Verify your workflow is listed"),
    ("method", .str "GET"),
    ("endpoint", .str ("/workflows/" ++ workflowId)),
    ("expected_status", .num 200)],
  .obj [
    ("step", .num 2),
    ("action", .str "Run a test invocation"),
    ("method", .str "POST"),
    ("endpoint", .str ("/workflows/" ++ workflowId ++ "/run")),
    ("headers", .obj [("Authorization", .str "Signature <agent_id>:<signature>")]),
    ("expected_status", .num 202)]]

def WorkflowCreateRequest.request (body : WorkflowCreateRequest) (agentId : String) : WorkflowCreate where
  workflowId := body.id
  ownerAgentId := agentId
  name := body.name
  description := body.description
  tags := body.tags
  inputSchema := schemaJson body.inputSchema
  outputSchema := schemaJson body.outputSchema
  timeoutSeconds := body.timeoutSeconds
  resultRetentionDays := body.resultRetentionDays

def WorkflowUpdateRequest.request (body : WorkflowUpdateRequest) (workflowId agentId : String) :
    WorkflowUpdate where
  workflowId
  callerAgentId := agentId
  name := body.name
  description := body.description
  tags := body.tags
  inputSchema := schemaJson body.inputSchema
  outputSchema := schemaJson body.outputSchema
  timeoutSeconds := body.timeoutSeconds
  resultRetentionDays := body.resultRetentionDays
  status := body.status
  providedFields := some body.fieldsSet

def createWorkflowEndpoint (clk : Clock) (agentId : String) (body : WorkflowCreateRequest) :
    Catalog HttpResponse := do
  let workflow ← createWorkflow clk (body.request agentId)
  return {
    statusCode := 201
    content := workflowToResponse env (workflow, none) ++ [("onboarding", workflowOnboarding workflow.id)] }

/-- `get_workflow_with_executor_status`, one statement with an outer join. -/
def getWorkflowEndpoint (workflowId : String) : Catalog HttpResponse := do
  match ← Prog.read fun s => pure ((s.workflows.find? workflowId).map (withOwnerStatus s)) with
  | none => Catalog.raise (workflowNotFound workflowId)
  | some row => return { statusCode := 200, content := workflowToResponse env row }

def updateWorkflowEndpoint (clk : Clock) (workflowId agentId : String) (body : WorkflowUpdateRequest) :
    Catalog HttpResponse := do
  let workflow ← updateWorkflow clk (body.request workflowId agentId)
  return { statusCode := 200, content := workflowToResponse env (workflow, none) }

end workflows
end Fleet.Api
