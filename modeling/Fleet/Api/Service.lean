/- The service: every request through its route, the gate and its handler, and all of them
   interleaved statement by statement with the sweeps of the monitor. -/
import Fleet.Api.CatalogRoutes
import Fleet.Api.Endpoints
import Fleet.Api.Warrants

namespace Fleet.Api
open Fleet.Lib

/-! ## Commits and failures -/

inductive ServiceWork where
  | tasks (w : Work)
  | workflows (w : WorkflowWork)
  | agents (w : AgentWork)

/-- What ends a request without a response of its handler: no route, a value that does not
validate, the gate, a handler without its agent, or what the handler raised. -/
inductive ServiceFailure where
  | notFound
  | invalid
  | gate (e : AuthFailure)
  | anonymous
  | api (e : Failure)
  | catalog (e : CatalogFailure)

def Store.flushService (w : ServiceWork) (s : Store) : Except ServiceFailure Store :=
  match w with
  | .tasks w => (Store.flush w s).mapError .api
  | .workflows w => (s.flushWorkflow w).mapError .catalog
  | .agents w => (s.flushAgent w).mapError .catalog

abbrev Service := Prog Store ServiceWork ServiceFailure

namespace Service
variable {α : Type}

def ofDb (p : Db α) : Service α := p.embed .tasks .api

def ofCatalog (p : Catalog α) : Service α := p.embed .workflows .catalog

def ofAgents (p : Agents α) : Service α := p.embed .agents .catalog

def ofGate (p : Gate α) : Service α := p.embed Empty.elim .gate

def withParam (params : List (String × String)) (name : String) (k : String → Service α) : Service α :=
  match params.lookup name with
  | some v => k v
  | none => Prog.raise .invalid

/-- `agent.agent_id`; without an agent the handler raises. -/
def withAgent (agent : Option String) (k : String → Service α) : Service α :=
  match agent with
  | some agentId => k agentId
  | none => Prog.raise .anonymous

end Service

/-! ## Requests -/

/-- What the framework reads of a request for a handler beside the path: the validated
body, the header `Idempotency-Key` or `Last-Event-Id`, or the query. -/
def Endpoint.Input : Endpoint → Type
  | .registerAgent => RegisterAgentRequest
  | .createWorkflow => WorkflowCreateRequest
  | .updateWorkflow => WorkflowUpdateRequest
  | .listWorkflows => WorkflowQuery × PageLimit × Option String
  | .listTasks => TaskQuery × PageLimit × Option String
  | .runTask => TaskRunRequest × Option String
  | .retaskTaskEndpoint => TaskRetaskRequest × Option String
  | .redirectTaskEndpoint => TaskRedirectRequest × Option String
  | .cancelTaskEndpoint | .pauseTaskEndpoint | .resumeTaskEndpoint => Option String
  | .injectContextEndpoint => ContextInjectionRequest
  | .postTaskEvent => TaskEventRequest
  | .streamTaskEvents => Option Int
  | _ => Unit

/-- The surroundings of the application: the signature scheme, the configuration, the
validation of the framework, the pages that read no table, and what the database computes
for a call in a statement. -/
structure Server where
  crypto : Crypto
  env : Env
  backend : Backend
  dump : Time → String
  validate : (e : Endpoint) → Request → Option e.Input
  page : Endpoint → HttpResponse
  sqlValue : SqlCall → Task → Int
  heartbeatTimeoutSeconds : Int

/-- What a request draws: its clock, the digits of a new id, the number of an event row. -/
structure Draws where
  clk : Clock
  hex : String
  eventId : Int

inductive Incoming where
  | request (req : Request) (draws : Draws)
  | sweep (now : Time)

def onPath (params : List (String × String)) (op : String → String → Op) : Option Op := do
  return op (← params.lookup "workflow_id") (← params.lookup "task_id")

/-- The operation on the tasks that the agent of a request asks for. -/
def Endpoint.operation (d : Draws) (params : List (String × String)) (auth : String) :
    (e : Endpoint) → e.Input → Option Op
  | .runTask, input => (params.lookup "workflow_id").map fun workflowId =>
      .createTask d.clk d.hex (input.1.request workflowId auth input.2)
  | .cancelTaskEndpoint, reason => onPath params fun workflowId taskId =>
      .cancelTask d.clk workflowId taskId auth reason
  | .retaskTaskEndpoint, input => onPath params fun workflowId taskId =>
      .retaskTask d.clk d.hex (input.1.request workflowId taskId auth input.2)
  | .redirectTaskEndpoint, input => onPath params fun workflowId taskId =>
      .redirectTask d.clk d.hex (input.1.request workflowId taskId auth input.2)
  | .pauseTaskEndpoint, reason => onPath params fun workflowId taskId =>
      .pauseTask d.clk workflowId taskId auth reason
  | .resumeTaskEndpoint, priority => onPath params fun workflowId taskId =>
      .resumeTask d.clk workflowId taskId auth priority
  | .injectContextEndpoint, body => onPath params fun workflowId taskId =>
      .injectContext d.clk d.hex (body.request workflowId taskId auth)
  | .postTaskEvent, body => (params.lookup "task_id").map fun taskId =>
      .processSidecarEvent d.clk (body.request taskId auth)
  | _, _ => none

theorem onPath_eq_some {params : List (String × String)} {k : String → String → Op} {op : Op} :
    onPath params k = some op ↔ ∃ workflowId taskId, params.lookup "workflow_id" = some workflowId ∧
      params.lookup "task_id" = some taskId ∧ k workflowId taskId = op := by
  simp only [onPath, Option.bind_eq_bind, Option.bind_eq_some_iff, Option.pure_def, Option.some.injEq]
  constructor
  · rintro ⟨workflowId, inside, taskId, on, rfl⟩
    exact ⟨workflowId, taskId, inside, on, rfl⟩
  · rintro ⟨workflowId, taskId, inside, on, rfl⟩
    exact ⟨workflowId, inside, taskId, on, rfl⟩

theorem operation_target {d : Draws} {params : List (String × String)} {auth : String} {endpoint : Endpoint}
    {input : endpoint.Input} {op : Op} (asked : endpoint.operation d params auth input = some op) {id : String}
    (target : op.target? = some id) : params.lookup "task_id" = some id := by
  cases endpoint with
  | runTask =>
      obtain ⟨workflowId, -, rfl⟩ := Option.map_eq_some_iff.mp asked
      cases target
  | postTaskEvent =>
      obtain ⟨taskId, on, rfl⟩ := Option.map_eq_some_iff.mp asked
      cases target
      exact on
  | cancelTaskEndpoint | retaskTaskEndpoint | redirectTaskEndpoint | pauseTaskEndpoint | resumeTaskEndpoint
  | injectContextEndpoint =>
      obtain ⟨workflowId, taskId, -, on, rfl⟩ := onPath_eq_some.mp asked
      cases target
      exact on
  | _ => cases asked

/-- The checks of `stream_task_events`; its frames are those of the event stream. -/
def streamTaskEventsEndpoint (workflowId taskId : String) : Db HttpResponse := do
  let _ ← fetchWorkflow workflowId
  let _ ← fetchTask workflowId taskId
  return { statusCode := 200, content := [] }

namespace Server
open Service
variable (srv : Server)

def handle (params : List (String × String)) (agent : Option String) (d : Draws) :
    (e : Endpoint) → e.Input → Service HttpResponse
  | .registerAgent, body => ofAgents (registerAgentEndpoint srv.dump d.clk.now body)
  | .heartbeat, _ => withParam params "agent_id" fun agentId => withAgent agent fun auth =>
      ofAgents (heartbeatEndpoint srv.dump d.clk.now auth agentId)
  | .getAgent, _ => withParam params "agent_id" fun agentId => ofAgents (getAgentEndpoint srv.dump agentId)
  | .getPendingTasks, _ => withParam params "agent_id" fun agentId => withAgent agent fun auth =>
      ofDb (getPendingTasksEndpoint srv.env srv.sqlValue auth agentId)
  | .createWorkflow, body => withAgent agent fun auth =>
      ofCatalog (createWorkflowEndpoint srv.env d.clk auth body)
  | .listWorkflows, (query, limit, cursor) => withAgent agent fun _ => ofDb do
      return ⟨200, ← listWorkflowsEndpoint srv.env srv.backend query limit cursor⟩
  | .getWorkflow, _ => withParam params "workflow_id" fun workflowId => withAgent agent fun _ =>
      ofCatalog (getWorkflowEndpoint srv.env workflowId)
  | .updateWorkflow, body => withParam params "workflow_id" fun workflowId => withAgent agent fun auth =>
      ofCatalog (updateWorkflowEndpoint srv.env d.clk workflowId auth body)
  | .runTask, (body, header) => withParam params "workflow_id" fun workflowId => withAgent agent fun auth =>
      ofDb (runTaskEndpoint srv.env d.clk d.hex workflowId auth body header)
  | .getTask, _ => withParam params "workflow_id" fun workflowId => withParam params "task_id" fun taskId =>
      ofDb (getTaskEndpoint srv.env workflowId taskId)
  | .listTasks, (query, limit, cursor) => withParam params "workflow_id" fun workflowId => ofDb do
      return ⟨200, ← listTasksEndpoint srv.env srv.backend workflowId query limit cursor⟩
  | .cancelTaskEndpoint, reason => withParam params "workflow_id" fun workflowId =>
      withParam params "task_id" fun taskId => withAgent agent fun auth =>
        ofDb (Api.cancelTaskEndpoint srv.env d.clk workflowId taskId auth reason)
  | .retaskTaskEndpoint, (body, header) => withParam params "workflow_id" fun workflowId =>
      withParam params "task_id" fun taskId => withAgent agent fun auth =>
        ofDb (Api.retaskTaskEndpoint srv.env d.clk d.hex workflowId taskId auth body header)
  | .redirectTaskEndpoint, (body, header) => withParam params "workflow_id" fun workflowId =>
      withParam params "task_id" fun taskId => withAgent agent fun auth =>
        ofDb (Api.redirectTaskEndpoint srv.env d.clk d.hex workflowId taskId auth body header)
  | .pauseTaskEndpoint, reason => withParam params "workflow_id" fun workflowId =>
      withParam params "task_id" fun taskId => withAgent agent fun auth =>
        ofDb (Api.pauseTaskEndpoint srv.env d.clk workflowId taskId auth reason)
  | .resumeTaskEndpoint, priority => withParam params "workflow_id" fun workflowId =>
      withParam params "task_id" fun taskId => withAgent agent fun auth =>
        ofDb (Api.resumeTaskEndpoint srv.env d.clk workflowId taskId auth priority)
  | .injectContextEndpoint, body => withParam params "workflow_id" fun workflowId =>
      withParam params "task_id" fun taskId => withAgent agent fun auth =>
        ofDb (Api.injectContextEndpoint srv.env d.clk d.hex workflowId taskId auth body)
  | .postTaskEvent, body => withParam params "task_id" fun taskId => withAgent agent fun auth =>
      ofDb (Api.postTaskEvent srv.env d.clk d.eventId taskId auth body)
  | .streamTaskEvents, _ => withParam params "workflow_id" fun workflowId =>
      withParam params "task_id" fun taskId => ofDb (streamTaskEventsEndpoint workflowId taskId)
  | .openapi, _ => pure (srv.page .openapi)
  | .swaggerUi, _ => pure (srv.page .swaggerUi)
  | .swaggerUiRedirect, _ => pure (srv.page .swaggerUiRedirect)
  | .redoc, _ => pure (srv.page .redoc)
  | .health, _ => pure (srv.page .health)
  | .getManifest, _ => pure (srv.page .getManifest)
  | .root, _ => pure { statusCode := 200, content := [("status", .str "ok")] }

def identify (now : Time) (req : Request) (endpoint : Endpoint) : Service (Option String) :=
  if endpoint.dependsOnAuth then do
    return (← ofGate (requireAuth srv.crypto now req)).map AuthenticatedAgent.agentId
  else pure none

/-- A request from its first statement to its response; a sweep answers nobody. -/
def serve : Incoming → Service (Option HttpResponse)
  | .sweep now => do
      ofAgents (sweep srv.heartbeatTimeoutSeconds now)
      return none
  | .request req draws =>
      match resolve req.method req.path with
      | none => Prog.raise .notFound
      | some (endpoint, params) => do
          let agent ← srv.identify draws.clk.now req endpoint
          match srv.validate endpoint req with
          | none => Prog.raise .invalid
          | some input => return some (← srv.handle params agent draws endpoint input)

end Server
end Fleet.Api
