/- What a request names, and that it sees and writes nothing beyond it and the agents. -/
import Fleet.Api.Accountability
import Fleet.Api.Confinement

namespace Fleet.Api
open Fleet.Lib

/-! ## What a request names -/

/-- The agents, a workflow, a workflow in which it draws a task, a task, or all of them. -/
inductive Reach where
  | nothing
  | agents
  | workflow (workflowId : String)
  | creation (workflowId : String) (key : Option String) (taskId : String)
  | task (taskId : String)
  | everything
  deriving DecidableEq

def named (params : List (String × String)) (name : String) (k : String → Reach) : Reach :=
  match params.lookup name with
  | some v => k v
  | none => .nothing

def Endpoint.reach (d : Draws) (params : List (String × String)) : (e : Endpoint) → e.Input → Reach
  | .registerAgent, _ | .heartbeat, _ | .getAgent, _ => .agents
  | .getPendingTasks, _ | .listWorkflows, _ => .everything
  | .createWorkflow, body => .workflow body.id
  | .runTask, (body, header) => named params "workflow_id" fun workflowId =>
      .creation workflowId (orKey header body.idempotencyKey) (newTaskId d.hex)
  | .retaskTaskEndpoint, (_, header) => named params "workflow_id" fun workflowId =>
      .creation workflowId header (newTaskId d.hex)
  | .redirectTaskEndpoint, (_, header) => named params "workflow_id" fun workflowId =>
      .creation workflowId header (newTaskId d.hex)
  | .postTaskEvent, _ => named params "task_id" .task
  | .getWorkflow, _ | .updateWorkflow, _ | .getTask, _ | .listTasks, _ | .cancelTaskEndpoint, _
  | .pauseTaskEndpoint, _ | .resumeTaskEndpoint, _ | .injectContextEndpoint, _ | .streamTaskEvents, _ =>
      named params "workflow_id" .workflow
  | .openapi, _ | .swaggerUi, _ | .swaggerUiRedirect, _ | .redoc, _ | .health, _ | .getManifest, _
  | .root, _ => .nothing

def Incoming.reach (srv : Server) : Incoming → Reach
  | .sweep _ => .agents
  | .request req d =>
      match resolve req.method req.path with
      | none => .nothing
      | some (endpoint, params) =>
          match srv.validate endpoint req with
          | none => .nothing
          | some input => endpoint.reach d params input

namespace Compartment

def Within (K : Compartment) : Reach → Prop
  | .nothing => True
  | .workflow workflowId => K.workflow workflowId = true
  | .creation workflowId key taskId => K.workflow workflowId = true ∧ K.Uses key ∧ K.task taskId = true
  | .task taskId => K.task taskId = true
  | .agents | .everything => False

variable {K : Compartment}

/-! ## Reads -/

section reads
variable {R : Work → Prop} {workflowId taskId : String}

theorem confined_listPage {ρ κ : Type} [LinearOrder κ] {selected : Store → List ρ} {key : ρ → κ}
    {cursor : Except Failure (Option κ)} {encode : ρ → String} {limit : Nat}
    (alike : ∀ s s', K.Agree s s' → selected s = selected s') :
    (listPage selected key cursor encode limit).Confined K.Agree R fun _ => True := by
  refine Prog.Confined.bind (confined_query (Q := fun _ => True) fun s s' related =>
    ⟨by rw [alike s s' related], trivial⟩) fun _ _ => confined_ofExcept.bind fun position _ => ?_
  exact (confined_query (Q := fun _ => True) fun s s' related =>
    ⟨by rw [alike s s' related], trivial⟩).bind fun _ _ => trivial

variable (inside : K.workflow workflowId = true)
include inside

theorem confined_findWorkflow {e : FleetAPIError} :
    (Db.fetch (fun s => s.workflows.find? workflowId) e).Confined K.Agree R fun _ => True :=
  confined_fetch fun _ _ related => ⟨related.workflows workflowId inside, fun _ _ => trivial⟩

theorem confined_getTaskEndpoint {env : Env} :
    (getTaskEndpoint env workflowId taskId).Confined K.Agree R fun _ => True := by
  refine Prog.Confined.bind (Q := fun _ => True) ?_ fun _ _ => trivial
  refine (confined_findWorkflow inside).bind fun _ _ => ?_
  exact confined_fetch fun _ _ related => ⟨related.fetchTask inside, fun _ _ => trivial⟩

theorem confined_streamTaskEventsEndpoint :
    (streamTaskEventsEndpoint workflowId taskId).Confined K.Agree R fun _ => True :=
  (confined_findWorkflow inside).bind fun _ _ => (confined_fetchTask inside).bind fun _ _ => trivial

theorem confined_listTasksEndpoint {env : Env} {backend : Backend} {query : TaskQuery} {limit : PageLimit}
    {cursor : Option String} :
    (listTasksEndpoint env backend workflowId query limit cursor).Confined K.Agree R fun _ => True := by
  refine Prog.Confined.bind (Q := fun _ => True) ?_ fun _ _ => trivial
  refine (confined_findWorkflow inside).bind fun _ _ => confined_ofExcept.bind fun filter _ =>
    confined_ofExcept.bind fun bounds _ => ?_
  exact confined_listPage fun s s' related => related.selectTasks inside _

end reads

/-! ## The catalogue -/

section catalogue
variable {env : Env} {clk : Clock} {agentId : String}

theorem confined_get {R : WorkflowWork → Prop} {workflowId : String} (inside : K.workflow workflowId = true) :
    (Catalog.get workflowId).Confined K.Agree R fun found => ∀ w, found = some w → w.id = workflowId :=
  Prog.confined_select fun _ _ related => ⟨related.workflows workflowId inside, fun _ found =>
    (Table.find?_eq_some.mp found).2⟩

theorem confined_check {α : Type} {R : WorkflowWork → Prop} {r : Except Failure α} :
    (Catalog.check r).Confined K.Agree R fun a => r = .ok a := by
  cases r with
  | ok a => exact rfl
  | error e => trivial

theorem confined_refreshWorkflow {R : WorkflowWork → Prop} {workflow : Workflow}
    (inside : K.workflow workflow.id = true) :
    (Catalog.refresh workflow).Confined K.Agree R fun _ => True :=
  (confined_get inside).bind fun _ _ => trivial

theorem confined_createWorkflowEndpoint {body : WorkflowCreateRequest} (inside : K.workflow body.id = true) :
    (createWorkflowEndpoint env clk agentId body).Confined K.Agree (fun w => K.Owns (.workflows w))
      fun _ => True := by
  refine Prog.Confined.bind (Q := fun _ => True) ?_ fun _ _ => trivial
  refine confined_check.bind fun _ _ => (confined_get inside).bind fun found _ => ?_
  cases found with
  | some existing =>
      dsimp only
      split <;> trivial
  | none => exact ⟨inside, confined_refreshWorkflow inside⟩

theorem confined_getWorkflowEndpoint {R : WorkflowWork → Prop} {workflowId : String}
    (inside : K.workflow workflowId = true) :
    (getWorkflowEndpoint env workflowId).Confined K.Agree R fun _ => True := by
  refine Prog.Confined.bind (Prog.confined_select (Q := fun _ => True) fun s s' related => ⟨?_, trivial⟩)
    fun found _ => ?_
  · rw [related.workflows workflowId inside]
    refine congrArg (fun row => Option.map row _) (funext fun w => ?_)
    rw [withOwnerStatus, related.agents, withOwnerStatus]
  · cases found <;> trivial

theorem confined_updateWorkflowEndpoint {workflowId : String} {body : WorkflowUpdateRequest}
    (inside : K.workflow workflowId = true) :
    (updateWorkflowEndpoint env clk workflowId agentId body).Confined K.Agree (fun w => K.Owns (.workflows w))
      fun _ => True := by
  refine Prog.Confined.bind (Q := fun _ => True) ?_ fun _ _ => trivial
  refine Prog.Confined.bind (confined_get inside) fun found own => ?_
  cases found with
  | none => trivial
  | some loaded =>
      have same : loaded.id = workflowId := own loaded rfl
      dsimp only
      split
      · trivial
      · refine confined_check.bind fun workflow assigned => ⟨?_, confined_refreshWorkflow ?_⟩
        · exact (congrArg K.workflow same).trans inside
        · rw [(WorkflowUpdate.assign_ok assigned).1.id, same, inside]

end catalogue

/-! ## Agents -/

section agents
variable {R : AgentWork → Prop} {dump : Time → String} {now : Time} {agentId : String}

theorem confined_getAgent : (Agents.get agentId).Confined K.Agree R fun _ => True :=
  Prog.confined_select fun _ _ related => ⟨by rw [related.agents], trivial⟩

theorem confined_refreshAgent {agent : Agent} : (Agents.refresh agent).Confined K.Agree R fun _ => True :=
  confined_getAgent.bind fun _ _ => trivial

theorem confined_registerAgentEndpoint {body : RegisterAgentRequest} :
    (registerAgentEndpoint dump now body).Confined K.Agree (fun w => K.OwnsOrShares (.agents w))
      fun _ => True := by
  refine confined_getAgent.bind fun found _ => ?_
  cases found with
  | some existing =>
      dsimp only
      split <;> trivial
  | none =>
      exact Prog.Confined.bind (Q := fun _ => True) ⟨trivial, confined_refreshAgent⟩ fun _ _ => trivial

theorem confined_heartbeatEndpoint {auth : String} :
    (heartbeatEndpoint dump now auth agentId).Confined K.Agree (fun w => K.OwnsOrShares (.agents w))
      fun _ => True := by
  unfold heartbeatEndpoint
  split
  · trivial
  refine Prog.Confined.bind (Q := fun _ => True) (confined_getAgent.bind fun found _ => ?_) fun answered _ => ?_
  · cases found with
    | none => trivial
    | some agent =>
        exact ⟨trivial, confined_refreshAgent.bind fun _ _ => trivial⟩
  · cases answered <;> trivial

theorem confined_getAgentEndpoint :
    (getAgentEndpoint dump agentId).Confined K.Agree R fun _ => True := by
  refine confined_getAgent.bind fun found _ => ?_
  cases found <;> trivial

theorem confined_sweep {timeoutSeconds : Int} :
    (sweep timeoutSeconds now).Confined K.Agree (fun w => K.OwnsOrShares (.agents w)) fun _ => True := by
  refine Prog.Confined.bind (Prog.confined_select (Q := fun _ => True) fun s s' related => ⟨?_, trivial⟩)
    fun ids _ => ?_
  · rw [staleIds, related.agents, staleIds]
  · split
    · trivial
    · exact ⟨trivial, trivial⟩

end agents

/-! ## The gate -/

theorem confined_requireAuth {C : Crypto} {now : Time} {req : Request} {R : Empty → Prop} :
    (requireAuth C now req).Confined K.Agree R fun _ => True := by
  unfold requireAuth
  split
  · trivial
  refine Prog.Confined.bind (p := .done (presented now req)) (Q := fun _ => True) ?_ fun p _ => ?_
  · cases presented now req <;> trivial
  refine Prog.Confined.bind (Q := fun _ => True) ?_ fun _ _ => trivial
  have known : (getAgentPublicKey C p.agentId).Confined K.Agree R fun _ => True := by
    intro s s' related
    dsimp only
    rw [storedKey, related.agents, storedKey]
    refine ⟨rfl, ?_⟩
    split <;> trivial
  refine known.bind fun key _ => ?_
  cases key with
  | none => trivial
  | some key =>
      refine Prog.Confined.bind (Prog.confined_select (Q := fun _ => True) fun s s' related => ⟨?_, trivial⟩)
        fun barred _ => ?_
      · rw [suspended, related.agents, suspended]
      · dsimp only
        split
        · trivial
        · split <;> trivial

/-! ## Requests -/

section requests
variable {srv : Server} {params : List (String × String)} {agent : Option String} {d : Draws}
  {V : Store → Store → Prop} {R : ServiceWork → Prop}

theorem confined_withParam {α : Type} {name : String} {k : String → Service α}
    (rest : ∀ v, params.lookup name = some v → (k v).Confined V R fun _ => True) :
    (Service.withParam params name k).Confined V R fun _ => True := by
  unfold Service.withParam
  split
  · rename_i v found
    exact rest v found
  · trivial

theorem confined_withAgent {α : Type} {k : String → Service α}
    (rest : ∀ auth, (k auth).Confined V R fun _ => True) :
    (Service.withAgent agent k).Confined V R fun _ => True := by
  cases agent with
  | none => trivial
  | some auth => exact rest auth

theorem confined_ofDb {α : Type} {p : Db α} (h : p.Confined K.Agree K.Writes fun _ => True) :
    (Service.ofDb p).Confined K.Agree K.Owns fun _ => True :=
  h.embed fun _ own => own

theorem within_named {k : String → Reach} {name v : String} (within : K.Within (named params name k))
    (found : params.lookup name = some v) : K.Within (k v) := by
  rwa [named, found] at within

theorem named_eq {k : String → Reach} {name : String} {reach : Reach} (same : named params name k = reach) :
    reach = .nothing ∨ ∃ v, reach = k v := by
  unfold named at same
  split at same
  · exact .inr ⟨_, same.symm⟩
  · exact .inl same.symm

theorem handle_confined (endpoint : Endpoint) (input : endpoint.Input)
    (within : K.Within (endpoint.reach d params input)) :
    (srv.handle params agent d endpoint input).Confined K.Agree K.Owns fun _ => True := by
  cases endpoint with
  | openapi | swaggerUi | swaggerUiRedirect | redoc | health | getManifest | root => trivial
  | registerAgent | heartbeat | getAgent | getPendingTasks | listWorkflows => exact within.elim
  | createWorkflow =>
      exact confined_withAgent fun auth => (confined_createWorkflowEndpoint within).embed fun _ own => own
  | getWorkflow =>
      exact confined_withParam fun workflowId found => confined_withAgent fun auth =>
        (confined_getWorkflowEndpoint (within_named within found)).embed fun _ own => own
  | updateWorkflow =>
      exact confined_withParam fun workflowId found => confined_withAgent fun auth =>
        (confined_updateWorkflowEndpoint (within_named within found)).embed fun _ own => own
  | runTask =>
      refine confined_withParam fun workflowId found => confined_withAgent fun auth => confined_ofDb ?_
      obtain ⟨inside, uses, draws⟩ := within_named within found
      exact (confined_createTask inside uses draws).bind fun _ _ => trivial
  | getTask =>
      exact confined_withParam fun workflowId found => confined_withParam fun taskId _ =>
        confined_ofDb (confined_getTaskEndpoint (within_named within found))
  | listTasks =>
      obtain ⟨query, limit, cursor⟩ := input
      exact confined_withParam fun workflowId found => confined_ofDb
        ((confined_listTasksEndpoint (within_named within found)).bind fun _ _ => trivial)
  | streamTaskEvents =>
      exact confined_withParam fun workflowId found => confined_withParam fun taskId _ =>
        confined_ofDb (confined_streamTaskEventsEndpoint (within_named within found))
  | cancelTaskEndpoint =>
      exact confined_withParam fun workflowId found => confined_withParam fun taskId _ =>
        confined_withAgent fun auth => confined_ofDb
          ((confined_cancelTask (within_named within found)).bind fun _ _ => trivial)
  | pauseTaskEndpoint =>
      exact confined_withParam fun workflowId found => confined_withParam fun taskId _ =>
        confined_withAgent fun auth => confined_ofDb
          ((confined_pauseTask (within_named within found)).bind fun _ _ => trivial)
  | resumeTaskEndpoint =>
      exact confined_withParam fun workflowId found => confined_withParam fun taskId _ =>
        confined_withAgent fun auth => confined_ofDb
          ((confined_resumeTask (within_named within found)).bind fun _ _ => trivial)
  | injectContextEndpoint =>
      exact confined_withParam fun workflowId found => confined_withParam fun taskId _ =>
        confined_withAgent fun auth => confined_ofDb
          ((confined_injectContext (within_named within found)).bind fun _ _ => trivial)
  | retaskTaskEndpoint =>
      refine confined_withParam fun workflowId found => confined_withParam fun taskId _ =>
        confined_withAgent fun auth => confined_ofDb ?_
      obtain ⟨inside, uses, draws⟩ := within_named within found
      exact (confined_retaskTask inside uses draws).bind fun _ has =>
        (confined_buildLineageChain has.1).bind fun _ _ =>
          (confined_countContextInjections has.2).bind fun _ _ => trivial
  | redirectTaskEndpoint =>
      refine confined_withParam fun workflowId found => confined_withParam fun taskId _ =>
        confined_withAgent fun auth => confined_ofDb ?_
      obtain ⟨inside, uses, draws⟩ := within_named within found
      exact (confined_redirectTask inside uses draws).bind fun _ has =>
        (confined_buildLineageChain has.1).bind fun _ _ => trivial
  | postTaskEvent =>
      exact confined_withParam fun taskId found => confined_withAgent fun auth => confined_ofDb
        ((confined_processSidecarEvent (within_named within found)).bind fun _ _ => trivial)

theorem handle_shared (endpoint : Endpoint) (input : endpoint.Input)
    (agents : endpoint.reach d params input = .agents) :
    (srv.handle params agent d endpoint input).Confined K.Agree K.OwnsOrShares fun _ => True := by
  cases endpoint with
  | registerAgent => exact confined_registerAgentEndpoint.embed fun _ own => own
  | heartbeat =>
      exact confined_withParam fun agentId _ => confined_withAgent fun auth =>
        confined_heartbeatEndpoint.embed fun _ own => own
  | getAgent =>
      exact confined_withParam fun agentId _ =>
        (confined_getAgentEndpoint (R := fun _ => True)).embed fun _ _ => trivial
  | runTask | retaskTaskEndpoint | redirectTaskEndpoint | postTaskEvent | getWorkflow | updateWorkflow
  | getTask | listTasks | cancelTaskEndpoint | pauseTaskEndpoint | resumeTaskEndpoint
  | injectContextEndpoint | streamTaskEvents =>
      rcases named_eq agents with other | ⟨v, other⟩ <;> cases other
  | _ => cases agents

theorem reads_withParam {α : Type} {name : String} {k : String → Service α} (rest : ∀ v, (k v).Reads) :
    (Service.withParam params name k).Reads := by
  unfold Service.withParam
  split
  · exact rest _
  · trivial

theorem reads_withAgent {α : Type} {k : String → Service α} (rest : ∀ auth, (k auth).Reads) :
    (Service.withAgent agent k).Reads := by
  cases agent with
  | none => trivial
  | some auth => exact rest auth

theorem handle_reads (endpoint : Endpoint) (input : endpoint.Input)
    (everything : endpoint.reach d params input = .everything) :
    (srv.handle params agent d endpoint input).Reads := by
  cases endpoint with
  | getPendingTasks =>
      exact reads_withParam fun agentId => reads_withAgent fun auth =>
        (reads_getPendingTasksEndpoint srv.env srv.sqlValue auth agentId).embed
  | listWorkflows =>
      obtain ⟨query, limit, cursor⟩ := input
      exact reads_withAgent fun auth =>
        ((reads_listWorkflowsEndpoint srv.env srv.backend query limit cursor).bind
          fun _ => Prog.reads_pure _).embed
  | runTask | retaskTaskEndpoint | redirectTaskEndpoint | postTaskEvent | getWorkflow | updateWorkflow
  | getTask | listTasks | cancelTaskEndpoint | pauseTaskEndpoint | resumeTaskEndpoint
  | injectContextEndpoint | streamTaskEvents =>
      rcases named_eq everything with other | ⟨v, other⟩ <;> cases other
  | _ => cases everything

theorem identify_confined {R : ServiceWork → Prop} {now : Time} {req : Request} {endpoint : Endpoint} :
    (srv.identify now req endpoint).Confined K.Agree R fun _ => True := by
  unfold Server.identify
  split
  · refine Prog.Confined.bind (Q := fun _ => True) ?_ fun _ _ => trivial
    exact (confined_requireAuth (R := fun _ => True)).embed fun w _ => w.elim
  · trivial

end requests

section arrivals
variable {srv : Server} {a : Incoming}

theorem serve_request (srv : Server) (req : Request) (d : Draws) :
    (srv.serve (.request req d) = Prog.raise .notFound ∧ Incoming.reach srv (.request req d) = .nothing) ∨
    ∃ endpoint params,
      (srv.serve (.request req d) = (srv.identify d.clk.now req endpoint >>= fun _ => Prog.raise .invalid) ∧
        Incoming.reach srv (.request req d) = .nothing) ∨
      ∃ input, (srv.serve (.request req d) = srv.identify d.clk.now req endpoint >>= fun agent =>
          srv.handle params agent d endpoint input >>= fun response => pure (some response)) ∧
        Incoming.reach srv (.request req d) = endpoint.reach d params input := by
  simp only [Server.serve, Incoming.reach]
  cases resolve req.method req.path with
  | none => exact .inl ⟨rfl, rfl⟩
  | some found =>
      obtain ⟨endpoint, params⟩ := found
      dsimp only
      refine .inr ⟨endpoint, params, ?_⟩
      cases srv.validate endpoint req with
      | none => exact .inl ⟨rfl, rfl⟩
      | some input => exact .inr ⟨input, rfl, rfl⟩

/-- What a request reaches decides what its statements see and write. -/
theorem serve_within (within : K.Within (a.reach srv)) :
    (srv.serve a).Confined K.Agree K.Owns fun _ => True := by
  cases a with
  | sweep now => exact within.elim
  | request req d =>
      rcases serve_request srv req d with ⟨served, -⟩ | ⟨endpoint, params, ⟨served, -⟩ | ⟨input, served, reach⟩⟩
      · rw [served]
        trivial
      · rw [served]
        exact identify_confined.bind fun _ _ => trivial
      · rw [reach] at within
        rw [served]
        exact identify_confined.bind fun _ _ => (handle_confined endpoint input within).bind fun _ _ => trivial

theorem serve_shared (agents : a.reach srv = .agents) :
    (srv.serve a).Confined K.Agree K.OwnsOrShares fun _ => True := by
  cases a with
  | sweep now =>
      exact Prog.Confined.bind (Q := fun _ => True) (confined_sweep.embed fun _ own => own) fun _ _ => trivial
  | request req d =>
      rcases serve_request srv req d with ⟨served, -⟩ | ⟨endpoint, params, ⟨served, -⟩ | ⟨input, served, reach⟩⟩
      · rw [served]
        trivial
      · rw [served]
        exact identify_confined.bind fun _ _ => trivial
      · rw [served]
        exact identify_confined.bind fun _ _ =>
          (handle_shared endpoint input (reach ▸ agents)).bind fun _ _ => trivial

theorem serve_reads (everything : a.reach srv = .everything) : (srv.serve a).Reads := by
  cases a with
  | sweep now => cases everything
  | request req d =>
      rcases serve_request srv req d with ⟨-, reach⟩ | ⟨endpoint, params, ⟨-, reach⟩ | ⟨input, served, reach⟩⟩
      · rw [reach] at everything
        cases everything
      · rw [reach] at everything
        cases everything
      · rw [served]
        exact srv.reads_identify.bind fun _ =>
          (handle_reads endpoint input (reach ▸ everything)).bind fun _ => trivial

end arrivals
end Compartment
end Fleet.Api
