/- The route table and what a handler is called with. -/
import Mathlib.Data.Bool.AllAny
import Fleet.Api.Auth
import Fleet.Api.Operations

namespace Fleet.Api
open Fleet.Lib

/-- The handlers of the application, and the pages that FastAPI adds. -/
inductive Endpoint where
  | openapi | swaggerUi | swaggerUiRedirect | redoc
  | health | getManifest
  | registerAgent | heartbeat | getAgent | getPendingTasks
  | createWorkflow | listWorkflows | getWorkflow | updateWorkflow
  | runTask | getTask | listTasks | cancelTaskEndpoint | retaskTaskEndpoint | redirectTaskEndpoint
  | pauseTaskEndpoint | resumeTaskEndpoint | injectContextEndpoint | postTaskEvent | streamTaskEvents
  | root
  deriving DecidableEq, Repr

namespace Endpoint

/-- The handler has a parameter `Depends(require_auth)`. -/
def dependsOnAuth : Endpoint → Bool
  | openapi | swaggerUi | swaggerUiRedirect | redoc | health | getManifest | registerAgent | root => false
  | _ => true

/-- The handler has a body, a query parameter or a header that is validated before it
runs. -/
def takesInput : Endpoint → Bool
  | registerAgent | createWorkflow | listWorkflows | updateWorkflow | runTask | listTasks
  | cancelTaskEndpoint | retaskTaskEndpoint | redirectTaskEndpoint | pauseTaskEndpoint
  | resumeTaskEndpoint | injectContextEndpoint | postTaskEvent | streamTaskEvents => true
  | _ => false

end Endpoint

structure Route where
  methods : List String
  path : String
  endpoint : Endpoint
  deriving DecidableEq

/-- In the order in which `create_app` includes the routers. -/
def routes : List Route := [
  ⟨["GET", "HEAD"], "/openapi.json", .openapi⟩,
  ⟨["GET", "HEAD"], "/docs", .swaggerUi⟩,
  ⟨["GET", "HEAD"], "/docs/oauth2-redirect", .swaggerUiRedirect⟩,
  ⟨["GET", "HEAD"], "/redoc", .redoc⟩,
  ⟨["GET"], "/health", .health⟩,
  ⟨["GET"], "/manifest", .getManifest⟩,
  ⟨["POST"], "/agents/register", .registerAgent⟩,
  ⟨["POST"], "/agents/{agent_id}/heartbeat", .heartbeat⟩,
  ⟨["GET"], "/agents/{agent_id}", .getAgent⟩,
  ⟨["GET"], "/agents/{agent_id}/tasks/pending", .getPendingTasks⟩,
  ⟨["POST"], "/workflows", .createWorkflow⟩,
  ⟨["GET"], "/workflows", .listWorkflows⟩,
  ⟨["GET"], "/workflows/{workflow_id}", .getWorkflow⟩,
  ⟨["PUT"], "/workflows/{workflow_id}", .updateWorkflow⟩,
  ⟨["POST"], "/workflows/{workflow_id}/run", .runTask⟩,
  ⟨["GET"], "/workflows/{workflow_id}/tasks/{task_id}", .getTask⟩,
  ⟨["GET"], "/workflows/{workflow_id}/tasks", .listTasks⟩,
  ⟨["POST"], "/workflows/{workflow_id}/tasks/{task_id}/cancel", .cancelTaskEndpoint⟩,
  ⟨["POST"], "/workflows/{workflow_id}/tasks/{task_id}/retask", .retaskTaskEndpoint⟩,
  ⟨["POST"], "/workflows/{workflow_id}/tasks/{task_id}/redirect", .redirectTaskEndpoint⟩,
  ⟨["POST"], "/workflows/{workflow_id}/tasks/{task_id}/pause", .pauseTaskEndpoint⟩,
  ⟨["POST"], "/workflows/{workflow_id}/tasks/{task_id}/resume", .resumeTaskEndpoint⟩,
  ⟨["POST"], "/workflows/{workflow_id}/tasks/{task_id}/context", .injectContextEndpoint⟩,
  ⟨["POST"], "/tasks/{task_id}/events", .postTaskEvent⟩,
  ⟨["GET"], "/workflows/{workflow_id}/tasks/{task_id}/stream", .streamTaskEvents⟩,
  ⟨["GET"], "/", .root⟩]

/-! ## Matching a path -/

/-- A parameter takes any single segment that is not empty. -/
def segmentMatches (template segment : List Char) : Bool :=
  if template.head? = some '\x7b' then segment ≠ [] else segment = template

def segmentsMatch : List (List Char) → List (List Char) → Bool
  | [], [] => true
  | template :: templates, segment :: segments =>
      segmentMatches template segment && segmentsMatch templates segments
  | _, _ => false

/-- The compiled expression ends in `$`, which also stands before a final line break. -/
def pathMatches (template path : String) : Bool :=
  let parts := template.toList.splitOn '/'
  segmentsMatch parts (path.toList.splitOn '/') ||
    (path.toList.getLast? = some '\n' && segmentsMatch parts (path.toList.dropLast.splitOn '/'))

def route? (method path : String) : Option Endpoint :=
  ((routes.filter fun r => pathMatches r.path path).find? fun r => method ∈ r.methods).map Route.endpoint

example : route? "GET" "/workflows/wf/tasks/task-a" = some .getTask := by decide

/-! ## Calling a handler -/

/-- A handler that runs, and what its `require_auth` parameter is. -/
structure HandlerCall (C : Crypto) where
  endpoint : Endpoint
  agent : Option (AuthenticatedAgent C)

/-- Whether the handler is called once its dependencies are solved: the other parameters
have to be valid (`accepts`). -/
def called {C : Crypto} (accepts : Endpoint → Request → Bool) (req : Request) (endpoint : Endpoint)
    (agent : Option (AuthenticatedAgent C)) : Option (HandlerCall C) :=
  if endpoint.takesInput && !accepts endpoint req then none else some { endpoint, agent }

/-- `none` is an answer without a handler, as 404, 405 or 422. -/
def dispatch (C : Crypto) (accepts : Endpoint → Request → Bool) (now : Time) (req : Request) :
    Gate (Option (HandlerCall C)) :=
  match route? req.method req.path with
  | none => pure none
  | some endpoint => do
      let agent ← if endpoint.dependsOnAuth then requireAuth C now req else pure none
      return called accepts req endpoint agent

/-- A handler that depends on the gate runs only for an agent the gate verified. -/
def Guarded (C : Crypto) (accepts : Endpoint → Request → Bool) (now : Time)
    (G : Store → Store → Prop) (req : Request) (s : Store) : Prop :=
  Gate.wp G (dispatch C accepts now req) (fun r _ =>
    ∀ call, r = .ok (some call) → call.endpoint.dependsOnAuth = true →
      ∃ p a atKey atStatus, Presents now req p ∧ call.agent = some a ∧ G s atKey ∧
        G atKey atStatus ∧ Verified C req p a atKey atStatus) s

/-- The path is exempt, but it is routed to a handler that depends on the gate. -/
def Bypassed (accepts : Endpoint → Request → Bool) (req : Request) : Prop :=
  req.url.path ∈ unprotectedPaths ∧
    ∃ endpoint, route? req.method req.path = some endpoint ∧ endpoint.dependsOnAuth = true ∧
      (endpoint.takesInput && !accepts endpoint req) = false

theorem called_eq_some {C : Crypto} {accepts : Endpoint → Request → Bool} {req : Request}
    {endpoint : Endpoint} {agent : Option (AuthenticatedAgent C)} {call : HandlerCall C} :
    called accepts req endpoint agent = some call ↔
      (endpoint.takesInput && !accepts endpoint req) = false ∧ call = ⟨endpoint, agent⟩ := by
  unfold called
  split
  · rename_i invalid
    simp [invalid]
  · rename_i valid
    simp [valid, eq_comm]

theorem exempt_route : ∀ path ∈ unprotectedPaths, ∀ r ∈ routes, pathMatches r.path path = true →
    r.endpoint.dependsOnAuth = true → path = "/agents/register" ∧ r.methods = ["GET"] := by
  decide +kernel

theorem route?_exempt {method path : String} {endpoint : Endpoint} (exempt : path ∈ unprotectedPaths)
    (routed : route? method path = some endpoint) (depends : endpoint.dependsOnAuth = true) :
    method = "GET" ∧ path = "/agents/register" := by
  obtain ⟨r, found, rfl⟩ := Option.map_eq_some_iff.mp routed
  obtain ⟨member, matched⟩ := List.mem_filter.mp (List.mem_of_find?_eq_some found)
  have named := List.find?_some found
  obtain ⟨register, methods⟩ := exempt_route path exempt r member matched depends
  rw [methods] at named
  exact ⟨by simpa using named, register⟩

theorem bypassed_plain {accepts : Endpoint → Request → Bool} {req : Request}
    (plain : req.url.path = req.path) :
    Bypassed accepts req ↔ req.method = "GET" ∧ req.path = "/agents/register" := by
  constructor
  · rintro ⟨exempt, endpoint, routed, depends, _⟩
    exact route?_exempt (plain ▸ exempt) routed depends
  · rintro ⟨method, path⟩
    have routed : route? "GET" "/agents/register" = some .getAgent := by decide
    refine ⟨?_, .getAgent, ?_, rfl, ?_⟩
    · rw [plain, path]
      decide
    · rw [method, path, routed]
    · rfl

theorem guarded_iff (C : Crypto) (accepts : Endpoint → Request → Bool) (now : Time)
    (G : Store → Store → Prop) (req : Request) (s : Store) :
    Guarded C accepts now G req s ↔ ¬ Bypassed accepts req := by
  unfold Guarded dispatch
  cases routed : route? req.method req.path with
  | none => simp [Bypassed, routed]
  | some endpoint =>
      by_cases depends : endpoint.dependsOnAuth = true
      · simp only [depends, if_true, Gate.wp, Prog.wp_bind, Prog.wp_pure]
        rw [← Gate.wp, wp_requireAuth _ (by intro e s' call same; cases same)]
        simp only [Except.ok.injEq, called_eq_some]
        constructor
        · rintro ⟨answered, _⟩ ⟨exempt, endpoint', same, _, valid⟩
          cases routed.symm.trans same
          obtain ⟨_, a, _, _, _, absent, _⟩ := answered exempt _ ⟨valid, rfl⟩ depends
          cases absent
        · intro honest
          refine ⟨?_, ?_⟩
          · rintro exempt call ⟨valid, rfl⟩ _
            exact absurd ⟨exempt, endpoint, routed, depends, valid⟩ honest
          · rintro _ p presents a atKey atStatus first second verified call ⟨_, rfl⟩ _
            exact ⟨p, a, atKey, atStatus, presents, rfl, first, second, verified⟩
      · have honest : ¬ Bypassed accepts req := by
          rintro ⟨_, endpoint', same, depends', _⟩
          cases routed.symm.trans same
          exact depends depends'
        simp only [depends, honest, not_false_eq_true, iff_true]
        intro call same depends'
        obtain ⟨_, rfl⟩ := called_eq_some.mp (Except.ok.inj same)
        exact absurd depends' depends

/-- No handler that depends on the gate runs for a request that the gate did not verify,
unless the path of the request is exempt; where the framework's URL has the path that
was routed, that is the lookup of an agent under the name `register`. -/
theorem handlers_guarded (C : Crypto) (accepts : Endpoint → Request → Bool) (now : Time)
    (G : Store → Store → Prop) (req : Request) (s : Store) :
    (Guarded C accepts now G req s ↔ ¬ Bypassed accepts req) ∧
    (req.url.path = req.path →
      (Guarded C accepts now G req s ↔ ¬ (req.method = "GET" ∧ req.path = "/agents/register"))) := by
  refine ⟨guarded_iff C accepts now G req s, fun plain => ?_⟩
  rw [guarded_iff, bypassed_plain plain]

/-! ### Two lookups without headers -/

namespace Demo

def bare (path : String) (plain : path.toList.all fun c => c ≠ '\n' ∧ c ≠ '?' ∧ c ≠ '#') : Request where
  method := "GET"
  path := path
  url := ⟨path, "", List.all_iff_forall_prop.mp plain, by simp⟩
  authorization := none
  fleetTimestamp := none
  body := []
  method_plain := by decide
  timestamp_plain := by simp

end Demo

theorem handlers_guarded_executor :
    Guarded Demo.crypto (fun _ _ => true) 0 Eq (Demo.bare "/agents/executor" (by decide)) Demo.store :=
  ((handlers_guarded Demo.crypto (fun _ _ => true) 0 Eq (Demo.bare "/agents/executor" (by decide))
    Demo.store).2 rfl).mpr (fun lookup => absurd lookup.2 (by decide))

/-- The agents' lookup of the name `register` runs without an agent. -/
theorem register_unguarded :
    Prog.run (fun w _ => w.elim) (dispatch Demo.crypto (fun _ _ => true) 0
      (Demo.bare "/agents/register" (by decide))) Demo.store =
        (.ok (some ⟨.getAgent, none⟩), Demo.store) ∧
    ¬ Guarded Demo.crypto (fun _ _ => true) 0 Eq (Demo.bare "/agents/register" (by decide))
      Demo.store := by
  have bypassed : Bypassed (fun _ _ => true) (Demo.bare "/agents/register" (by decide)) :=
    (bypassed_plain rfl).mpr ⟨rfl, rfl⟩
  refine ⟨rfl, ?_⟩
  rw [guarded_iff]
  exact not_not_intro bypassed

end Fleet.Api
