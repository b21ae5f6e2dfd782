/- The service, one request after another, refines the machine of operations and catalogue
   changes that the results about operations are about. -/
import Fleet.System.Hypermedia
import Fleet.System.SharedService

namespace Fleet.System
open Fleet.Lib Fleet.Api

/-! ## Serving alone -/

/-- The store that an incoming request or sweep leaves when nothing else is served. -/
def serveAlone (srv : Server) (a : Incoming) (s : Store) : Store :=
  ((srv.serve a).run Store.flushService s).2

def serveAll (srv : Server) (incoming : List Incoming) (s : Store) : Store :=
  incoming.foldl (fun s a => serveAlone srv a s) s

/-- The operation is the one that the request asks for, in the name of an agent it is
signed by. -/
def AskedBy (srv : Server) (s : Store) (a : Incoming) (op : Op) : Prop :=
  ∃ req d endpoint params input, a = .request req d ∧
    resolve req.method req.path = some (endpoint, params) ∧ srv.validate endpoint req = some input ∧
    endpoint.operation d params op.agent input = some op ∧ SignedIn srv.crypto d.clk.now req s op.agent

/-- Agents and workflows may have changed, none of them removed; tasks and events have not. -/
structure Catalogued (s s' : Store) : Prop where
  tasks : s'.tasks = s.tasks
  events : s'.events = s.events
  keeps : Keeps s s'

namespace Catalogued
variable {s s' s'' : Store}

theorem refl (s : Store) : Catalogued s s := ⟨rfl, rfl, .refl s⟩

theorem trans (h : Catalogued s s') (k : Catalogued s' s'') : Catalogued s s'' :=
  ⟨k.tasks.trans h.tasks, k.events.trans h.events, .trans _ _ _ h.keeps k.keeps⟩

theorem flushService {w : ServiceWork} (other : ∀ u, w ≠ .tasks u) (h : s.flushService w = .ok s') :
    Catalogued s s' := by
  have keeps := Keeps.flushService w s s' h
  cases w with
  | tasks u => exact absurd rfl (other u)
  | workflows w =>
      obtain ⟨tasks, events⟩ := flushWorkflow_frame (mapError_ok h)
      exact ⟨tasks, events, keeps⟩
  | agents w =>
      obtain ⟨tasks, events⟩ := flushAgent_frame (mapError_ok h)
      exact ⟨tasks, events, keeps⟩

/-- It is one step of the machine. -/
theorem step (env : Env) (h : Catalogued s s') :
    (Step.catalog s'.agents s'.workflows).Conserves s ∧
      (Step.catalog s'.agents s'.workflows).exec env s = s' := by
  refine ⟨WellKept.conserved h.keeps, ?_⟩
  obtain ⟨tasks, events, -⟩ := h
  cases s'
  cases tasks
  cases events
  rfl

theorem of_wp {α : Type} {p : Service α} {R : Store → ServiceWork → Prop}
    {Q : Except ServiceFailure α → Store → Prop}
    (h : p.wp Store.flushService Keeps R Q s) (others : ∀ s w, R s w → ∀ u, w ≠ .tasks u) :
    Catalogued s (p.run Store.flushService s).2 :=
  Prog.run_invariant (I := Catalogued s)
    (fun _ w _ before promised committed => before.trans (flushService (others _ w promised) committed))
    (Prog.wp_alone Keeps.refl h) (.refl s)

end Catalogued

/-! ## One request -/

def Operates : Endpoint → Prop
  | .runTask | .cancelTaskEndpoint | .retaskTaskEndpoint | .redirectTaskEndpoint | .pauseTaskEndpoint
  | .resumeTaskEndpoint | .injectContextEndpoint | .postTaskEvent => True
  | _ => False

instance (e : Endpoint) : Decidable (Operates e) := by cases e <;> simp only [Operates] <;> infer_instance

section one
variable {srv : Server} {s : Store} {d : Draws} {params : List (String × String)}

theorem operation_operates {endpoint : Endpoint} {input : endpoint.Input} {auth : String} {op : Op}
    (asked : endpoint.operation d params auth input = some op) : Operates endpoint := by
  cases endpoint <;> trivial

theorem operation_agent {endpoint : Endpoint} {input : endpoint.Input} {auth : String} {op : Op}
    (asked : endpoint.operation d params auth input = some op) : op.agent = auth := by
  cases endpoint with
  | runTask | postTaskEvent =>
      obtain ⟨_, -, rfl⟩ := Option.map_eq_some_iff.mp asked
      rfl
  | cancelTaskEndpoint | retaskTaskEndpoint | redirectTaskEndpoint | pauseTaskEndpoint | resumeTaskEndpoint
  | injectContextEndpoint =>
      obtain ⟨_, _, -, -, rfl⟩ := onPath_eq_some.mp asked
      rfl
  | _ => cases asked

theorem onTask_missing {op : String → String → String → Op} {k : String → String → String → Service HttpResponse}
    {agent : Option String} (missing : ∀ auth, agent = some auth →
      (onPath params fun workflowId taskId => op workflowId taskId auth) = none) :
    ((Service.withParam params "workflow_id" fun workflowId => Service.withParam params "task_id" fun taskId =>
      Service.withAgent agent fun auth => k workflowId taskId auth).run Store.flushService s).2 = s := by
  unfold Service.withParam Service.withAgent
  cases inside : params.lookup "workflow_id" with
  | none => rfl
  | some workflowId =>
      cases on : params.lookup "task_id" with
      | none => rfl
      | some taskId =>
          cases agent with
          | none => rfl
          | some auth =>
              have none := missing auth rfl
              simp [onPath, inside, on] at none

theorem handle_missing {endpoint : Endpoint} (operates : Operates endpoint) {input : endpoint.Input}
    {agent : Option String} (missing : ∀ auth, agent = some auth →
      endpoint.operation d params auth input = none) :
    ((srv.handle params agent d endpoint input).run Store.flushService s).2 = s := by
  cases endpoint with
  | cancelTaskEndpoint | retaskTaskEndpoint | redirectTaskEndpoint | pauseTaskEndpoint | resumeTaskEndpoint
  | injectContextEndpoint => exact onTask_missing missing
  | runTask =>
      simp only [Server.handle, Service.withParam]
      cases inside : params.lookup "workflow_id" with
      | none => rfl
      | some workflowId =>
          cases agent with
          | none => rfl
          | some auth =>
              have none := missing auth rfl
              simp [Endpoint.operation, inside] at none
  | postTaskEvent =>
      simp only [Server.handle, Service.withParam]
      cases on : params.lookup "task_id" with
      | none => rfl
      | some taskId =>
          cases agent with
          | none => rfl
          | some auth =>
              have none := missing auth rfl
              simp [Endpoint.operation, on] at none
  | _ => cases operates

theorem identify_alone (endpoint : Endpoint) (req : Request) :
    ((srv.identify d.clk.now req endpoint).run Store.flushService s).2 = s ∧
      ∀ auth, ((srv.identify d.clk.now req endpoint).run Store.flushService s).1 = .ok (some auth) →
        SignedIn srv.crypto d.clk.now req s auth := by
  have same : ((srv.identify d.clk.now req endpoint).run Store.flushService s).2 = s :=
    srv.reads_identify.run s
  have gate : (srv.identify d.clk.now req endpoint).wp Store.flushService Keeps (Justified srv (.request req d))
      (fun r s' => ∀ auth, r = .ok (some auth) → SignedIn srv.crypto d.clk.now req s' auth) s :=
    Server.identify_signed endpoint
  have signed := Prog.wp_run (Prog.wp_alone Keeps.refl gate)
  rw [same] at signed
  exact ⟨same, signed⟩

/-- A request to the endpoint of an operation: the operation runs, or nothing does. -/
theorem served_operation {req : Request} {endpoint : Endpoint}
    (routed : resolve req.method req.path = some (endpoint, params)) (operates : Operates endpoint) :
    (∃ op, AskedBy srv s (.request req d) op ∧
        serveAlone srv (.request req d) s = (op.exec srv.env s).2) ∨
      Catalogued s (serveAlone srv (.request req d) s) := by
  obtain ⟨same, signed⟩ := @identify_alone srv s d endpoint req
  have served : serveAlone srv (.request req d) s =
      ((srv.serve (.request req d)).effect Store.flushService s).2 := rfl
  have idle : ∀ {s'}, s' = s → Catalogued s s' := by
    rintro _ rfl
    exact .refl _
  rw [served, Server.serve, routed]
  dsimp only
  cases ran : (srv.identify d.clk.now req endpoint).run Store.flushService s with
  | mk r s' =>
      rw [ran] at same signed
      obtain rfl : s' = s := same
      cases r with
      | error e =>
          refine .inr (idle ?_)
          simp only [Prog.effect, Prog.run_bind, ran]
      | ok agent =>
          rw [Prog.effect_after ran]
          cases sent : srv.validate endpoint req with
          | none => exact .inr (idle rfl)
          | some input =>
              dsimp only
              rw [Prog.effect_bind (fun _ => Prog.answers_pure _)]
              by_cases asks : ∃ auth op, agent = some auth ∧ endpoint.operation d params auth input = some op
              · obtain ⟨auth, op, rfl, asked⟩ := asks
                have own : op.agent = auth := operation_agent asked
                refine .inl ⟨op, ⟨req, d, endpoint, params, input, rfl, routed, sent, ?_, ?_⟩, ?_⟩
                · rw [own]
                  exact asked
                · rw [own]
                  exact signed auth rfl
                · rw [handle_effect asked]
                  rfl
              · refine .inr (idle (handle_missing operates fun auth named => ?_))
                by_contra some
                obtain ⟨op, asked⟩ := Option.ne_none_iff_exists'.mp some
                exact asks ⟨auth, op, named, asked⟩

/-- What an incoming request does to the tasks is what an operation does that it asks for,
or nothing. -/
theorem serveAlone_step (srv : Server) (s : Store) (a : Incoming) :
    (∃ op, AskedBy srv s a op ∧ serveAlone srv a s = (op.exec srv.env s).2) ∨
      Catalogued s (serveAlone srv a s) := by
  have justified := @Server.serve_justified srv a s
  cases a with
  | sweep now =>
      exact .inr (.of_wp justified fun s w own u => by
        rintro rfl
        cases own)
  | request req d =>
      cases routed : resolve req.method req.path with
      | none =>
          refine .inr ?_
          have left : serveAlone srv (.request req d) s = s := by
            rw [serveAlone, Server.serve, routed]
            rfl
          rw [left]
          exact .refl s
      | some found =>
          obtain ⟨endpoint, params⟩ := found
          by_cases operates : Operates endpoint
          · exact served_operation routed operates
          · refine .inr (.of_wp justified fun s w own u => ?_)
            rintro rfl
            cases own with
            | operated op endpoint' params' input routed' sent asked =>
                rw [routed] at routed'
                cases routed'
                exact operates (operation_operates asked)

end one

/-! ## Runs -/

/-- The steps of a run, each conserving the catalogue that it finds. -/
def Conserving (env : Env) : Store → List Step → Prop
  | _, [] => True
  | s, a :: steps => a.Conserves s ∧ Conserving env (a.exec env s) steps

theorem Served.conserving {env : Env} {s : Store} (h : Served env s) {steps : List Step}
    (conserving : Conserving env s steps) : Served env (runSteps env steps s) := by
  induction steps generalizing s with
  | nil => exact h
  | cons a steps ih => exact ih (h.step a conserving.1) conserving.2

theorem serveAll_cons (srv : Server) (a : Incoming) (incoming : List Incoming) (s : Store) :
    serveAll srv (a :: incoming) s = serveAll srv incoming (serveAlone srv a s) := rfl

theorem serveAlone_keeps (srv : Server) (a : Incoming) (s : Store) : Keeps s (serveAlone srv a s) :=
  Prog.run_invariant (I := Keeps s)
    (fun _ _ _ before _ committed => .trans _ _ _ before (Keeps.flushService _ _ _ committed))
    (Prog.wp_alone Keeps.refl (Server.serve_justified a s)) (.refl s)

theorem serveAll_keeps (srv : Server) (incoming : List Incoming) (s : Store) :
    Keeps s (serveAll srv incoming s) := by
  induction incoming generalizing s with
  | nil => exact .refl s
  | cons a incoming ih => exact .trans _ _ _ (serveAlone_keeps srv a s) (ih _)

theorem AskedBy.mono {srv : Server} {s s' : Store} {a : Incoming} {op : Op} (h : AskedBy srv s a op)
    (keeps : Keeps s s') : AskedBy srv s' a op := by
  obtain ⟨req, d, endpoint, params, input, rfl, routed, sent, asked, signed⟩ := h
  exact ⟨req, d, endpoint, params, input, rfl, routed, sent, asked, signed.mono keeps⟩

/-- The step of the machine is one that this request or sweep may stand for. -/
def StandsFor (srv : Server) (s : Store) (a : Incoming) : Step → Prop
  | .op op => AskedBy srv s a op
  | .catalog _ _ => True

theorem StandsFor.mono {srv : Server} {s s' : Store} {a : Incoming} {step : Step} (h : StandsFor srv s a step)
    (keeps : Keeps s s') : StandsFor srv s' a step := by
  cases step with
  | op op => exact AskedBy.mono h keeps
  | catalog agents workflows => trivial

theorem serveAlone_stands (srv : Server) (s : Store) (a : Incoming) :
    ∃ step, StandsFor srv s a step ∧ step.Conserves s ∧ step.exec srv.env s = serveAlone srv a s := by
  rcases serveAlone_step srv s a with ⟨op, asks, left⟩ | other
  · exact ⟨.op op, asks, trivial, left.symm⟩
  · exact ⟨.catalog _ _, trivial, other.step srv.env⟩

/-- What a run of the service does to the database is, request for request, what operations do
that these ask for, each signed by the agent in whose name it is done, or changes of the
catalogue that remove nothing; so it stays among the stores that the operations are proved about. -/
theorem service_refines (srv : Server) (s : Store) (incoming : List Incoming) :
    (∃ steps, List.Forall₂ (StandsFor srv (serveAll srv incoming s)) incoming steps ∧
      Conserving srv.env s steps ∧ runSteps srv.env steps s = serveAll srv incoming s) ∧
    (Served srv.env s → Served srv.env (serveAll srv incoming s)) := by
  have refines : ∃ steps, List.Forall₂ (StandsFor srv (serveAll srv incoming s)) incoming steps ∧
      Conserving srv.env s steps ∧ runSteps srv.env steps s = serveAll srv incoming s := by
    induction incoming generalizing s with
    | nil => exact ⟨[], .nil, trivial, rfl⟩
    | cons a incoming ih =>
        obtain ⟨step, stands, conserves, left⟩ := serveAlone_stands srv s a
        obtain ⟨steps, later, conserving, run⟩ := ih (serveAlone srv a s)
        refine ⟨step :: steps, ?_, ⟨conserves, ?_⟩, ?_⟩
        · exact .cons (stands.mono (serveAll_keeps srv (a :: incoming) s)) later
        · rw [left]
          exact conserving
        · rw [serveAll_cons, ← run]
          exact congrArg (runSteps srv.env steps) left
  refine ⟨refines, fun served => ?_⟩
  obtain ⟨steps, -, conserving, run⟩ := refines
  rw [← run]
  exact Served.conserving served conserving

end Fleet.System
