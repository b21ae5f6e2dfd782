/- The eight operations on tasks as one alphabet, their runs and reachable stores. -/
import Fleet.Api.Commits

namespace Fleet.Api
open Fleet.Lib

inductive Op where
  | createTask (clk : Clock) (hex : String) (req : CreateRequest)
  | retaskTask (clk : Clock) (hex : String) (req : RetaskRequest)
  | redirectTask (clk : Clock) (hex : String) (req : RedirectRequest)
  | cancelTask (clk : Clock) (workflowId taskId cancelledBy : String) (reason : Option String)
  | pauseTask (clk : Clock) (workflowId taskId pausedBy : String) (reason : Option String)
  | resumeTask (clk : Clock) (workflowId taskId resumedBy : String) (priority : Option String)
  | injectContext (clk : Clock) (hex : String) (req : ContextRequest)
  | processSidecarEvent (clk : Clock) (req : EventRequest)

/-- What an operation answers when it does not raise. -/
inductive Answer where
  | created (task : Task) (workflow : Workflow) (replayed : Bool)
  | succeeded (next old : Task) (replayed : Bool)
  | cancelled (task : Task)
  | signalled (task : Task) (event : TaskEvent)
  | injected (response : Dict)
  | recorded (event : TaskEvent) (task : Task) (callback : Bool)

namespace Op
variable (env : Env)

def program : Op → Db Answer
  | createTask clk hex req => do
      let (task, workflow, replayed) ← Api.createTask env clk hex req
      return .created task workflow replayed
  | retaskTask clk hex req => do
      let (next, old, replayed) ← Api.retaskTask env clk hex req
      return .succeeded next old replayed
  | redirectTask clk hex req => do
      let (next, old, replayed) ← Api.redirectTask env clk hex req
      return .succeeded next old replayed
  | cancelTask clk workflowId taskId cancelledBy reason => do
      return .cancelled (← Api.cancelTask clk workflowId taskId cancelledBy reason)
  | pauseTask clk workflowId taskId pausedBy reason => do
      let (task, event) ← Api.pauseTask env clk workflowId taskId pausedBy reason
      return .signalled task event
  | resumeTask clk workflowId taskId resumedBy priority => do
      let (task, event) ← Api.resumeTask env clk workflowId taskId resumedBy priority
      return .signalled task event
  | injectContext clk hex req => do
      return .injected (← Api.injectContext env clk hex req)
  | processSidecarEvent clk req => do
      let (event, task, callback) ← Api.processSidecarEvent clk req
      return .recorded event task callback

/-- The status-free events an operation may store. -/
def quiet : Op → TaskEvent → Prop
  | injectContext clk hex req => fun e => ∃ last, e = injectionEvent clk hex req req.taskId last
  | processSidecarEvent clk req => fun e => e = sidecarEvent clk req
  | _ => fun _ => False

variable {env}

/-- A raise leaves what the store became by the others, except where the expiry of
a pause is committed first. -/
theorem program_wp {G : Store → Store → Prop} {s : Store} (refl : ∀ a, G a a)
    (trans : ∀ a b c, G a b → G b c → G a c) (op : Op)
    {Q : Except Failure Answer → Store → Prop}
    (fails : ∀ e, e.isPauseTimeout = false → ∀ s', G s s' → Q (.error e) s')
    (done : ∀ a s', Q (.ok a) s')
    (expires : ∀ clk workflowId taskId agent priority,
      op = .resumeTask clk workflowId taskId agent priority →
      ∀ task elapsed last s₁ s₂ s₃ s', task.id = taskId → G s s₁ →
      s₁.tasks.find? task.id = some task → task.status = .paused →
      pausedFor task clk.now = some elapsed →
      pauseExpired env task clk.now = true → G s₁ s₂ →
      Store.flush {
        dirty := some (task, { task with status := .cancelled, completedAt := some clk.nowUtc })
        newEvents := [expiryEvent clk task elapsed last] } s₂ = .ok s₃ → G s₃ s' →
      Q (.error (.api (pauseTimeout env task elapsed))) s') :
    (op.program env).wp Store.flush G (Change env G op.quiet) Q s := by
  cases op with
  | createTask clk hex req =>
      rw [program, Prog.wp_bind]
      exact createTask_wp env refl trans fails fun _ s' => done _ s'
  | retaskTask clk hex req =>
      rw [program, Prog.wp_bind]
      exact retaskTask_wp env refl trans fails fun _ s' => done _ s'
  | redirectTask clk hex req =>
      rw [program, Prog.wp_bind]
      exact redirectTask_wp env refl trans fails fun _ s' => done _ s'
  | cancelTask clk workflowId taskId cancelledBy reason =>
      rw [program, Prog.wp_bind]
      exact cancelTask_wp env trans fails fun _ s' => done _ s'
  | pauseTask clk workflowId taskId pausedBy reason =>
      rw [program, Prog.wp_bind]
      exact pauseTask_wp env trans fails fun _ s' => done _ s'
  | resumeTask clk workflowId taskId resumedBy priority =>
      rw [program, Prog.wp_bind]
      exact resumeTask_wp env trans fails (fun _ s' => done _ s')
        (expires clk workflowId taskId resumedBy priority rfl)
  | injectContext clk hex req =>
      rw [program, Prog.wp_bind]
      exact injectContext_wp env refl trans (fun n => ⟨n, rfl⟩) fails fun _ _ _ s' _ _ => done _ s'
  | processSidecarEvent clk req =>
      rw [program, Prog.wp_bind]
      exact processSidecarEvent_wp env refl trans rfl fails fun _ _ _ _ _ s' _ _ _ => done _ s'

variable (env)

def clock : Op → Clock
  | createTask clk _ _ | retaskTask clk _ _ | redirectTask clk _ _ => clk
  | cancelTask clk _ _ _ _ | pauseTask clk _ _ _ _ | resumeTask clk _ _ _ _ => clk
  | injectContext clk _ _ => clk
  | processSidecarEvent clk _ => clk

/-- One request served alone, from its first statement to the close of its session. -/
def exec (op : Op) (s : Store) : Except Failure Answer × Store := (op.program env).run Store.flush s

end Op

/-! ## Runs -/

/-- A step of the service: an operation on tasks, or any other request, which
writes agents and workflows only. -/
inductive Step where
  | op (o : Op)
  | catalog (agents : Table String Agent Agent.id) (workflows : Table String Workflow Workflow.id)

def Step.exec (env : Env) : Step → Store → Store
  | .op o, s => (o.exec env s).2
  | .catalog agents workflows, s => { s with agents, workflows }

def runSteps (env : Env) (steps : List Step) (s : Store) : Store :=
  steps.foldl (fun s step => step.exec env s) s

/-- No task has been created yet. -/
def Store.Blank (s : Store) : Prop := s.tasks.rows = [] ∧ s.events.rows = []

namespace Store.Blank
variable {s : Store}

theorem not_mem (blank : s.Blank) (t : Task) : t ∉ s.tasks := by
  intro member
  rw [← Table.mem_rows, blank.1] at member
  cases member

theorem find?_none (blank : s.Blank) (id : String) : s.tasks.find? id = none :=
  Table.find?_eq_none.mpr fun t member => absurd member (blank.not_mem t)

theorem eventsOf (blank : s.Blank) (id : String) : s.eventsOf id = [] := by
  rw [Store.eventsOf, blank.2]
  rfl

end Store.Blank

inductive Reachable (env : Env) : Store → Prop
  | start {s : Store} (blank : s.Blank) : Reachable env s
  | step {s : Store} (h : Reachable env s) (a : Step) : Reachable env (a.exec env s)

theorem Reachable.runSteps {env : Env} {s : Store} (h : Reachable env s) (steps : List Step) :
    Reachable env (runSteps env steps s) := by
  induction steps generalizing s with
  | nil => exact h
  | cons a steps ih => exact ih (h.step a)

theorem Reachable.invariant {env : Env} {I : Store → Prop} (blank : ∀ s, s.Blank → I s)
    (catalog : ∀ s agents workflows, I s → I { s with agents, workflows })
    (commits : ∀ quiet s w s', I s → Change env Eq quiet s w → Store.flush w s = .ok s' → I s')
    {s : Store} (h : Reachable env s) : I s := by
  induction h with
  | start b => exact blank _ b
  | step _ a ih =>
      cases a with
      | catalog agents workflows => exact catalog _ agents workflows ih
      | op o =>
          refine Prog.run_invariant (fun s w s' => commits o.quiet s w s')
            (o.program_wp (Q := fun _ _ => True) (fun _ => rfl) (fun _ _ _ => Eq.trans) ?_ ?_ ?_) ih
          all_goals intros; trivial

/-! ## A small deployment

One workflow owned by its executor, one principal, and the clock at the start of
an instant. -/

namespace Demo

def digits (width n : Nat) : String :=
  let shown := toString n
  String.ofList (List.replicate (width - shown.length) '0') ++ shown

/-- `isoformat` of an instant of the first day of the epoch. -/
def isoformat (t : Time) : String :=
  let micros := t.toNat
  let second := micros / 1000000
  "1970-01-01T" ++ digits 2 (second / 3600) ++ ":" ++ digits 2 (second / 60 % 60) ++ ":"
    ++ digits 2 (second % 60)
    ++ (if micros % 1000000 = 0 then "" else "." ++ digits 6 (micros % 1000000)) ++ "+00:00"

def env : Env where
  settings := { fleetLineageMaxDepth := 10, fleetPauseTtlSeconds := 3600 }
  inputDigest := fun _ => "44136fa355b3678a1146ad16f7e8649e94fb4fc21fe77e8310c060f61caaff8a"
  validateSchema := fun _ _ => .conforms
  isoformat := isoformat

def agent (id : String) : Agent where
  id := id
  displayName := none
  publicKey := "key"
  capabilities := none
  status := .active
  lastHeartbeat := none
  registeredAt := 0
  metadata := none

def workflow : Workflow where
  id := "wf"
  name := "wf"
  ownerAgentId := "executor"
  description := none
  inputSchema := none
  outputSchema := none
  estimatedDurationSeconds := none
  timeoutSeconds := none
  resultRetentionDays := 30
  status := .active
  tags := none
  createdAt := 0
  updatedAt := none

def store : Store where
  agents := ⟨[agent "principal", agent "executor"], by decide⟩
  workflows := ⟨[workflow], by decide⟩
  tasks := .empty
  events := .empty

theorem store_blank : store.Blank := ⟨rfl, rfl⟩

def at' (second : Int) : Clock := ⟨second * 1000000, second * 1000000, second * 1000000⟩

def create (second : Int) (hex : String) : Op :=
  .createTask (at' second) hex { workflowId := "wf", callerAgentId := "principal", input := [] }

def post (second : Int) (taskId eventType : String) (data : Dict) (sequence : Int) : Op :=
  .processSidecarEvent (at' second)
    { taskId, eventType, data, sequence, executorAgentId := "executor" }

def running : List Step :=
  [.op (create 0 "a"), .op (post 1 "task-a" "status" [("status", .str "running")] 2)]

def paused : List Step := running ++ [.op (.pauseTask (at' 2) "wf" "task-a" "principal" none)]

def delivered : List Step :=
  running ++ [.op (post 2 "task-a" "completed" [("result", .str "draft")] 3)]

def again : Op := .retaskTask (at' 3) "b"
  { workflowId := "wf", taskId := "task-a", callerAgentId := "principal",
    refinement := { message := "again" } }

def retasked : List Step := running ++ [
  .op (post 2 "task-a" "completed" [("result", .str "draft")] 3),
  .op (.retaskTask (at' 3) "b"
    { workflowId := "wf", taskId := "task-a", callerAgentId := "principal",
      refinement := { message := "again" } })]

end Demo

end Fleet.Api
