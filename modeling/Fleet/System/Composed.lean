/- The service and one sidecar as a machine: who may act when, and what is observed. -/
import Fleet.Lib.Machine
import Fleet.Agent.Poller
import Fleet.Api.Evolution
import Fleet.Api.PendingQuery
import Fleet.Api.PendingSignals

namespace Fleet.System
open Fleet.Lib Fleet.Api
open Fleet.Agent (PendingTask Signal SignalState Sidecar Dispatch Stream Post Outcome Input Ending)

/-! ## The two programs side by side -/

/-- The service's configuration, the sidecar's agent and limit, and the number under
which a posted event reaches the service. -/
structure Setup where
  env : Env
  agentId : String
  maxConcurrent : Nat
  number : Store → String → Int → Int

/-- The number the streamer gave. -/
def asStreamed : Store → String → Int → Int := fun _ _ sequence => sequence

/-- The stream of one acknowledgement: the `running` event first, then `event`. -/
structure Ack where
  taskId : String
  key : String
  event : Option Agent.TaskEvent
  stream : Stream

/-- `offered` and `queue` are what the sidecar still has to do with its last polls. -/
structure State where
  store : Store
  offered : List PendingTask
  sidecar : Sidecar
  queue : List Signal
  ack : Option Ack

def State.initial (store : Store) : State where
  store := store
  offered := []
  sidecar := { dispatches := .empty, signals := {} }
  queue := []
  ack := none

/-- A stream is posted by the dispatch of a task or by the signal poller. -/
inductive Lane where
  | dispatch (taskId : String)
  | ack

/-- `handTasks` and `handSignals` hand a list to the loop of the task poller and of the signal
poller. The service's own queries return none that has an element (`getPendingTasks_raises`,
`getPendingSignals_empty`), so a run starts from the lists. -/
inductive Action where
  | operate (op : Op) (principal : op.byPrincipal = true)
  | catalog (agents : Table String Api.Agent Api.Agent.id)
      (workflows : Table String Workflow Workflow.id)
  | handTasks (taskIds : List String)
  | startTasks
  | handSignals (signals : List Signal)
  | handleSignal
  | arrive (lane : Lane) (clk : Clock)
  | refuse (lane : Lane) (code : Nat)
  | settle (lane : Lane) (outcome : Outcome)
  | advance (taskId : String) (input : Input)

/-- What is observed: a stored status changes; a handler process is started; a
posted event is processed, numbered above the log of its task or not; a post is
over, having been processed or not; a dispatch ends, with the status stored then. -/
inductive Report where
  | moved (taskId : String) (before after : TaskStatus)
  | started (taskId : String)
  | arrived (taskId : String) (above : Bool)
  | settled (taskId : String) (reached : Bool)
  | ended (taskId : String) (status : Option TaskStatus) (conclusive : Bool)
  deriving DecidableEq

/-! ## The service's side -/

/-- `_pending_task_item`, as `PendingTask.model_validate` reads it. -/
def pendingItem (env : Env) (t : Task) : PendingTask where
  taskId := t.id
  workflowId := t.workflowId
  input := t.input
  priority := t.priority.value
  timeoutSeconds := t.timeoutSeconds
  createdAt := env.isoformat t.createdAt

def moves (s s' : Store) : List Report :=
  s'.tasks.rows.filterMap fun t =>
    match s.status? t.id with
    | some before => if before = t.status then none else some (.moved t.id before t.status)
    | none => none

/-- The answer to one attempt; `above` is missing when the request model refuses
the body before the event is processed. -/
structure Arrival where
  code : Nat
  store : Store
  above : Option Bool

namespace Setup
variable (cfg : Setup)

def request (s : Store) (taskId : String) (event : Agent.TaskEvent) (data : Dict) : EventRequest where
  taskId := taskId
  eventType := event.eventType
  data := data
  sequence := cfg.number s taskId event.sequence
  executorAgentId := cfg.agentId

/-- `POST /tasks/{task_id}/events`: the body needs an object and a positive number. -/
def arrival (clk : Clock) (s : Store) (taskId : String) (event : Agent.TaskEvent) : Arrival :=
  match event.data with
  | none => { code := 422, store := s, above := none }
  | some data =>
      let req := cfg.request s taskId event data
      if req.sequence ≤ 0 then { code := 422, store := s, above := none }
      else
        let (result, store) := (Op.processSidecarEvent clk req).exec cfg.env s
        { code := (match result with
            | .ok _ => 201
            | .error e => e.httpStatus)
          store
          above := some (s.maxSequence taskId < req.sequence) }

/-- As `get_pending_tasks` has it: accepted tasks of the agent, in whatever order. -/
def pendingTasks (taskIds : List String) (s : Store) : List PendingTask :=
  ((taskIds.filterMap s.tasks.find?).filter
    fun t => t.executorAgentId = some cfg.agentId && t.status = .accepted).map (pendingItem cfg.env)

/-- As `get_pending_signals` has it: on an active task of the agent, or for its stop. -/
def announces (s : Store) (sig : Signal) : Bool :=
  (s.tasks.find? sig.taskId).any fun t => t.executorAgentId = some cfg.agentId &&
    if sig.signalType.stops then t.status = .cancelled || t.status = .redirected
    else t.status ∈ activeStatuses

def pendingSignals (signals : List Signal) (s : Store) : List Signal := signals.filter (cfg.announces s)

end Setup

/-! ## The sidecar's side -/

namespace State
variable (st : State)

def commit (s : Store) : State × List Report := ({ st with store := s }, moves st.store s)

def withSignals (signals : SignalState) : State := { st with sidecar := { st.sidecar with signals } }

/-- The task and the post under way in a lane. -/
def posting? : Lane → Option (String × Post)
  | .dispatch taskId => do
      let d ← st.sidecar.dispatches.find? taskId
      let post ← d.stream.posting
      return (taskId, post)
  | .ack => do
      let a ← st.ack
      let post ← a.stream.posting
      return (a.taskId, post)

def setStream (f : Stream → Stream) : Lane → State
  | .dispatch taskId =>
      match st.sidecar.dispatches.find? taskId with
      | none => st
      | some d => { st with sidecar := st.sidecar.put { d with stream := f d.stream } }
  | .ack => { st with ack := st.ack.map fun a => { a with stream := f a.stream } }

def setPost (post : Post) : Lane → State := st.setStream fun s => { s with posting := some post }

/-- Whatever became of the acknowledgement, its signal counts as processed. -/
def endAck (a : Ack) : State :=
  { st.withSignals (st.sidecar.signals.markSignalProcessed a.key) with ack := none }

def endDispatch (d : Dispatch) (how : Ending) : State × List Report :=
  ({ st with sidecar := st.sidecar.finish d.taskId },
    [.ended d.taskId (st.store.status? d.taskId) (d.reported || how ≠ .returned)])

def nextPost : Lane → State
  | .dispatch taskId => st.setStream Stream.settled (.dispatch taskId)
  | .ack =>
      match st.ack with
      | none => st
      | some a =>
          match a.event with
          | some event => { st with ack := some { a with event := none, stream := a.stream.post event } }
          | none => st.endAck a

/-- An exception ends the dispatch; an acknowledgement only logs it. -/
def abandon : Lane → State × List Report
  | .dispatch taskId =>
      match st.sidecar.dispatches.find? taskId with
      | none => (st, [])
      | some d => st.endDispatch d .raised
  | .ack =>
      match st.ack with
      | none => (st, [])
      | some a => (st.endAck a, [])

def nextSignal : State :=
  match st.ack, st.queue with
  | none, sig :: rest =>
      let key := Agent.signalKey sig
      if st.sidecar.signals.isSignalProcessed key then { st with queue := rest }
      else
        match Agent.handleSignal st.sidecar.signals sig with
        | (signals, none) => { st.withSignals (signals.markSignalProcessed key) with queue := rest }
        | (signals, some event) =>
            { st.withSignals signals with
              queue := rest
              ack := some { taskId := sig.taskId, key, event := some event, stream := Stream.start } }
  | _, _ => st

/-- An answer given before the event is processed: by the authentication, or by
whatever stands in front of the service. -/
def refuse (lane : Lane) (code : Nat) : State :=
  match st.posting? lane with
  | none => st
  | some (_, post) => if post.answer.isSome then st else st.setPost { post with answer := some code } lane

def settle (lane : Lane) (outcome : Outcome) : State × List Report :=
  match st.posting? lane with
  | none => (st, [])
  | some (taskId, post) =>
      match post.settle outcome with
      | none => (st, [])
      | some (.again post) => (st.setPost post lane, [])
      | some .returned => (st.nextPost lane, [.settled taskId post.reached])
      | some .raised =>
          ((st.abandon lane).1, .settled taskId post.reached :: (st.abandon lane).2)

def advance (taskId : String) (input : Input) : State × List Report :=
  match st.sidecar.dispatches.find? taskId with
  | none => (st, [])
  | some d =>
      match d.turn st.sidecar.signals input with
      | none => (st, [])
      | some (.started next, signals) =>
          let st := st.withSignals signals
          ({ st with sidecar := st.sidecar.put { d with execution := next } }, [.started taskId])
      | some (.awaits next, signals) =>
          let st := st.withSignals signals
          ({ st with sidecar := st.sidecar.put { d with execution := next } }, [])
      | some (.yields event next, signals) =>
          let st := st.withSignals signals
          ({ st with sidecar := st.sidecar.put (d.yielded event next) }, [])
      | some (.ends how, signals) => (st.withSignals signals).endDispatch d how

end State

/-! ## The machine -/

namespace Setup
variable (cfg : Setup)

/-- An attempt is processed once; its answer then waits to be received. -/
def arrive (st : State) (lane : Lane) (clk : Clock) : State × List Report :=
  match st.posting? lane with
  | none => (st, [])
  | some (taskId, post) =>
      if post.answer.isSome then (st, [])
      else
        let a := cfg.arrival clk st.store taskId post.event
        let post := { post with answer := some a.code, reached := post.reached || a.above.isSome }
        ({ st with store := a.store }.setPost post lane,
          moves st.store a.store ++ (a.above.map (Report.arrived taskId)).toList)

def step (st : State) : Action → State × List Report
  | .operate op _ => st.commit (op.exec cfg.env st.store).2
  | .catalog agents workflows => ({ st with store := { st.store with agents, workflows } }, [])
  | .handTasks taskIds =>
      if st.offered.isEmpty then ({ st with offered := cfg.pendingTasks taskIds st.store }, []) else (st, [])
  | .startTasks =>
      ({ st with offered := [], sidecar := st.sidecar.round cfg.maxConcurrent st.offered }, [])
  | .handSignals signals =>
      if st.queue.isEmpty && st.ack.isNone then
        ({ st with queue := cfg.pendingSignals signals st.store }, [])
      else (st, [])
  | .handleSignal => (st.nextSignal, [])
  | .arrive lane clk => cfg.arrive st lane clk
  | .refuse lane code => (st.refuse lane code, [])
  | .settle lane outcome => st.settle lane outcome
  | .advance taskId input => st.advance taskId input

def machine : Machine State Action Report where
  step := cfg.step

/-- The last state of a run from a store without tasks and a sidecar at rest, and
everything observed on the way. -/
def observe (store : Store) (as : List Action) : State × List Report :=
  cfg.machine.run (.initial store) as

variable {cfg}

theorem observe_invariant {I : State → List Report → Prop} {P : State → Action → Prop} {store : Store}
    (start : I (.initial store) [])
    (keeps : ∀ st log a, I st log → P st a → I (cfg.step st a).1 (log ++ (cfg.step st a).2))
    {as : List Action} (along : cfg.machine.Along P (.initial store) as) :
    I (cfg.observe store as).1 (cfg.observe store as).2 := by
  have kept := @Machine.run_invariant _ _ _ cfg.machine I P keeps _ _ start as along
  rw [List.nil_append] at kept
  exact kept

end Setup

/-! ## A small deployment -/

namespace Demo

def setup : Setup where
  env := Api.Demo.env
  agentId := "executor"
  maxConcurrent := 1
  number := asStreamed

def create : List Action := [.operate (Api.Demo.create 0 "a") rfl]

/-- The task is in the list handed to the poller, and its dispatch is created. -/
def take : List Action := [.handTasks ["task-a"], .startTasks]

/-- The post under way is processed and its answer received. -/
def post (second : Int) : List Action :=
  [.arrive (.dispatch "task-a") (Api.Demo.at' second), .settle (.dispatch "task-a") .response]

def launch : List Action :=
  [.advance "task-a" .launched, .advance "task-a" .fed, .advance "task-a" .go]

def exit : List Action := [.advance "task-a" (.line .eof), .advance "task-a" (.exited 0 "")]

end Demo
end Fleet.System
