/- Principal-side operations: cancel, retask, redirect, pause, resume, lineage. -/
import Fleet.Api.Crud

namespace Fleet.Api
open Fleet.Lib

/-! ## The checks every principal operation starts with -/

def workflowNotFound (workflowId : String) : FleetAPIError where
  kind := .notFound
  code := .workflowNotFound
  message := s!"Workflow '{workflowId}' not found."
  suggestion := some "Check the workflow ID. Use GET /workflows to list available workflows."
  links := [("list", .obj [("href", .str "/workflows")])]

def taskNotFound (workflowId taskId : String) : FleetAPIError where
  kind := .notFound
  code := .taskNotFound
  message := s!"Task '{taskId}' not found in workflow '{workflowId}'."
  suggestion := some "Check the task ID. Use GET /workflows/\x7bworkflow_id\x7d/tasks to list tasks."
  links := [("workflow", .obj [("href", .str s!"/workflows/{workflowId}")])]

/-- The refusals of the six operations differ only in the verb. -/
def notAuthorized (verb : String) : FleetAPIError where
  kind := .auth
  code := .notAuthorized
  message := s!"Only the task caller or workflow owner may {verb}."
  suggestion := some "Authenticate as the task's principal agent or the workflow owner."

def fetchWorkflow (workflowId : String) : Db Workflow :=
  Db.fetch (fun s => s.workflows.find? workflowId) (workflowNotFound workflowId)

def fetchTask (workflowId taskId : String) : Db Task :=
  Db.fetch (fun s => (s.tasks.find? taskId).filter (fun t => t.workflowId = workflowId))
    (taskNotFound workflowId taskId)

def MayControl (agent : String) (task : Task) (workflow : Workflow) : Prop :=
  agent = task.principalAgentId ∨ agent = workflow.ownerAgentId

instance (agent : String) (task : Task) (workflow : Workflow) :
    Decidable (MayControl agent task workflow) := by
  unfold MayControl; infer_instance

/-- Steps 1 to 3 of every principal operation. -/
def authorized (workflowId taskId agent verb : String) : Db Task := do
  let workflow ← fetchWorkflow workflowId
  let task ← fetchTask workflowId taskId
  Db.ensure (MayControl agent task workflow) (notAuthorized verb)
  return task

/-! ## Cancel -/

def notCancellable (task : Task) : FleetAPIError where
  kind := .state
  code := .invalidStateTransition
  message := "Task '" ++ task.id ++ "' cannot be cancelled. Current status: '"
    ++ task.status.value
    ++ "'. Only tasks with status 'accepted', 'running', or 'paused' can be cancelled."

def cancelTask (clk : Clock) (workflowId taskId cancelledBy : String) (reason : Option String) :
    Db Task := do
  let task ← authorized workflowId taskId cancelledBy "cancel this task"
  match task.transitionTo clk.nowUtc .cancelled with
  | .error _ => Db.raise (notCancellable task)
  | .ok task' =>
      let last ← Db.query (fun s => s.maxSequence task.id)
      Db.commit {
        dirty := some (task, task')
        newEvents := [{
          taskId := task.id
          eventType := "status"
          data := some [
            ("from_status", .str task.status.value),
            ("to_status", .str "cancelled"),
            ("reason", .ofOption reason),
            ("cancelled_by", .str cancelledBy)]
          sequence := last + 1
          createdAt := clk.dbNow }] }
      Db.refresh task'

/-! ## Retask and redirect -/

def depthExceeded (env : Env) (task : Task) (suggestion : String) : FleetAPIError where
  kind := .inputValidation
  code := .retaskDepthExceeded
  message := "Lineage depth limit (" ++ toString env.settings.fleetLineageMaxDepth
    ++ ") exceeded. Task '" ++ task.id ++ "' is already at depth " ++ toString task.lineageDepth ++ "."
  suggestion := some suggestion

/-- `TaskPriority(priority)` when the request overrides the inherited priority. -/
def resolvePriority (override : Option String) (inherited : TaskPriority) :
    Except Failure TaskPriority :=
  match override with
  | some p => parsePriority p
  | none => .ok inherited

theorem resolvePriority_error {override : Option String} {inherited : TaskPriority} {e : Failure}
    (h : resolvePriority override inherited = .error e) : e.isPauseTimeout = false := by
  cases override with
  | none => cases h
  | some p => exact parsePriority_error h

/-- The task that continues `task`: same principal, executor and limits, one
level deeper in the same lineage. -/
def successor (task : Task) (workflowId hex : String) (input : Dict) (priority : TaskPriority)
    (now : Time) (idempotencyKey : Option String) (metadata : Dict) : Task where
  id := newTaskId hex
  workflowId := workflowId
  principalAgentId := task.principalAgentId
  executorAgentId := task.executorAgentId
  status := .accepted
  input := input
  result := .null
  priority := priority
  timeoutSeconds := task.timeoutSeconds
  parentTaskId := some task.id
  rootTaskId := some (orElse task.rootTaskId task.id)
  lineageDepth := task.lineageDepth + 1
  delegationDepth := task.delegationDepth
  callbackUrl := none
  idempotencyKey := idempotencyKey
  createdAt := now
  startedAt := none
  completedAt := none
  pausedAt := none
  metadata := some metadata

structure Refinement where
  message : String
  additionalInput : Option Dict := none
  constraints : Option Dict := none

/-- The refinement as the request carries it, absent fields left out. -/
def Refinement.toDict (r : Refinement) : Dict :=
  [("message", .str r.message)]
    ++ (r.additionalInput.map fun d => ("additional_input", .obj d)).toList
    ++ (r.constraints.map fun d => ("constraints", .obj d)).toList

def mergedInput (task : Task) (refinement : Refinement) : Dict :=
  Dict.update task.input (refinement.additionalInput.getD [])

def notReviewable (task : Task) : FleetAPIError where
  kind := .state
  code := .retaskNotReviewable
  message := "Task '" ++ task.id ++ "' cannot be retasked. Current status: '" ++ task.status.value
    ++ "'. Only tasks with status 'completed' or 'failed' can be retasked."

structure RetaskRequest where
  workflowId : String
  taskId : String
  callerAgentId : String
  refinement : Refinement
  priority : Option String := none
  idempotencyKey : Option String := none

def retaskTask (env : Env) (clk : Clock) (hex : String) (req : RetaskRequest) :
    Db (Task × Task × Bool) := do
  let task ← authorized req.workflowId req.taskId req.callerAgentId "retask this task"
  Db.ensure (task.status = .completed ∨ task.status = .failed) (notReviewable task)
  Db.ensure (task.lineageDepth < env.settings.fleetLineageMaxDepth) (depthExceeded env task
    "The retask chain has reached its maximum depth. Start a new task instead.")
  let input := mergedInput task req.refinement
  match ← replayOf env req.idempotencyKey input with
  | some existing => return (existing, task, true)
  | none =>
  match task.transitionTo clk.nowUtc .retasked with
  | .error _ => Db.raise (notReviewable task)
  | .ok task' =>
      let priority ← Db.ofExcept (resolvePriority req.priority task.priority)
      let next := successor task req.workflowId hex input priority clk.now req.idempotencyKey
        [("refinement", .obj req.refinement.toDict)]
      let last ← Db.query (fun s => s.maxSequence task.id)
      Db.commit {
        newTask := some next
        dirty := some (task, task')
        newEvents := [
          { taskId := task.id
            eventType := "status"
            data := some [
              ("from_status", .str task.status.value),
              ("to_status", .str "retasked"),
              ("retask_id", .str next.id),
              ("retasked_by", .str req.callerAgentId),
              ("refinement_message", .str req.refinement.message)]
            sequence := last + 1
            createdAt := clk.now },
          createdEvent next.id task.principalAgentId [("retask_of", .str task.id)] clk.now] }
      let next ← Db.refresh next
      let task' ← Db.refresh task'
      return (next, task', false)

/-- Walk the parent links, at most `fuel` of them, nearest ancestor first. -/
def ancestorIds : Nat → Option String → Db (List String)
  | 0, _ => pure []
  | _ + 1, none => pure []
  | fuel + 1, some parentId => do
      match ← Db.query (fun s => s.tasks.find? parentId) with
      | none => return []
      | some parent =>
          let rest ← ancestorIds fuel parent.parentTaskId
          return parent.id :: rest

def buildLineageChain (task : Task) : Db (List String) := do
  let ancestors ← ancestorIds task.lineageDepth task.parentTaskId
  return (task.id :: ancestors).reverse

def notRedirectable (task : Task) : FleetAPIError where
  kind := .state
  code := .redirectNotPossible
  message := "Task '" ++ task.id ++ "' cannot be redirected. Current status: '"
    ++ task.status.value ++ "'. Only tasks with status 'running' or 'paused' can be redirected."

/-- Metadata of the redirected task: the reason, and the progress if inherited. -/
def redirectMetadata (task : Task) (reason : String) (inheritProgress : Bool) : Dict :=
  let old := task.metadata.getD []
  let inherited (key : String) : Dict :=
    if inheritProgress && old.get key ≠ .null then [(key, old.get key)] else []
  [("redirect_reason", .str reason)] ++ inherited "progress" ++ inherited "progress_message"

structure RedirectRequest where
  workflowId : String
  taskId : String
  callerAgentId : String
  reason : String
  newInput : Dict
  inheritProgress : Bool := false
  priority : Option String := none
  idempotencyKey : Option String := none

def redirectTask (env : Env) (clk : Clock) (hex : String) (req : RedirectRequest) :
    Db (Task × Task × Bool) := do
  let task ← authorized req.workflowId req.taskId req.callerAgentId "redirect this task"
  Db.ensure (task.status = .running ∨ task.status = .paused) (notRedirectable task)
  Db.ensure (task.lineageDepth < env.settings.fleetLineageMaxDepth) (depthExceeded env task
    "The lineage chain has reached its maximum depth. Start a new task instead.")
  match ← replayOf env req.idempotencyKey req.newInput with
  | some existing => return (existing, task, true)
  | none =>
  match task.transitionTo clk.nowUtc .redirected with
  | .error _ => Db.raise (notRedirectable task)
  | .ok task' =>
      let priority ← Db.ofExcept (resolvePriority req.priority task.priority)
      let next := successor task req.workflowId hex req.newInput priority clk.now
        req.idempotencyKey (redirectMetadata task req.reason req.inheritProgress)
      let last ← Db.query (fun s => s.maxSequence task.id)
      Db.commit {
        newTask := some next
        dirty := some (task, task')
        newEvents := [
          { taskId := task.id
            eventType := "status"
            data := some [
              ("from_status", .str task.status.value),
              ("to_status", .str "redirected"),
              ("reason", .str req.reason),
              ("redirect_id", .str next.id),
              ("redirected_by", .str req.callerAgentId)]
            sequence := last + 1
            createdAt := clk.now },
          createdEvent next.id task.principalAgentId [("redirect_of", .str task.id)] clk.now] }
      let next ← Db.refresh next
      let task' ← Db.refresh task'
      return (next, task', false)

/-! ## Pause -/

def notPausable (task : Task) : FleetAPIError where
  kind := .state
  code := .taskNotPausable
  message := "Task '" ++ task.id ++ "' cannot be paused. Current status: '" ++ task.status.value
    ++ "'."
  suggestion := some "Only tasks with status 'running' can be paused."

def pausedState (env : Env) (task : Task) (now : Time) : Dict :=
  let metadata := task.metadata.getD []
  let ttl := env.settings.fleetPauseTtlSeconds
  [ ("progress", (metadata.get? "progress").getD (.num 0)),
    ("message", metadata.get "progress_message"),
    ("resumable", .bool true),
    ("state_ttl_seconds", .num ttl),
    ("expires_at", .str (env.isoformat (now + ttl * 1000000))) ]

def pauseTask (env : Env) (clk : Clock) (workflowId taskId pausedBy : String)
    (reason : Option String) : Db (Task × TaskEvent) := do
  let task ← authorized workflowId taskId pausedBy "pause this task"
  Db.ensure (task.status = .running) (notPausable task)
  match task.transitionTo clk.nowUtc .paused with
  | .error _ => Db.raise (notPausable task)
  | .ok task' =>
      let task' := { task' with pausedAt := some clk.now }
      let last ← Db.query (fun s => s.maxSequence task.id)
      let event : TaskEvent := {
        taskId := task.id
        eventType := "pause_requested"
        data := some [
          ("from_status", .str task.status.value),
          ("to_status", .str "paused"),
          ("reason", .ofOption reason),
          ("paused_by", .str pausedBy),
          ("paused_state", .obj (pausedState env task clk.now))]
        sequence := last + 1
        createdAt := clk.dbNow }
      Db.commit { dirty := some (task, task'), newEvents := [event] }
      let task' ← Db.refresh task'
      return (task', event)

/-! ## Resume -/

def notPaused (task : Task) : FleetAPIError where
  kind := .state
  code := .taskNotPaused
  message := "Task '" ++ task.id ++ "' cannot be resumed. Current status: '" ++ task.status.value
    ++ "'."
  suggestion := some "Only tasks with status 'paused' can be resumed."

def pauseTimeout (env : Env) (task : Task) (elapsed : Int) : FleetAPIError where
  kind := .state
  code := .pauseTimeout
  message := "Pause TTL expired for task '" ++ task.id ++ "'. Task was paused for "
    ++ toString (seconds elapsed) ++ " seconds (TTL: "
    ++ toString env.settings.fleetPauseTtlSeconds ++ "s). Task has been auto-cancelled."
  suggestion := some "Create a new task. The paused state has expired."

@[simp] theorem isPauseTimeout_pauseTimeout (env : Env) (task : Task) (elapsed : Int) :
    (Failure.api (pauseTimeout env task elapsed)).isPauseTimeout = true := rfl

def pausedFor (task : Task) (now : Time) : Option Int := task.pausedAt.map (fun at' => now - at')

def pauseExpired (env : Env) (task : Task) (now : Time) : Bool :=
  (pausedFor task now).any (fun elapsed => env.settings.fleetPauseTtlSeconds * 1000000 < elapsed)

def expiryEvent (clk : Clock) (task : Task) (elapsed last : Int) : TaskEvent where
  taskId := task.id
  eventType := "status"
  data := some [
    ("from_status", .str "paused"),
    ("to_status", .str "cancelled"),
    ("reason", .str "PAUSE_TIMEOUT"),
    ("paused_duration_seconds", .num (seconds elapsed))]
  sequence := last + 1
  createdAt := clk.dbNow

/-- The pause outlived its TTL: cancel the task, persist that, and still raise. -/
def expirePause (env : Env) (clk : Clock) (task : Task) (elapsed : Int) :
    Db (Task × TaskEvent) := do
  let task' := match task.transitionTo clk.nowUtc .cancelled with
    | .ok task' => task'
    | .error _ => task
  let last ← Db.query (fun s => s.maxSequence task.id)
  Db.commit { dirty := some (task, task'), newEvents := [expiryEvent clk task elapsed last] }
  let _ ← Db.refresh task'
  Db.raise (pauseTimeout env task elapsed)

def resumeTask (env : Env) (clk : Clock) (workflowId taskId resumedBy : String)
    (priority : Option String) : Db (Task × TaskEvent) := do
  let task ← authorized workflowId taskId resumedBy "resume this task"
  Db.ensure (task.status = .paused) (notPaused task)
  if pauseExpired env task clk.now then
    expirePause env clk task ((pausedFor task clk.now).getD 0)
  else
  match task.transitionTo clk.nowUtc .running with
  | .error _ => Db.raise (notPaused task)
  | .ok task' =>
      let priority ← Db.ofExcept (resolvePriority priority task.priority)
      let task' := { task' with pausedAt := none, priority := priority }
      let last ← Db.query (fun s => s.maxSequence task.id)
      let event : TaskEvent := {
        taskId := task.id
        eventType := "resume_requested"
        data := some [
          ("from_status", .str task.status.value),
          ("to_status", .str "running"),
          ("resumed_by", .str resumedBy),
          ("paused_duration_seconds", .num (seconds ((pausedFor task clk.now).getD 0))),
          ("priority", .str priority.value)]
        sequence := last + 1
        createdAt := clk.dbNow }
      Db.commit { dirty := some (task, task'), newEvents := [event] }
      let task' ← Db.refresh task'
      return (task', event)

end Fleet.Api
