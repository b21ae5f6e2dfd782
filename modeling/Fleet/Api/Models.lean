/- The stored records and the columns a session writes back. -/
import Fleet.Lib.Json
import Fleet.Api.StateMachine

namespace Fleet.Api
open Fleet.Lib

/-- Microseconds since the epoch. -/
abbrev Time := Int

/-- `timedelta.total_seconds()` truncated by `int`. -/
def seconds (micros : Int) : Int := micros.tdiv 1000000

/-- The clock readings of one request: `datetime.now(UTC)` in the operation,
`now_utc()` inside `transition_to`, and the `now()` of its transaction. -/
structure Clock where
  now : Time
  nowUtc : Time
  dbNow : Time

inductive TaskPriority where
  | low | normal | high | critical
  deriving DecidableEq, Repr

namespace TaskPriority

def value : TaskPriority → String
  | low => "low"
  | normal => "normal"
  | high => "high"
  | critical => "critical"

def all : List TaskPriority := [low, normal, high, critical]

/-- `TaskPriority(value)`; `none` stands for the `ValueError`. -/
def ofValue? (v : String) : Option TaskPriority := all.find? (fun p => p.value = v)

end TaskPriority

inductive AgentStatus where
  | registered | active | unreachable | suspended
  deriving DecidableEq, Repr

structure Agent where
  id : String
  displayName : Option String
  publicKey : String
  capabilities : Option (List String)
  status : AgentStatus
  lastHeartbeat : Option Time
  registeredAt : Time
  metadata : Option Dict

inductive WorkflowStatus where
  | active | deprecated
  deriving DecidableEq, Repr

structure Workflow where
  id : String
  name : String
  ownerAgentId : String
  description : Option String
  inputSchema : Option Dict
  outputSchema : Option Dict
  estimatedDurationSeconds : Option Int
  timeoutSeconds : Option Int
  resultRetentionDays : Int
  status : WorkflowStatus
  tags : Option (List String)
  createdAt : Time
  updatedAt : Option Time

structure Task where
  id : String
  workflowId : String
  principalAgentId : String
  executorAgentId : Option String
  status : TaskStatus
  input : Dict
  result : Json
  priority : TaskPriority
  timeoutSeconds : Option Int
  parentTaskId : Option String
  rootTaskId : Option String
  lineageDepth : Nat
  delegationDepth : Nat
  callbackUrl : Option String
  idempotencyKey : Option String
  createdAt : Time
  startedAt : Option Time
  completedAt : Option Time
  pausedAt : Option Time
  metadata : Option Dict
  deriving DecidableEq

structure TaskEvent where
  taskId : String
  eventType : String
  data : Option Dict
  sequence : Int
  createdAt : Time
  deriving DecidableEq

/-- The unique index `ix_task_events_task_id_sequence`. -/
def TaskEvent.slot (e : TaskEvent) : String × Int := (e.taskId, e.sequence)

def TaskEvent.dataD (e : TaskEvent) : Dict := e.data.getD []

namespace Task

def transitionTo (task : Task) (nowUtc : Time) (newStatus : TaskStatus) :
    Except InvalidStateTransition Task :=
  match validateTransition task.status newStatus with
  | .error e => .error e
  | .ok () =>
      .ok { task with
        status := newStatus
        completedAt := if isTerminal newStatus then some nowUtc else task.completedAt }

theorem transitionTo_ok {task task' : Task} {nowUtc : Time} {newStatus : TaskStatus} :
    task.transitionTo nowUtc newStatus = .ok task' ↔
      newStatus ∈ validTransitions task.status ∧
        task' = { task with
          status := newStatus
          completedAt := if isTerminal newStatus then some nowUtc else task.completedAt } := by
  unfold transitionTo validateTransition
  by_cases valid : newStatus ∈ validTransitions task.status
  · simp only [valid, if_true, Except.ok.injEq, true_and]
    exact eq_comm
  · simp [valid]

/-- The value an `UPDATE` leaves in one column: the session writes a column only
when the attribute differs from the value it loaded. -/
def column {α : Type} [DecidableEq α] (loaded current stored : α) : α :=
  if current = loaded then stored else current

@[simp] theorem column_stored {α : Type} [DecidableEq α] (loaded current : α) :
    column loaded current loaded = current := by
  unfold column
  split
  · rename_i same; exact same.symm
  · rfl

/-- The row after the session writes back the changed columns of a task it
loaded. The columns no operation assigns stay as they are stored. -/
def writeBack (loaded current stored : Task) : Task :=
  { stored with
    status := column loaded.status current.status stored.status
    result := column loaded.result current.result stored.result
    priority := column loaded.priority current.priority stored.priority
    startedAt := column loaded.startedAt current.startedAt stored.startedAt
    completedAt := column loaded.completedAt current.completedAt stored.completedAt
    pausedAt := column loaded.pausedAt current.pausedAt stored.pausedAt
    metadata := column loaded.metadata current.metadata stored.metadata }

/-- `b` differs from `a` at most in the columns an operation may assign after the
row is created. -/
def SameOrigin (a b : Task) : Prop :=
  b = { a with
    status := b.status
    result := b.result
    priority := b.priority
    startedAt := b.startedAt
    completedAt := b.completedAt
    pausedAt := b.pausedAt
    metadata := b.metadata }

namespace SameOrigin
variable {a b c : Task}

@[simp] theorem refl (a : Task) : SameOrigin a a := rfl

theorem trans (h : SameOrigin a b) (k : SameOrigin b c) : SameOrigin a c := by
  unfold SameOrigin at *
  rw [h] at k
  exact k

theorem id (h : SameOrigin a b) : b.id = a.id := (congrArg Task.id h :)
theorem workflowId (h : SameOrigin a b) : b.workflowId = a.workflowId := (congrArg Task.workflowId h :)
theorem principal (h : SameOrigin a b) : b.principalAgentId = a.principalAgentId :=
  (congrArg Task.principalAgentId h :)
theorem executor (h : SameOrigin a b) : b.executorAgentId = a.executorAgentId :=
  (congrArg Task.executorAgentId h :)
theorem parent (h : SameOrigin a b) : b.parentTaskId = a.parentTaskId :=
  (congrArg Task.parentTaskId h :)
theorem root (h : SameOrigin a b) : b.rootTaskId = a.rootTaskId := (congrArg Task.rootTaskId h :)
theorem depth (h : SameOrigin a b) : b.lineageDepth = a.lineageDepth :=
  (congrArg Task.lineageDepth h :)
theorem input (h : SameOrigin a b) : b.input = a.input := (congrArg Task.input h :)
theorem timeout (h : SameOrigin a b) : b.timeoutSeconds = a.timeoutSeconds :=
  (congrArg Task.timeoutSeconds h :)
theorem delegation (h : SameOrigin a b) : b.delegationDepth = a.delegationDepth :=
  (congrArg Task.delegationDepth h :)
theorem key (h : SameOrigin a b) : b.idempotencyKey = a.idempotencyKey :=
  (congrArg Task.idempotencyKey h :)
theorem callbackUrl (h : SameOrigin a b) : b.callbackUrl = a.callbackUrl :=
  (congrArg Task.callbackUrl h :)
theorem createdAt (h : SameOrigin a b) : b.createdAt = a.createdAt := (congrArg Task.createdAt h :)

end SameOrigin

theorem transitionTo_origin {task task' : Task} {nowUtc : Time} {newStatus : TaskStatus}
    (h : task.transitionTo nowUtc newStatus = .ok task') : SameOrigin task task' := by
  obtain ⟨_, rfl⟩ := transitionTo_ok.mp h
  rfl

theorem transitionTo_status {task task' : Task} {nowUtc : Time} {newStatus : TaskStatus}
    (h : task.transitionTo nowUtc newStatus = .ok task') :
    task'.status = newStatus ∧ task'.status ∈ validTransitions task.status := by
  obtain ⟨valid, rfl⟩ := transitionTo_ok.mp h
  exact ⟨rfl, valid⟩

theorem writeBack_origin (loaded current stored : Task) :
    SameOrigin stored (writeBack loaded current stored) := rfl

theorem writeBack_loaded {loaded current : Task} (origin : SameOrigin loaded current) :
    writeBack loaded current loaded = current := by
  simp only [writeBack, column_stored]
  exact origin.symm

end Task
end Fleet.Api
