/- What the service stores of a failure that the executor reports itself. -/
import Fleet.Agent.Executor
import Fleet.Api.Rows

namespace Fleet.System
open Fleet.Lib Fleet.Api
open Fleet.Agent (Execution SignalState Input Turn failedEvent)

/-- The branches of `execute` that report a failure. -/
inductive FailureBranch where
  | notFound | timeout | subprocess
  deriving DecidableEq, Repr

def failureBranch? : Input → Option FailureBranch
  | .notFound _ => some .notFound
  | .timeout _ => some .timeout
  | .exited _ _ => some .subprocess
  | _ => none

/-- The keys of the data that `execute` puts into its failed events. -/
def failureKeys : List String := ["error", "detail", "stderr", "exit_code"]

def Reports (branch : FailureBranch) (event : Agent.TaskEvent) : Prop :=
  ∃ (x next : Execution) (st st' : SignalState) (input : Input),
    x.turn st input = some (.yields event next, st') ∧ failureBranch? input = some branch

/-- The event is posted and accepted, and leaves the result in the row of its task. -/
def Stores (env : Env) (event : Agent.TaskEvent) (result : Json) : Prop :=
  ∃ clk req s answer t, req.eventType = event.eventType ∧ event.data = some req.data ∧
    ((Op.processSidecarEvent clk req).exec env s).1 = .ok answer ∧
    ((Op.processSidecarEvent clk req).exec env s).2.tasks.find? req.taskId = some t ∧
    t.result = result

/-- A code and a message, neither of them null. -/
def Explains (result : Json) : Prop :=
  ∃ d, result = .obj d ∧ Dict.get d "error_code" ≠ .null ∧ Dict.get d "message" ≠ .null

/-! ## The events -/

section events
variable {branch : FailureBranch} {event : Agent.TaskEvent}

/-- A failed event whose data has none of the keys the service reads. -/
structure Unexplained (event : Agent.TaskEvent) : Prop where
  type : event.eventType = "failed"
  silent : ∀ data, event.data = some data →
    Dict.get data "error_code" = .null ∧ Dict.get data "message" = .null

theorem foreign_absent {key : String} (foreign : key ∉ failureKeys) {details : Dict}
    (own : ∀ p ∈ details, p.1 ∈ failureKeys) : Dict.get? details key = none := by
  induction details with
  | nil => rfl
  | cons item details ih =>
      have other : key ≠ item.1 := fun same => foreign (same ▸ own item List.mem_cons_self)
      rw [Dict.get?_cons, if_neg other]
      exact ih fun p member => own p (List.mem_cons_of_mem _ member)

theorem failedEvent_unexplained (sequence : Int) (error : String) {details : Dict}
    (own : ∀ p ∈ details, p.1 ∈ failureKeys) : Unexplained (failedEvent sequence error details) := by
  have all : ∀ p ∈ ("error", Json.str error) :: details, p.1 ∈ failureKeys := by
    intro p member
    rcases List.mem_cons.mp member with rfl | rest
    · exact List.mem_cons_self
    · exact own p rest
  have absent : ∀ key, key ∉ failureKeys → Dict.get (("error", .str error) :: details) key = .null := by
    intro key foreign
    rw [Dict.get, foreign_absent foreign all]
    rfl
  refine ⟨rfl, fun data shape => ?_⟩
  cases shape
  exact ⟨absent _ (by decide), absent _ (by decide)⟩

theorem Reports.unexplained (h : Reports branch event) : Unexplained event := by
  obtain ⟨x, next, st, st', input, turn, known⟩ := h
  have speaks := Agent.turn_yields turn
  generalize next.point = point at speaks
  cases speaks with
  | notFound error => exact failedEvent_unexplained _ _ (fun _ none => by cases none)
  | timedOut | exited => exact failedEvent_unexplained _ _ (by simp [failureKeys])
  | context | cancelled | line => cases known

theorem reports_of_failed {x next : Execution} {st st' : SignalState} {input : Input}
    (turn : x.turn st input = some (.yields event next, st')) (failed : event.eventType = "failed")
    (own : ∀ l, input ≠ .line l) : ∃ branch, Reports branch event := by
  have speaks := Agent.turn_yields turn
  generalize next.point = point at speaks
  cases speaks with
  | notFound | timedOut | exited => exact ⟨_, x, next, st, st', _, turn, rfl⟩
  | line => exact absurd rfl (own _)
  | context | cancelled => exact absurd failed (by simp [Agent.contextEvent, Agent.cancelledEvent])

end events

/-! ## What is stored -/

def unexplained : Json := .obj [("error_code", .null), ("message", .null)]

theorem not_explains_unexplained : ¬ Explains unexplained := by
  rintro ⟨d, same, code, -⟩
  cases same
  exact code rfl

theorem onFailed_result {clk : Clock} {data : Dict} {t t' : Task}
    (applied : applyEvent clk "failed" data t = .ok t') :
    t'.result = .obj [("error_code", data.get "error_code"), ("message", data.get "message")] := by
  obtain ⟨mid, -, rfl⟩ := moveTo_bind applied
  rfl

theorem Stores.unexplained {env : Env} {event : Agent.TaskEvent} {result : Json}
    (h : Stores env event result) (silent : Unexplained event) : result = unexplained := by
  obtain ⟨clk, req, s, answer, t, type, shape, accepted, row, rfl⟩ := h
  have outcome := (Op.processSidecarEvent clk req).exec_outcome env s
  generalize done : (Op.processSidecarEvent clk req).exec env s = served at outcome accepted row
  obtain ⟨answer', s'⟩ := served
  cases outcome with
  | refused => cases accepted
  | recorded _ _ task task' _ known found executor later applied committed =>
      have own := (Table.find?_eq_some.mp found).2
      have now := find?_dirty (own ▸ found) (applyEvent_origin known applied) committed req.taskId
      rw [if_pos own, row] at now
      cases now
      rw [type, silent.type] at applied
      obtain ⟨code, message⟩ := silent.silent _ shape
      rw [onFailed_result applied, code, message, System.unexplained]

theorem Unexplained.stored {env : Env} {event : Agent.TaskEvent} (silent : Unexplained event)
    {clk : Clock} {req : EventRequest} {s : Store} {t : Task} (type : req.eventType = event.eventType)
    (shape : event.data = some req.data) (found : s.tasks.find? req.taskId = some t)
    (executor : t.executorAgentId = some req.executorAgentId) (running : t.status = .running)
    (later : s.maxSequence req.taskId < req.sequence) (fits : fitsInteger req.sequence = true) :
    Stores env event unexplained := by
  have failed : req.eventType = "failed" := type.trans silent.type
  have valid : TaskStatus.failed ∈ validTransitions t.status := by rw [running]; decide
  obtain ⟨t', applied, now, origin⟩ := @applyEvent_grants clk req.eventType req.data t .failed
    (.inr (.inr ⟨failed, rfl⟩)) valid
  have known : req.eventType ∈ validEventTypes := by rw [failed]; decide
  have row := processSidecarEvent_applies env known found executor later fits applied
  have outcome := (Op.processSidecarEvent clk req).exec_outcome env s
  have accepted : ∃ answer, ((Op.processSidecarEvent clk req).exec env s).1 = .ok answer := by
    generalize (Op.processSidecarEvent clk req).exec env s = served at outcome row ⊢
    obtain ⟨answer, s'⟩ := served
    cases outcome with
    | recorded => exact ⟨_, rfl⟩
    | refused =>
        cases found.symm.trans row
        rw [running] at now
        cases now
  obtain ⟨answer, accepted⟩ := accepted
  obtain ⟨code, message⟩ := silent.silent _ shape
  refine ⟨clk, req, s, answer, t', type, shape, accepted, row, ?_⟩
  rw [failed] at applied
  rw [onFailed_result applied, code, message, System.unexplained]

/-- No failure that the executor reports itself is stored with its cause: whatever the
branch, its error output and its exit code, the stored result is the same. -/
theorem failure_cause_never_stored (env : Env) {branch : FailureBranch} {event : Agent.TaskEvent}
    {result : Json} (reports : Reports branch event) (stores : Stores env event result) :
    ¬ Explains result ∧ ∀ branch' event' result', Reports branch' event' →
      Stores env event' result' → result' = result := by
  have same := stores.unexplained reports.unexplained
  refine ⟨same ▸ not_explains_unexplained, fun branch' event' result' reports' stores' => ?_⟩
  rw [same, stores'.unexplained reports'.unexplained]

namespace Demo

def pendingTask : Agent.PendingTask where
  taskId := "task-a"
  workflowId := "wf"
  input := []
  priority := "normal"
  timeoutSeconds := none
  createdAt := "1970-01-01T00:00:00+00:00"

def reading : Execution := { task := pendingTask, point := .read }

def timedOutEvent : Agent.TaskEvent := failedEvent 1 "EXECUTION_TIMEOUT" [
  ("detail", .str "Task exceeded 600s timeout"), ("stderr", .str "")]

def exitedEvent : Agent.TaskEvent := failedEvent 1 "SUBPROCESS_FAILED" [
  ("exit_code", .num 2), ("stderr", .str "no such file")]

theorem reports_timeout : Reports .timeout timedOutEvent :=
  ⟨reading, _, {}, {}, .timeout "", rfl, rfl⟩

theorem reports_subprocess : Reports .subprocess exitedEvent :=
  ⟨reading.moveTo .wait, _, {}, {}, .exited 2 "no such file", rfl, rfl⟩

def request (event : Agent.TaskEvent) : EventRequest where
  taskId := "task-a"
  eventType := event.eventType
  data := event.data.getD []
  sequence := 3
  executorAgentId := "executor"

def runningStore : Store := runSteps Api.Demo.env Api.Demo.running Api.Demo.store

theorem runningStore_task : ∃ t, runningStore.tasks.find? "task-a" = some t ∧
    t.executorAgentId = some "executor" ∧ t.status = .running := by
  have present : (runningStore.tasks.find? "task-a").isSome := by decide +kernel
  obtain ⟨t, found⟩ := Option.isSome_iff_exists.mp present
  have shape : ∀ t ∈ runningStore.tasks.find? "task-a",
      t.executorAgentId = some "executor" ∧ t.status = .running := by decide +kernel
  exact ⟨t, found, shape t found⟩

theorem stores {event : Agent.TaskEvent} (silent : Unexplained event)
    (shape : event.data = some (event.data.getD [])) : Stores Api.Demo.env event unexplained := by
  obtain ⟨t, found, executor, running⟩ := runningStore_task
  have later : runningStore.maxSequence "task-a" < 3 := by decide +kernel
  have fits : fitsInteger 3 = true := by decide
  exact @Unexplained.stored _ _ silent (Api.Demo.at' 2) (request event) _ _ rfl shape found executor running
    later fits

end Demo

theorem failure_cause_lost : ¬ Explains unexplained ∧ ∀ branch' event' result',
    Reports branch' event' → Stores Api.Demo.env event' result' → result' = unexplained :=
  failure_cause_never_stored Api.Demo.env Demo.reports_timeout
    (Demo.stores Demo.reports_timeout.unexplained rfl)

/-- A timeout and an exit with code 2 leave the same result, without a code. -/
theorem timeout_stored_as_exit : ∃ timedOut exited result,
    Reports .timeout timedOut ∧ Reports .subprocess exited ∧
      Stores Api.Demo.env timedOut result ∧ Stores Api.Demo.env exited result ∧ ¬ Explains result :=
  ⟨_, _, _, Demo.reports_timeout, Demo.reports_subprocess,
    Demo.stores Demo.reports_timeout.unexplained rfl,
    Demo.stores Demo.reports_subprocess.unexplained rfl, not_explains_unexplained⟩

end Fleet.System
