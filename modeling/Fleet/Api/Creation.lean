/- Task creation as a function of the store: what is checked, and what is inserted. -/
import Fleet.Api.Rows

namespace Fleet.Api
open Fleet.Lib

/-- The row of a new task. -/
def createdRow (clk : Clock) (hex : String) (req : CreateRequest) (workflow : Workflow)
    (priority : TaskPriority) : Task where
  id := newTaskId hex
  workflowId := req.workflowId
  principalAgentId := req.callerAgentId
  executorAgentId := some (orElse req.executorAgentId workflow.ownerAgentId)
  status := .accepted
  input := req.input
  result := .null
  priority := priority
  timeoutSeconds := orElseInt req.timeoutSeconds workflow.timeoutSeconds
  parentTaskId := none
  rootTaskId := none
  lineageDepth := 0
  delegationDepth := 0
  callbackUrl := req.callbackUrl
  idempotencyKey := req.idempotencyKey
  createdAt := clk.now
  startedAt := none
  completedAt := none
  pausedAt := none
  metadata := req.metadata

def creationWork (clk : Clock) (hex : String) (req : CreateRequest) (workflow : Workflow)
    (priority : TaskPriority) : Work where
  newTask := some (createdRow clk hex req workflow priority)
  newEvents := [createdEvent (newTaskId hex) req.callerAgentId [] clk.now]

/-- The request is no replay, its workflow exists and its executor is not suspended. -/
structure Dispatchable (s : Store) (req : CreateRequest) (workflow : Workflow) : Prop where
  unused : Unused s req.idempotencyKey
  known : s.workflows.find? req.workflowId = some workflow
  serving : (s.agents.find? (orElse req.executorAgentId workflow.ownerAgentId)).all
    (fun a => a.status ≠ .suspended) = true

/-- The input does not conform to a valid schema, or the priority has no such name. -/
def Faulty (env : Env) (req : CreateRequest) (workflow : Workflow) : Prop :=
  (∃ e, validateInput env req.input workflow.inputSchema = .error (.api e)) ∨
    (validateInput env req.input workflow.inputSchema = .ok () ∧
      ∃ e, parsePriority req.priority = .error e)

/-- How a creation ends at a store, with any rules of the database for a commit. -/
inductive Creation (env : Env) (flush : Work → Store → Except Failure Store) (clk : Clock)
    (hex : String) (req : CreateRequest) (s : Store) :
    Except Failure (Task × Workflow × Bool) → Store → Prop
  | refused (e : FleetAPIError)
      (early : ∀ workflow, Dispatchable s req workflow → Faulty env req workflow) :
      Creation env flush clk hex req s (.error (.api e)) s
  | replayed (t : Task) (workflow : Workflow) (replays : Replays env s req.idempotencyKey req.input t)
      (known : s.workflows.find? req.workflowId = some workflow) :
      Creation env flush clk hex req s (.ok (t, workflow, true)) s
  | badSchema (workflow : Workflow) (dispatchable : Dispatchable s req workflow) (schema : Dict)
      (stored : workflow.inputSchema = some schema) (message : String)
      (verdict : env.validateSchema req.input schema = .badSchema message) :
      Creation env flush clk hex req s (.error (.schema message)) s
  | uncommitted (workflow : Workflow) (priority : TaskPriority) (dispatchable : Dispatchable s req workflow)
      (valid : validateInput env req.input workflow.inputSchema = .ok ())
      (parsed : parsePriority req.priority = .ok priority) (e : Failure)
      (refused : flush (creationWork clk hex req workflow priority) s = .error e) :
      Creation env flush clk hex req s (.error e) s
  | created (workflow : Workflow) (priority : TaskPriority) (dispatchable : Dispatchable s req workflow)
      (valid : validateInput env req.input workflow.inputSchema = .ok ())
      (parsed : parsePriority req.priority = .ok priority) (s' : Store)
      (committed : flush (creationWork clk hex req workflow priority) s = .ok s') :
      Creation env flush clk hex req s
        (.ok ((s'.tasks.find? (newTaskId hex)).getD (createdRow clk hex req workflow priority),
          workflow, false)) s'

section creation
variable {env : Env} {flush : Work → Store → Except Failure Store} {clk : Clock} {hex : String}
  {req : CreateRequest} {s : Store}

theorem Dispatchable.unique {w w' : Workflow} (h : Dispatchable s req w) (h' : Dispatchable s req w') :
    w = w' := Option.some.inj (h.known.symm.trans h'.known)

theorem parsePriority_api {priority : String} {e : Failure} (h : parsePriority priority = .error e) :
    e = .api (invalidPriority priority) := by
  unfold parsePriority at h
  split at h <;> cases h
  rfl

/-- The validator refuses the input, or finds the schema itself invalid. -/
theorem validateInput_refuses {input : Dict} {schema : Option Dict} {e : Failure}
    (h : validateInput env input schema = .error e) : (∃ e', e = .api e') ∨
      ∃ d message, schema = some d ∧ env.validateSchema input d = .badSchema message ∧
        e = .schema message := by
  unfold validateInput at h
  split at h
  · cases h
  · rename_i d
    split at h
    · cases h
    · cases h
      exact .inl ⟨_, rfl⟩
    · rename_i message verdict
      cases h
      exact .inr ⟨d, message, rfl, verdict, rfl⟩

theorem creation_unused (unused : Unused s req.idempotencyKey)
    (absent : (replayOf env req.idempotencyKey req.input).run flush s = (.ok none, s)) :
    Creation env flush clk hex req s ((createTask env clk hex req).run flush s).1
      ((createTask env clk hex req).run flush s).2 := by
  unfold createTask createTaskWith
  rw [Prog.run_bind, absent]
  dsimp only
  cases known : s.workflows.find? req.workflowId with
  | none =>
      simp only [getWorkflowOr404, Db.fetch, Prog.run_bind, Prog.run, known, Db.raise, Prog.raise]
      refine .refused _ fun workflow h => ?_
      cases known.symm.trans h.known
  | some workflow =>
      simp only [getWorkflowOr404, Db.fetch, checkAgentNotSuspended, Db.query, Db.ensure, Db.ofExcept,
        Prog.run_bind, Prog.run, Prog.pure_eq, known]
      split_ifs with serving
      · have dispatchable : Dispatchable s req workflow := ⟨unused, known, serving⟩
        simp only [Prog.run]
        cases valid : validateInput env req.input workflow.inputSchema with
        | error e =>
            dsimp only
            rcases validateInput_refuses valid with ⟨e', rfl⟩ | ⟨d, message, stored, verdict, rfl⟩
            · exact .refused e' fun w h => .inl ⟨e', dispatchable.unique h ▸ valid⟩
            · exact .badSchema workflow dispatchable d stored message verdict
        | ok _ =>
            dsimp only
            cases parsed : parsePriority req.priority with
            | error e =>
                dsimp only
                have faulty : Faulty env req workflow := .inr ⟨valid, e, parsed⟩
                rw [parsePriority_api parsed]
                exact .refused _ fun w h => dispatchable.unique h ▸ faulty
            | ok priority =>
                dsimp only
                cases committed : flush (creationWork clk hex req workflow priority) s with
                | error e =>
                    have ending := Creation.uncommitted workflow priority dispatchable valid parsed e committed
                    unfold creationWork createdRow at committed
                    simp only [Db.commit, Prog.run, committed]
                    exact ending
                | ok s' =>
                    have ending := Creation.created workflow priority dispatchable valid parsed s' committed
                    unfold creationWork createdRow at committed
                    simp only [Db.commit, Db.refresh, Db.query, Prog.run, Prog.pure_eq, committed]
                    exact ending
      · simp only [Db.raise, Prog.raise, Prog.run]
        refine .refused _ fun w h => absurd ?_ serving
        cases known.symm.trans h.known
        exact h.serving

theorem replayOf_any (key : Option String) (input : Dict) :
    (replayOf env key input).run flush s = match key.bind s.byIdempotencyKey? with
      | none => (.ok none, s)
      | some t =>
          if env.inputDigest t.input = env.inputDigest input then (.ok (some t), s)
          else (.error (.api (idempotencyMismatch (key.getD ""))), s) := by
  cases key with
  | none => rfl
  | some k =>
      simp only [replayOf, checkIdempotency, Db.query, Prog.run_bind, Prog.run, Prog.pure_eq,
        Option.bind_some]
      cases s.byIdempotencyKey? k with
      | none => rfl
      | some t =>
          simp only [Db.ensure, Prog.run_bind]
          split_ifs <;> rfl

theorem createTask_creation (env : Env) (flush : Work → Store → Except Failure Store) (clk : Clock)
    (hex : String) (req : CreateRequest) (s : Store) :
    Creation env flush clk hex req s ((createTask env clk hex req).run flush s).1
      ((createTask env clk hex req).run flush s).2 := by
  have check := @replayOf_any env flush s req.idempotencyKey req.input
  cases found : req.idempotencyKey.bind s.byIdempotencyKey? with
  | none =>
      rw [found] at check
      refine creation_unused (fun k same => ?_) check
      rw [same] at found
      exact found
  | some t =>
      rw [found] at check
      dsimp only at check
      obtain ⟨k, given, stored⟩ := Option.bind_eq_some_iff.mp found
      have used : ∀ w, Dispatchable s req w → Faulty env req w := by
        intro w h
        cases stored.symm.trans (h.unused k given)
      unfold createTask createTaskWith
      split_ifs at check with same
      · rw [Prog.run_bind, check]
        dsimp only
        cases known : s.workflows.find? req.workflowId with
        | none =>
            simp only [getWorkflowOr404, Db.fetch, Prog.run_bind, Prog.run, known, Db.raise, Prog.raise]
            exact .refused _ used
        | some workflow =>
            simp only [getWorkflowOr404, Db.fetch, Prog.run_bind, Prog.run, Prog.pure_eq, known]
            exact .replayed t workflow ⟨k, given, stored, same⟩ known
      · rw [Prog.run_bind, check]
        exact .refused _ used

end creation

/-! ## The operation -/

section operation
variable {env : Env} {clk : Clock} {hex : String} {req : CreateRequest} {s : Store}

theorem createTask_exec (flush : Work → Store → Except Failure Store) :
    ((Op.createTask clk hex req).program env).run flush s =
      (((createTask env clk hex req).run flush s).1.map fun a => .created a.1 a.2.1 a.2.2,
        ((createTask env clk hex req).run flush s).2) := by
  rw [Op.program, Prog.run_bind]
  generalize (createTask env clk hex req).run flush s = served
  obtain ⟨answer, s'⟩ := served
  cases answer <;> rfl

theorem created_row {t : Task} (answers : created? ((Op.createTask clk hex req).exec env s).1 = some t) :
    ∃ workflow priority, Dispatchable s req workflow ∧ parsePriority req.priority = .ok priority ∧
      t = createdRow clk hex req workflow priority := by
  have creation := createTask_creation env Store.flush clk hex req s
  rw [Op.exec, createTask_exec] at answers
  generalize (createTask env clk hex req).run Store.flush s = served at creation answers
  obtain ⟨answer, s'⟩ := served
  dsimp only at creation answers
  cases creation with
  | refused | replayed | badSchema | uncommitted => cases answers
  | created workflow priority dispatchable valid parsed s' committed =>
      have row : s'.tasks.find? (newTaskId hex) = some (createdRow clk hex req workflow priority) := by
        rw [find?_new committed]
        exact if_pos rfl
      cases answers
      refine ⟨workflow, priority, dispatchable, parsed, ?_⟩
      rw [row]
      rfl

end operation

end Fleet.Api
