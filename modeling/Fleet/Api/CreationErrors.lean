/- Which errors can leave a task creation, and when only those of the API do. -/
import Fleet.Api.Creation
import Fleet.Api.Workflows

namespace Fleet.Api
open Fleet.Lib

/-- What else the database refuses: a text as the parameter of a statement, and a commit. -/
structure Rules where
  text : String → Option DbError
  commit : Work → Store → Option DbError

def Rules.bind (rules : Rules) (text : String) : Db Unit :=
  match rules.text text with
  | some e => .done (.error (.db e))
  | none => pure ()

namespace Store

def flushUnder (rules : Rules) (w : Work) (s : Store) : Except Failure Store :=
  match rules.commit w s with
  | some e => .error (.db e)
  | none => s.flush w

end Store

/-- `create_task` as it is: the key, the workflow and the executor are parameters of the
statements that read. -/
def createTaskUnder (rules : Rules) (env : Env) (clk : Clock) (hex : String) (req : CreateRequest) :
    Db (Task × Workflow × Bool) :=
  createTaskWith
    (do
      req.idempotencyKey.forM rules.bind
      replayOf env req.idempotencyKey req.input)
    (do
      rules.bind req.workflowId
      getWorkflowOr404 req.workflowId)
    (fun executor => do
      rules.bind executor
      checkAgentNotSuspended executor)
    env clk hex req

/-- The text that the statements come to first of those that the database refuses. -/
def refusedText (rules : Rules) (env : Env) (req : CreateRequest) (s : Store) : Option DbError :=
  match req.idempotencyKey.bind rules.text with
  | some e => some e
  | none =>
      match req.idempotencyKey.bind s.byIdempotencyKey? with
      | some existing =>
          if env.inputDigest existing.input = env.inputDigest req.input then rules.text req.workflowId else none
      | none =>
          match rules.text req.workflowId with
          | some e => some e
          | none => (s.workflows.find? req.workflowId).bind fun workflow =>
              rules.text (orElse req.executorAgentId workflow.ownerAgentId)

/-- A task is returned or a `FleetAPIError` raised. -/
def Total {α : Type} (answer : Except Failure α) : Prop := ∀ e, answer = .error e → ∃ e', e = .api e'

/-- The task can be inserted: its values are in the range of their columns, the agents
are registered, the generated id is new, and the database has nothing else against it. -/
structure Insertable (rules : Rules) (clk : Clock) (hex : String) (req : CreateRequest) (s : Store)
    (workflow : Workflow) (priority : TaskPriority) : Prop where
  fits : (createdRow clk hex req workflow priority).fits = true
  caller : (s.agents.find? req.callerAgentId).isSome = true
  executor : (s.agents.find? (orElse req.executorAgentId workflow.ownerAgentId)).isSome = true
  fresh : s.tasks.find? (newTaskId hex) = none
  first : s.events.find? (newTaskId hex, 1) = none
  unrefused : rules.commit (creationWork clk hex req workflow priority) s = none

/-- No text is refused; where the request comes to the validator, that finds the stored schema
valid; and where the input conforms and the priority has a name, the task can be inserted. -/
structure Usable (env : Env) (rules : Rules) (clk : Clock) (hex : String) (req : CreateRequest) (s : Store) :
    Prop where
  texts : refusedText rules env req s = none
  schema : ∀ workflow, Dispatchable s req workflow → ∀ schema message, workflow.inputSchema = some schema →
    env.validateSchema req.input schema ≠ .badSchema message
  insertable : ∀ workflow, Dispatchable s req workflow → ∀ priority,
    validateInput env req.input workflow.inputSchema = .ok () →
      parsePriority req.priority = .ok priority → Insertable rules clk hex req s workflow priority

/-! ## The commit -/

section commit
variable {rules : Rules} {clk : Clock} {hex : String} {req : CreateRequest} {s : Store}
  {workflow : Workflow} {priority : TaskPriority}

theorem flushUnder_db {w : Work} {e : Failure} (h : s.flushUnder rules w = .error e) :
    ∃ d, e = .db d := by
  unfold Store.flushUnder at h
  split at h
  · cases h
    exact ⟨_, rfl⟩
  · exact Store.flush_db h

theorem insertTask_iff {t : Task} : (∃ s', s.insertTask t = .ok s') ↔
    t.fits = true ∧ s.references t = true ∧
      (∀ key, t.idempotencyKey = some key → s.byIdempotencyKey? key = none) ∧
      s.tasks.find? t.id = none := by
  constructor
  · rintro ⟨s', inserted⟩
    obtain ⟨fits, references, unused, tasks, fresh, -⟩ := Store.insertTask_ok inserted
    exact ⟨fits, references, unused, Table.insert?_isSome.mp ⟨tasks, fresh⟩⟩
  · rintro ⟨fits, references, unused, fresh⟩
    obtain ⟨tasks, inserted⟩ := Table.insert?_isSome.mpr fresh
    have free : ¬ t.idempotencyKey.any (fun key => (s.byIdempotencyKey? key).isSome) = true := by
      intro taken
      obtain ⟨key, given, stored⟩ := (Option.any_eq_true _ _).mp taken
      rw [unused key given] at stored
      cases stored
    refine ⟨{ s with tasks }, ?_⟩
    simp [Store.insertTask, fits, references, free, inserted]

theorem insertEvent_iff {e : TaskEvent} : (∃ s', s.insertEvent e = .ok s') ↔
    fitsInteger e.sequence = true ∧ (∃ t, s.tasks.find? e.taskId = some t) ∧
      s.events.find? e.slot = none := by
  constructor
  · rintro ⟨s', inserted⟩
    obtain ⟨fits, known, events, fresh, -⟩ := Store.insertEvent_ok inserted
    exact ⟨fits, known, Table.insert?_isSome.mp ⟨events, fresh⟩⟩
  · rintro ⟨fits, ⟨t, known⟩, fresh⟩
    obtain ⟨events, inserted⟩ := Table.insert?_isSome.mpr fresh
    refine ⟨{ s with events }, ?_⟩
    simp [Store.insertEvent, fits, known, inserted]

theorem references_createdRow (known : s.workflows.find? req.workflowId = some workflow) :
    s.references (createdRow clk hex req workflow priority) = true ↔
      (s.agents.find? req.callerAgentId).isSome = true ∧
        (s.agents.find? (orElse req.executorAgentId workflow.ownerAgentId)).isSome = true := by
  simp [Store.references, createdRow, known]

theorem insertEvents_one {e : TaskEvent} : Store.insertEvents [e] s = s.insertEvent e := by
  simp only [Store.insertEvents]
  cases s.insertEvent e <;> rfl

theorem flush_created {t : Task} {e : TaskEvent} (own : e.taskId = t.id) (one : e.sequence = 1) :
    (∃ s', s.flush { newTask := some t, newEvents := [e] } = .ok s') ↔
      (∃ s', s.insertTask t = .ok s') ∧ s.events.find? e.slot = none := by
  simp only [Store.flush, insertEvents_one]
  cases inserted : s.insertTask t with
  | error f => simp
  | ok mid =>
      obtain ⟨-, -, -, tasks, fresh, rfl⟩ := Store.insertTask_ok inserted
      have known : tasks.find? e.taskId = some t := by
        rw [Table.find?_insert? fresh, own]
        exact if_pos rfl
      have fits : fitsInteger e.sequence = true := by rw [one]; decide
      rw [insertEvent_iff]
      simp [fits, known]

theorem flushUnder_created (h : Dispatchable s req workflow) :
    (∃ s', s.flushUnder rules (creationWork clk hex req workflow priority) = .ok s') ↔
      Insertable rules clk hex req s workflow priority := by
  have commit := @flush_created s (createdRow clk hex req workflow priority)
    (createdEvent (newTaskId hex) req.callerAgentId [] clk.now) rfl rfl
  rw [insertTask_iff, references_createdRow h.known] at commit
  unfold Store.flushUnder
  cases refused : rules.commit (creationWork clk hex req workflow priority) s with
  | some e =>
      refine iff_of_false (fun ⟨s', committed⟩ => by cases committed) fun insertable => ?_
      cases refused.symm.trans insertable.unrefused
  | none =>
      refine commit.trans ⟨?_, fun insertable => ?_⟩
      · rintro ⟨⟨fits, ⟨caller, executor⟩, -, fresh⟩, first⟩
        exact ⟨fits, caller, executor, fresh, first, refused⟩
      · exact ⟨⟨insertable.fits, ⟨insertable.caller, insertable.executor⟩, h.unused, insertable.fresh⟩,
          insertable.first⟩

end commit

section validator
variable {env : Env} {req : CreateRequest} {workflow : Workflow}

theorem validateInput_badSchema {input schema : Dict} {message : String}
    (verdict : env.validateSchema input schema = .badSchema message) :
    validateInput env input (some schema) = .error (.schema message) := by
  rw [validateInput, verdict]

theorem Faulty.usable (faulty : Faulty env req workflow) :
    (∀ schema message, workflow.inputSchema = some schema →
      env.validateSchema req.input schema ≠ .badSchema message) ∧
    ∀ priority, validateInput env req.input workflow.inputSchema = .ok () →
      parsePriority req.priority ≠ .ok priority := by
  refine ⟨fun schema message stored verdict => ?_, fun priority valid parsed => ?_⟩
  · have bad := validateInput_badSchema verdict
    rw [← stored] at bad
    rcases faulty with ⟨e, refused⟩ | ⟨valid, -⟩
    · cases refused.symm.trans bad
    · cases valid.symm.trans bad
  · rcases faulty with ⟨e, refused⟩ | ⟨-, e, unnamed⟩
    · cases refused.symm.trans valid
    · cases unnamed.symm.trans parsed

end validator

/-! ## The statements that read -/

section reads
variable {env : Env} {rules : Rules} {flush : Work → Store → Except Failure Store} {clk : Clock} {hex : String}
  {req : CreateRequest} {s : Store}

theorem bind_run {α : Type} (text : String) (rest : Db α) :
    (rules.bind text >>= fun _ => rest).run flush s = match rules.text text with
      | some e => (.error (.db e), s)
      | none => rest.run flush s := by
  unfold Rules.bind
  cases rules.text text <;> rfl

theorem bind_key_run {α : Type} (key : Option String) (rest : Db α) :
    (key.forM rules.bind >>= fun _ => rest).run flush s = match key.bind rules.text with
      | some e => (.error (.db e), s)
      | none => rest.run flush s := by
  cases key with
  | none => rfl
  | some key => exact bind_run key rest

/-- The call ends at the first text that is refused, or is the one without refusals. -/
theorem createTaskUnder_run : (createTaskUnder rules env clk hex req).run flush s =
    match refusedText rules env req s with
    | some e => (.error (.db e), s)
    | none => (createTask env clk hex req).run flush s := by
  have check := @replayOf_any env flush s req.idempotencyKey req.input
  unfold createTaskUnder createTask createTaskWith refusedText
  conv_lhs => rw [Prog.run_bind, bind_key_run, check]
  cases req.idempotencyKey.bind rules.text with
  | some e => rfl
  | none =>
      dsimp only
      cases found : req.idempotencyKey.bind s.byIdempotencyKey? with
      | some existing =>
          rw [found] at check
          dsimp only at check ⊢
          split_ifs at check ⊢ with same
          · dsimp only
            conv_lhs => rw [Prog.run_bind, bind_run]
            cases rules.text req.workflowId with
            | some e => rfl
            | none =>
                dsimp only
                rw [Prog.run_bind, check]
                dsimp only
                rw [Prog.run_bind]
          · rw [Prog.run_bind, check]
      | none =>
          rw [found] at check
          dsimp only at check ⊢
          conv_lhs => rw [Prog.run_bind, bind_run]
          cases rules.text req.workflowId with
          | some e => rfl
          | none =>
              dsimp only
              cases known : s.workflows.find? req.workflowId with
              | none =>
                  obtain ⟨e, missing⟩ : ∃ e, (getWorkflowOr404 req.workflowId).run flush s = (.error e, s) := by
                    simp [getWorkflowOr404, Db.fetch, Prog.run, known, Db.raise, Prog.raise]
                  rw [missing, Option.bind_none]
                  dsimp only
                  rw [Prog.run_bind, check]
                  dsimp only
                  rw [Prog.run_bind, missing]
              | some workflow =>
                  have fetched : (getWorkflowOr404 req.workflowId).run flush s = (.ok workflow, s) := by
                    simp [getWorkflowOr404, Db.fetch, Prog.run, known, Prog.pure_eq]
                  rw [fetched, Option.bind_some]
                  dsimp only
                  conv_lhs => rw [Prog.run_bind, bind_run]
                  cases rules.text (orElse req.executorAgentId workflow.ownerAgentId) with
                  | some e => rfl
                  | none =>
                      dsimp only
                      rw [Prog.run_bind, check]
                      dsimp only
                      rw [Prog.run_bind, fetched]
                      dsimp only
                      rw [Prog.run_bind]

end reads

theorem Creation.total_iff {env : Env} {rules : Rules} {clk : Clock} {hex : String} {req : CreateRequest}
    {s s' : Store} {answer : Except Failure (Task × Workflow × Bool)}
    (creation : Creation env (Store.flushUnder rules) clk hex req s answer s') : Total answer ↔
      (∀ workflow, Dispatchable s req workflow → ∀ schema message, workflow.inputSchema = some schema →
        env.validateSchema req.input schema ≠ .badSchema message) ∧
      ∀ workflow, Dispatchable s req workflow → ∀ priority,
        validateInput env req.input workflow.inputSchema = .ok () →
          parsePriority req.priority = .ok priority → Insertable rules clk hex req s workflow priority := by
  cases creation with
  | refused e early =>
      refine iff_of_true (fun _ same => ?_) ⟨fun w dispatchable => (early w dispatchable).usable.1, ?_⟩
      · cases same
        exact ⟨e, rfl⟩
      · intro w dispatchable p valid parsed
        exact absurd parsed ((early w dispatchable).usable.2 p valid)
  | replayed t workflow replays =>
      obtain ⟨k, given, stored, -⟩ := replays
      have used : ∀ w, ¬ Dispatchable s req w := fun w dispatchable => by
        cases stored.symm.trans (dispatchable.unused k given)
      exact iff_of_true (fun _ same => by cases same)
        ⟨fun w dispatchable => absurd dispatchable (used w), fun w dispatchable => absurd dispatchable (used w)⟩
  | badSchema workflow dispatchable schema stored message verdict =>
      refine iff_of_false (fun total => ?_) fun usable => ?_
      · obtain ⟨e, same⟩ := total _ rfl
        cases same
      · exact usable.1 workflow dispatchable schema message stored verdict
  | uncommitted workflow priority dispatchable valid parsed e refused =>
      refine iff_of_false (fun total => ?_) fun usable => ?_
      · obtain ⟨e', rfl⟩ := total _ rfl
        obtain ⟨d, same⟩ := flushUnder_db refused
        cases same
      · have insertable := usable.2 workflow dispatchable priority valid parsed
        obtain ⟨s'', committed⟩ := (flushUnder_created dispatchable).mpr insertable
        cases refused.symm.trans committed
  | created workflow priority dispatchable valid parsed s' committed =>
      refine iff_of_true (fun _ same => by cases same) ⟨fun w other schema message stored verdict => ?_, ?_⟩
      · cases dispatchable.unique other
        have bad := validateInput_badSchema verdict
        rw [← stored, valid] at bad
        cases bad
      · intro w other p _ named
        cases dispatchable.unique other
        cases parsed.symm.trans named
        exact (flushUnder_created dispatchable).mp ⟨s', committed⟩

/-- Only errors of the API leave a creation if and only if the request is usable. -/
theorem createTask_total_iff (env : Env) (rules : Rules) (clk : Clock) (hex : String)
    (req : CreateRequest) (s : Store) :
    Total ((createTaskUnder rules env clk hex req).run (Store.flushUnder rules) s).1 ↔
      Usable env rules clk hex req s := by
  rw [createTaskUnder_run]
  cases texts : refusedText rules env req s with
  | some e =>
      refine iff_of_false (fun total => ?_) fun usable => ?_
      · obtain ⟨e', same⟩ := total _ rfl
        cases same
      · cases texts.symm.trans usable.texts
  | none =>
      have creation := createTask_creation env (Store.flushUnder rules) clk hex req s
      dsimp only
      generalize (createTask env clk hex req).run (Store.flushUnder rules) s = served at creation ⊢
      obtain ⟨answer, s'⟩ := served
      dsimp only at creation ⊢
      rw [creation.total_iff]
      exact ⟨fun ⟨schema, insertable⟩ => ⟨texts, schema, insertable⟩,
        fun usable => ⟨usable.schema, usable.insertable⟩⟩

namespace Demo

/-- `dict` is no type of JSON Schema. -/
def validating : Env :=
  { env with validateSchema := fun _ schema =>
      if Dict.get? schema "type" = some (.str "object") then .conforms
      else .badSchema "'dict' is not valid under any of the given schemas" }

def mistyping : WorkflowCall :=
  .create (at' 0) { workflowId := "mistyped", ownerAgentId := "executor", name := "mistyped",
                    inputSchema := .obj [("type", .str "dict")] }

def dispatch : CreateRequest := { workflowId := "mistyped", callerAgentId := "principal", input := [] }

/-- PostgreSQL: no parameter holds the character zero. -/
def postgres : Rules where
  text text := if Sql.storable text then none else some .invalidText
  commit _ _ := none

/-- The key of the body is `"\u0000"`. -/
def zeroKey : CreateRequest where
  workflowId := "wf"
  callerAgentId := "principal"
  input := []
  idempotencyKey := some (String.ofList [Char.ofNat 0])

end Demo

/-- The registration is accepted, and a dispatch of the workflow raises the `SchemaError`; the
database refuses the key. -/
theorem mistyped_schema_raises :
    (((Demo.mistyping.exec Demo.agentsOnly).1.toOption.isSome = true) ∧
      ¬ Total ((createTaskUnder Demo.postgres Demo.validating (Demo.at' 1) "aaaaaaaa" Demo.dispatch).run
        (Store.flushUnder Demo.postgres) (Demo.mistyping.exec Demo.agentsOnly).2).1) ∧
    ¬ Total ((createTaskUnder Demo.postgres Demo.env (Demo.at' 1) "aaaaaaaa" Demo.zeroKey).run
      (Store.flushUnder Demo.postgres) Demo.store).1 := by
  refine ⟨⟨by decide +kernel, fun total => ?_⟩, fun total => ?_⟩
  · have raised : ((createTaskUnder Demo.postgres Demo.validating (Demo.at' 1) "aaaaaaaa" Demo.dispatch).run
        (Store.flushUnder Demo.postgres) (Demo.mistyping.exec Demo.agentsOnly).2).1 =
        .error (.schema "'dict' is not valid under any of the given schemas") := by rfl
    obtain ⟨e, same⟩ := total _ raised
    cases same
  · have raised : ((createTaskUnder Demo.postgres Demo.env (Demo.at' 1) "aaaaaaaa" Demo.zeroKey).run
        (Store.flushUnder Demo.postgres) Demo.store).1 = .error (.db .invalidText) := by rfl
    obtain ⟨e, same⟩ := total _ raised
    cases same

end Fleet.Api
