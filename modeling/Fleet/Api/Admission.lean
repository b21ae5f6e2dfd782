/- Admission: what each of the three creation paths checks about the new task. -/
import Fleet.Api.Rows

namespace Fleet.Api
open Fleet.Lib

/-- The agent is not suspended, as `_check_agent_not_suspended` asks it. -/
def Store.Available (s : Store) (agentId : String) : Prop :=
  ∀ agent, s.agents.find? agentId = some agent → agent.status ≠ .suspended

def Store.Conforms (env : Env) (s : Store) (workflowId : String) (input : Dict) : Prop :=
  ∀ workflow, s.workflows.find? workflowId = some workflow →
    validateInput env input workflow.inputSchema = .ok ()

structure Admissible (env : Env) (s : Store) (t : Task) : Prop where
  executor : ∀ agentId, t.executorAgentId = some agentId → s.Available agentId
  input : s.Conforms env t.workflowId t.input

/-- `_check_agent_not_suspended` passes exactly for the available agents. -/
theorem checkAgentNotSuspended_run {s : Store} {agentId : String} :
    (checkAgentNotSuspended agentId).run Store.flush s = (.ok (), s) ↔ s.Available agentId := by
  unfold Store.Available
  cases found : s.agents.find? agentId with
  | none => simp [checkAgentNotSuspended, Db.query, Db.ensure, Prog.run_bind, Prog.run, Prog.pure_eq, found]
  | some agent =>
      by_cases suspended : agent.status = .suspended
      · simp [checkAgentNotSuspended, Db.query, Db.ensure, Db.raise, Prog.raise, Prog.run_bind, Prog.run,
          Prog.pure_eq, found, suspended]
      · simp [checkAgentNotSuspended, Db.query, Db.ensure, Prog.run_bind, Prog.run, Prog.pure_eq, found,
          suspended]

/-- What retask and redirect inherit from the task they continue and do not check again. -/
structure Sustained (env : Env) (s : Store) (task : Task) (input : Dict) : Prop where
  executor : ∀ agentId, task.executorAgentId = some agentId → s.Available agentId
  input : s.Conforms env task.workflowId input

/-- The path is `create_task`, or the executor of the continued task is available and
the input the request asks for satisfies the schema. -/
def Op.Sustains (env : Env) (s : Store) : Op → Prop
  | .retaskTask _ _ req =>
      ∀ task, s.tasks.find? req.taskId = some task → Sustained env s task (mergedInput task req.refinement)
  | .redirectTask _ _ req =>
      ∀ task, s.tasks.find? req.taskId = some task → Sustained env s task req.newInput
  | _ => True

theorem createTask_admits (env : Env) (s : Store) (clk : Clock) (hex : String) (req : CreateRequest) :
    ((Op.createTask clk hex req).program env).wp Store.flush Eq (fun _ _ => True)
      (fun r _ => ∀ t, created? r = some t → Admissible env s t) s := by
  have fails : ∀ e s', (fun (r : Except Failure Answer) (_ : Store) =>
      ∀ t, created? r = some t → Admissible env s t) (.error e) s' := by
    intro e s' t created
    cases created
  rw [Op.program, Prog.wp_bind]
  unfold createTask createTaskWith
  apply wp_replays
  · exact fun e _ => fails e s
  · intro t replays
    dsimp only
    simp only [getWorkflowOr404, Prog.wp_bind, Db.wp_fetch, Prog.wp_pure, forall_eq']
    refine ⟨fun workflow known u created => ?_, fun _ => fails _ s⟩
    cases created
  · intro unused
    dsimp only
    simp only [getWorkflowOr404, checkAgentNotSuspended, Prog.wp_bind, Db.wp_fetch, Db.wp_query,
      Db.wp_ensure, Db.wp_ofExcept, forall_eq']
    refine ⟨fun workflow known => ⟨fun available => ?_, fun _ => fails _ s⟩, fun _ => fails _ s⟩
    cases valid : validateInput env req.input workflow.inputSchema with
    | error e => exact fails e s
    | ok _ =>
        cases parsed : parsePriority req.priority with
        | error e => exact fails e s
        | ok priority =>
            simp only [Db.wp_commit, Db.wp_refresh, Prog.wp_pure, forall_eq', true_and]
            refine ⟨fun s' committed t created => ?_, fun e _ => fails e s⟩
            rw [refresh_new committed rfl] at created
            cases created
            constructor
            · intro agentId executor agent found
              cases executor
              simpa [found] using available
            · intro w found
              rw [known] at found
              cases found
              exact valid

theorem successor_admissible {env : Env} {s : Store} {task : Task} {workflowId hex : String} {input : Dict}
    {priority : TaskPriority} {now : Time} {key : Option String} {metadata : Dict}
    (inside : task.workflowId = workflowId) :
    Admissible env s (successor task workflowId hex input priority now key metadata) ↔
      Sustained env s task input := by
  subst inside
  constructor
  · intro admissible
    exact ⟨admissible.executor, admissible.input⟩
  · intro sustained
    exact ⟨sustained.executor, sustained.input⟩

theorem Op.created_admissible (env : Env) {s : Store} {op : Op} {t : Task}
    (created : created? (op.exec env s).1 = some t) : Admissible env s t ↔ op.Sustains env s := by
  have outcome := op.exec_outcome env s
  generalize result : op.exec env s = after at outcome created
  obtain ⟨r, s'⟩ := after
  -- the continued task is the one the request names
  have continues : ∀ {task : Task} {taskId : String} {P : Task → Prop}, s.tasks.find? taskId = some task →
      ((∀ u, s.tasks.find? taskId = some u → P u) ↔ P task) := by
    intro task taskId P stored
    simp [stored]
  cases outcome with
  | refused | createReplayed | retaskReplayed | redirectReplayed | cancelled | paused | resumed | expired
  | injected | recorded => cases created
  | created clk hex req task workflow s' unused requested committed =>
      have admits := Prog.wp_run (createTask_admits env s clk hex req)
      exact iff_of_true (admits t ((congrArg (fun p => created? p.1) result).trans created)) trivial
  | retasked clk hex req task priority e first s' admitted =>
      cases created
      exact (successor_admissible admitted.inside).trans (continues (P := fun u =>
        Sustained env s u (mergedInput u req.refinement)) admitted.stored).symm
  | redirected clk hex req task priority e first s' admitted =>
      cases created
      exact (successor_admissible admitted.inside).trans (continues (P := fun u =>
        Sustained env s u req.newInput) admitted.stored).symm

/-! ## Runs -/

def Sustaining (env : Env) (s : Store) (steps : List Step) : Prop :=
  ∀ before (op : Op) after, steps = before ++ .op op :: after →
    (created? (op.exec env (runSteps env before s)).1).isSome → op.Sustains env (runSteps env before s)

/-- Which created tasks pass the checks of `create_task`, and the tasks of a run in
which every request sustains them. -/
theorem creation_admissible (env : Env) {s₀ : Store} (blank : s₀.Blank) (steps : List Step) :
    (∀ (op : Op) t, created? (op.exec env (runSteps env steps s₀)).1 = some t →
      (Admissible env (runSteps env steps s₀) t ↔ op.Sustains env (runSteps env steps s₀))) ∧
    (Sustaining env s₀ steps → ∀ t ∈ (runSteps env steps s₀).tasks,
      ∃ before, ∃ op : Op, ∃ after t₀, steps = before ++ .op op :: after ∧
        created? (op.exec env (runSteps env before s₀)).1 = some t₀ ∧ Task.SameOrigin t₀ t ∧
        Admissible env (runSteps env before s₀) t₀) := by
  constructor
  · intro op t created
    exact Op.created_admissible env created
  · intro sustaining t member
    obtain ⟨before, op, after, t₀, split, _, answers, origin⟩ :=
      runSteps_created steps blank (Table.find?_mem member)
    have sustains := sustaining before op after split (by rw [answers]; rfl)
    exact ⟨before, op, after, t₀, split, answers, origin, (Op.created_admissible env answers).mpr sustains⟩

namespace Demo

/-- The executor is suspended after it has completed the task. -/
def suspended : List Step := delivered ++ [
  .catalog ⟨[agent "principal", { agent "executor" with status := .suspended }], by decide⟩
    store.workflows]

end Demo

theorem creation_admissible_delivered : ∃ t, created? (Demo.again.exec Demo.env
    (runSteps Demo.env Demo.delivered Demo.store)).1 = some t ∧
      Admissible Demo.env (runSteps Demo.env Demo.delivered Demo.store) t := by
  have created : (created? (Demo.again.exec Demo.env
      (runSteps Demo.env Demo.delivered Demo.store)).1).isSome := by decide +kernel
  obtain ⟨t, answers⟩ := Option.isSome_iff_exists.mp created
  refine ⟨t, answers, ((creation_admissible Demo.env Demo.store_blank Demo.delivered).1 _ t answers).mpr ?_⟩
  intro task stored
  constructor
  · intro agentId _ agent found
    have active : ∀ a ∈ (runSteps Demo.env Demo.delivered Demo.store).agents.rows,
        a.status ≠ .suspended := by decide +kernel
    exact active agent (Table.find?_eq_some.mp found).1
  · intro workflow found
    have untyped : ∀ w ∈ (runSteps Demo.env Demo.delivered Demo.store).workflows.rows,
        w.inputSchema = none := by decide +kernel
    rw [untyped workflow (Table.find?_eq_some.mp found).1]
    rfl

/-- A retask gives a suspended executor a new task. -/
theorem creation_inadmissible : ¬ ∀ (env : Env) (s : Store), Reachable env s → ∀ (op : Op) (t : Task),
    created? (op.exec env s).1 = some t → Admissible env s t := by
  intro claimed
  have created : (created? (Demo.again.exec Demo.env
      (runSteps Demo.env Demo.suspended Demo.store)).1).any
        (fun t => t.executorAgentId == some "executor") = true := by decide +kernel
  obtain ⟨t, answers, executor⟩ := (Option.any_eq_true _ _).mp created
  have admissible := claimed Demo.env _ ((Reachable.start Demo.store_blank).runSteps Demo.suspended)
    Demo.again t answers
  have listed : ((runSteps Demo.env Demo.suspended Demo.store).agents.find? "executor").map Agent.status =
      some .suspended := by decide +kernel
  obtain ⟨agent, found, suspended⟩ := Option.map_eq_some_iff.mp listed
  exact admissible.executor "executor" (by simpa using executor) agent found suspended

end Fleet.Api
