/- Idempotency keys after the expiry the responses advertise. -/
import Fleet.Api.Idempotency

namespace Fleet.Api
open Fleet.Lib

def idempotencyTtlHours : Int := 24

/-- `expires_at`, as the response builders compute it. -/
def Task.expiresAt (t : Task) : Time := t.createdAt + idempotencyTtlHours * 3600000000

/-- The request is answered with the task, or refused because of its key. -/
def HeldAgainst (t : Task) (answer : Except Failure Answer) : Prop :=
  (∃ u, replayed? answer = some u ∧ u.id = t.id) ∨
    refusal? answer = some .idempotencyMismatch ∨ answer = .error (.db .duplicateIdempotencyKey)

/-- The request is refused before its key is looked up, or it repeats the input of
the task for a workflow that does not exist. -/
def Op.Spared (env : Env) (s : Store) (t : Task) : Op → Prop
  | .createTask _ _ req => env.inputDigest t.input = env.inputDigest req.input ∧
      s.workflows.find? req.workflowId = none
  | .retaskTask _ _ req => ∀ task, Admitted s req.workflowId req.taskId req.callerAgentId task →
      (task.status = .completed ∨ task.status = .failed) →
      ¬ task.lineageDepth < env.settings.fleetLineageMaxDepth
  | .redirectTask _ _ req => ∀ task, Admitted s req.workflowId req.taskId req.callerAgentId task →
      (task.status = .running ∨ task.status = .paused) →
      ¬ task.lineageDepth < env.settings.fleetLineageMaxDepth
  | _ => True

/-! ## The lookup has no clock -/

section lookup
variable {env : Env} {s : Store} {k : String} {t task : Task}

theorem replayOf_run (stored : s.byIdempotencyKey? k = some t) (input : Dict) :
    (replayOf env (some k) input).run Store.flush s =
      (if env.inputDigest t.input = env.inputDigest input then .ok (some t)
        else .error (.api (idempotencyMismatch k)), s) := by
  simp only [replayOf, checkIdempotency, Db.query, Db.ensure, Db.raise, Prog.raise, Prog.run_bind,
    Prog.run, Prog.pure_eq, stored]
  by_cases same : env.inputDigest t.input = env.inputDigest input
  · simp only [same, if_true, Prog.run]
  · simp only [same, if_false, Prog.run]

theorem heldAgainst_replay (t old : Task) : HeldAgainst t (.ok (.succeeded t old true)) :=
  .inl ⟨t, rfl, rfl⟩

theorem heldAgainst_mismatch (t : Task) (k : String) :
    HeldAgainst t (.error (.api (idempotencyMismatch k))) := .inr (.inl rfl)

theorem not_heldAgainst {e : FleetAPIError} (other : e.code ≠ .idempotencyMismatch) (t : Task) :
    ¬ HeldAgainst t (.error (.api e)) := by
  rintro (⟨u, replayed, -⟩ | refused | clash)
  · cases replayed
  · exact other (Option.some.inj refused)
  · cases clash

theorem authorized_cases (s : Store) (workflowId taskId agent verb : String) :
    (∃ task, Admitted s workflowId taskId agent task) ∨
      ∃ e : FleetAPIError, e.code ≠ .idempotencyMismatch ∧
        (authorized workflowId taskId agent verb).run Store.flush s = (.error (.api e), s) := by
  simp only [authorized, fetchWorkflow, fetchTask, Db.fetch, Db.ensure, Prog.run_bind, Prog.run]
  cases known : s.workflows.find? workflowId with
  | none => exact .inr ⟨workflowNotFound workflowId, by simp [workflowNotFound], rfl⟩
  | some workflow =>
      cases found : (s.tasks.find? taskId).filter (fun t => t.workflowId = workflowId) with
      | none =>
          refine .inr ⟨taskNotFound workflowId taskId, by simp [taskNotFound], ?_⟩
          simp [found, Prog.pure_eq, Prog.run, Db.raise, Prog.raise]
      | some task =>
          obtain ⟨stored, inside⟩ := Option.filter_eq_some_iff.mp found
          by_cases controls : MayControl agent task workflow
          · exact .inl ⟨task, stored, by simpa using inside, workflow, known, controls⟩
          · refine .inr ⟨notAuthorized verb, by simp [notAuthorized], ?_⟩
            simp [found, Prog.pure_eq, Prog.run, controls, Db.raise, Prog.raise]

theorem createTask_held_iff {clk : Clock} {hex : String} {req : CreateRequest}
    (given : req.idempotencyKey = some k) (stored : s.byIdempotencyKey? k = some t) :
    ¬ HeldAgainst t ((Op.createTask clk hex req).exec env s).1 ↔
      (Op.createTask clk hex req).Spared env s t := by
  by_cases same : env.inputDigest t.input = env.inputDigest req.input
  · cases known : s.workflows.find? req.workflowId with
    | some workflow =>
        rw [createTask_replays given stored same known]
        refine iff_of_false (fun spared => spared (.inl ⟨t, rfl, rfl⟩)) fun spared => ?_
        rw [Op.Spared, known] at spared
        cases spared.2
    | none =>
        obtain ⟨e, other, missing⟩ : ∃ e : FleetAPIError, e.code ≠ .idempotencyMismatch ∧
            ((Op.createTask clk hex req).exec env s).1 = .error (.api e) := by
          refine ⟨_, ?_, by
            simp only [Op.exec, Op.program, createTask, createTaskWith, given, replayOf_run stored, same,
              getWorkflowOr404, Db.fetch, Db.raise, Prog.raise, Prog.run_bind, Prog.run, known, if_true]
            rfl⟩
          simp
        rw [missing]
        exact iff_of_true (not_heldAgainst other t) ⟨same, known⟩
  · rw [createTask_mismatch given stored same]
    exact iff_of_false (fun spared => spared (heldAgainst_mismatch t k)) fun spared => same spared.1

theorem guarded_held_iff {allowed : Task → Prop} [DecidablePred allowed] {input : Task → Dict}
    {workflowId taskId agent verb : String} {refusal depth : Task → FleetAPIError}
    {go : Task → Option Task → Db (Task × Task × Bool)} (stored : s.byIdempotencyKey? k = some t)
    (refuses : ∀ task, (refusal task).code ≠ .idempotencyMismatch)
    (deep : ∀ task, (depth task).code ≠ .idempotencyMismatch)
    (replays : ∀ task u, go task (some u) = pure (u, task, true)) :
    ¬ HeldAgainst t (((authorized workflowId taskId agent verb >>= fun task =>
        Db.ensure (allowed task) (refusal task) >>= fun _ =>
        Db.ensure (task.lineageDepth < env.settings.fleetLineageMaxDepth) (depth task) >>= fun _ =>
        replayOf env (some k) (input task) >>= go task) >>= fun r =>
        (pure (.succeeded r.1 r.2.1 r.2.2) : Db Answer)).run Store.flush s).1 ↔
      ∀ task, Admitted s workflowId taskId agent task → allowed task →
        ¬ task.lineageDepth < env.settings.fleetLineageMaxDepth := by
  rcases authorized_cases s workflowId taskId agent verb with ⟨task, admitted⟩ | ⟨e, other, refused⟩
  · have same : ∀ u, Admitted s workflowId taskId agent u → u = task :=
      fun u h => Option.some.inj (h.stored.symm.trans admitted.stored)
    simp only [Prog.run_bind, admitted.authorized_run, Db.ensure]
    by_cases status : allowed task
    · by_cases room : task.lineageDepth < env.settings.fleetLineageMaxDepth
      · refine iff_of_false (fun free => free ?_) fun spared => spared task admitted status room
        simp only [status, room, if_true, Prog.pure_eq, Prog.run, replayOf_run stored]
        by_cases repeats : env.inputDigest t.input = env.inputDigest (input task)
        · simp only [repeats, if_true, replays, Prog.pure_eq, Prog.run]
          exact heldAgainst_replay t task
        · simp only [repeats, if_false]
          exact heldAgainst_mismatch t k
      · simp only [status, room, if_true, if_false, Prog.pure_eq, Prog.run, Db.raise, Prog.raise]
        refine iff_of_true (not_heldAgainst (deep task) t) fun u h _ => ?_
        rw [same u h]
        exact room
    · simp only [status, if_false, Prog.run, Db.raise, Prog.raise]
      refine iff_of_true (not_heldAgainst (refuses task) t) fun u h allowed => ?_
      exact absurd (same u h ▸ allowed) status
  · simp only [Prog.run_bind, refused]
    refine iff_of_true (not_heldAgainst other t) fun u h => ?_
    rw [h.authorized_run] at refused
    cases refused

theorem retaskTask_held_iff {clk : Clock} {hex : String} {req : RetaskRequest}
    (given : req.idempotencyKey = some k) (stored : s.byIdempotencyKey? k = some t) :
    ¬ HeldAgainst t ((Op.retaskTask clk hex req).exec env s).1 ↔
      (Op.retaskTask clk hex req).Spared env s t := by
  obtain ⟨workflowId, taskId, callerAgentId, refinement, priority, key⟩ := req
  cases given
  exact guarded_held_iff stored (by simp [notReviewable]) (by simp [depthExceeded]) fun _ _ => rfl

theorem redirectTask_held_iff {clk : Clock} {hex : String} {req : RedirectRequest}
    (given : req.idempotencyKey = some k) (stored : s.byIdempotencyKey? k = some t) :
    ¬ HeldAgainst t ((Op.redirectTask clk hex req).exec env s).1 ↔
      (Op.redirectTask clk hex req).Spared env s t := by
  obtain ⟨workflowId, taskId, callerAgentId, reason, newInput, inheritProgress, priority, key⟩ := req
  cases given
  exact guarded_held_iff stored (by simp [notRedirectable]) (by simp [depthExceeded]) fun _ _ => rfl

end lookup

/-- In every run, a request that presents the key of a task after the advertised
expiry is spared the task exactly when it fails without regard to the key. -/
theorem expired_key_held_iff (env : Env) {s₀ : Store} (blank : s₀.Blank) (steps : List Step) (t : Task)
    (member : t ∈ (runSteps env steps s₀).tasks) (k : String) (own : t.idempotencyKey = some k)
    (op : Op) (given : op.idempotencyKey = some k) (_expired : t.expiresAt < op.clock.now) :
    ¬ HeldAgainst t (op.exec env (runSteps env steps s₀)).1 ↔
      op.Spared env (runSteps env steps s₀) t := by
  have unique : UniqueKeys (runSteps env steps s₀) := (UniqueKeys.of_blank blank).run steps
  have stored := unique.byIdempotencyKey? member own
  cases op with
  | createTask clk hex req => exact createTask_held_iff given stored
  | retaskTask clk hex req => exact retaskTask_held_iff given stored
  | redirectTask clk hex req => exact redirectTask_held_iff given stored
  | cancelTask | pauseTask | resumeTask | injectContext | processSidecarEvent => cases given

namespace Demo

def dayOld : Store := runSteps keyedEnv [.op (keyed 0 "a" [("a", .num 1)])] store

def dayLater : Op := keyed 90000 "b" [("a", .num 1)]

theorem dayOld_replayed : ∃ t ∈ dayOld.tasks, t.idempotencyKey = some "k" ∧
    t.expiresAt < dayLater.clock.now ∧ replayed? (dayLater.exec keyedEnv dayOld).1 = some t := by
  have found : ∃ t ∈ dayOld.tasks.rows, t.idempotencyKey = some "k" ∧
      t.expiresAt < dayLater.clock.now ∧ replayed? (dayLater.exec keyedEnv dayOld).1 = some t := by
    decide +kernel
  exact found

end Demo

theorem expired_key_held_dayLater : ∃ t ∈ Demo.dayOld.tasks, t.idempotencyKey = some "k" ∧
    t.expiresAt < Demo.dayLater.clock.now ∧
    (¬ HeldAgainst t (Demo.dayLater.exec Demo.keyedEnv Demo.dayOld).1 ↔
      Demo.dayLater.Spared Demo.keyedEnv Demo.dayOld t) := by
  obtain ⟨t, member, own, late, -⟩ := Demo.dayOld_replayed
  exact ⟨t, member, own, late, expired_key_held_iff Demo.keyedEnv Demo.store_blank _ t member "k" own
    Demo.dayLater rfl late⟩

/-- The key has expired and the request is answered with the old task. -/
theorem expired_key_replayed : ∃ t ∈ Demo.dayOld.tasks, t.idempotencyKey = Demo.dayLater.idempotencyKey ∧
    t.expiresAt < Demo.dayLater.clock.now ∧
    HeldAgainst t (Demo.dayLater.exec Demo.keyedEnv Demo.dayOld).1 := by
  obtain ⟨t, member, own, late, replayed⟩ := Demo.dayOld_replayed
  exact ⟨t, member, own, late, .inl ⟨t, replayed, rfl⟩⟩

end Fleet.Api
