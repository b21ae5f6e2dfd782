/- What an answer tells of its own request's commit, whatever else runs meanwhile. -/
import Fleet.Lib.Transactions
import Fleet.Api.Idempotency

namespace Fleet.Api
open Fleet.Lib

namespace Op

/-- The digits a dispatch draws for the id of a new task. -/
def hex? : Op → Option String
  | createTask _ hex _ | retaskTask _ hex _ | redirectTask _ hex _ => some hex
  | _ => none

/-- The event that an answer other than a dispatch's stands for. -/
def Reports : Op → Answer → TaskEvent → Prop
  | cancelTask _ _ taskId _ _, .cancelled t, e =>
      t.id = taskId ∧ e.taskId = taskId ∧ recordedStatus e = some .cancelled
  | pauseTask _ _ taskId _ _, .signalled t reported, e =>
      reported = e ∧ t.id = taskId ∧ e.taskId = taskId ∧ recordedStatus e = some .paused
  | resumeTask _ _ taskId _ _, .signalled t reported, e =>
      reported = e ∧ t.id = taskId ∧ e.taskId = taskId ∧ recordedStatus e = some .running
  | injectContext clk hex req, .injected response, e =>
      (∃ last, e = injectionEvent clk hex req req.taskId last) ∧
        response.get? "context_id" = some (.str ("ctx-" ++ hex))
  | processSidecarEvent clk req, .recorded reported t _, e =>
      reported = e ∧ t.id = req.taskId ∧ e = sidecarEvent clk req
  | _, _, _ => False

end Op

/-- How a result goes with the write set its request committed, if it committed one; `I`
is what is known of the stores it read. -/
inductive Receipt (env : Env) (I : Store → Prop) (op : Op) : Option Work → Except Failure Answer → Prop
  | refused (e : Failure) (ordinary : e.isPauseTimeout = false) : Receipt env I op none (.error e)
  | replayed (a : Answer) (t : Task) (k : String) (s : Store) (reads : I s) (keyed : op.idempotencyKey = some k)
      (found : s.byIdempotencyKey? k = some t) (named : replayed? (.ok a) = some t) :
      Receipt env I op none (.ok a)
  | dispatched (a : Answer) (t new : Task) (hex : String) (w : Work) (named : created? (.ok a) = some t)
      (drawn : op.hex? = some hex) (added : w.newTask = some new) (id : new.id = newTaskId hex)
      (same : t.id = new.id) (keyed : new.idempotencyKey = op.idempotencyKey) : Receipt env I op (some w) (.ok a)
  | reported (a : Answer) (w : Work) (e : TaskEvent) (adds : w.newTask = none)
      (events : w.newEvents = [e]) (reports : op.Reports a e) : Receipt env I op (some w) (.ok a)
  | expired (e : Failure) (late : e.isPauseTimeout = true) (w : Work) (clk : Clock)
      (workflowId taskId agent : String) (priority : Option String) (x : TaskEvent)
      (resumes : op = .resumeTask clk workflowId taskId agent priority) (adds : w.newTask = none)
      (events : w.newEvents = [x]) (own : x.taskId = taskId)
      (cancels : recordedStatus x = some .cancelled) : Receipt env I op (some w) (.error e)

/-! ## Rules for the statements -/

section rules
variable {α : Type} {I : Store → Prop} {post : Option Work → Except Failure α → Prop} {own : Option Work}

@[simp] theorem Db.once_raise (e : FleetAPIError) :
    (Db.raise e : Db α).Once Store.flush I post own ↔ post own (.error (.api e)) := Iff.rfl

@[simp] theorem Db.once_ofExcept (r : Except Failure α) :
    (Db.ofExcept r : Db α).Once Store.flush I post own ↔ post own r := Iff.rfl

@[simp] theorem Db.once_query (q : Store → α) :
    (Db.query q).Once Store.flush I post own ↔ ∀ s, I s → post own (.ok (q s)) := Iff.rfl

@[simp] theorem Db.once_ensure (c : Prop) [Decidable c] (e : FleetAPIError)
    (post : Option Work → Except Failure Unit → Prop) :
    (Db.ensure c e).Once Store.flush I post own ↔
      (c → post own (.ok ())) ∧ (¬ c → post own (.error (.api e))) := by
  unfold Db.ensure
  rw [Prog.once_ite]
  exact Iff.rfl

@[simp] theorem Db.once_fetch (q : Store → Option α) (e : FleetAPIError) :
    (Db.fetch q e).Once Store.flush I post own ↔ ∀ s, I s →
      (∀ a, q s = some a → post own (.ok a)) ∧ (q s = none → post own (.error (.api e))) := by
  refine forall_congr' fun s => imp_congr_right fun _ => ?_
  cases eq : q s with
  | some a => simp [eq]
  | none => simp [eq]

@[simp] theorem Db.once_commit (w : Work) (post : Option Work → Except Failure Unit → Prop) :
    (Db.commit w).Once Store.flush I post own ↔ own = none ∧ post (some w) (.ok ()) ∧
      ∀ s e, Store.flush w s = .error e → post none (.error e) := Iff.rfl

theorem Db.once_refresh {task : Task} {post : Option Work → Except Failure Task → Prop}
    (h : ∀ t : Task, t.id = task.id → post own (.ok t)) :
    (Db.refresh task).Once Store.flush I post own := by
  intro s _
  apply h
  show ((s.tasks.find? task.id).getD task).id = task.id
  cases found : s.tasks.find? task.id with
  | none => rfl
  | some t => exact (Table.find?_eq_some.mp found).2

end rules

section operations
variable (env : Env) (I : Store → Prop) (op : Op)

theorem once_authorized {α : Type} {rest : Task → Db α} {workflowId taskId agent verb : String}
    {post : Option Work → Except Failure α → Prop}
    (fails : ∀ e, e.isPauseTimeout = false → post none (.error e))
    (passes : ∀ task : Task, task.id = taskId → (rest task).Once Store.flush I post none) :
    (authorized workflowId taskId agent verb >>= rest).Once Store.flush I post none := by
  simp only [authorized, fetchWorkflow, fetchTask, Prog.once_bind, Db.once_fetch, Db.once_ensure,
    Prog.once_pure]
  refine fun s _ => ⟨fun workflow _ s _ => ⟨fun task found => ⟨fun _ => ?_, fun _ => fails _ rfl⟩,
    fun _ => fails _ rfl⟩, fun _ => fails _ rfl⟩
  obtain ⟨stored, _⟩ := Option.filter_eq_some_iff.mp found
  exact passes task (Table.find?_eq_some.mp stored).2

theorem once_numbered {α : Type} {taskId : String} {w : Int → Work} {rest : Int → Unit → Db α}
    {post : Option Work → Except Failure α → Prop}
    (fails : ∀ e, e.isPauseTimeout = false → post none (.error e))
    (answers : ∀ n, (rest n ()).Once Store.flush I post (some (w n))) :
    (Db.query (fun s => s.maxSequence taskId) >>= fun last =>
      Db.commit (w last) >>= rest last).Once Store.flush I post none := by
  simp only [Prog.once_bind, Db.once_query, Db.once_commit, true_and]
  exact fun s _ => ⟨answers _, fun s e refused => fails e (Store.flush_error refused)⟩

theorem once_replays {α : Type} {rest : Option Task → Db α} {key : Option String} {input : Dict}
    {post : Option Work → Except Failure α → Prop}
    (fails : ∀ e, e.isPauseTimeout = false → post none (.error e))
    (replays : ∀ t k s, I s → key = some k → s.byIdempotencyKey? k = some t →
      (rest (some t)).Once Store.flush I post none)
    (proceeds : (rest none).Once Store.flush I post none) :
    (replayOf env key input >>= rest).Once Store.flush I post none := by
  rw [Prog.once_bind]
  cases key with
  | none => exact proceeds
  | some k =>
      simp only [replayOf, checkIdempotency, Prog.once_bind, Db.once_query]
      intro s reads
      cases found : s.byIdempotencyKey? k with
      | none => exact proceeds
      | some t =>
          simp only [Prog.once_bind, Db.once_ensure, Prog.once_pure]
          exact ⟨fun _ => replays t k s reads rfl found, fun _ => fails _ rfl⟩

theorem once_succession {task task' next : Task} {e created : Int → TaskEvent}
    {post : Option Work → Except Failure (Task × Task × Bool) → Prop}
    (fails : ∀ e, e.isPauseTimeout = false → post none (.error e))
    (dispatches : ∀ w (t u : Task), w.newTask = some next → t.id = next.id →
      post (some w) (.ok (t, u, false))) :
    (Db.query (fun s => s.maxSequence task.id) >>= fun last => Db.commit
        { newTask := some next, dirty := some (task, task'), newEvents := [e last, created last] } >>=
      fun _ => Db.refresh next >>= fun next => Db.refresh task' >>= fun task' =>
        pure (next, task', false)).Once Store.flush I post none := by
  apply once_numbered I fails
  intro n
  simp only [Prog.once_bind, Prog.once_pure]
  apply Db.once_refresh
  intro t same
  apply Db.once_refresh
  intro u _
  exact dispatches _ t u rfl same

theorem createTask_once (clk : Clock) (hex : String) (req : CreateRequest) :
    ((Op.createTask clk hex req).program env).Once Store.flush I
      (Receipt env I (.createTask clk hex req)) none := by
  rw [Op.program, Prog.once_bind]
  unfold createTask createTaskWith
  apply once_replays env I
  · exact fun e ordinary => .refused e ordinary
  · intro t k s reads keyed found
    simp only [getWorkflowOr404, Prog.once_bind, Db.once_fetch, Prog.once_pure]
    exact fun _ _ => ⟨fun workflow _ => .replayed _ t k s reads keyed found rfl, fun _ => .refused _ rfl⟩
  · simp only [getWorkflowOr404, checkAgentNotSuspended, Prog.once_bind, Db.once_fetch, Db.once_query,
      Db.once_ensure, Db.once_ofExcept]
    refine fun _ _ => ⟨fun workflow _ _ _ => ⟨fun _ => ?_, fun _ => .refused _ rfl⟩, fun _ => .refused _ rfl⟩
    cases valid : validateInput env req.input workflow.inputSchema with
    | error e => exact .refused e (validateInput_error valid)
    | ok _ =>
        cases parsed : parsePriority req.priority with
        | error e => exact .refused e (parsePriority_error parsed)
        | ok priority =>
            simp only [Db.once_commit, true_and]
            refine ⟨?_, fun s e refused => .refused e (Store.flush_error refused)⟩
            apply Db.once_refresh
            intro t same
            exact .dispatched _ t _ hex _ rfl rfl rfl rfl same rfl

theorem retaskTask_once (clk : Clock) (hex : String) (req : RetaskRequest) :
    ((Op.retaskTask clk hex req).program env).Once Store.flush I
      (Receipt env I (.retaskTask clk hex req)) none := by
  rw [Op.program, Prog.once_bind]
  unfold retaskTask
  apply once_authorized I
  · exact fun e ordinary => .refused e ordinary
  · intro task _
    rw [Prog.once_bind, Db.once_ensure]
    refine ⟨fun _ => ?_, fun _ => .refused _ rfl⟩
    dsimp only
    rw [Prog.once_bind, Db.once_ensure]
    refine ⟨fun _ => ?_, fun _ => .refused _ rfl⟩
    apply once_replays env I
    · exact fun e ordinary => .refused e ordinary
    · exact fun t k s reads keyed found => .replayed _ t k s reads keyed found rfl
    · dsimp only
      cases task.transitionTo clk.nowUtc .retasked with
      | error e => exact .refused _ rfl
      | ok task' =>
          dsimp only
          rw [Prog.once_bind, Db.once_ofExcept]
          cases resolved : resolvePriority req.priority task.priority with
          | error e => exact .refused e (resolvePriority_error resolved)
          | ok priority =>
              apply once_succession I
              · exact fun e ordinary => .refused e ordinary
              · exact fun w t u added same => .dispatched _ t _ hex w rfl rfl added rfl same rfl

theorem redirectTask_once (clk : Clock) (hex : String) (req : RedirectRequest) :
    ((Op.redirectTask clk hex req).program env).Once Store.flush I
      (Receipt env I (.redirectTask clk hex req)) none := by
  rw [Op.program, Prog.once_bind]
  unfold redirectTask
  apply once_authorized I
  · exact fun e ordinary => .refused e ordinary
  · intro task _
    rw [Prog.once_bind, Db.once_ensure]
    refine ⟨fun _ => ?_, fun _ => .refused _ rfl⟩
    dsimp only
    rw [Prog.once_bind, Db.once_ensure]
    refine ⟨fun _ => ?_, fun _ => .refused _ rfl⟩
    apply once_replays env I
    · exact fun e ordinary => .refused e ordinary
    · exact fun t k s reads keyed found => .replayed _ t k s reads keyed found rfl
    · dsimp only
      cases task.transitionTo clk.nowUtc .redirected with
      | error e => exact .refused _ rfl
      | ok task' =>
          dsimp only
          rw [Prog.once_bind, Db.once_ofExcept]
          cases resolved : resolvePriority req.priority task.priority with
          | error e => exact .refused e (resolvePriority_error resolved)
          | ok priority =>
              apply once_succession I
              · exact fun e ordinary => .refused e ordinary
              · exact fun w t u added same => .dispatched _ t _ hex w rfl rfl added rfl same rfl

theorem cancelTask_once (clk : Clock) (workflowId taskId agent : String) (reason : Option String) :
    ((Op.cancelTask clk workflowId taskId agent reason).program env).Once Store.flush I
      (Receipt env I (.cancelTask clk workflowId taskId agent reason)) none := by
  rw [Op.program, Prog.once_bind]
  unfold cancelTask
  apply once_authorized I
  · exact fun e ordinary => .refused e ordinary
  · intro task own
    cases moved : task.transitionTo clk.nowUtc .cancelled with
    | error e => exact .refused _ rfl
    | ok task' =>
        dsimp only
        apply once_numbered I
        · exact fun e ordinary => .refused e ordinary
        · intro n
          apply Db.once_refresh
          intro t same
          refine .reported _ _ _ rfl rfl ⟨?_, own, recordedStatus_principal rfl rfl rfl rfl⟩
          exact same.trans ((Task.transitionTo_origin moved).id.trans own)

theorem pauseTask_once (clk : Clock) (workflowId taskId agent : String) (reason : Option String) :
    ((Op.pauseTask clk workflowId taskId agent reason).program env).Once Store.flush I
      (Receipt env I (.pauseTask clk workflowId taskId agent reason)) none := by
  rw [Op.program, Prog.once_bind]
  unfold pauseTask
  apply once_authorized I
  · exact fun e ordinary => .refused e ordinary
  · intro task own
    rw [Prog.once_bind, Db.once_ensure]
    refine ⟨fun _ => ?_, fun _ => .refused _ rfl⟩
    dsimp only
    cases moved : task.transitionTo clk.nowUtc .paused with
    | error e => exact .refused _ rfl
    | ok task' =>
        dsimp only
        apply once_numbered I
        · exact fun e ordinary => .refused e ordinary
        · intro n
          rw [Prog.once_bind]
          apply Db.once_refresh
          intro t same
          refine .reported _ _ _ rfl rfl ⟨rfl, ?_, own, rfl⟩
          exact same.trans ((Task.transitionTo_origin moved).id.trans own)

theorem resumeTask_once (clk : Clock) (workflowId taskId agent : String) (priority : Option String) :
    ((Op.resumeTask clk workflowId taskId agent priority).program env).Once Store.flush I
      (Receipt env I (.resumeTask clk workflowId taskId agent priority)) none := by
  rw [Op.program, Prog.once_bind]
  unfold resumeTask
  apply once_authorized I
  · exact fun e ordinary => .refused e ordinary
  · intro task own
    rw [Prog.once_bind, Db.once_ensure]
    refine ⟨fun _ => ?_, fun _ => .refused _ rfl⟩
    simp only [Prog.once_ite]
    refine ⟨fun _ => ?_, fun _ => ?_⟩
    · -- the pause has expired: the cancellation is committed, and the request still raises
      unfold expirePause
      apply once_numbered I
      · exact fun e ordinary => .refused e ordinary
      · intro n
        rw [Prog.once_bind]
        apply Db.once_refresh
        intro t _
        exact .expired _ rfl _ clk workflowId taskId agent priority _ rfl rfl rfl own rfl
    · cases moved : task.transitionTo clk.nowUtc .running with
      | error e => exact .refused _ rfl
      | ok task' =>
          dsimp only
          rw [Prog.once_bind, Db.once_ofExcept]
          cases resolved : resolvePriority priority task.priority with
          | error e => exact .refused e (resolvePriority_error resolved)
          | ok priority =>
              dsimp only
              apply once_numbered I
              · exact fun e ordinary => .refused e ordinary
              · intro n
                rw [Prog.once_bind]
                apply Db.once_refresh
                intro t same
                refine .reported _ _ _ rfl rfl ⟨rfl, ?_, own, rfl⟩
                exact same.trans ((Task.transitionTo_origin moved).id.trans own)

theorem once_getMaxContextSequence {taskId : String} {post : Option Work → Except Failure Int → Prop}
    (h : ∀ r, (∀ e, r = .error e → e.isPauseTimeout = false) → post none r) :
    (getMaxContextSequence taskId).Once Store.flush I post none := by
  simp only [getMaxContextSequence, Prog.once_bind, Db.once_query]
  intro s _
  cases (latest (contextEvents s taskId)).bind TaskEvent.data with
  | none => exact h _ fun e impossible => by cases impossible
  | some data => exact h _ fun e raised => toInt_error raised

theorem injectContext_once (clk : Clock) (hex : String) (req : ContextRequest) :
    ((Op.injectContext clk hex req).program env).Once Store.flush I
      (Receipt env I (.injectContext clk hex req)) none := by
  rw [Op.program, Prog.once_bind]
  unfold injectContext
  apply once_authorized I
  · exact fun e ordinary => .refused e ordinary
  · intro task own
    rw [Prog.once_bind, Db.once_ensure]
    refine ⟨fun _ => ?_, fun _ => .refused _ rfl⟩
    dsimp only
    rw [Prog.once_bind]
    apply once_getMaxContextSequence I
    intro r ordinary
    cases r with
    | error e => exact .refused e (ordinary e rfl)
    | ok last =>
        dsimp only
        rw [Prog.once_bind, Db.once_ensure]
        refine ⟨fun _ => ?_, fun _ => .refused _ rfl⟩
        apply once_numbered I
        · exact fun e ordinary => .refused e ordinary
        · intro n
          rw [own]
          exact .reported _ _ _ rfl rfl ⟨⟨n, rfl⟩, rfl⟩

theorem processSidecarEvent_once (clk : Clock) (req : EventRequest) :
    ((Op.processSidecarEvent clk req).program env).Once Store.flush I
      (Receipt env I (.processSidecarEvent clk req)) none := by
  rw [Op.program, Prog.once_bind]
  simp only [processSidecarEvent, Prog.once_bind, Db.once_ensure, Db.once_fetch, Db.once_query,
    Db.once_ofExcept]
  refine ⟨fun known s _ => ⟨fun task stored => ⟨fun _ s _ => ⟨fun _ => ?_, fun _ => .refused _ rfl⟩,
    fun _ => .refused _ rfl⟩, fun _ => .refused _ rfl⟩, fun _ => .refused _ rfl⟩
  have own : task.id = req.taskId := (Table.find?_eq_some.mp stored).2
  cases applied : applyEvent clk req.eventType req.data task with
  | error e => exact .refused e (applyEvent_error applied)
  | ok task' =>
      simp only [Db.once_commit, true_and]
      refine ⟨?_, fun s e refused => .refused e (Store.flush_error refused)⟩
      apply Db.once_refresh
      intro t same
      refine .reported _ _ _ rfl rfl ⟨rfl, ?_, rfl⟩
      exact same.trans ((applyEvent_origin known applied).id.trans own)

end operations

/-- Every operation commits at most once, and its result is the receipt of its commit. -/
theorem Op.once (env : Env) (I : Store → Prop) (op : Op) :
    (op.program env).Once Store.flush I (Receipt env I op) none := by
  cases op with
  | createTask clk hex req => exact createTask_once env I clk hex req
  | retaskTask clk hex req => exact retaskTask_once env I clk hex req
  | redirectTask clk hex req => exact redirectTask_once env I clk hex req
  | cancelTask clk workflowId taskId agent reason =>
      exact cancelTask_once env I clk workflowId taskId agent reason
  | pauseTask clk workflowId taskId agent reason =>
      exact pauseTask_once env I clk workflowId taskId agent reason
  | resumeTask clk workflowId taskId agent priority =>
      exact resumeTask_once env I clk workflowId taskId agent priority
  | injectContext clk hex req => exact injectContext_once env I clk hex req
  | processSidecarEvent clk req => exact processSidecarEvent_once env I clk req

end Fleet.Api
