/- Every outcome of a request served alone: one inversion of the eight operations. -/
import Fleet.Api.Evolution

namespace Fleet.Api
open Fleet.Lib

/-! ## What an operation assigns to the row it loaded -/

namespace Task

def ended (t : Task) (status : TaskStatus) (at' : Time) : Task :=
  { t with status, completedAt := some at' }

def pausedSince (t : Task) (at' : Time) : Task := { t with status := .paused, pausedAt := some at' }

def resumed (t : Task) (priority : TaskPriority) : Task :=
  { t with status := .running, pausedAt := none, priority }

variable (t : Task) (status : TaskStatus) (at' : Time) (priority : TaskPriority)

@[simp] theorem ended_origin : SameOrigin t (t.ended status at') := rfl
@[simp] theorem pausedSince_origin : SameOrigin t (t.pausedSince at') := rfl
@[simp] theorem resumed_origin : SameOrigin t (t.resumed priority) := rfl

theorem transitionTo_ended {t : Task} {status : TaskStatus} {at' : Time}
    (valid : status ∈ validTransitions t.status) (terminal : isTerminal status = true) :
    t.transitionTo at' status = .ok (t.ended status at') :=
  transitionTo_ok.mpr ⟨valid, by rw [if_pos terminal]; rfl⟩

theorem transitionTo_ended_iff {t t' : Task} {status : TaskStatus} {at' : Time}
    (terminal : isTerminal status = true) : t.transitionTo at' status = .ok t' ↔
      status ∈ validTransitions t.status ∧ t' = t.ended status at' := by
  rw [transitionTo_ok, if_pos terminal]
  exact Iff.rfl

end Task

/-! ## Guards -/

/-- The task exists in the workflow and the agent may control it. -/
structure Admitted (s : Store) (workflowId taskId agent : String) (task : Task) : Prop where
  stored : s.tasks.find? taskId = some task
  inside : task.workflowId = workflowId
  controls : ∃ workflow, s.workflows.find? workflowId = some workflow ∧
    MayControl agent task workflow

theorem Admitted.own {s : Store} {workflowId taskId agent : String} {task : Task}
    (h : Admitted s workflowId taskId agent task) : task.id = taskId :=
  (Table.find?_eq_some.mp h.stored).2

theorem Admitted.loaded {s : Store} {workflowId taskId agent : String} {task : Task}
    (h : Admitted s workflowId taskId agent task) : s.tasks.find? task.id = some task :=
  h.own ▸ h.stored

theorem Admitted.authorized_run {s : Store} {workflowId taskId agent : String} {task : Task}
    (h : Admitted s workflowId taskId agent task) (verb : String) :
    (authorized workflowId taskId agent verb).run Store.flush s = (.ok task, s) := by
  obtain ⟨workflow, known, controls⟩ := h.controls
  have found : (s.tasks.find? taskId).filter (fun t => t.workflowId = workflowId) = some task :=
    Option.filter_eq_some_iff.mpr ⟨h.stored, by simpa using h.inside⟩
  simp [authorized, fetchWorkflow, fetchTask, Db.fetch, Db.ensure, Prog.run_bind, Prog.run, Prog.pure_eq,
    known, found, controls]

/-- The request carries the key of the stored task and its input. -/
def Replays (env : Env) (s : Store) (key : Option String) (input : Dict) (t : Task) : Prop :=
  ∃ k, key = some k ∧ s.byIdempotencyKey? k = some t ∧
    env.inputDigest t.input = env.inputDigest input

def Unused (s : Store) (key : Option String) : Prop :=
  ∀ k, key = some k → s.byIdempotencyKey? k = none

/-- The row `create_task` inserts for a request. -/
structure Requested (clk : Clock) (hex : String) (req : CreateRequest) (t : Task) : Prop where
  id : t.id = newTaskId hex
  workflowId : t.workflowId = req.workflowId
  principal : t.principalAgentId = req.callerAgentId
  status : t.status = .accepted
  input : t.input = req.input
  parent : t.parentTaskId = none
  key : t.idempotencyKey = req.idempotencyKey
  callbackUrl : t.callbackUrl = req.callbackUrl
  createdAt : t.createdAt = clk.now
  startedAt : t.startedAt = none
  completedAt : t.completedAt = none
  pausedAt : t.pausedAt = none

/-! ## Outcomes -/

/-- The task an answer reports as new. -/
def created? : Except Failure Answer → Option Task
  | .ok (.created t _ false) | .ok (.succeeded t _ false) => some t
  | _ => none

/-- The task an answer reports as the result of an earlier request. -/
def replayed? : Except Failure Answer → Option Task
  | .ok (.created t _ true) | .ok (.succeeded t _ true) => some t
  | _ => none

def refusal? : Except Failure Answer → Option ErrorCode
  | .error e => e.code?
  | .ok _ => none

/-- What retask and redirect commit: the successor, the end of the old task and one
event about each. -/
def succession (task next : Task) (status : TaskStatus) (at' : Time) (e created : TaskEvent) : Work where
  newTask := some next
  dirty := some (task, task.ended status at')
  newEvents := [e, created]

/-- An event of the principal side about a task, which injects no context. -/
structure Announces (e : TaskEvent) (task : Task) : Prop where
  own : e.taskId = task.id
  type : e.eventType ∈ ["status", "pause_requested", "resume_requested"]

/-- The answer of an operation run alone at `s` and the store it leaves. -/
inductive Outcome (env : Env) (s : Store) : Op → Except Failure Answer → Store → Prop
  | refused (op : Op) (e : Failure) (ordinary : e.isPauseTimeout = false) :
      Outcome env s op (.error e) s
  | createReplayed (clk : Clock) (hex : String) (req : CreateRequest) (t : Task) (workflow : Workflow)
      (replays : Replays env s req.idempotencyKey req.input t)
      (known : s.workflows.find? req.workflowId = some workflow) :
      Outcome env s (.createTask clk hex req) (.ok (.created t workflow true)) s
  | created (clk : Clock) (hex : String) (req : CreateRequest) (task : Task) (workflow : Workflow)
      (s' : Store) (unused : Unused s req.idempotencyKey) (requested : Requested clk hex req task)
      (committed : Store.flush {
        newTask := some task
        newEvents := [createdEvent task.id req.callerAgentId [] clk.now] } s = .ok s') :
      Outcome env s (.createTask clk hex req) (.ok (.created task workflow false)) s'
  | retaskReplayed (clk : Clock) (hex : String) (req : RetaskRequest) (task t : Task)
      (admitted : Admitted s req.workflowId req.taskId req.callerAgentId task)
      (reviewable : task.status = .completed ∨ task.status = .failed)
      (replays : Replays env s req.idempotencyKey (mergedInput task req.refinement) t) :
      Outcome env s (.retaskTask clk hex req) (.ok (.succeeded t task true)) s
  | retasked (clk : Clock) (hex : String) (req : RetaskRequest) (task : Task) (priority : TaskPriority)
      (e created : TaskEvent) (s' : Store)
      (admitted : Admitted s req.workflowId req.taskId req.callerAgentId task)
      (reviewable : task.status = .completed ∨ task.status = .failed)
      (room : task.lineageDepth < env.settings.fleetLineageMaxDepth)
      (unused : Unused s req.idempotencyKey)
      (resolved : resolvePriority req.priority task.priority = .ok priority) (announces : Announces e task)
      (first : ∃ caller link, created = createdEvent (newTaskId hex) caller link clk.now)
      (committed : Store.flush (succession task
        (successor task req.workflowId hex (mergedInput task req.refinement) priority clk.now
          req.idempotencyKey [("refinement", .obj req.refinement.toDict)])
        .retasked clk.nowUtc e created) s = .ok s') :
      Outcome env s (.retaskTask clk hex req) (.ok (.succeeded
        (successor task req.workflowId hex (mergedInput task req.refinement) priority clk.now
          req.idempotencyKey [("refinement", .obj req.refinement.toDict)])
        (task.ended .retasked clk.nowUtc) false)) s'
  | redirectReplayed (clk : Clock) (hex : String) (req : RedirectRequest) (task t : Task)
      (admitted : Admitted s req.workflowId req.taskId req.callerAgentId task)
      (redirectable : task.status = .running ∨ task.status = .paused)
      (replays : Replays env s req.idempotencyKey req.newInput t) :
      Outcome env s (.redirectTask clk hex req) (.ok (.succeeded t task true)) s
  | redirected (clk : Clock) (hex : String) (req : RedirectRequest) (task : Task)
      (priority : TaskPriority) (e created : TaskEvent) (s' : Store)
      (admitted : Admitted s req.workflowId req.taskId req.callerAgentId task)
      (redirectable : task.status = .running ∨ task.status = .paused)
      (room : task.lineageDepth < env.settings.fleetLineageMaxDepth)
      (unused : Unused s req.idempotencyKey)
      (resolved : resolvePriority req.priority task.priority = .ok priority) (announces : Announces e task)
      (first : ∃ caller link, created = createdEvent (newTaskId hex) caller link clk.now)
      (committed : Store.flush (succession task
        (successor task req.workflowId hex req.newInput priority clk.now req.idempotencyKey
          (redirectMetadata task req.reason req.inheritProgress))
        .redirected clk.nowUtc e created) s = .ok s') :
      Outcome env s (.redirectTask clk hex req) (.ok (.succeeded
        (successor task req.workflowId hex req.newInput priority clk.now req.idempotencyKey
          (redirectMetadata task req.reason req.inheritProgress))
        (task.ended .redirected clk.nowUtc) false)) s'
  | cancelled (clk : Clock) (workflowId taskId agent : String) (reason : Option String) (task : Task)
      (e : TaskEvent) (s' : Store) (admitted : Admitted s workflowId taskId agent task)
      (valid : .cancelled ∈ validTransitions task.status) (announces : Announces e task)
      (committed : Store.flush {
        dirty := some (task, task.ended .cancelled clk.nowUtc), newEvents := [e] } s = .ok s') :
      Outcome env s (.cancelTask clk workflowId taskId agent reason)
        (.ok (.cancelled (task.ended .cancelled clk.nowUtc))) s'
  | paused (clk : Clock) (workflowId taskId agent : String) (reason : Option String) (task : Task)
      (e : TaskEvent) (s' : Store) (admitted : Admitted s workflowId taskId agent task)
      (running : task.status = .running) (announces : Announces e task)
      (committed : Store.flush {
        dirty := some (task, task.pausedSince clk.now), newEvents := [e] } s = .ok s') :
      Outcome env s (.pauseTask clk workflowId taskId agent reason)
        (.ok (.signalled (task.pausedSince clk.now) e)) s'
  | resumed (clk : Clock) (workflowId taskId agent : String) (requested : Option String) (task : Task)
      (priority : TaskPriority) (e : TaskEvent) (s' : Store)
      (admitted : Admitted s workflowId taskId agent task) (paused : task.status = .paused)
      (live : pauseExpired env task clk.now = false) (announces : Announces e task)
      (committed : Store.flush {
        dirty := some (task, task.resumed priority), newEvents := [e] } s = .ok s') :
      Outcome env s (.resumeTask clk workflowId taskId agent requested)
        (.ok (.signalled (task.resumed priority) e)) s'
  | expired (clk : Clock) (workflowId taskId agent : String) (requested : Option String) (task : Task)
      (elapsed : Int) (e : TaskEvent) (s' : Store)
      (admitted : Admitted s workflowId taskId agent task) (paused : task.status = .paused)
      (late : pauseExpired env task clk.now = true) (announces : Announces e task)
      (committed : Store.flush {
        dirty := some (task, task.ended .cancelled clk.nowUtc), newEvents := [e] } s = .ok s') :
      Outcome env s (.resumeTask clk workflowId taskId agent requested)
        (.error (.api (pauseTimeout env task elapsed))) s'
  | injected (clk : Clock) (hex : String) (req : ContextRequest) (task : Task) (response : Dict)
      (s' : Store) (admitted : Admitted s req.workflowId req.taskId req.callerAgentId task)
      (injectable : task.status ∈ contextInjectableStatuses)
      (committed : Store.flush { newEvents :=
        [injectionEvent clk hex req req.taskId (s.maxSequence req.taskId)] } s = .ok s') :
      Outcome env s (.injectContext clk hex req) (.ok (.injected response)) s'
  | recorded (clk : Clock) (req : EventRequest) (task task' : Task) (s' : Store)
      (known : req.eventType ∈ validEventTypes) (stored : s.tasks.find? req.taskId = some task)
      (executor : task.executorAgentId = some req.executorAgentId) (later : s.maxSequence req.taskId < req.sequence)
      (applied : applyEvent clk req.eventType req.data task = .ok task')
      (committed : Store.flush {
        dirty := some (task, task'), newEvents := [sidecarEvent clk req] } s = .ok s') :
      Outcome env s (.processSidecarEvent clk req) (.ok (.recorded (sidecarEvent clk req) task'
        (isTerminal task'.status && task'.callbackUrl.isSome))) s'

/-! ## Each operation has one of the outcomes -/

section rules
variable {R : Store → Work → Prop} {s : Store} {α : Type} {Q : Except Failure α → Store → Prop}

theorem wp_admitted {rest : Task → Db α} {workflowId taskId agent verb : String}
    (fails : ∀ e, e.isPauseTimeout = false → Q (.error e) s)
    (passes : ∀ task, Admitted s workflowId taskId agent task → (rest task).wp Store.flush Eq R Q s) :
    (authorized workflowId taskId agent verb >>= rest).wp Store.flush Eq R Q s := by
  simp only [authorized, fetchWorkflow, fetchTask, Prog.wp_bind, Db.wp_fetch, Db.wp_ensure,
    Prog.wp_pure, forall_eq']
  refine ⟨fun workflow known => ⟨fun task found => ⟨fun controls => ?_, fun _ => fails _ rfl⟩,
    fun _ => fails _ rfl⟩, fun _ => fails _ rfl⟩
  obtain ⟨stored, inside⟩ := Option.filter_eq_some_iff.mp found
  exact passes task ⟨stored, by simpa using inside, workflow, known, controls⟩

theorem wp_committed {id : String} {w : Int → Work} {rest : Int → Unit → Db α}
    (always : ∀ s w, R s w) (fails : ∀ e, e.isPauseTimeout = false → Q (.error e) s)
    (answers : ∀ s', Store.flush (w (s.maxSequence id)) s = .ok s' →
      (rest (s.maxSequence id) ()).wp Store.flush Eq R Q s') :
    (Db.query (fun s => s.maxSequence id) >>= fun last => Db.commit (w last) >>= rest last).wp
      Store.flush Eq R Q s := by
  simp only [Prog.wp_bind, Db.wp_query, Db.wp_commit, forall_eq']
  exact ⟨always _ _, answers, fun e refused => fails e (Store.flush_error refused)⟩

theorem wp_replays {env : Env} {key : Option String} {input : Dict} {rest : Option Task → Db α}
    (fails : ∀ e, e.isPauseTimeout = false → Q (.error e) s)
    (replays : ∀ t, Replays env s key input t → (rest (some t)).wp Store.flush Eq R Q s)
    (proceeds : Unused s key → (rest none).wp Store.flush Eq R Q s) :
    (replayOf env key input >>= rest).wp Store.flush Eq R Q s := by
  simp only [Prog.wp_bind, wp_replayOf, forall_eq']
  refine ⟨fun none => proceeds fun k same => ?_, fun k given => ⟨fun absent => ?_, fun t stored =>
    ⟨fun same => replays t ⟨k, given, stored, same⟩, fun _ => fails _ rfl⟩⟩⟩
  · rw [none] at same
    cases same
  · refine proceeds fun k' given' => ?_
    rw [given, Option.some.injEq] at given'
    exact given' ▸ absent

end rules

theorem refresh_written {w : Work} {s s' : Store} (committed : Store.flush w s = .ok s')
    (fresh : w.Current s) {t : Task} (written : w.changed.find? (fun u => u.id = t.id) = some t)
    (other : Task) : (s'.tasks.find? t.id).getD other = t := by
  rw [(Store.flush_effect committed fresh).2.1, written]
  rfl

theorem dirty_current {s : Store} {task task' : Task} {e : List TaskEvent}
    (stored : s.tasks.find? task.id = some task) (origin : Task.SameOrigin task task') :
    Work.Current { dirty := some (task, task'), newEvents := e } s := by
  intro loaded current same
  cases same
  exact ⟨stored, origin⟩

theorem succession_current {s : Store} {task next : Task} {status : TaskStatus} {at' : Time}
    {e created : TaskEvent} (stored : s.tasks.find? task.id = some task) :
    (succession task next status at' e created).Current s := by
  intro loaded current same
  cases same
  exact ⟨stored, rfl⟩

theorem refresh_dirty {s s' : Store} {task task' : Task} {e : List TaskEvent}
    (committed : Store.flush { dirty := some (task, task'), newEvents := e } s = .ok s')
    (stored : s.tasks.find? task.id = some task) (origin : Task.SameOrigin task task')
    (other : Task) : (s'.tasks.find? task'.id).getD other = task' :=
  refresh_written committed (dirty_current stored origin) (by simp [Work.changed]) other

theorem refresh_new {s s' : Store} {t : Task} {id : String} {e : List TaskEvent}
    (committed : Store.flush { newTask := some t, newEvents := e } s = .ok s') (own : t.id = id) :
    (s'.tasks.find? id).getD t = t := by
  subst own
  apply refresh_written committed
  · intro loaded current same
    cases same
  · simp [Work.changed]

section operations
variable (env : Env) (s : Store)

theorem cancelTask_outcome (clk : Clock) (workflowId taskId agent : String) (reason : Option String) :
    ((Op.cancelTask clk workflowId taskId agent reason).program env).wp Store.flush Eq
      (fun _ _ => True) (Outcome env s (.cancelTask clk workflowId taskId agent reason)) s := by
  rw [Op.program, Prog.wp_bind]
  unfold cancelTask
  apply wp_admitted
  · exact fun e ordinary => .refused _ e ordinary
  · intro task admitted
    cases moved : task.transitionTo clk.nowUtc .cancelled with
    | error e => exact .refused _ _ rfl
    | ok task' =>
        obtain ⟨valid, rfl⟩ := (Task.transitionTo_ended_iff rfl).mp moved
        dsimp only
        apply wp_committed (fun _ _ => trivial)
        · exact fun e ordinary => .refused _ e ordinary
        · intro s' committed
          rw [Db.wp_refresh]
          rintro _ rfl
          rw [refresh_dirty committed admitted.loaded rfl]
          exact .cancelled clk workflowId taskId agent reason task _ s' admitted valid
            ⟨rfl, by simp⟩ committed

theorem pauseTask_outcome (clk : Clock) (workflowId taskId agent : String) (reason : Option String) :
    ((Op.pauseTask clk workflowId taskId agent reason).program env).wp Store.flush Eq
      (fun _ _ => True) (Outcome env s (.pauseTask clk workflowId taskId agent reason)) s := by
  rw [Op.program, Prog.wp_bind]
  unfold pauseTask
  apply wp_admitted
  · exact fun e ordinary => .refused _ e ordinary
  · intro task admitted
    rw [Prog.wp_bind, Db.wp_ensure]
    refine ⟨fun running => ?_, fun _ => .refused _ _ rfl⟩
    dsimp only
    cases moved : task.transitionTo clk.nowUtc .paused with
    | error e => exact .refused _ _ rfl
    | ok task' =>
        obtain ⟨valid, rfl⟩ := Task.transitionTo_ok.mp moved
        dsimp only
        apply wp_committed (fun _ _ => trivial)
        · exact fun e ordinary => .refused _ e ordinary
        · intro s' committed
          rw [Prog.wp_bind, Db.wp_refresh]
          rintro _ rfl
          rw [refresh_dirty committed admitted.loaded rfl]
          exact .paused clk workflowId taskId agent reason task _ s' admitted running
            ⟨rfl, by simp⟩ committed

theorem resumeTask_outcome (clk : Clock) (workflowId taskId agent : String)
    (requested : Option String) :
    ((Op.resumeTask clk workflowId taskId agent requested).program env).wp Store.flush Eq
      (fun _ _ => True) (Outcome env s (.resumeTask clk workflowId taskId agent requested)) s := by
  rw [Op.program, Prog.wp_bind]
  unfold resumeTask
  apply wp_admitted
  · exact fun e ordinary => .refused _ e ordinary
  · intro task admitted
    rw [Prog.wp_bind, Db.wp_ensure]
    refine ⟨fun paused => ?_, fun _ => .refused _ _ rfl⟩
    dsimp only
    rw [Prog.wp_ite]
    have valid : .cancelled ∈ validTransitions task.status ∧
        .running ∈ validTransitions task.status := by
      rw [paused]
      decide
    refine ⟨fun late => ?_, fun live => ?_⟩
    · have moved := @Task.transitionTo_ended task .cancelled clk.nowUtc valid.1 rfl
      simp only [expirePause, moved]
      apply wp_committed (fun _ _ => trivial)
      · exact fun e ordinary => .refused _ e ordinary
      · intro s' committed
        rw [Prog.wp_bind, Db.wp_refresh]
        rintro _ rfl
        exact .expired clk workflowId taskId agent requested task _ _ s' admitted paused late
          ⟨rfl, by simp [expiryEvent]⟩ committed
    · have moved := (@Task.transitionTo_ok task _ clk.nowUtc .running).mpr ⟨valid.2, rfl⟩
      simp only [moved]
      rw [Prog.wp_bind, Db.wp_ofExcept]
      cases resolved : resolvePriority requested task.priority with
      | error e => exact .refused _ _ (resolvePriority_error resolved)
      | ok priority =>
          dsimp only
          apply wp_committed (fun _ _ => trivial)
          · exact fun e ordinary => .refused _ e ordinary
          · intro s' committed
            rw [Prog.wp_bind, Db.wp_refresh]
            rintro _ rfl
            rw [refresh_dirty committed admitted.loaded rfl]
            exact .resumed clk workflowId taskId agent requested task priority _ s' admitted paused
              (by simpa using live) ⟨rfl, by simp⟩ committed

theorem createTask_outcome (clk : Clock) (hex : String) (req : CreateRequest) :
    ((Op.createTask clk hex req).program env).wp Store.flush Eq
      (fun _ _ => True) (Outcome env s (.createTask clk hex req)) s := by
  rw [Op.program, Prog.wp_bind]
  unfold createTask createTaskWith
  apply wp_replays
  · exact fun e ordinary => .refused _ e ordinary
  · intro t replays
    dsimp only
    simp only [getWorkflowOr404, Prog.wp_bind, Db.wp_fetch, Prog.wp_pure, forall_eq']
    exact ⟨fun workflow known => .createReplayed clk hex req t workflow replays known,
      fun _ => .refused _ _ rfl⟩
  · intro unused
    dsimp only
    simp only [getWorkflowOr404, checkAgentNotSuspended, Prog.wp_bind, Db.wp_fetch, Db.wp_query,
      Db.wp_ensure, Db.wp_ofExcept, forall_eq']
    refine ⟨fun workflow known => ⟨fun _ => ?_, fun _ => .refused _ _ rfl⟩, fun _ => .refused _ _ rfl⟩
    cases valid : validateInput env req.input workflow.inputSchema with
    | error e => exact .refused _ _ (validateInput_error valid)
    | ok _ =>
        cases parsed : parsePriority req.priority with
        | error e => exact .refused _ _ (parsePriority_error parsed)
        | ok priority =>
            simp only [Db.wp_commit, Db.wp_refresh, Prog.wp_pure, forall_eq', true_and]
            refine ⟨fun s' committed => ?_, fun e refused => .refused _ _ (Store.flush_error refused)⟩
            rw [refresh_new committed rfl]
            exact .created clk hex req _ workflow s' unused
              ⟨rfl, rfl, rfl, rfl, rfl, rfl, rfl, rfl, rfl, rfl, rfl, rfl⟩ committed

theorem wp_succession {α : Type} {task next : Task} {status : TaskStatus} {at' : Time}
    {e : Int → TaskEvent} {created : TaskEvent} {rest : Task → Task → Db α}
    {Q : Except Failure α → Store → Prop} (stored : s.tasks.find? task.id = some task)
    (fails : ∀ e, e.isPauseTimeout = false → Q (.error e) s)
    (answers : ∀ s', Store.flush
      (succession task next status at' (e (s.maxSequence task.id)) created) s = .ok s' →
      (rest next (task.ended status at')).wp Store.flush Eq (fun _ _ => True) Q s') :
    (Db.query (fun s => s.maxSequence task.id) >>= fun last =>
      Db.commit (succession task next status at' (e last) created) >>= fun _ =>
        Db.refresh next >>= fun next => Db.refresh (task.ended status at') >>= fun task' =>
          rest next task').wp Store.flush Eq (fun _ _ => True) Q s := by
  apply wp_committed (fun _ _ => trivial)
  · exact fails
  · intro s' committed
    have fresh : (succession task next status at' (e (s.maxSequence task.id)) created).Current s :=
      succession_current stored
    have absent := (Store.flush_effect committed fresh).1 next rfl
    have apart : task.id ≠ next.id := by
      intro same
      rw [← same, stored] at absent
      cases absent
    rw [Prog.wp_bind, Db.wp_refresh]
    rintro _ rfl
    dsimp only
    rw [Prog.wp_bind, Db.wp_refresh]
    rintro _ rfl
    rw [refresh_written committed fresh (t := next), refresh_written committed fresh (t := task.ended status at')]
    · exact answers s' committed
    · simp [Work.changed, succession]
    · simp [Work.changed, succession, Task.ended, apart]

theorem retaskTask_outcome (clk : Clock) (hex : String) (req : RetaskRequest) :
    ((Op.retaskTask clk hex req).program env).wp Store.flush Eq
      (fun _ _ => True) (Outcome env s (.retaskTask clk hex req)) s := by
  rw [Op.program, Prog.wp_bind]
  unfold retaskTask
  apply wp_admitted
  · exact fun e ordinary => .refused _ e ordinary
  · intro task admitted
    rw [Prog.wp_bind, Db.wp_ensure]
    refine ⟨fun reviewable => ?_, fun _ => .refused _ _ rfl⟩
    dsimp only
    rw [Prog.wp_bind, Db.wp_ensure]
    refine ⟨fun room => ?_, fun _ => .refused _ _ rfl⟩
    apply wp_replays
    · exact fun e ordinary => .refused _ e ordinary
    · exact fun t replays => .retaskReplayed clk hex req task t admitted reviewable replays
    · intro unused
      dsimp only
      cases moved : task.transitionTo clk.nowUtc .retasked with
      | error e => exact .refused _ _ rfl
      | ok task' =>
          obtain ⟨valid, rfl⟩ := (Task.transitionTo_ended_iff rfl).mp moved
          dsimp only
          rw [Prog.wp_bind, Db.wp_ofExcept]
          cases resolved : resolvePriority req.priority task.priority with
          | error e => exact .refused _ _ (resolvePriority_error resolved)
          | ok priority =>
              apply wp_succession s admitted.loaded
              · exact fun e ordinary => .refused _ e ordinary
              · intro s' committed
                exact .retasked clk hex req task priority _ _ s' admitted reviewable room
                  unused resolved ⟨rfl, by simp⟩ ⟨_, _, rfl⟩ committed

theorem redirectTask_outcome (clk : Clock) (hex : String) (req : RedirectRequest) :
    ((Op.redirectTask clk hex req).program env).wp Store.flush Eq
      (fun _ _ => True) (Outcome env s (.redirectTask clk hex req)) s := by
  rw [Op.program, Prog.wp_bind]
  unfold redirectTask
  apply wp_admitted
  · exact fun e ordinary => .refused _ e ordinary
  · intro task admitted
    rw [Prog.wp_bind, Db.wp_ensure]
    refine ⟨fun redirectable => ?_, fun _ => .refused _ _ rfl⟩
    dsimp only
    rw [Prog.wp_bind, Db.wp_ensure]
    refine ⟨fun room => ?_, fun _ => .refused _ _ rfl⟩
    apply wp_replays
    · exact fun e ordinary => .refused _ e ordinary
    · exact fun t replays => .redirectReplayed clk hex req task t admitted redirectable replays
    · intro unused
      dsimp only
      cases moved : task.transitionTo clk.nowUtc .redirected with
      | error e => exact .refused _ _ rfl
      | ok task' =>
          obtain ⟨valid, rfl⟩ := (Task.transitionTo_ended_iff rfl).mp moved
          dsimp only
          rw [Prog.wp_bind, Db.wp_ofExcept]
          cases resolved : resolvePriority req.priority task.priority with
          | error e => exact .refused _ _ (resolvePriority_error resolved)
          | ok priority =>
              apply wp_succession s admitted.loaded
              · exact fun e ordinary => .refused _ e ordinary
              · intro s' committed
                exact .redirected clk hex req task priority _ _ s' admitted redirectable room
                  unused resolved ⟨rfl, by simp⟩ ⟨_, _, rfl⟩ committed

theorem injectContext_outcome (clk : Clock) (hex : String) (req : ContextRequest) :
    ((Op.injectContext clk hex req).program env).wp Store.flush Eq
      (fun _ _ => True) (Outcome env s (.injectContext clk hex req)) s := by
  rw [Op.program, Prog.wp_bind]
  unfold injectContext
  apply wp_admitted
  · exact fun e ordinary => .refused _ e ordinary
  · intro task admitted
    rw [Prog.wp_bind, Db.wp_ensure]
    refine ⟨fun injectable => ?_, fun _ => .refused _ _ rfl⟩
    dsimp only
    rw [Prog.wp_bind]
    apply wp_getMaxContextSequence
    rintro _ rfl r ordinary
    cases r with
    | error e => exact .refused _ _ (ordinary e rfl)
    | ok last =>
        dsimp only
        rw [Prog.wp_bind, Db.wp_ensure]
        refine ⟨fun _ => ?_, fun _ => .refused _ _ rfl⟩
        dsimp only
        apply wp_committed (fun _ _ => trivial)
        · exact fun e ordinary => .refused _ e ordinary
        · intro s' committed
          rw [admitted.own] at committed
          exact .injected clk hex req task _ s' admitted injectable committed

theorem processSidecarEvent_outcome (clk : Clock) (req : EventRequest) :
    ((Op.processSidecarEvent clk req).program env).wp Store.flush Eq
      (fun _ _ => True) (Outcome env s (.processSidecarEvent clk req)) s := by
  simp only [Op.program, processSidecarEvent, Prog.wp_bind, Db.wp_ensure, Db.wp_fetch,
    Db.wp_query, Db.wp_ofExcept, forall_eq']
  refine ⟨fun known => ⟨fun task stored => ⟨fun executor => ⟨fun later => ?_,
    fun _ => .refused _ _ rfl⟩, fun _ => .refused _ _ rfl⟩, fun _ => .refused _ _ rfl⟩,
    fun _ => .refused _ _ rfl⟩
  cases applied : applyEvent clk req.eventType req.data task with
  | error e => exact .refused _ _ (applyEvent_error applied)
  | ok task' =>
      have origin : Task.SameOrigin task task' := applyEvent_origin known applied
      have own : task.id = req.taskId := (Table.find?_eq_some.mp stored).2
      simp only [Db.wp_commit, Db.wp_refresh, Prog.wp_pure, forall_eq', true_and]
      refine ⟨fun s' committed => ?_, fun e refused => .refused _ _ (Store.flush_error refused)⟩
      rw [refresh_dirty committed (own ▸ stored) origin]
      exact .recorded clk req task task' s' known stored executor later applied committed

end operations

/-- The inversion: whatever an operation answers and leaves is one of its outcomes. -/
theorem Op.exec_outcome (env : Env) (op : Op) (s : Store) :
    Outcome env s op (op.exec env s).1 (op.exec env s).2 := by
  apply Prog.wp_run (R := fun _ _ => True)
  cases op with
  | createTask clk hex req => exact createTask_outcome env s clk hex req
  | retaskTask clk hex req => exact retaskTask_outcome env s clk hex req
  | redirectTask clk hex req => exact redirectTask_outcome env s clk hex req
  | cancelTask clk workflowId taskId agent reason =>
      exact cancelTask_outcome env s clk workflowId taskId agent reason
  | pauseTask clk workflowId taskId agent reason =>
      exact pauseTask_outcome env s clk workflowId taskId agent reason
  | resumeTask clk workflowId taskId agent requested =>
      exact resumeTask_outcome env s clk workflowId taskId agent requested
  | injectContext clk hex req => exact injectContext_outcome env s clk hex req
  | processSidecarEvent clk req => exact processSidecarEvent_outcome env s clk req

end Fleet.Api
