/- Who may change a task: the frame of every operation. -/
import Fleet.Api.EventLog
import Fleet.Api.Rows

namespace Fleet.Api
open Fleet.Lib

/-! ## What a request is addressed to -/

namespace Op

def agent : Op → String
  | createTask _ _ req => req.callerAgentId
  | retaskTask _ _ req => req.callerAgentId
  | redirectTask _ _ req => req.callerAgentId
  | cancelTask _ _ _ agent _ | pauseTask _ _ _ agent _ | resumeTask _ _ _ agent _ => agent
  | injectContext _ _ req => req.callerAgentId
  | processSidecarEvent _ req => req.executorAgentId

def target? : Op → Option String
  | createTask _ _ _ => none
  | retaskTask _ _ req => some req.taskId
  | redirectTask _ _ req => some req.taskId
  | cancelTask _ _ taskId _ _ | pauseTask _ _ taskId _ _ | resumeTask _ _ taskId _ _ => some taskId
  | injectContext _ _ req => some req.taskId
  | processSidecarEvent _ req => some req.taskId

/-- The workflow named by the path; the executor's route names none. -/
def workflow? : Op → Option String
  | createTask _ _ req => some req.workflowId
  | retaskTask _ _ req => some req.workflowId
  | redirectTask _ _ req => some req.workflowId
  | cancelTask _ workflowId _ _ _ | pauseTask _ workflowId _ _ _ | resumeTask _ workflowId _ _ _ =>
      some workflowId
  | injectContext _ _ req => some req.workflowId
  | processSidecarEvent _ _ => none

end Op

/-- The agent of the request has authority over the task. -/
inductive Authorized (s : Store) (op : Op) (t : Task) : Prop
  | controls (workflow : Workflow) (principal : op.byPrincipal = true)
      (addressed : op.target? = some t.id) (inside : op.workflow? = some t.workflowId)
      (known : s.workflows.find? t.workflowId = some workflow)
      (mayControl : MayControl op.agent t workflow)
  | executes (own : op.byPrincipal = false) (addressed : op.target? = some t.id)
      (executor : t.executorAgentId = some op.agent)

theorem Authorized.addressed {s : Store} {op : Op} {t : Task} (h : Authorized s op t) :
    op.target? = some t.id := by
  cases h with
  | controls workflow principal addressed => exact addressed
  | executes own addressed => exact addressed

theorem Admitted.authorized {s : Store} {op : Op} {workflowId taskId agent : String} {t : Task}
    (h : Admitted s workflowId taskId agent t) (principal : op.byPrincipal = true)
    (target : op.target? = some taskId) (workflow : op.workflow? = some workflowId)
    (caller : op.agent = agent) : Authorized s op t := by
  obtain ⟨w, known, controls⟩ := h.controls
  refine .controls w principal ?_ ?_ ?_ (caller ▸ controls)
  · rw [target, h.own]
  · rw [workflow, h.inside]
  · rw [h.inside, known]

/-! ## Frames of a commit -/

/-- The write set changes the row of the task or stores an event about it. -/
def Work.Touches (w : Work) (id : String) : Prop :=
  (∃ task task', w.dirty = some (task, task') ∧ task.id = id) ∨ ∃ e ∈ w.newEvents, e.taskId = id

theorem Store.flush_frame {w : Work} {s s' : Store} (committed : flush w s = .ok s')
    (fresh : w.Current s) {id : String} {t : Task} (stored : s.tasks.find? id = some t)
    (untouched : ¬ w.Touches id) :
    s'.tasks.find? id = s.tasks.find? id ∧ s'.eventsOf id = s.eventsOf id := by
  obtain ⟨absent, tasks, _⟩ := flush_effect committed fresh
  have others : ∀ u ∈ w.changed, u.id ≠ id := by
    intro u member same
    rcases List.mem_append.mp member with changed | new
    · obtain ⟨pair, dirty, rfl⟩ := Option.map_eq_some_iff.mp (Option.mem_toList.mp changed)
      exact untouched (.inl ⟨pair.1, pair.2, dirty, ((fresh _ _ dirty).2.id).symm.trans same⟩)
    · have free := absent u (Option.mem_toList.mp new)
      rw [same, stored] at free
      cases free
  constructor
  · rw [tasks, List.find?_eq_none.mpr (by simpa using others), Option.none_or]
  · obtain ⟨_, _, _, _, _, rows⟩ := flush_ok committed
    have silent : w.newEvents.filter (fun e => e.taskId = id) = [] := by
      rw [List.filter_eq_nil_iff]
      intro e member
      simpa using fun own => untouched (.inr ⟨e, member, own⟩)
    rw [eventsOf_append rows, silent, List.append_nil]

theorem current_undirty {w : Work} {s : Store} (clean : w.dirty = none) : w.Current s := by
  intro loaded current dirty
  rw [clean] at dirty
  cases dirty

theorem Work.touches_dirty {task task' : Task} {e : TaskEvent} {id : String} (own : e.taskId = task.id)
    (touched : Work.Touches { dirty := some (task, task'), newEvents := [e] } id) : task.id = id := by
  rcases touched with ⟨_, _, same, rfl⟩ | ⟨x, member, rfl⟩
  · cases same
    rfl
  · rw [List.mem_singleton.mp member, own]

theorem touches_succession {task next : Task} {status : TaskStatus} {at' : Time} {e created : TaskEvent}
    {id : String} (own : e.taskId = task.id) (other : created.taskId = next.id)
    (touched : (succession task next status at' e created).Touches id) :
    task.id = id ∨ next.id = id := by
  rcases touched with ⟨_, _, same, rfl⟩ | ⟨x, member, rfl⟩
  · cases same
    exact .inl rfl
  · rcases List.mem_pair.mp member with rfl | rfl
    · exact .inl own.symm
    · exact .inr other.symm

/-! ## Frames of an operation -/

/-- The operation changes the row of the task or appends an event to it. -/
def Op.Alters (env : Env) (op : Op) (s : Store) (id : String) : Prop :=
  (op.exec env s).2.tasks.find? id ≠ s.tasks.find? id ∨
    (op.exec env s).2.eventsOf id ≠ s.eventsOf id

/-- The commit touches, of the stored tasks, only those the agent has authority over. -/
structure CommitsWithin (op : Op) (s s' : Store) (w : Work) : Prop where
  committed : Store.flush w s = .ok s'
  current : w.Current s
  authorized : ∀ id t, s.tasks.find? id = some t → w.Touches id → Authorized s op t

namespace CommitsWithin
variable {op : Op} {s s' : Store}

theorem only {task : Task} {w : Work} (committed : Store.flush w s = .ok s') (current : w.Current s)
    (loaded : s.tasks.find? task.id = some task) (authorized : Authorized s op task)
    (touches : ∀ id, w.Touches id → task.id = id) : CommitsWithin op s s' w := by
  refine ⟨committed, current, fun id t stored touched => ?_⟩
  obtain rfl := touches id touched
  rw [loaded] at stored
  cases stored
  exact authorized

theorem dirty {task task' : Task} {e : TaskEvent} (loaded : s.tasks.find? task.id = some task)
    (origin : Task.SameOrigin task task') (authorized : Authorized s op task) (own : e.taskId = task.id)
    (committed : Store.flush { dirty := some (task, task'), newEvents := [e] } s = .ok s') :
    CommitsWithin op s s' { dirty := some (task, task'), newEvents := [e] } :=
  only committed (dirty_current loaded origin) loaded authorized fun _ => Work.touches_dirty own

theorem noted {task : Task} {e : TaskEvent} (loaded : s.tasks.find? task.id = some task)
    (authorized : Authorized s op task) (own : e.taskId = task.id)
    (committed : Store.flush { newEvents := [e] } s = .ok s') :
    CommitsWithin op s s' { newEvents := [e] } := by
  refine only committed (current_undirty rfl) loaded authorized ?_
  rintro id (⟨_, _, same, _⟩ | ⟨x, member, rfl⟩)
  · cases same
  · rw [List.mem_singleton.mp member, own]

theorem succeeding {task next : Task} {status : TaskStatus} {at' : Time} {e created : TaskEvent}
    (loaded : s.tasks.find? task.id = some task) (authorized : Authorized s op task)
    (own : e.taskId = task.id) (other : created.taskId = next.id)
    (committed : Store.flush (succession task next status at' e created) s = .ok s') :
    CommitsWithin op s s' (succession task next status at' e created) := by
  have fresh : (succession task next status at' e created).Current s := succession_current loaded
  refine ⟨committed, fresh, fun id t stored touched => ?_⟩
  rcases touches_succession own other touched with rfl | rfl
  · rw [loaded] at stored
    cases stored
    exact authorized
  · rw [new_absent committed fresh rfl] at stored
    cases stored

/-- A new task is none of the stored ones. -/
theorem created {task : Task} {e : TaskEvent} (own : e.taskId = task.id)
    (committed : Store.flush { newTask := some task, newEvents := [e] } s = .ok s') :
    CommitsWithin op s s' { newTask := some task, newEvents := [e] } := by
  have fresh : Work.Current { newTask := some task, newEvents := [e] } s := current_undirty rfl
  refine ⟨committed, fresh, fun id t stored touched => ?_⟩
  rcases touched with ⟨_, _, same, _⟩ | ⟨x, member, rfl⟩
  · cases same
  · rw [List.mem_singleton.mp member, own, new_absent committed fresh rfl] at stored
    cases stored

end CommitsWithin

theorem Outcome.authorized {env : Env} {s s' : Store} {op : Op} {r : Except Failure Answer}
    (h : Outcome env s op r s') : s' = s ∨ ∃ w, CommitsWithin op s s' w := by
  cases h with
  | refused | createReplayed | retaskReplayed | redirectReplayed => exact .inl rfl
  | created clk hex req task workflow s' unused requested committed =>
      exact .inr ⟨_, .created (createdEvent_taskId ..) committed⟩
  | retasked clk hex req task priority e created s' admitted reviewable room unused resolved
      announces first committed =>
      obtain ⟨caller, link, rfl⟩ := first
      exact .inr ⟨_, .succeeding admitted.loaded (admitted.authorized rfl rfl rfl rfl) announces.own
        rfl committed⟩
  | redirected clk hex req task priority e created s' admitted redirectable room unused resolved
      announces first committed =>
      obtain ⟨caller, link, rfl⟩ := first
      exact .inr ⟨_, .succeeding admitted.loaded (admitted.authorized rfl rfl rfl rfl) announces.own
        rfl committed⟩
  | cancelled clk workflowId taskId agent reason task e s' admitted valid announces committed =>
      exact .inr ⟨_, .dirty admitted.loaded (task.ended_origin _ _)
        (admitted.authorized rfl rfl rfl rfl) announces.own committed⟩
  | paused clk workflowId taskId agent reason task e s' admitted running announces committed =>
      exact .inr ⟨_, .dirty admitted.loaded (task.pausedSince_origin _)
        (admitted.authorized rfl rfl rfl rfl) announces.own committed⟩
  | resumed clk workflowId taskId agent requested task priority e s' admitted paused live announces
      committed =>
      exact .inr ⟨_, .dirty admitted.loaded (task.resumed_origin _)
        (admitted.authorized rfl rfl rfl rfl) announces.own committed⟩
  | expired clk workflowId taskId agent requested task elapsed e s' admitted paused late announces
      committed =>
      exact .inr ⟨_, .dirty admitted.loaded (task.ended_origin _ _)
        (admitted.authorized rfl rfl rfl rfl) announces.own committed⟩
  | injected clk hex req task response s' admitted injectable committed =>
      exact .inr ⟨_, .noted admitted.loaded (admitted.authorized rfl rfl rfl rfl) admitted.own.symm
        committed⟩
  | recorded clk req task task' s' known stored executor later applied committed =>
      have own : task.id = req.taskId := (Table.find?_eq_some.mp stored).2
      exact .inr ⟨_, .dirty (own ▸ stored) (applyEvent_origin known applied)
        (.executes rfl (own ▸ rfl) executor) own.symm committed⟩

theorem Op.alters_authorized {env : Env} {op : Op} {s : Store} {id : String} {t : Task}
    (stored : s.tasks.find? id = some t) (alters : op.Alters env s id) : Authorized s op t := by
  rcases (op.exec_outcome env s).authorized with same | ⟨w, commit⟩
  · rw [Op.Alters, same] at alters
    simp at alters
  · by_contra denied
    obtain ⟨row, events⟩ := Store.flush_frame commit.committed commit.current stored
      fun touched => denied (commit.authorized id t stored touched)
    rcases alters with changed | changed
    · exact changed row
    · exact changed events

/-- A new task belongs to the workflow of the request, and its principal is the
caller or, for retask and redirect, the principal of the task it continues. -/
def Op.Places (op : Op) (s : Store) (t : Task) : Prop :=
  op.workflow? = some t.workflowId ∧
    match op.target? with
    | none => t.principalAgentId = op.agent
    | some taskId => ∃ task, s.tasks.find? taskId = some task ∧ task.workflowId = t.workflowId ∧
        t.principalAgentId = task.principalAgentId

theorem Born.places {s : Store} {op : Op} {t : Task} (h : Born s op t) : op.Places s t := by
  cases h with
  | requested unused requested =>
      exact ⟨congrArg some requested.workflowId.symm, requested.principal⟩
  | retasked stored inside => exact ⟨rfl, _, stored, inside, rfl⟩
  | redirected stored inside => exact ⟨rfl, _, stored, inside, rfl⟩

/-- What an operation may do to the tasks of others. -/
structure Confined (env : Env) (s : Store) (op : Op) : Prop where
  altered : ∀ id t, s.tasks.find? id = some t → op.Alters env s id → Authorized s op t
  others : ∀ id t, s.tasks.find? id = some t → op.target? ≠ some id →
    (op.exec env s).2.tasks.find? id = some t ∧ (op.exec env s).2.eventsOf id = s.eventsOf id
  added : ∀ id t, s.tasks.find? id = none → (op.exec env s).2.tasks.find? id = some t →
    op.Places s t

/-- Only the principal of a task, the owner of its workflow or its executor changes it. -/
theorem authority_frame (env : Env) (s : Store) (op : Op) : Confined env s op where
  altered id t stored alters := Op.alters_authorized stored alters
  others id t stored other := by
    have kept : ¬ op.Alters env s id := by
      intro alters
      have addressed := (Op.alters_authorized stored alters).addressed
      rw [(Table.find?_eq_some.mp stored).2] at addressed
      exact other addressed
    simp only [Op.Alters, not_or, not_not] at kept
    exact ⟨kept.1.trans stored, kept.2⟩
  added id t absent found := by
    rcases Step.exec_origin (a := .op op) found with ⟨u, stored, _⟩ | ⟨op', same, _, born, _⟩
    · rw [absent] at stored
      cases stored
    · cases same
      exact born.places

end Fleet.Api
