/- What a served request does to one row of the task table. -/
import Mathlib.Data.List.Induction
import Fleet.Api.Outcomes

namespace Fleet.Api
open Fleet.Lib

/-! ## The rows a commit leaves -/

section commits
variable {s s' : Store} {task task' next : Task} {es : List TaskEvent}

theorem find?_dirty (stored : s.tasks.find? task.id = some task) (origin : Task.SameOrigin task task')
    (committed : Store.flush { dirty := some (task, task'), newEvents := es } s = .ok s') (id : String) :
    s'.tasks.find? id = if task.id = id then some task' else s.tasks.find? id := by
  rw [(Store.flush_effect committed (dirty_current stored origin)).2.1]
  by_cases own : task.id = id
  · simp [Work.changed, origin.id, own]
  · simp [Work.changed, origin.id, own]

theorem find?_new (committed : Store.flush { newTask := some next, newEvents := es } s = .ok s')
    (id : String) : s'.tasks.find? id = if next.id = id then some next else s.tasks.find? id := by
  have fresh : Work.Current { newTask := some next, newEvents := es } s := by
    intro loaded current same
    cases same
  rw [(Store.flush_effect committed fresh).2.1]
  by_cases own : next.id = id
  · simp [Work.changed, own]
  · simp [Work.changed, own]

theorem find?_silent (committed : Store.flush { newEvents := es } s = .ok s') (id : String) :
    s'.tasks.find? id = s.tasks.find? id := by
  have fresh : Work.Current { newEvents := es } s := by
    intro loaded current same
    cases same
  rw [(Store.flush_effect committed fresh).2.1]
  rfl

theorem new_absent {w : Work} (committed : Store.flush w s = .ok s') (fresh : w.Current s)
    (new : w.newTask = some next) : s.tasks.find? next.id = none :=
  (Store.flush_effect committed fresh).1 next new

theorem find?_succession {status : TaskStatus} {at' : Time} {e created : TaskEvent}
    (stored : s.tasks.find? task.id = some task)
    (committed : Store.flush (succession task next status at' e created) s = .ok s') (id : String) :
    s'.tasks.find? id = if task.id = id then some (task.ended status at')
      else if next.id = id then some next else s.tasks.find? id := by
  rw [(Store.flush_effect committed (succession_current stored)).2.1]
  by_cases own : task.id = id
  · simp [Work.changed, succession, Task.ended, own]
  · by_cases other : next.id = id
    · simp [Work.changed, succession, Task.ended, own, other]
    · simp [Work.changed, succession, Task.ended, own, other]

end commits

/-! ## What an executor's event assigns -/

/-- The columns the executor's events assign, the result and the metadata apart. -/
structure Assigned (clk : Clock) (t t' : Task) : Prop where
  status : t'.status = t.status ∨ t'.status ∈ validTransitions t.status
  pausedAt : t'.pausedAt = t.pausedAt
  completedAt : t'.completedAt =
    if t'.status ≠ t.status ∧ isTerminal t'.status then some clk.nowUtc else t.completedAt
  startedAt : t'.startedAt =
    if t'.status ≠ t.status ∧ t'.status = .running ∧ t.startedAt = none then some clk.now
    else t.startedAt

theorem Assigned.moved {clk : Clock} {t t' mid : Task} {status : TaskStatus}
    (moved : moveTo t clk.nowUtc status = .ok mid) (now : t'.status = mid.status)
    (pausedAt : t'.pausedAt = mid.pausedAt) (completedAt : t'.completedAt = mid.completedAt)
    (startedAt : t'.startedAt =
      if status = .running ∧ mid.startedAt = none then some clk.now else mid.startedAt) :
    Assigned clk t t' := by
  obtain ⟨valid, rfl⟩ := Task.transitionTo_ok.mp (moveTo_ok moved)
  have other := moved_ne valid
  refine ⟨.inr (now ▸ valid), pausedAt, ?_, ?_⟩
  · rw [completedAt, now]
    simp [other]
  · rw [startedAt, now]
    simp [other]

theorem applyEvent_assigns {clk : Clock} {eventType : String} {data : Dict} {t t' : Task}
    (applied : applyEvent clk eventType data t = .ok t') : Assigned clk t t' := by
  unfold applyEvent at applied
  split at applied
  · simp only [onStatus] at applied
    split at applied
    · cases applied
    · rename_i status named
      obtain ⟨mid, moved, rfl⟩ := moveTo_bind applied
      exact .moved moved rfl rfl rfl rfl
  split at applied
  · obtain ⟨mid, moved, rfl⟩ := moveTo_bind applied
    exact .moved moved rfl rfl rfl (by simp)
  split at applied
  · obtain ⟨mid, moved, rfl⟩ := moveTo_bind applied
    exact .moved moved rfl rfl rfl (by simp)
  split at applied
  · unfold onProgress at applied
    split at applied
    · cases applied
    · cases applied
      exact ⟨.inl rfl, rfl, by simp, by simp⟩
  · cases applied
    exact ⟨.inl rfl, rfl, by simp, by simp⟩

/-! ## Steps of a row -/

/-- What the operation makes of a stored row it changes. -/
inductive RowStep (env : Env) : Op → Task → Task → Prop
  | cancelled {clk : Clock} {workflowId agent : String} {reason : Option String} {t : Task}
      (valid : .cancelled ∈ validTransitions t.status) :
      RowStep env (.cancelTask clk workflowId t.id agent reason) t (t.ended .cancelled clk.nowUtc)
  | retasked {clk : Clock} {hex : String} {req : RetaskRequest} {t : Task} (own : t.id = req.taskId)
      (reviewable : t.status = .completed ∨ t.status = .failed) :
      RowStep env (.retaskTask clk hex req) t (t.ended .retasked clk.nowUtc)
  | redirected {clk : Clock} {hex : String} {req : RedirectRequest} {t : Task}
      (own : t.id = req.taskId) (redirectable : t.status = .running ∨ t.status = .paused) :
      RowStep env (.redirectTask clk hex req) t (t.ended .redirected clk.nowUtc)
  | paused {clk : Clock} {workflowId agent : String} {reason : Option String} {t : Task}
      (running : t.status = .running) :
      RowStep env (.pauseTask clk workflowId t.id agent reason) t (t.pausedSince clk.now)
  | resumed {clk : Clock} {workflowId agent : String} {requested : Option String} {t : Task}
      (paused : t.status = .paused) (live : pauseExpired env t clk.now = false)
      (priority : TaskPriority) :
      RowStep env (.resumeTask clk workflowId t.id agent requested) t (t.resumed priority)
  | expired {clk : Clock} {workflowId agent : String} {requested : Option String} {t : Task}
      (paused : t.status = .paused) (late : pauseExpired env t clk.now = true) :
      RowStep env (.resumeTask clk workflowId t.id agent requested) t (t.ended .cancelled clk.nowUtc)
  | applied {clk : Clock} {req : EventRequest} {t t' : Task} (own : t.id = req.taskId)
      (known : req.eventType ∈ validEventTypes)
      (applied : applyEvent clk req.eventType req.data t = .ok t') :
      RowStep env (.processSidecarEvent clk req) t t'

/-- The row an operation adds to the table. -/
inductive Born (s : Store) : Op → Task → Prop
  | requested {clk : Clock} {hex : String} {req : CreateRequest} {t : Task}
      (unused : Unused s req.idempotencyKey) (requested : Requested clk hex req t) :
      Born s (.createTask clk hex req) t
  | retasked {clk : Clock} {hex : String} {req : RetaskRequest} {task : Task}
      (stored : s.tasks.find? req.taskId = some task) (inside : task.workflowId = req.workflowId)
      (reviewable : task.status = .completed ∨ task.status = .failed)
      (unused : Unused s req.idempotencyKey) (priority : TaskPriority) :
      Born s (.retaskTask clk hex req)
        (successor task req.workflowId hex (mergedInput task req.refinement) priority clk.now
          req.idempotencyKey [("refinement", .obj req.refinement.toDict)])
  | redirected {clk : Clock} {hex : String} {req : RedirectRequest} {task : Task}
      (stored : s.tasks.find? req.taskId = some task) (inside : task.workflowId = req.workflowId)
      (redirectable : task.status = .running ∨ task.status = .paused)
      (unused : Unused s req.idempotencyKey) (priority : TaskPriority) :
      Born s (.redirectTask clk hex req)
        (successor task req.workflowId hex req.newInput priority clk.now req.idempotencyKey
          (redirectMetadata task req.reason req.inheritProgress))

theorem RowStep.origin {env : Env} {op : Op} {t t' : Task} (h : RowStep env op t t') :
    Task.SameOrigin t t' := by
  cases h with
  | cancelled | retasked | redirected | paused | resumed | expired => rfl
  | applied own known applied => exact applyEvent_origin known applied

/-- The row of one task stays, is changed as the operation does, or is the one that it adds. -/
def RowFate (env : Env) (s s' : Store) (op : Op) (r : Except Failure Answer) (id : String) : Prop :=
  s'.tasks.find? id = s.tasks.find? id ∨
    (∃ t t', s.tasks.find? id = some t ∧ s'.tasks.find? id = some t' ∧ RowStep env op t t') ∨
    ∃ t, s.tasks.find? id = none ∧ s'.tasks.find? id = some t ∧ Born s op t ∧ created? r = some t

section fate
variable {env : Env} {s s' : Store} {op : Op} {r : Except Failure Answer} {id : String}

theorem RowFate.dirty {task task' : Task} {es : List TaskEvent} (stored : s.tasks.find? task.id = some task)
    (origin : Task.SameOrigin task task')
    (committed : Store.flush { dirty := some (task, task'), newEvents := es } s = .ok s')
    (step : RowStep env op task task') : RowFate env s s' op r id := by
  unfold RowFate
  rw [find?_dirty stored origin committed]
  by_cases own : task.id = id
  · subst own
    exact .inr (.inl ⟨task, task', stored, if_pos rfl, step⟩)
  · exact .inl (if_neg own)

theorem RowFate.succeeds {task next : Task} {status : TaskStatus} {at' : Time} {e created : TaskEvent}
    (stored : s.tasks.find? task.id = some task)
    (committed : Store.flush (succession task next status at' e created) s = .ok s')
    (step : RowStep env op task (task.ended status at')) (born : Born s op next)
    (answers : created? r = some next) : RowFate env s s' op r id := by
  have absent := new_absent committed (succession_current stored) rfl
  unfold RowFate
  rw [find?_succession stored committed]
  by_cases own : task.id = id
  · subst own
    exact .inr (.inl ⟨task, _, stored, if_pos rfl, step⟩)
  · rw [if_neg own]
    by_cases added : next.id = id
    · subst added
      exact .inr (.inr ⟨next, absent, if_pos rfl, born, answers⟩)
    · exact .inl (if_neg added)

theorem RowFate.added {task : Task} {es : List TaskEvent}
    (committed : Store.flush { newTask := some task, newEvents := es } s = .ok s') (born : Born s op task)
    (answers : created? r = some task) : RowFate env s s' op r id := by
  have fresh : Work.Current { newTask := some task, newEvents := es } s := by
    intro loaded current same
    cases same
  have absent := new_absent committed fresh rfl
  unfold RowFate
  rw [find?_new committed]
  by_cases own : task.id = id
  · subst own
    exact .inr (.inr ⟨task, absent, if_pos rfl, born, answers⟩)
  · exact .inl (if_neg own)

end fate

theorem Outcome.row {env : Env} {s s' : Store} {op : Op} {r : Except Failure Answer}
    (h : Outcome env s op r s') (id : String) : RowFate env s s' op r id := by
  cases h with
  | refused | createReplayed | retaskReplayed | redirectReplayed => exact .inl rfl
  | created clk hex req task workflow s' unused requested committed =>
      exact .added committed (.requested unused requested) rfl
  | retasked clk hex req task priority e created s' admitted reviewable room unused resolved
      announces first committed =>
      exact .succeeds admitted.loaded committed (.retasked admitted.own reviewable)
        (.retasked admitted.stored admitted.inside reviewable unused priority) rfl
  | redirected clk hex req task priority e created s' admitted redirectable room unused resolved
      announces first committed =>
      exact .succeeds admitted.loaded committed (.redirected admitted.own redirectable)
        (.redirected admitted.stored admitted.inside redirectable unused priority) rfl
  | cancelled clk workflowId taskId agent reason task e s' admitted valid announces committed =>
      obtain rfl := admitted.own
      exact .dirty admitted.loaded (task.ended_origin _ _) committed (.cancelled valid)
  | paused clk workflowId taskId agent reason task e s' admitted running announces committed =>
      obtain rfl := admitted.own
      exact .dirty admitted.loaded (task.pausedSince_origin _) committed (.paused running)
  | resumed clk workflowId taskId agent requested task priority e s' admitted paused live announces
      committed =>
      obtain rfl := admitted.own
      exact .dirty admitted.loaded (task.resumed_origin _) committed (.resumed paused live priority)
  | expired clk workflowId taskId agent requested task elapsed e s' admitted paused late announces
      committed =>
      obtain rfl := admitted.own
      exact .dirty admitted.loaded (task.ended_origin _ _) committed (.expired paused late)
  | injected clk hex req task response s' admitted injectable committed =>
      exact .inl (find?_silent committed id)
  | recorded clk req task task' s' known stored executor later applied committed =>
      have own : task.id = req.taskId := (Table.find?_eq_some.mp stored).2
      exact .dirty (own ▸ stored) (applyEvent_origin known applied) committed
        (.applied own known applied)

/-- A served step leaves a row, changes it as one of the operations does, or adds it. -/
theorem Step.exec_row (env : Env) (a : Step) (s : Store) (id : String) :
    (a.exec env s).tasks.find? id = s.tasks.find? id ∨
      ∃ op, a = .op op ∧
        ((∃ t t', s.tasks.find? id = some t ∧ (a.exec env s).tasks.find? id = some t' ∧
          RowStep env op t t') ∨
        ∃ t, s.tasks.find? id = none ∧ (a.exec env s).tasks.find? id = some t ∧ Born s op t ∧
          created? (op.exec env s).1 = some t) := by
  cases a with
  | catalog agents workflows => exact .inl rfl
  | op op =>
      rcases (op.exec_outcome env s).row id with same | changed
      · exact .inl same
      · exact .inr ⟨op, rfl, changed⟩

theorem Op.exec_catalog (env : Env) (op : Op) (s : Store) :
    (op.exec env s).2.agents = s.agents ∧ (op.exec env s).2.workflows = s.workflows := by
  refine Prog.run_keeps (I := fun s' => s'.agents = s.agents ∧ s'.workflows = s.workflows)
    (fun s₁ w s₂ same committed => ?_) (op.program env) ⟨rfl, rfl⟩
  obtain ⟨_, _, agents, workflows, _, _⟩ := Store.flush_ok committed
  exact ⟨agents.trans same.1, workflows.trans same.2⟩

theorem Born.accepted {s : Store} {op : Op} {t : Task} (h : Born s op t) : t.status = .accepted := by
  cases h with
  | requested unused requested => exact requested.status
  | retasked | redirected => rfl

theorem Step.exec_origin {env : Env} {a : Step} {s : Store} {id : String} {t' : Task}
    (found : (a.exec env s).tasks.find? id = some t') :
    (∃ t, s.tasks.find? id = some t ∧ Task.SameOrigin t t') ∨
      ∃ op, a = .op op ∧ s.tasks.find? id = none ∧ Born s op t' ∧
        created? (op.exec env s).1 = some t' := by
  rcases a.exec_row env s id with same | ⟨op, rfl, ⟨t, u, stored, now, step⟩ | ⟨t, absent, now, born, answers⟩⟩
  · exact .inl ⟨t', same ▸ found, .refl t'⟩
  · rw [now] at found
    cases found
    exact .inl ⟨t, stored, step.origin⟩
  · rw [now] at found
    cases found
    exact .inr ⟨op, rfl, absent, born, answers⟩

theorem Step.exec_keeps (env : Env) (a : Step) {s : Store} {id : String} {t : Task}
    (stored : s.tasks.find? id = some t) :
    ∃ t', (a.exec env s).tasks.find? id = some t' ∧ Task.SameOrigin t t' := by
  rcases a.exec_row env s id with same | ⟨op, rfl, ⟨u, t', before, now, step⟩ | ⟨u, absent, _⟩⟩
  · exact ⟨t, same.trans stored, .refl t⟩
  · rw [stored] at before
    cases before
    exact ⟨t', now, step.origin⟩
  · rw [stored] at absent
    cases absent

theorem runSteps_keeps {env : Env} (steps : List Step) {s : Store} {id : String} {t : Task}
    (stored : s.tasks.find? id = some t) :
    ∃ t', (runSteps env steps s).tasks.find? id = some t' ∧ Task.SameOrigin t t' := by
  induction steps generalizing s t with
  | nil => exact ⟨t, stored, .refl t⟩
  | cons a steps ih =>
      obtain ⟨t₁, now, first⟩ := a.exec_keeps env stored
      obtain ⟨t', later, rest⟩ := ih now
      exact ⟨t', later, first.trans rest⟩

theorem runSteps_append (env : Env) (as bs : List Step) (s : Store) :
    runSteps env (as ++ bs) s = runSteps env bs (runSteps env as s) := by
  unfold runSteps
  rw [List.foldl_append]

/-- Every stored task was reported as created by one earlier operation of the run. -/
theorem runSteps_created {env : Env} (steps : List Step) {s : Store} (blank : s.Blank) {id : String}
    {t : Task} (found : (runSteps env steps s).tasks.find? id = some t) :
    ∃ before op after t₀, steps = before ++ .op op :: after ∧
      Born (runSteps env before s) op t₀ ∧
      created? (op.exec env (runSteps env before s)).1 = some t₀ ∧ Task.SameOrigin t₀ t := by
  induction steps using List.reverseRecOn generalizing t with
  | nil =>
      rw [show runSteps env [] s = s from rfl, blank.find?_none] at found
      cases found
  | append_singleton steps a ih =>
      rw [runSteps_append] at found
      rcases Step.exec_origin found with ⟨u, stored, origin⟩ | ⟨op, rfl, _, born, answers⟩
      · obtain ⟨before, op, after, t₀, split, born, answers, first⟩ := ih stored
        exact ⟨before, op, after ++ [a], t₀, by simp [split], born, answers, first.trans origin⟩
      · exact ⟨steps, op, [], t, rfl, born, answers, .refl t⟩

end Fleet.Api
