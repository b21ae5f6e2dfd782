/- What the operations may commit: one inversion of all their write sets. -/
import Fleet.Api.Context
import Fleet.Api.Sidecar

namespace Fleet.Api
open Fleet.Lib

/-! ## The status an event reports -/

/-- `created`, `completed`, `failed` and the two principal signals carry their
status in the event type, a `status` event in its data. -/
def recordedStatus (e : TaskEvent) : Option TaskStatus :=
  if e.eventType = "created" then some .accepted
  else if e.eventType = "completed" then some .completed
  else if e.eventType = "failed" then some .failed
  else if e.eventType = "pause_requested" then some .paused
  else if e.eventType = "resume_requested" then some .running
  else if e.eventType = "status" then
    ((e.dataD.get? "status").getD (e.dataD.get "to_status")).str?.bind TaskStatus.ofValue?
  else none

@[simp] theorem recordedStatus_created (taskId caller : String) (origin : Dict) (now : Time) :
    recordedStatus (createdEvent taskId caller origin now) = some .accepted := rfl

/-- A status event of the principal side names the new status under `to_status`. -/
theorem recordedStatus_principal {e : TaskEvent} {data : Dict} {a b : TaskStatus} {rest : Dict}
    (type : e.eventType = "status") (shape : e.data = some data)
    (fields : data = ("from_status", .str a.value) :: ("to_status", .str b.value) :: rest)
    (silent : Dict.get? rest "status" = none) : recordedStatus e = some b := by
  have absent : Dict.get? data "status" = none := by
    rw [fields]
    simpa [Dict.get?, List.lookup_cons] using silent
  have target : Dict.get data "to_status" = .str b.value := by
    rw [fields]
    rfl
  simp [recordedStatus, type, TaskEvent.dataD, shape, absent, target, Json.str?]

/-! ## What an executor event does to the task -/

theorem moveTo_ok {task task' : Task} {nowUtc : Time} {status : TaskStatus}
    (h : moveTo task nowUtc status = .ok task') : task.transitionTo nowUtc status = .ok task' := by
  unfold moveTo at h
  split at h
  · rename_i moved
    cases h
    exact moved
  · cases h

theorem moveTo_bind {task task' : Task} {nowUtc : Time} {status : TaskStatus} {f : Task → Task}
    (h : (moveTo task nowUtc status >>= fun mid => Except.ok (f mid)) = .ok task') :
    ∃ mid, moveTo task nowUtc status = .ok mid ∧ f mid = task' := by
  cases moved : moveTo task nowUtc status with
  | error e =>
      rw [moved] at h
      cases h
  | ok mid =>
      rw [moved] at h
      exact ⟨mid, rfl, Except.ok.inj h⟩

/-- A handler of the executor side moves the task and then assigns other columns. -/
structure Moved (task task' : Task) (status : TaskStatus) : Prop where
  origin : Task.SameOrigin task task'
  now : task'.status = status
  valid : status ∈ validTransitions task.status

theorem Moved.of_transition {task mid task' : Task} {nowUtc : Time} {status : TaskStatus}
    (h : moveTo task nowUtc status = .ok mid) (rest : Task.SameOrigin mid task')
    (same : task'.status = mid.status) : Moved task task' status := by
  have moved := moveTo_ok h
  obtain ⟨now, valid⟩ := Task.transitionTo_status moved
  exact ⟨(Task.transitionTo_origin moved).trans rest, same.trans now, now ▸ valid⟩

theorem onStatus_ok {clk : Clock} {data : Dict} {task task' : Task}
    (h : onStatus clk data task = .ok task') : ∃ status, Moved task task' status ∧
      ((data.get? "status").getD (.str "")).str?.bind TaskStatus.ofValue? = some status := by
  simp only [onStatus] at h
  split at h
  · cases h
  · rename_i status target
    obtain ⟨mid, moved, rfl⟩ := moveTo_bind h
    exact ⟨status, .of_transition moved rfl rfl, target⟩

theorem onCompleted_ok {clk : Clock} {data : Dict} {task task' : Task}
    (h : onCompleted clk data task = .ok task') : Moved task task' .completed := by
  obtain ⟨mid, moved, rfl⟩ := moveTo_bind h
  exact .of_transition moved rfl rfl

theorem onFailed_ok {clk : Clock} {data : Dict} {task task' : Task}
    (h : onFailed clk data task = .ok task') : Moved task task' .failed := by
  obtain ⟨mid, moved, rfl⟩ := moveTo_bind h
  exact .of_transition moved rfl rfl

theorem onProgress_ok {data : Dict} {task task' : Task} (h : onProgress data task = .ok task') :
    Task.SameOrigin task task' ∧ task'.status = task.status := by
  unfold onProgress at h
  split at h
  · cases h
  · cases h
    exact ⟨rfl, rfl⟩

theorem recordedStatus_status {e : TaskEvent} {status : TaskStatus} (type : e.eventType = "status")
    (target : ((e.dataD.get? "status").getD (.str "")).str?.bind TaskStatus.ofValue? = some status) :
    recordedStatus e = some status := by
  cases present : e.dataD.get? "status" with
  | none =>
      have unnamed : TaskStatus.ofValue? "" = none := by decide
      simp [present, Json.str?, unnamed] at target
  | some v =>
      rw [present] at target
      simpa [recordedStatus, type, present] using target

/-- The three reporting kinds move the task or are refused; the others record no
status. -/
theorem applyEvent_ok {clk : Clock} {req : EventRequest} {task task' : Task}
    (known : req.eventType ∈ validEventTypes)
    (h : applyEvent clk req.eventType req.data task = .ok task') :
    (∃ status, Moved task task' status ∧ recordedStatus (sidecarEvent clk req) = some status) ∨
      (Task.SameOrigin task task' ∧ task'.status = task.status ∧
        recordedStatus (sidecarEvent clk req) = none) := by
  unfold applyEvent at h
  by_cases status : req.eventType = "status"
  · rw [if_pos status] at h
    obtain ⟨target, moved, named⟩ := onStatus_ok h
    exact .inl ⟨target, moved, recordedStatus_status status named⟩
  rw [if_neg status] at h
  by_cases completed : req.eventType = "completed"
  · rw [if_pos completed] at h
    exact .inl ⟨.completed, onCompleted_ok h, by simp [recordedStatus, sidecarEvent, completed]⟩
  rw [if_neg completed] at h
  by_cases failed : req.eventType = "failed"
  · rw [if_pos failed] at h
    exact .inl ⟨.failed, onFailed_ok h, by simp [recordedStatus, sidecarEvent, failed]⟩
  rw [if_neg failed] at h
  have silent : recordedStatus (sidecarEvent clk req) = none := by
    simp only [validEventTypes, List.mem_cons, List.not_mem_nil, or_false] at known
    rcases known with h | h | h | h | h | h | h | h <;>
      simp_all [recordedStatus, sidecarEvent]
  by_cases progress : req.eventType = "progress"
  · rw [if_pos progress] at h
    obtain ⟨origin, same⟩ := onProgress_ok h
    exact .inr ⟨origin, same, silent⟩
  · rw [if_neg progress] at h
    cases h
    exact .inr ⟨.refl _, rfl, silent⟩

theorem applyEvent_origin {clk : Clock} {req : EventRequest} {t t' : Task}
    (known : req.eventType ∈ validEventTypes)
    (applied : applyEvent clk req.eventType req.data t = .ok t') : Task.SameOrigin t t' := by
  rcases applyEvent_ok known applied with ⟨_, moved, _⟩ | ⟨origin, _, _⟩
  · exact moved.origin
  · exact origin

theorem moveTo_error {task : Task} {nowUtc : Time} {status : TaskStatus} {e : Failure}
    (h : moveTo task nowUtc status = .error e) : e.isPauseTimeout = false := by
  unfold moveTo at h
  split at h <;> cases h
  rfl

theorem applyEvent_error {clk : Clock} {eventType : String} {data : Dict} {task : Task}
    {e : Failure} (h : applyEvent clk eventType data task = .error e) :
    e.isPauseTimeout = false := by
  have moves : ∀ {status} {f : Task → Task},
      (moveTo task clk.nowUtc status >>= fun t => Except.ok (f t)) = .error e →
        e.isPauseTimeout = false := by
    intro status f h
    cases moved : moveTo task clk.nowUtc status with
    | ok mid => rw [moved] at h; cases h
    | error e' => rw [moved] at h; cases h; exact moveTo_error moved
  unfold applyEvent at h
  split_ifs at h
  · simp only [onStatus] at h
    split at h
    · cases h; rfl
    · exact moves h
  · exact moves h
  · exact moves h
  · unfold onProgress at h
    split at h <;> cases h
    rfl

/-! ## Write sets

The store a statement of a request acts on is related to the stores its earlier
statements read by `G`: what the other requests did in between. -/

/-- An earlier statement of the request read a store with the property. -/
def Seen (G : Store → Store → Prop) (s : Store) (P : Store → Prop) : Prop := ∃ s₁, G s₁ s ∧ P s₁

structure Task.Fresh (t : Task) : Prop where
  named : t.id ≠ ""
  accepted : t.status = .accepted
  parent : t.parentTaskId = none
  root : t.rootTaskId = none
  depth : t.lineageDepth = 0

/-- A task read earlier, the same task as the session holds it now, and the event
about it. -/
structure Touched (G : Store → Store → Prop) (s : Store) (task task' : Task) (e : TaskEvent) :
    Prop where
  stored : Seen G s (fun s₁ => s₁.tasks.find? task.id = some task)
  origin : Task.SameOrigin task task'
  own : e.taskId = task.id
  later : Seen G s (fun s₁ => s₁.maxSequence task.id < e.sequence)

/-- Every write set an operation commits; `quiet` tells which events it may write
that report no status, or that start an accepted task. -/
inductive Change (env : Env) (G : Store → Store → Prop) (quiet : TaskEvent → Prop) (s : Store) :
    Work → Prop
  | create (task : Task) (caller : String) (now : Time) (fresh : task.Fresh) :
      Change env G quiet s
        { newTask := some task, newEvents := [createdEvent task.id caller [] now] }
  | move (task task' : Task) (e : TaskEvent) (touched : Touched G s task task' e)
      (valid : task'.status ∈ validTransitions task.status)
      (records : recordedStatus e = some task'.status)
      (starts : task.status = .accepted → task'.status = .running → quiet e) :
      Change env G quiet s { dirty := some (task, task'), newEvents := [e] }
  | succeed (task task' : Task) (e : TaskEvent) (touched : Touched G s task task' e)
      (valid : task'.status ∈ validTransitions task.status)
      (superseded : task'.status = .retasked ∨ task'.status = .redirected)
      (records : recordedStatus e = some task'.status)
      (room : task.lineageDepth < env.settings.fleetLineageMaxDepth)
      (hex : String) (input : Dict) (priority : TaskPriority) (now : Time) (key : Option String)
      (metadata : Dict) (caller : String) (link : Dict) :
      Change env G quiet s
        { newTask := some (successor task task.workflowId hex input priority now key metadata)
          dirty := some (task, task')
          newEvents := [e, createdEvent (newTaskId hex) caller link now] }
  | note (task task' : Task) (e : TaskEvent) (touched : Touched G s task task' e)
      (same : task'.status = task.status) (silent : recordedStatus e = none) (allowed : quiet e) :
      Change env G quiet s { dirty := some (task, task'), newEvents := [e] }
  | inject (task : Task) (e : TaskEvent) (touched : Touched G s task task e)
      (silent : recordedStatus e = none) (allowed : quiet e) :
      Change env G quiet s { newEvents := [e] }

end Fleet.Api
