/- What one served request does to the status of a stored task. -/
import Fleet.Api.Effects

namespace Fleet.Api
open Fleet.Lib

/-- The task is stored with this executor, in a status with the property. -/
def Store.Holds (s : Store) (id : String) (executor : Option String) (P : TaskStatus → Prop) :
    Prop :=
  ∃ t, s.tasks.find? id = some t ∧ t.executorAgentId = executor ∧ P t.status

theorem Store.Holds.imp {s : Store} {id : String} {executor : Option String} {P Q : TaskStatus → Prop}
    (h : s.Holds id executor P) (weaker : ∀ a, P a → Q a) : s.Holds id executor Q := by
  obtain ⟨t, found, own, holds⟩ := h
  exact ⟨t, found, own, weaker _ holds⟩

theorem Store.Holds.status {s : Store} {id : String} {executor : Option String} {P : TaskStatus → Prop}
    (h : s.Holds id executor P) : ∃ a, s.status? id = some a ∧ P a := by
  obtain ⟨t, found, _, holds⟩ := h
  exact ⟨t.status, by rw [Store.status?, found, Option.map_some], holds⟩

/-- No transition leaves the property. -/
def Permanent (P : TaskStatus → Prop) : Prop := ∀ a b, P a → b ∈ validTransitions a → P b

theorem permanent_terminal : Permanent (fun a => isTerminal a = true) := by
  intro a b terminal valid
  rw [(terminal_exit terminal valid).2]
  rfl

theorem permanent_announced : Permanent (fun a => a ≠ .accepted) := by
  intro a b _ valid again
  rw [again] at valid
  exact accepted_not_reentered a valid

theorem permanent_stopped : Permanent (fun a => a = .cancelled ∨ a = .redirected) := by
  rintro a b (rfl | rfl) valid <;> cases valid

theorem permanent_true : Permanent (fun _ => True) := fun _ _ _ _ => trivial

/-- A status stays or takes a transition; the one from accepted to running needs an
event the operation is allowed to start a task with. -/
def StatusStep (quiet : TaskEvent → Prop) (a b : TaskStatus) : Prop :=
  b = a ∨ (b ∈ validTransitions a ∧
    (a = .accepted → b = .running → ∃ e, quiet e ∧ recordedStatus e = some .running))

theorem Permanent.step {P : TaskStatus → Prop} (h : Permanent P) {quiet : TaskEvent → Prop}
    {a b : TaskStatus} (holds : P a) (moved : StatusStep quiet a b) : P b := by
  rcases moved with rfl | ⟨valid, _⟩
  · exact holds
  · exact h a b holds valid

section change
variable {env : Env} {quiet : TaskEvent → Prop} {s s' : Store} {w : Work}

theorem Change.evolves (h : Change env Eq quiet s w) (committed : Store.flush w s = .ok s')
    {id : String} {t : Task} (stored : s.tasks.find? id = some t) :
    ∃ t', s'.tasks.find? id = some t' ∧ Task.SameOrigin t t' ∧ StatusStep quiet t.status t'.status := by
  obtain ⟨absent, tasks, _⟩ := Store.flush_effect committed h.current
  have unchanged : ∀ {new : Option Task}, (∀ u, new = some u → s.tasks.find? u.id = none) →
      new.toList.find? (fun u => u.id = id) = none := by
    intro new fresh
    cases new with
    | none => rfl
    | some u =>
        have other : u.id ≠ id := by
          intro same
          subst same
          rw [fresh u rfl] at stored
          cases stored
        simp [other]
  -- a write set changes the row it loaded, and that row is `t` when it is ours
  have written : ∀ {task task'}, w.dirty = some (task, task') →
      StatusStep quiet task.status task'.status →
      ∃ t', s'.tasks.find? id = some t' ∧ Task.SameOrigin t t' ∧
        StatusStep quiet t.status t'.status := by
    intro task task' dirty moved
    obtain ⟨loaded, origin⟩ := h.current task task' dirty
    rw [tasks id, Work.changed, dirty, List.find?_append, unchanged absent]
    by_cases own : task'.id = id
    · refine ⟨task', by simp [own], ?_⟩
      rw [← origin.id, own, stored] at loaded
      cases loaded
      exact ⟨origin, moved⟩
    · exact ⟨t, by simp [own, stored], .refl t, .inl rfl⟩
  cases h with
  | create task caller now fresh =>
      refine ⟨t, ?_, .refl t, .inl rfl⟩
      rw [tasks id, Work.changed, Option.map_none, Option.toList_none, List.nil_append,
        unchanged absent, Option.none_or, stored]
  | inject task e touched =>
      refine ⟨t, ?_, .refl t, .inl rfl⟩
      rw [tasks id]
      simpa [Work.changed] using stored
  | move task task' e touched valid records starts =>
      exact written rfl (.inr ⟨valid, fun accepted running =>
        ⟨e, starts accepted running, running ▸ records⟩⟩)
  | note task task' e touched same => exact written rfl (.inl same)
  | succeed task task' e touched valid superseded =>
      refine written rfl (.inr ⟨valid, fun _ running => ?_⟩)
      rcases superseded with now | now <;> exact absurd (now.symm.trans running) (by decide)

end change

/-- What every permitted change of status keeps, a served operation keeps. -/
theorem Op.exec_holds (env : Env) (op : Op) {s : Store} {id : String} {executor : Option String}
    {P : TaskStatus → Prop} (closed : ∀ a b, P a → StatusStep op.quiet a b → P b)
    (h : s.Holds id executor P) : (op.exec env s).2.Holds id executor P := by
  refine Prog.run_invariant (I := fun s => s.Holds id executor P) (fun s₁ w s₂ before change ok => ?_)
    (op.program_wp (Q := fun _ _ => True) (fun _ => rfl) (fun _ _ _ => Eq.trans) ?_ ?_ ?_) h
  · obtain ⟨t, found, own, holds⟩ := before
    obtain ⟨t', found', origin, moved⟩ := change.evolves ok found
    exact ⟨t', found', origin.executor.trans own, closed _ _ holds moved⟩
  all_goals intros; trivial

theorem Step.exec_holds (env : Env) (a : Step) {s : Store} {id : String} {executor : Option String}
    {P : TaskStatus → Prop} (permanent : Permanent P) (h : s.Holds id executor P) :
    (a.exec env s).Holds id executor P := by
  cases a with
  | op o => exact o.exec_holds env (fun _ _ holds moved => permanent.step holds moved) h
  | catalog agents workflows => exact h

/-! ## Who may start a task -/

def Op.byPrincipal : Op → Bool
  | .processSidecarEvent _ _ => false
  | _ => true

theorem Op.quiet_silent {op : Op} (principal : op.byPrincipal = true) {e : TaskEvent}
    (allowed : op.quiet e) : recordedStatus e = none := by
  cases op with
  | processSidecarEvent clk req => cases principal
  | injectContext clk hex req =>
      obtain ⟨last, rfl⟩ := allowed
      rfl
  | createTask | retaskTask | redirectTask | cancelTask | pauseTask | resumeTask => exact allowed.elim

/-- No request of a principal brings a task that is neither running nor paused into
one of these statuses. -/
theorem Op.exec_idle (env : Env) {op : Op} (principal : op.byPrincipal = true) {s : Store}
    {id : String} {executor : Option String} (h : s.Holds id executor (fun a => a ∉ activeStatuses)) :
    (op.exec env s).2.Holds id executor (fun a => a ∉ activeStatuses) := by
  refine op.exec_holds env (fun a b idle moved => ?_) h
  rcases moved with rfl | ⟨valid, starts⟩
  · exact idle
  · by_cases started : a = .accepted ∧ b = .running
    · obtain ⟨e, allowed, records⟩ := starts started.1 started.2
      rw [Op.quiet_silent principal allowed] at records
      cases records
    · cases a <;> cases b <;> simp_all [validTransitions, activeStatuses]

/-! ## Executor events that are accepted -/

/-- An accepted event was numbered above the log, and left its task as the handlers
made it and every other task alone. -/
structure EventApplied (clk : Clock) (req : EventRequest) (s s' : Store) (t t' : Task) : Prop where
  stored : s.tasks.find? req.taskId = some t
  later : s.maxSequence req.taskId < req.sequence
  known : req.eventType ∈ validEventTypes
  applied : applyEvent clk req.eventType req.data t = .ok t'
  now : s'.tasks.find? req.taskId = some t'
  others : ∀ id, id ≠ req.taskId → s'.tasks.find? id = s.tasks.find? id

theorem processSidecarEvent_effect (env : Env) (clk : Clock) (req : EventRequest) (s : Store) :
    ((Op.processSidecarEvent clk req).exec env s).2 = s ∨
      ∃ t t', EventApplied clk req s ((Op.processSidecarEvent clk req).exec env s).2 t t' := by
  have spec : ((Op.processSidecarEvent clk req).program env).wp Store.flush Eq (fun _ _ => True)
      (fun _ s' => s' = s ∨ ∃ t t', EventApplied clk req s s' t t') s := by
    simp only [Op.program, processSidecarEvent, Prog.wp_bind, Db.wp_ensure, Db.wp_fetch,
      Db.wp_query, Db.wp_ofExcept]
    refine ⟨fun known => ?_, fun _ => .inl trivial⟩
    intro _ same
    subst same
    refine ⟨fun t stored => ⟨fun executor => ?_, fun _ => .inl rfl⟩, fun _ => .inl rfl⟩
    intro _ same
    subst same
    refine ⟨fun later => ?_, fun _ => .inl rfl⟩
    cases applied : applyEvent clk req.eventType req.data t with
    | error e => exact .inl rfl
    | ok t' =>
        simp only [Db.wp_commit, Db.wp_refresh, Prog.wp_pure]
        intro _ same
        subst same
        refine ⟨trivial, fun s' committed => ?_, fun _ _ => .inl rfl⟩
        intro _ same
        subst same
        have origin : Task.SameOrigin t t' := applyEvent_origin known applied
        have own : t.id = req.taskId := (Table.find?_eq_some.mp stored).2
        obtain ⟨_, inserted, _, _, tasks, _⟩ := Store.flush_ok committed
        cases inserted
        have found : ∀ id, s'.tasks.find? id = if t'.id = id then some t' else s.tasks.find? id := by
          intro id
          rw [tasks]
          exact Store.updateTask_find? (own ▸ stored) origin id
        refine .inr ⟨t, t', stored, later, known, applied, ?_, fun id other => ?_⟩
        · rw [found, if_pos (origin.id.trans own)]
        · rw [found, if_neg fun same => other (same.symm.trans (origin.id.trans own))]
  exact Prog.wp_run spec

theorem EventApplied.status {clk : Clock} {req : EventRequest} {s s' : Store} {t t' : Task}
    (h : EventApplied clk req s s' t t') :
    t'.status = t.status ∨ recordedStatus (sidecarEvent clk req) = some t'.status := by
  rcases applyEvent_ok h.known h.applied with ⟨status, moved, records⟩ | ⟨_, same, _⟩
  · exact .inr (moved.now ▸ records)
  · exact .inl same

theorem Store.insertEvent_later {s : Store} {e : TaskEvent} {t : Task}
    (stored : s.tasks.find? e.taskId = some t) (fits : fitsInteger e.sequence = true)
    (later : s.maxSequence e.taskId < e.sequence) :
    ∃ s', s.insertEvent e = .ok s' ∧ s'.tasks = s.tasks := by
  have absent : s.events.find? e.slot = none := by
    rw [Table.find?_eq_none]
    intro x member same
    have slot := Prod.mk.inj same
    have bound := Store.le_maxSequence member
    rw [slot.1, slot.2] at bound
    omega
  obtain ⟨events, inserted⟩ : ∃ events, s.events.insert? e = some events := by
    have free : e.slot ∉ s.events.rows.map TaskEvent.slot := by
      intro taken
      obtain ⟨x, member, same⟩ := List.mem_map.mp taken
      exact Table.find?_eq_none.mp absent x member same
    exact ⟨_, dif_pos free⟩
  exact ⟨{ s with events }, by simp [Store.insertEvent, fits, stored, inserted], rfl⟩

theorem Store.flush_event {s : Store} {t : Task} {e : TaskEvent}
    (stored : s.tasks.find? e.taskId = some t) (fits : fitsInteger e.sequence = true)
    (later : s.maxSequence e.taskId < e.sequence) :
    ∃ s', Store.flush { newEvents := [e] } s = .ok s' := by
  obtain ⟨s', inserted, _⟩ := Store.insertEvent_later stored fits later
  exact ⟨s', by simp [Store.flush, Store.insertEvents, inserted]⟩

theorem Store.flush_dirty {s : Store} {t t' : Task} {e : TaskEvent}
    (stored : s.tasks.find? t.id = some t) (origin : Task.SameOrigin t t') (own : e.taskId = t.id)
    (fits : fitsInteger e.sequence = true) (later : s.maxSequence t.id < e.sequence) :
    ∃ s', Store.flush { dirty := some (t, t'), newEvents := [e] } s = .ok s' ∧
      s'.tasks.find? t.id = some t' := by
  have updated := Store.updateTask_find? stored origin t.id
  rw [if_pos origin.id] at updated
  obtain ⟨s', inserted, tasks⟩ := @Store.insertEvent_later (s.updateTask t t') e t'
    (own ▸ updated) fits (own ▸ later)
  refine ⟨s', ?_, by rw [tasks, updated]⟩
  simp [Store.flush, Store.insertEvents, inserted]

theorem processSidecarEvent_applies (env : Env) {clk : Clock} {req : EventRequest} {s : Store}
    {t t' : Task} (known : req.eventType ∈ validEventTypes)
    (stored : s.tasks.find? req.taskId = some t)
    (executor : t.executorAgentId = some req.executorAgentId)
    (later : s.maxSequence req.taskId < req.sequence) (fits : fitsInteger req.sequence = true)
    (applied : applyEvent clk req.eventType req.data t = .ok t') :
    ((Op.processSidecarEvent clk req).exec env s).2.tasks.find? req.taskId = some t' := by
  have origin : Task.SameOrigin t t' := applyEvent_origin known applied
  have own : t.id = req.taskId := (Table.find?_eq_some.mp stored).2
  obtain ⟨s', committed, result⟩ := Store.flush_dirty (e := sidecarEvent clk req) (own ▸ stored) origin
    own.symm fits (own ▸ later)
  rw [own] at result
  simp [Op.exec, Op.program, processSidecarEvent, Db.ensure, Db.fetch, Db.query, Db.ofExcept,
    Db.commit, Db.refresh, Prog.run_bind, Prog.run, Prog.pure_eq, known, stored, executor, later,
    applied, committed, result]

theorem moveTo_valid {t : Task} {nowUtc : Time} {status : TaskStatus}
    (valid : status ∈ validTransitions t.status) :
    ∃ t', moveTo t nowUtc status = .ok t' ∧ t'.status = status ∧ Task.SameOrigin t t' := by
  have moved := (@Task.transitionTo_ok t _ nowUtc status).mpr ⟨valid, rfl⟩
  exact ⟨_, by simp only [moveTo, moved], rfl, Task.transitionTo_origin moved⟩

/-- The event asks for this status. -/
def Requests (eventType : String) (data : Dict) (status : TaskStatus) : Prop :=
  (eventType = "status" ∧ data.get? "status" = some (.str status.value)) ∨
    (eventType = "completed" ∧ status = .completed) ∨ (eventType = "failed" ∧ status = .failed)

theorem applyEvent_grants {clk : Clock} {eventType : String} {data : Dict} {t : Task}
    {status : TaskStatus} (requests : Requests eventType data status)
    (valid : status ∈ validTransitions t.status) :
    ∃ t', applyEvent clk eventType data t = .ok t' ∧ t'.status = status ∧ Task.SameOrigin t t' := by
  obtain ⟨moved, ok, now, origin⟩ := @moveTo_valid t clk.nowUtc status valid
  rcases requests with ⟨rfl, named⟩ | ⟨rfl, rfl⟩ | ⟨rfl, rfl⟩
  · refine ⟨{ moved with
      startedAt := if status = .running ∧ moved.startedAt = none then some clk.now
        else moved.startedAt }, ?_, now, origin.trans rfl⟩
    simp [applyEvent, onStatus, named, Json.str?, ok]
  · refine ⟨{ moved with
      result := data.get "result"
      metadata := qualityMetadata data moved.metadata }, ?_, now, origin.trans rfl⟩
    simp [applyEvent, onCompleted, ok]
  · refine ⟨{ moved with
      result := .obj [("error_code", data.get "error_code"), ("message", data.get "message")] },
      ?_, now, origin.trans rfl⟩
    simp [applyEvent, onFailed, ok]

end Fleet.Api
