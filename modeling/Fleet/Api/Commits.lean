/- Each operation commits one of the changes, or nothing. -/
import Fleet.Api.Changes

namespace Fleet.Api
open Fleet.Lib

/-! ## Rules for the statements the operations share -/

section operations
variable {G : Store → Store → Prop} {quiet : TaskEvent → Prop} {s : Store}
  (env : Env) (refl : ∀ a, G a a) (trans : ∀ a b c, G a b → G b c → G a c)

include trans

theorem wp_authorized {R : Store → Work → Prop} {α : Type} {rest : Task → Db α}
    {workflowId taskId agent verb : String} {Q : Except Failure α → Store → Prop}
    (fails : ∀ e, e.isPauseTimeout = false → ∀ s', G s s' → Q (.error e) s')
    (passes : ∀ task s', G s s' → s'.tasks.find? task.id = some task → task.id = taskId →
      task.workflowId = workflowId → (rest task).wp Store.flush G R Q s') :
    (authorized workflowId taskId agent verb >>= rest).wp Store.flush G R Q s := by
  simp only [authorized, fetchWorkflow, fetchTask, Prog.wp_bind, Db.wp_fetch, Db.wp_ensure,
    Prog.wp_pure]
  intro s₁ r₁
  refine ⟨fun workflow _ s₂ r₂ => ⟨fun task found => ⟨fun _ => ?_, fun _ => ?_⟩, fun _ => ?_⟩,
    fun _ => ?_⟩
  · obtain ⟨stored, inside⟩ := Option.filter_eq_some_iff.mp found
    have own : task.id = taskId := (Table.find?_eq_some.mp stored).2
    exact passes task s₂ (trans _ _ _ r₁ r₂) (own ▸ stored) own (by simpa using inside)
  · exact fails _ rfl _ (trans _ _ _ r₁ r₂)
  · exact fails _ rfl _ (trans _ _ _ r₁ r₂)
  · exact fails _ rfl _ r₁

theorem wp_numbered {R : Store → Work → Prop} {α : Type} {taskId : String} {w : Int → Work}
    {rest : Int → Unit → Db α} {Q : Except Failure α → Store → Prop}
    (fails : ∀ e, e.isPauseTimeout = false → ∀ s', G s s' → Q (.error e) s')
    (promised : ∀ n s', G s s' → Seen G s' (fun s₁ => s₁.maxSequence taskId < n + 1) → R s' (w n))
    (answers : ∀ n s₁ s', G s s₁ → Store.flush (w n) s₁ = .ok s' →
      (rest n ()).wp Store.flush G R Q s') :
    (Db.query (fun s => s.maxSequence taskId) >>= fun last =>
      Db.commit (w last) >>= rest last).wp Store.flush G R Q s := by
  simp only [Prog.wp_bind, Db.wp_query, Db.wp_commit]
  intro s₁ r₁ s₂ r₂
  have r := trans _ _ _ r₁ r₂
  refine ⟨promised _ s₂ r ⟨s₁, r₂, Int.lt_succ _⟩, fun t committed => ?_, fun e refused => ?_⟩
  · exact answers _ s₂ t r committed
  · exact fails e (Store.flush_error refused) s₂ r

theorem wp_prioritized {R : Store → Work → Prop} {α : Type} {taskId : String}
    {requested : Except Failure TaskPriority} {w : TaskPriority → Int → Work}
    {rest : TaskPriority → Int → Unit → Db α} {Q : Except Failure α → Store → Prop}
    (fails : ∀ e, e.isPauseTimeout = false → ∀ s', G s s' → Q (.error e) s')
    (refused : ∀ e, requested = .error e → Q (.error e) s)
    (promised : ∀ p n s', G s s' → Seen G s' (fun s₁ => s₁.maxSequence taskId < n + 1) →
      R s' (w p n))
    (answers : ∀ p n s', (rest p n ()).wp Store.flush G R Q s') :
    (Db.ofExcept requested >>= fun p => Db.query (fun s => s.maxSequence taskId) >>= fun last =>
      Db.commit (w p last) >>= rest p last).wp Store.flush G R Q s := by
  rw [Prog.wp_bind, Db.wp_ofExcept]
  cases requested with
  | error e => exact refused e rfl
  | ok p => exact wp_numbered trans fails (promised p) fun n _ s' _ _ => answers p n s'

/-! ## Principal operations on an existing task -/

theorem cancelTask_wp {clk : Clock} {workflowId taskId agent : String} {reason : Option String}
    {Q : Except Failure Task → Store → Prop}
    (fails : ∀ e, e.isPauseTimeout = false → ∀ s', G s s' → Q (.error e) s')
    (done : ∀ a s', Q (.ok a) s') :
    (cancelTask clk workflowId taskId agent reason).wp Store.flush G (Change env G quiet) Q s := by
  unfold cancelTask
  refine wp_authorized trans fails fun task s₁ r₁ stored _ _ => ?_
  cases moved : task.transitionTo clk.nowUtc .cancelled with
  | error e => exact fails _ rfl _ r₁
  | ok task' =>
      obtain ⟨now, valid⟩ := Task.transitionTo_status moved
      refine wp_numbered trans (fun e o s₂ r₂ => fails e o s₂ (trans _ _ _ r₁ r₂))
        (fun n s₂ r₂ later => ?_) fun n s₂ s₃ _ _ s₄ _ => done _ s₄
      refine .move task task' _ ⟨⟨s₁, r₂, stored⟩, Task.transitionTo_origin moved, rfl, later⟩ valid ?_
        fun _ running => absurd (now.symm.trans running) (by decide)
      rw [now]
      exact recordedStatus_principal rfl rfl rfl rfl

theorem pauseTask_wp {clk : Clock} {workflowId taskId agent : String} {reason : Option String}
    {Q : Except Failure (Task × TaskEvent) → Store → Prop}
    (fails : ∀ e, e.isPauseTimeout = false → ∀ s', G s s' → Q (.error e) s')
    (done : ∀ a s', Q (.ok a) s') :
    (pauseTask env clk workflowId taskId agent reason).wp Store.flush G (Change env G quiet) Q s := by
  unfold pauseTask
  refine wp_authorized trans fails fun task s₁ r₁ stored _ _ => ?_
  rw [Prog.wp_bind, Db.wp_ensure]
  refine ⟨fun running => ?_, fun _ => fails _ rfl _ r₁⟩
  dsimp only
  cases moved : task.transitionTo clk.nowUtc .paused with
  | error e => exact fails _ rfl _ r₁
  | ok task' =>
      obtain ⟨valid, rfl⟩ := Task.transitionTo_ok.mp moved
      refine wp_numbered trans (fun e o s₂ r₂ => fails e o s₂ (trans _ _ _ r₁ r₂))
        (fun n s₂ r₂ later => ?_) fun n s₂ s₃ _ _ s₄ _ => done _ s₄
      exact .move task _ _ ⟨⟨s₁, r₂, stored⟩, rfl, rfl, later⟩ valid rfl nofun

/-- The expiry of a pause commits a cancellation and still raises. -/
theorem resumeTask_wp {clk : Clock} {workflowId taskId agent : String} {priority : Option String}
    {Q : Except Failure (Task × TaskEvent) → Store → Prop}
    (fails : ∀ e, e.isPauseTimeout = false → ∀ s', G s s' → Q (.error e) s')
    (done : ∀ a s', Q (.ok a) s')
    (expires : ∀ task elapsed last s₁ s₂ s₃ s', task.id = taskId → G s s₁ →
      s₁.tasks.find? task.id = some task → task.status = .paused →
      pausedFor task clk.now = some elapsed →
      pauseExpired env task clk.now = true → G s₁ s₂ →
      Store.flush {
        dirty := some (task, { task with status := .cancelled, completedAt := some clk.nowUtc })
        newEvents := [expiryEvent clk task elapsed last] } s₂ = .ok s₃ → G s₃ s' →
      Q (.error (.api (pauseTimeout env task elapsed))) s') :
    (resumeTask env clk workflowId taskId agent priority).wp Store.flush G (Change env G quiet) Q s := by
  unfold resumeTask
  refine wp_authorized trans fails fun task s₁ r₁ stored own _ => ?_
  rw [Prog.wp_bind, Db.wp_ensure]
  refine ⟨fun paused => ?_, fun _ => fails _ rfl _ r₁⟩
  simp only [Prog.wp_ite]
  have valid : .cancelled ∈ validTransitions task.status ∧ .running ∈ validTransitions task.status := by
    rw [paused]; decide
  refine ⟨fun expired => ?_, fun _ => ?_⟩
  · obtain ⟨elapsed, long⟩ : ∃ elapsed, pausedFor task clk.now = some elapsed := by
      cases long : pausedFor task clk.now with
      | none => rw [pauseExpired, long] at expired; cases expired
      | some elapsed => exact ⟨elapsed, rfl⟩
    have moved := (@Task.transitionTo_ok task _ clk.nowUtc .cancelled).mpr ⟨valid.1, rfl⟩
    simp only [expirePause, moved, long, Option.getD_some]
    refine wp_numbered trans (fun e o s₂ r₂ => fails e o s₂ (trans _ _ _ r₁ r₂))
      (fun n s₂ r₂ later => ?_) fun n s₂ s₃ r₂ committed s₄ r₄ => ?_
    · exact .move task _ _ ⟨⟨s₁, r₂, stored⟩, rfl, rfl, later⟩ valid.1 rfl
        fun _ started => by cases started
    · exact expires task elapsed n s₁ s₂ s₃ s₄ own r₁ stored paused long expired r₂ committed r₄
  · have moved := (@Task.transitionTo_ok task _ clk.nowUtc .running).mpr ⟨valid.2, rfl⟩
    simp only [moved]
    refine wp_prioritized trans (fun e o s₂ r₂ => fails e o s₂ (trans _ _ _ r₁ r₂))
      (fun e refused => fails e (resolvePriority_error refused) s₁ r₁)
      (fun p n s₂ r₂ later => ?_) fun p n s₃ s₄ _ => done _ s₄
    exact .move task _ _ ⟨⟨s₁, r₂, stored⟩, rfl, rfl, later⟩ valid.2 rfl
      fun accepted _ => absurd (paused.symm.trans accepted) (by decide)

/-! ## Operations that may replay an earlier request -/

omit trans in
include refl in
theorem wp_replay {R : Store → Work → Prop} {α : Type} {rest : Option Task → Db α}
    {key : Option String} {input : Dict} {Q : Except Failure α → Store → Prop}
    (fails : ∀ e, e.isPauseTimeout = false → ∀ s', G s s' → Q (.error e) s')
    (replays : ∀ t s', G s s' → (rest (some t)).wp Store.flush G R Q s')
    (proceeds : ∀ s', G s s' → (rest none).wp Store.flush G R Q s') :
    (replayOf env key input >>= rest).wp Store.flush G R Q s := by
  rw [Prog.wp_bind, wp_replayOf]
  refine ⟨fun _ => proceeds s (refl s), fun k _ s₁ r₁ => ⟨fun _ => proceeds s₁ r₁, ?_⟩⟩
  exact fun t _ => ⟨fun _ => replays t s₁ r₁, fun _ => fails _ rfl s₁ r₁⟩

omit trans in
theorem wp_getWorkflow {R : Store → Work → Prop} {α : Type} {rest : Workflow → Db α}
    {workflowId : String} {Q : Except Failure α → Store → Prop}
    (fails : ∀ e, e.isPauseTimeout = false → ∀ s', G s s' → Q (.error e) s')
    (found : ∀ workflow s', G s s' → (rest workflow).wp Store.flush G R Q s') :
    (getWorkflowOr404 workflowId >>= rest).wp Store.flush G R Q s := by
  rw [Prog.wp_bind, getWorkflowOr404, Db.wp_fetch]
  exact fun s₁ r₁ => ⟨fun workflow _ => found workflow s₁ r₁, fun _ => fails _ rfl s₁ r₁⟩

include refl in
theorem createTask_wp {clk : Clock} {hex : String} {req : CreateRequest}
    {Q : Except Failure (Task × Workflow × Bool) → Store → Prop}
    (fails : ∀ e, e.isPauseTimeout = false → ∀ s', G s s' → Q (.error e) s')
    (done : ∀ a s', Q (.ok a) s') :
    (createTask env clk hex req).wp Store.flush G (Change env G quiet) Q s := by
  unfold createTask createTaskWith
  refine wp_replay env refl fails (fun t s₁ r₁ => ?_) fun s₁ r₁ => ?_
  · exact wp_getWorkflow (fun e o s₂ r₂ => fails e o s₂ (trans _ _ _ r₁ r₂)) fun _ s₂ _ => done _ s₂
  · refine wp_getWorkflow (fun e o s₂ r₂ => fails e o s₂ (trans _ _ _ r₁ r₂)) fun workflow s₂ r₂ => ?_
    have late : ∀ e, e.isPauseTimeout = false → ∀ s₃, G s₂ s₃ → Q (.error e) s₃ :=
      fun e o s₃ r₃ => fails e o s₃ (trans _ _ _ (trans _ _ _ r₁ r₂) r₃)
    simp only [checkAgentNotSuspended, Prog.wp_bind, Db.wp_query, Db.wp_ensure, Db.wp_ofExcept]
    intro s₃ r₃
    refine ⟨fun _ => ?_, fun _ => late _ rfl s₃ r₃⟩
    cases valid : validateInput env req.input workflow.inputSchema with
    | error e => exact late _ (validateInput_error valid) s₃ r₃
    | ok _ =>
        cases parsed : parsePriority req.priority with
        | error e => exact late _ (parsePriority_error parsed) s₃ r₃
        | ok priority =>
            simp only [Db.wp_commit, Db.wp_refresh, Prog.wp_pure]
            refine fun s₄ r₄ => ⟨.create _ req.callerAgentId clk.now ?_, ?_, ?_⟩
            · exact ⟨newTaskId_ne_empty hex, rfl, rfl, rfl, rfl⟩
            · exact fun s₅ _ s₆ _ => done _ s₆
            · exact fun e refused => late e (Store.flush_error refused) s₄ (trans _ _ _ r₃ r₄)

include refl in
theorem retaskTask_wp {clk : Clock} {hex : String} {req : RetaskRequest}
    {Q : Except Failure (Task × Task × Bool) → Store → Prop}
    (fails : ∀ e, e.isPauseTimeout = false → ∀ s', G s s' → Q (.error e) s')
    (done : ∀ a s', Q (.ok a) s') :
    (retaskTask env clk hex req).wp Store.flush G (Change env G quiet) Q s := by
  unfold retaskTask
  refine wp_authorized trans fails fun task s₁ r₁ stored _ inside => ?_
  rw [Prog.wp_bind, Db.wp_ensure]
  refine ⟨fun reviewable => ?_, fun _ => fails _ rfl _ r₁⟩
  dsimp only
  rw [Prog.wp_bind, Db.wp_ensure]
  refine ⟨fun room => ?_, fun _ => fails _ rfl _ r₁⟩
  refine wp_replay env refl (fun e o s₂ r₂ => fails e o s₂ (trans _ _ _ r₁ r₂))
    (fun t s₂ _ => done _ s₂) fun s₂ r₂ => ?_
  have late : ∀ e, e.isPauseTimeout = false → ∀ s₃, G s₂ s₃ → Q (.error e) s₃ :=
    fun e o s₃ r₃ => fails e o s₃ (trans _ _ _ (trans _ _ _ r₁ r₂) r₃)
  dsimp only
  cases moved : task.transitionTo clk.nowUtc .retasked with
  | error e => exact late _ rfl s₂ (refl s₂)
  | ok task' =>
      obtain ⟨now, valid⟩ := Task.transitionTo_status moved
      refine wp_prioritized trans late
        (fun e refused => late e (resolvePriority_error refused) s₂ (refl s₂))
        (fun p n s₃ r₃ later => ?_) fun p n s₄ s₅ _ s₆ _ => done _ s₆
      rw [← inside]
      refine .succeed task task' _
        ⟨⟨s₁, trans _ _ _ r₂ r₃, stored⟩, Task.transitionTo_origin moved, rfl, later⟩ valid
        (.inl now) ?_ room hex _ p clk.now req.idempotencyKey _ task.principalAgentId _
      rw [now]
      exact recordedStatus_principal rfl rfl rfl rfl

include refl in
theorem redirectTask_wp {clk : Clock} {hex : String} {req : RedirectRequest}
    {Q : Except Failure (Task × Task × Bool) → Store → Prop}
    (fails : ∀ e, e.isPauseTimeout = false → ∀ s', G s s' → Q (.error e) s')
    (done : ∀ a s', Q (.ok a) s') :
    (redirectTask env clk hex req).wp Store.flush G (Change env G quiet) Q s := by
  unfold redirectTask
  refine wp_authorized trans fails fun task s₁ r₁ stored _ inside => ?_
  rw [Prog.wp_bind, Db.wp_ensure]
  refine ⟨fun redirectable => ?_, fun _ => fails _ rfl _ r₁⟩
  dsimp only
  rw [Prog.wp_bind, Db.wp_ensure]
  refine ⟨fun room => ?_, fun _ => fails _ rfl _ r₁⟩
  refine wp_replay env refl (fun e o s₂ r₂ => fails e o s₂ (trans _ _ _ r₁ r₂))
    (fun t s₂ _ => done _ s₂) fun s₂ r₂ => ?_
  have late : ∀ e, e.isPauseTimeout = false → ∀ s₃, G s₂ s₃ → Q (.error e) s₃ :=
    fun e o s₃ r₃ => fails e o s₃ (trans _ _ _ (trans _ _ _ r₁ r₂) r₃)
  dsimp only
  cases moved : task.transitionTo clk.nowUtc .redirected with
  | error e => exact late _ rfl s₂ (refl s₂)
  | ok task' =>
      obtain ⟨now, valid⟩ := Task.transitionTo_status moved
      refine wp_prioritized trans late
        (fun e refused => late e (resolvePriority_error refused) s₂ (refl s₂))
        (fun p n s₃ r₃ later => ?_) fun p n s₄ s₅ _ s₆ _ => done _ s₆
      rw [← inside]
      refine .succeed task task' _
        ⟨⟨s₁, trans _ _ _ r₂ r₃, stored⟩, Task.transitionTo_origin moved, rfl, later⟩ valid
        (.inr now) ?_ room hex _ p clk.now req.idempotencyKey _ task.principalAgentId _
      rw [now]
      exact recordedStatus_principal rfl rfl rfl rfl

/-! ## Context injection and executor events -/

include refl in
theorem injectContext_wp {clk : Clock} {hex : String} {req : ContextRequest}
    {Q : Except Failure Dict → Store → Prop}
    (allowed : ∀ n, quiet (injectionEvent clk hex req req.taskId n))
    (fails : ∀ e, e.isPauseTimeout = false → ∀ s', G s s' → Q (.error e) s')
    (done : ∀ a n s₁ s₂, G s s₁ → Store.flush
      { newEvents := [injectionEvent clk hex req req.taskId n] } s₁ = .ok s₂ → Q (.ok a) s₂) :
    (injectContext env clk hex req).wp Store.flush G (Change env G quiet) Q s := by
  unfold injectContext
  refine wp_authorized trans fails fun task s₁ r₁ stored own _ => ?_
  rw [Prog.wp_bind, Db.wp_ensure]
  refine ⟨fun injectable => ?_, fun _ => fails _ rfl _ r₁⟩
  dsimp only
  rw [Prog.wp_bind]
  refine wp_getMaxContextSequence fun s₂ r₂ r ordinary => ?_
  have late : ∀ e, e.isPauseTimeout = false → ∀ s₃, G s₂ s₃ → Q (.error e) s₃ :=
    fun e o s₃ r₃ => fails e o s₃ (trans _ _ _ (trans _ _ _ r₁ r₂) r₃)
  cases r with
  | error e => exact late _ (ordinary e rfl) s₂ (refl s₂)
  | ok last =>
      dsimp only
      rw [Prog.wp_bind, Db.wp_ensure]
      refine ⟨fun _ => ?_, fun _ => late _ rfl s₂ (refl s₂)⟩
      rw [own]
      refine wp_numbered trans late (fun n s₃ r₃ later => ?_) fun n s₃ s₄ r₃ committed => ?_
      · exact .inject task _ ⟨⟨s₁, trans _ _ _ r₂ r₃, stored⟩, .refl task, own.symm, own ▸ later⟩
          rfl (allowed n)
      · exact done _ n s₃ s₄ (trans _ _ _ (trans _ _ _ r₁ r₂) r₃) committed

include refl in
theorem processSidecarEvent_wp {clk : Clock} {req : EventRequest}
    {Q : Except Failure (TaskEvent × Task × Bool) → Store → Prop}
    (allowed : quiet (sidecarEvent clk req))
    (fails : ∀ e, e.isPauseTimeout = false → ∀ s', G s s' → Q (.error e) s')
    (done : ∀ a task task' s₁ s₂ s₃, G s s₁ → Store.flush
      { dirty := some (task, task'), newEvents := [sidecarEvent clk req] } s₁ = .ok s₂ →
      G s₂ s₃ → Q (.ok a) s₃) :
    (processSidecarEvent clk req).wp Store.flush G (Change env G quiet) Q s := by
  simp only [processSidecarEvent, Prog.wp_bind, Db.wp_ensure, Db.wp_fetch, Db.wp_query,
    Db.wp_ofExcept]
  refine ⟨fun known s₁ r₁ => ⟨fun task stored => ⟨fun executor s₂ r₂ => ?_, fun _ => fails _ rfl _ r₁⟩,
    fun _ => fails _ rfl _ r₁⟩, fun _ => fails _ rfl _ (refl s)⟩
  have r := trans _ _ _ r₁ r₂
  refine ⟨fun later => ?_, fun _ => fails _ rfl _ r⟩
  have own : task.id = req.taskId := (Table.find?_eq_some.mp stored).2
  cases applied : applyEvent clk req.eventType req.data task with
  | error e => exact fails _ (applyEvent_error applied) _ r
  | ok task' =>
      simp only [Db.wp_commit, Db.wp_refresh, Prog.wp_pure]
      intro s₃ r₃
      refine ⟨?_, fun s₄ committed s₅ r₅ => ?_, fun e refused => ?_⟩
      · have seen : Seen G s₃ (fun s₁ => s₁.tasks.find? task.id = some task) :=
          ⟨s₁, trans _ _ _ r₂ r₃, own ▸ stored⟩
        have numbered : Seen G s₃ (fun s₂ => s₂.maxSequence task.id < req.sequence) :=
          ⟨s₂, r₃, own ▸ later⟩
        rcases applyEvent_ok known applied with ⟨status, moved, records⟩ | ⟨origin, same, silent⟩
        · exact .move task task' _ ⟨seen, moved.origin, own.symm, numbered⟩
            (moved.now ▸ moved.valid) (moved.now ▸ records) fun _ _ => allowed
        · exact .note task task' _ ⟨seen, origin, own.symm, numbered⟩ same silent allowed
      · exact done _ task task' s₃ s₄ s₅ (trans _ _ _ r r₃) committed r₅
      · exact fails e (Store.flush_error refused) s₃ (trans _ _ _ r r₃)

end operations
end Fleet.Api
