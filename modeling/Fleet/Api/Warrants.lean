/- Whose commits may touch a task, however requests interleave: what authority rests on
   never changes. -/
import Fleet.Lib.Services
import Fleet.Api.Authority
import Fleet.Api.Concurrency

namespace Fleet.Api
open Fleet.Lib

/-! ## What no request takes back -/

/-- The columns set at creation, the log, the owners of the workflows, the keys of the
agents and that an agent is not suspended: whatever one request may rely on while others
run. -/
structure Keeps (s s' : Store) : Prop where
  grows : Grows s s'
  owners : ∀ id w, s.workflows.find? id = some w →
    ∃ w', s'.workflows.find? id = some w' ∧ w'.ownerAgentId = w.ownerAgentId
  agents : ∀ id a, s.agents.find? id = some a → ∃ a', s'.agents.find? id = some a' ∧
    a'.publicKey = a.publicKey ∧ (a.status ≠ .suspended → a'.status ≠ .suspended)

namespace Keeps

theorem refl (s : Store) : Keeps s s :=
  ⟨.refl s, fun _ w stored => ⟨w, stored, rfl⟩, fun _ a stored => ⟨a, stored, rfl, id⟩⟩

theorem trans (a b c : Store) (h : Keeps a b) (k : Keeps b c) : Keeps a c where
  grows := .trans a b c h.grows k.grows
  owners id w stored := by
    obtain ⟨w', stored', owner⟩ := h.owners id w stored
    obtain ⟨w'', stored'', owner'⟩ := k.owners id w' stored'
    exact ⟨w'', stored'', owner'.trans owner⟩
  agents id a stored := by
    obtain ⟨a', stored', key, active⟩ := h.agents id a stored
    obtain ⟨a'', stored'', key', active'⟩ := k.agents id a' stored'
    exact ⟨a'', stored'', key'.trans key, fun free => active' (active free)⟩

theorem flush (w : Work) (s s' : Store) (h : Store.flush w s = .ok s') : Keeps s s' := by
  obtain ⟨_, _, agents, workflows, _, _⟩ := Store.flush_ok h
  refine ⟨.flush w s s' h, fun id w stored => ⟨w, ?_, rfl⟩, fun id a stored => ⟨a, ?_, rfl, fun free => free⟩⟩
  · rw [workflows]
    exact stored
  · rw [agents]
    exact stored

theorem row {s s' : Store} (h : Keeps s s') {id : String} {t t' : Task}
    (read : s.tasks.find? id = some t) (stored : s'.tasks.find? id = some t') : Task.SameOrigin t t' := by
  obtain ⟨t'', found, origin⟩ := h.grows.rows id t read
  rw [stored] at found
  cases found
  exact origin

end Keeps

/-- Authority over a task outlasts every commit. -/
theorem Authorized.mono {s s' : Store} {op : Op} {t t' : Task} (h : Authorized s op t) (keeps : Keeps s s')
    (origin : Task.SameOrigin t t') : Authorized s' op t' := by
  cases h with
  | controls workflow principal addressed inside known mayControl =>
      obtain ⟨workflow', known', owner⟩ := keeps.owners _ _ known
      refine .controls workflow' principal ?_ ?_ ?_ ?_
      · rw [addressed, origin.id]
      · rw [inside, origin.workflowId]
      · rw [origin.workflowId, known']
      · rw [MayControl, origin.principal, owner]
        exact mayControl
  | executes own addressed executor =>
      refine .executes own ?_ ?_
      · rw [addressed, origin.id]
      · rw [origin.executor, executor]

/-! ## Warranted commits -/

/-- Of the stored tasks the commit touches those alone that the agent of the operation
has authority over at that moment, and a task it adds is placed as asked. -/
structure Warranted (op : Op) (s : Store) (w : Work) : Prop where
  touches : ∀ s', Store.flush w s = .ok s' → ∀ id t, s.tasks.find? id = some t → w.Touches id →
    Authorized s op t
  places : ∀ t, w.newTask = some t → op.Places s t

namespace Warranted
variable {op : Op} {s s₁ : Store} {task : Task}

theorem one {w : Work} (read : s₁.tasks.find? task.id = some task) (authorized : Authorized s₁ op task)
    (keeps : Keeps s₁ s) (adds : w.newTask = none) (only : ∀ id, w.Touches id → task.id = id) :
    Warranted op s w where
  touches _ _ id t stored touched := by
    obtain rfl := only id touched
    exact authorized.mono keeps (keeps.row read stored)
  places t new := by
    rw [adds] at new
    cases new

theorem succession {task' next : Task} {e created : TaskEvent} (read : s₁.tasks.find? task.id = some task)
    (authorized : Authorized s₁ op task) (keeps : Keeps s₁ s) (own : e.taskId = task.id)
    (other : created.taskId = next.id) (inside : op.workflow? = some next.workflowId)
    (workflow : next.workflowId = task.workflowId) (principal : next.principalAgentId = task.principalAgentId) :
    Warranted op s { newTask := some next, dirty := some (task, task'), newEvents := [e, created] } where
  touches s' committed id t stored touched := by
    have only : task.id = id ∨ next.id = id := by
      rcases touched with ⟨_, _, same, rfl⟩ | ⟨x, member, rfl⟩
      · cases same
        exact .inl rfl
      · rcases List.mem_pair.mp member with rfl | rfl
        · exact .inl own.symm
        · exact .inr other.symm
    rcases only with rfl | rfl
    · exact authorized.mono keeps (keeps.row read stored)
    · -- a row that is inserted was not stored
      obtain ⟨mid, inserted, -⟩ := Store.flush_ok committed
      obtain ⟨-, -, -, tasks, added, -⟩ := Store.insertTask_ok inserted
      rw [Table.insert?_isSome.mp ⟨tasks, added⟩] at stored
      cases stored
  places t new := by
    obtain rfl := Option.some.inj new
    refine ⟨inside, ?_⟩
    obtain ⟨row, stored, origin⟩ := keeps.grows.rows _ _ read
    rw [authorized.addressed]
    exact ⟨row, stored, by rw [origin.workflowId, workflow], by rw [origin.principal, principal]⟩

end Warranted

/-! ## The operations -/

section operations
variable {s : Store} (env : Env)

theorem wp_controlled (op : Op) {R : Store → Work → Prop} {α : Type} {rest : Task → Db α}
    {workflowId taskId agent verb : String} (principal : op.byPrincipal = true)
    (target : op.target? = some taskId) (workflow : op.workflow? = some workflowId) (caller : op.agent = agent)
    (passes : ∀ task s', s'.tasks.find? task.id = some task → task.workflowId = workflowId →
      task.id = taskId → Authorized s' op task →
      (rest task).wp Store.flush Keeps R (fun _ _ => True) s') :
    (authorized workflowId taskId agent verb >>= rest).wp Store.flush Keeps R (fun _ _ => True) s := by
  simp only [authorized, fetchWorkflow, fetchTask, Prog.wp_bind, Db.wp_fetch, Db.wp_ensure, Prog.wp_pure]
  refine fun s₁ _ => ⟨fun row known s₂ later => ⟨fun task found => ⟨fun controls => ?_, fun _ => trivial⟩,
    fun _ => trivial⟩, fun _ => trivial⟩
  obtain ⟨stored, inside⟩ := Option.filter_eq_some_iff.mp found
  have own : task.id = taskId := (Table.find?_eq_some.mp stored).2
  have inside : task.workflowId = workflowId := by simpa using inside
  obtain ⟨row', known', owner⟩ := later.owners _ _ known
  refine passes task s₂ (own ▸ stored) inside own (.controls row' principal ?_ ?_ ?_ ?_)
  · rw [target, own]
  · rw [workflow, inside]
  · rw [inside, known']
  · rw [MayControl, owner, caller]
    exact controls

theorem wp_numbered_one {op : Op} {α : Type} {task : Task} {w : Int → Work} {rest : Int → Unit → Db α}
    (read : s.tasks.find? task.id = some task) (authorized : Authorized s op task)
    (adds : ∀ n, (w n).newTask = none) (only : ∀ n id, (w n).Touches id → task.id = id)
    (answers : ∀ n s', (rest n ()).wp Store.flush Keeps (Warranted op) (fun _ _ => True) s') :
    (Db.query (fun s => s.maxSequence task.id) >>= fun last => Db.commit (w last) >>= rest last).wp
      Store.flush Keeps (Warranted op) (fun _ _ => True) s :=
  wp_numbered Keeps.trans (fun _ _ _ _ => trivial)
    (fun n _ keeps _ => .one read authorized keeps (adds n) (only n)) fun n _ s' _ _ => answers n s'

theorem touches_events {e : TaskEvent} {id : String}
    (touched : Work.Touches { newEvents := [e] } id) : e.taskId = id := by
  rcases touched with ⟨_, _, same, _⟩ | ⟨x, member, rfl⟩
  · cases same
  · rw [List.mem_singleton.mp member]

theorem createTask_warranted (clk : Clock) (hex : String) (req : CreateRequest) :
    (createTask env clk hex req).wp Store.flush Keeps (Warranted (.createTask clk hex req))
      (fun _ _ => True) s := by
  unfold createTask createTaskWith
  refine wp_replay env Keeps.refl (fun _ _ _ _ => trivial) (fun t s₁ _ => ?_) fun s₁ _ => ?_
  · exact wp_getWorkflow (fun _ _ _ _ => trivial) fun _ _ _ => trivial
  · refine wp_getWorkflow (fun _ _ _ _ => trivial) fun workflow s₂ _ => ?_
    simp only [checkAgentNotSuspended, Prog.wp_bind, Db.wp_query, Db.wp_ensure, Db.wp_ofExcept]
    refine fun s₃ _ => ⟨fun _ => ?_, fun _ => trivial⟩
    cases validateInput env req.input workflow.inputSchema with
    | error e => trivial
    | ok _ =>
        cases parsePriority req.priority with
        | error e => trivial
        | ok priority =>
            simp only [Db.wp_commit, Db.wp_refresh, Prog.wp_pure]
            refine fun s₄ _ => ⟨⟨fun s' committed id t stored touched => ?_, fun t new => ?_⟩,
              fun _ _ _ _ => trivial, fun _ _ => trivial⟩
            · -- it touches the new task alone
              rcases touched with ⟨_, _, same, _⟩ | ⟨x, member, rfl⟩
              · cases same
              · rw [List.mem_singleton.mp member, createdEvent_taskId] at stored
                obtain ⟨mid, inserted, -⟩ := Store.flush_ok committed
                obtain ⟨-, -, -, tasks, added, -⟩ := Store.insertTask_ok inserted
                rw [Table.insert?_isSome.mp ⟨tasks, added⟩] at stored
                cases stored
            · obtain rfl := Option.some.inj new
              exact ⟨rfl, rfl⟩

theorem retaskTask_warranted (clk : Clock) (hex : String) (req : RetaskRequest) :
    (retaskTask env clk hex req).wp Store.flush Keeps (Warranted (.retaskTask clk hex req))
      (fun _ _ => True) s := by
  unfold retaskTask
  refine wp_controlled (.retaskTask clk hex req) rfl rfl rfl rfl
    fun task s₁ read inside _ authorized => ?_
  rw [Prog.wp_bind, Db.wp_ensure]
  refine ⟨fun _ => ?_, fun _ => trivial⟩
  dsimp only
  rw [Prog.wp_bind, Db.wp_ensure]
  refine ⟨fun _ => ?_, fun _ => trivial⟩
  refine wp_replay env Keeps.refl (fun _ _ _ _ => trivial) (fun _ _ _ => trivial) fun s₂ keeps => ?_
  dsimp only
  cases task.transitionTo clk.nowUtc .retasked with
  | error e => trivial
  | ok task' =>
      refine wp_prioritized Keeps.trans (fun _ _ _ _ => trivial) (fun _ _ => trivial)
        (fun p n s₃ later _ => ?_) fun p n s' _ _ _ _ => trivial
      exact .succession read authorized (.trans _ _ _ keeps later) rfl rfl rfl inside.symm rfl

theorem redirectTask_warranted (clk : Clock) (hex : String) (req : RedirectRequest) :
    (redirectTask env clk hex req).wp Store.flush Keeps (Warranted (.redirectTask clk hex req))
      (fun _ _ => True) s := by
  unfold redirectTask
  refine wp_controlled (.redirectTask clk hex req) rfl rfl rfl rfl
    fun task s₁ read inside _ authorized => ?_
  rw [Prog.wp_bind, Db.wp_ensure]
  refine ⟨fun _ => ?_, fun _ => trivial⟩
  dsimp only
  rw [Prog.wp_bind, Db.wp_ensure]
  refine ⟨fun _ => ?_, fun _ => trivial⟩
  refine wp_replay env Keeps.refl (fun _ _ _ _ => trivial) (fun _ _ _ => trivial) fun s₂ keeps => ?_
  dsimp only
  cases task.transitionTo clk.nowUtc .redirected with
  | error e => trivial
  | ok task' =>
      refine wp_prioritized Keeps.trans (fun _ _ _ _ => trivial) (fun _ _ => trivial)
        (fun p n s₃ later _ => ?_) fun p n s' _ _ _ _ => trivial
      exact .succession read authorized (.trans _ _ _ keeps later) rfl rfl rfl inside.symm rfl

theorem cancelTask_warranted (clk : Clock) (workflowId taskId agent : String) (reason : Option String) :
    (cancelTask clk workflowId taskId agent reason).wp Store.flush Keeps
      (Warranted (.cancelTask clk workflowId taskId agent reason)) (fun _ _ => True) s := by
  unfold cancelTask
  refine wp_controlled (.cancelTask clk workflowId taskId agent reason) rfl rfl rfl rfl
    fun task s₁ read _ _ authorized => ?_
  cases task.transitionTo clk.nowUtc .cancelled with
  | error e => trivial
  | ok task' =>
      exact wp_numbered_one read authorized (fun _ => rfl) (fun n _ => Work.touches_dirty rfl)
        fun _ _ _ _ => trivial

theorem pauseTask_warranted (clk : Clock) (workflowId taskId agent : String) (reason : Option String) :
    (pauseTask env clk workflowId taskId agent reason).wp Store.flush Keeps
      (Warranted (.pauseTask clk workflowId taskId agent reason)) (fun _ _ => True) s := by
  unfold pauseTask
  refine wp_controlled (.pauseTask clk workflowId taskId agent reason) rfl rfl rfl rfl
    fun task s₁ read _ _ authorized => ?_
  rw [Prog.wp_bind, Db.wp_ensure]
  refine ⟨fun _ => ?_, fun _ => trivial⟩
  dsimp only
  cases task.transitionTo clk.nowUtc .paused with
  | error e => trivial
  | ok task' =>
      exact wp_numbered_one read authorized (fun _ => rfl) (fun n _ => Work.touches_dirty rfl)
        fun _ _ _ _ => trivial

theorem resumeTask_warranted (clk : Clock) (workflowId taskId agent : String) (priority : Option String) :
    (resumeTask env clk workflowId taskId agent priority).wp Store.flush Keeps
      (Warranted (.resumeTask clk workflowId taskId agent priority)) (fun _ _ => True) s := by
  unfold resumeTask
  refine wp_controlled (.resumeTask clk workflowId taskId agent priority) rfl rfl rfl rfl
    fun task s₁ read _ _ authorized => ?_
  rw [Prog.wp_bind, Db.wp_ensure]
  refine ⟨fun _ => ?_, fun _ => trivial⟩
  simp only [Prog.wp_ite]
  refine ⟨fun _ => ?_, fun _ => ?_⟩
  · exact wp_numbered_one read authorized (fun _ => rfl) (fun n _ => Work.touches_dirty rfl)
      fun _ _ _ _ => trivial
  · cases task.transitionTo clk.nowUtc .running with
    | error e => trivial
    | ok task' =>
        refine wp_prioritized Keeps.trans (fun _ _ _ _ => trivial) (fun _ _ => trivial)
          (fun p n s₂ keeps _ => ?_) fun p n s' _ _ => trivial
        exact .one read authorized keeps rfl fun _ => Work.touches_dirty rfl

theorem injectContext_warranted (clk : Clock) (hex : String) (req : ContextRequest) :
    (injectContext env clk hex req).wp Store.flush Keeps (Warranted (.injectContext clk hex req))
      (fun _ _ => True) s := by
  unfold injectContext
  refine wp_controlled (.injectContext clk hex req) rfl rfl rfl rfl
    fun task s₁ read _ own authorized => ?_
  rw [Prog.wp_bind, Db.wp_ensure]
  refine ⟨fun _ => ?_, fun _ => trivial⟩
  dsimp only
  rw [Prog.wp_bind]
  refine wp_getMaxContextSequence fun s₂ keeps r _ => ?_
  cases r with
  | error e => trivial
  | ok last =>
      dsimp only
      rw [Prog.wp_bind, Db.wp_ensure]
      refine ⟨fun _ => ?_, fun _ => trivial⟩
      refine wp_numbered Keeps.trans (fun _ _ _ _ => trivial) (fun n s₃ later _ => ?_)
        fun n _ s' _ _ => trivial
      exact .one read authorized (.trans _ _ _ keeps later) rfl fun _ => touches_events

theorem processSidecarEvent_warranted (clk : Clock) (req : EventRequest) :
    (processSidecarEvent clk req).wp Store.flush Keeps (Warranted (.processSidecarEvent clk req))
      (fun _ _ => True) s := by
  simp only [processSidecarEvent, Prog.wp_bind, Db.wp_ensure, Db.wp_fetch, Db.wp_query, Db.wp_ofExcept]
  refine ⟨fun known s₁ _ => ⟨fun task stored => ⟨fun executor s₂ keeps => ⟨fun _ => ?_, fun _ => trivial⟩,
    fun _ => trivial⟩, fun _ => trivial⟩, fun _ => trivial⟩
  have own : task.id = req.taskId := (Table.find?_eq_some.mp stored).2
  cases applyEvent clk req.eventType req.data task with
  | error e => trivial
  | ok task' =>
      simp only [Db.wp_commit, Db.wp_refresh, Prog.wp_pure]
      refine fun s₃ later => ⟨?_, fun _ _ _ _ => trivial, fun _ _ => trivial⟩
      exact .one (own ▸ stored) (.executes rfl (own ▸ rfl) executor) (.trans _ _ _ keeps later) rfl
        fun _ => Work.touches_dirty own.symm

end operations

/-- Every commit of an operation is warranted at the store it is applied to, whatever
others commit while it runs. -/
theorem Op.warranted (env : Env) (op : Op) (s : Store) :
    (op.program env).wp Store.flush Keeps (Warranted op) (fun _ _ => True) s := by
  cases op with
  | createTask clk hex req => exact Prog.wp_then (createTask_warranted env clk hex req) fun _ _ => trivial
  | retaskTask clk hex req => exact Prog.wp_then (retaskTask_warranted env clk hex req) fun _ _ => trivial
  | redirectTask clk hex req =>
      exact Prog.wp_then (redirectTask_warranted env clk hex req) fun _ _ => trivial
  | cancelTask clk workflowId taskId agent reason =>
      exact Prog.wp_then (cancelTask_warranted clk workflowId taskId agent reason) fun _ _ => trivial
  | pauseTask clk workflowId taskId agent reason =>
      exact Prog.wp_then (pauseTask_warranted env clk workflowId taskId agent reason) fun _ _ => trivial
  | resumeTask clk workflowId taskId agent priority =>
      exact Prog.wp_then (resumeTask_warranted env clk workflowId taskId agent priority) fun _ _ => trivial
  | injectContext clk hex req =>
      exact Prog.wp_then (injectContext_warranted env clk hex req) fun _ _ => trivial
  | processSidecarEvent clk req =>
      exact Prog.wp_then (processSidecarEvent_warranted clk req) fun _ _ => trivial

end Fleet.Api
