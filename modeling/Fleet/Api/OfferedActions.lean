/- The actions that the response of a task offers, and when performing one succeeds. -/
import Fleet.Api.ContextOrder
import Fleet.Api.CreationErrors
import Fleet.Api.KeyExpiry
import Fleet.Api.PauseTtl
import Fleet.Api.References
import Fleet.Api.Responses

namespace Fleet.Api
open Fleet.Lib

/-! ## Offers -/

/-- The action links but `rerun`, which asks for a new task. -/
inductive LinkAction where
  | cancel | pause | resume | context | redirect | retask
  deriving DecidableEq

def LinkAction.name : LinkAction → String
  | cancel => "cancel"
  | pause => "pause"
  | resume => "resume"
  | context => "context"
  | redirect => "redirect"
  | retask => "retask"

/-- The links of the task have the action. -/
def Offered (t : Task) (a : LinkAction) : Prop :=
  Dict.has (buildTaskLinks t.id t.workflowId t.status) a.name = true

def LinkAction.Applies : LinkAction → TaskStatus → Prop
  | cancel, status => .cancelled ∈ validTransitions status
  | pause, status => status = .running
  | resume, status => status = .paused
  | context, status => status ∈ contextInjectableStatuses
  | redirect, status => status = .running ∨ status = .paused
  | retask, status => status = .completed ∨ status = .failed

/-- The table of links and the checks of the operations agree. -/
theorem offered_iff {t : Task} {a : LinkAction} : Offered t a ↔ a.Applies t.status := by
  have listed : Dict.has (buildTaskLinks t.id t.workflowId t.status) a.name =
      decide (a.name ∈ statusActionLinks t.status) := by
    cases t.status <;> cases a <;> rfl
  rw [Offered, listed, decide_eq_true_eq]
  cases t.status <;> cases a <;> simp [LinkAction.name, LinkAction.Applies, statusActionLinks,
    validTransitions, contextInjectableStatuses]

/-- The operation of an action, performed by the principal of the task. -/
inductive Performs (t : Task) : LinkAction → Op → Prop
  | cancel (clk : Clock) (reason : Option String) :
      Performs t .cancel (.cancelTask clk t.workflowId t.id t.principalAgentId reason)
  | pause (clk : Clock) (reason : Option String) :
      Performs t .pause (.pauseTask clk t.workflowId t.id t.principalAgentId reason)
  | resume (clk : Clock) (priority : Option String) :
      Performs t .resume (.resumeTask clk t.workflowId t.id t.principalAgentId priority)
  | context (clk : Clock) (hex : String) (req : ContextRequest) (workflow : req.workflowId = t.workflowId)
      (task : req.taskId = t.id) (caller : req.callerAgentId = t.principalAgentId) :
      Performs t .context (.injectContext clk hex req)
  | redirect (clk : Clock) (hex : String) (req : RedirectRequest) (workflow : req.workflowId = t.workflowId)
      (task : req.taskId = t.id) (caller : req.callerAgentId = t.principalAgentId) :
      Performs t .redirect (.redirectTask clk hex req)
  | retask (clk : Clock) (hex : String) (req : RetaskRequest) (workflow : req.workflowId = t.workflowId)
      (task : req.taskId = t.id) (caller : req.callerAgentId = t.principalAgentId) :
      Performs t .retask (.retaskTask clk hex req)

/-- What the operation checks of the task besides its status. -/
def Op.Permitted (env : Env) (t : Task) : Op → Prop
  | .retaskTask _ _ _ | .redirectTask _ _ _ => t.lineageDepth < env.settings.fleetLineageMaxDepth
  | .resumeTask clk _ _ _ _ => pauseExpired env t clk.now = false
  | _ => True

/-- The text of a priority, where one is given, is that of a priority. -/
def NamesPriority (priority : Option String) : Prop :=
  ∀ p, priority = some p → (TaskPriority.ofValue? p).isSome = true

theorem NamesPriority.resolves {priority : Option String} (h : NamesPriority priority)
    (inherited : TaskPriority) : ∃ p, resolvePriority priority inherited = .ok p := by
  cases priority with
  | none => exact ⟨inherited, rfl⟩
  | some text =>
      obtain ⟨p, named⟩ := Option.isSome_iff_exists.mp (h text rfl)
      exact ⟨p, by rw [resolvePriority, parsePriority, named]⟩

/-- The arguments with which a task is continued by another: a generated id that no task
has, a priority, and a key that no task has or that repeats an earlier request. -/
structure Continuation (env : Env) (s : Store) (hex : String) (priority key : Option String) (input : Dict) :
    Prop where
  short : hex.length ≤ 8
  fresh : s.tasks.find? (newTaskId hex) = none
  priority : NamesPriority priority
  key : (Unused s key ∧ ∀ k, key = some k → k.length ≤ 256) ∨ ∃ u, Replays env s key input u

/-- The arguments besides the task are such that nothing is wrong with them. -/
def Op.Valid (env : Env) (s : Store) (t : Task) : Op → Prop
  | .retaskTask _ hex req =>
      Continuation env s hex req.priority req.idempotencyKey (mergedInput t req.refinement)
  | .redirectTask _ hex req => Continuation env s hex req.priority req.idempotencyKey req.newInput
  | .resumeTask _ _ _ _ priority => NamesPriority priority
  | .injectContext _ _ req => ∃ last, maxContextSequence s t.id = .ok last ∧ last < req.sequence
  | _ => True

/-- The numbers that the operation of an action stores fit their columns. -/
structure Room (s : Store) (t : Task) (a : LinkAction) : Prop where
  number : fitsInteger (s.maxSequence t.id + 1) = true
  depth : a = .redirect ∨ a = .retask → fitsInteger ((t.lineageDepth + 1 : Nat) : Int) = true

/-! ## What succeeds is offered -/

section converse
variable {env : Env} {s : Store}

theorem guarded_answered {α : Type} {allowed : Task → Prop} [DecidablePred allowed]
    {workflowId taskId agent verb : String} {refusal depth : Task → FleetAPIError} {go : Task → Db α}
    {f : α → Db Answer}
    (answered : Answered (((authorized workflowId taskId agent verb >>= fun task =>
      Db.ensure (allowed task) (refusal task) >>= fun _ =>
      Db.ensure (task.lineageDepth < env.settings.fleetLineageMaxDepth) (depth task) >>= fun _ =>
      go task) >>= f).run Store.flush s).1 = true) :
    ∃ task, Admitted s workflowId taskId agent task ∧ allowed task ∧
      task.lineageDepth < env.settings.fleetLineageMaxDepth := by
  rcases authorized_cases s workflowId taskId agent verb with ⟨task, admitted⟩ | ⟨e, -, refused⟩
  · refine ⟨task, admitted, ?_⟩
    simp only [Prog.run_bind, admitted.authorized_run, Db.ensure] at answered
    by_cases status : allowed task
    · by_cases room : task.lineageDepth < env.settings.fleetLineageMaxDepth
      · exact ⟨status, room⟩
      · simp [status, room, Prog.pure_eq, Prog.run, Db.raise, Prog.raise, Answered, Except.isOk,
          Except.toBool] at answered
    · simp [status, Prog.run, Db.raise, Prog.raise, Answered, Except.isOk, Except.toBool] at answered
  · simp [Prog.run_bind, refused, Answered, Except.isOk, Except.toBool] at answered

theorem retaskTask_guarded {clk : Clock} {hex : String} {req : RetaskRequest}
    (answered : Answered ((Op.retaskTask clk hex req).exec env s).1 = true) :
    ∃ task, Admitted s req.workflowId req.taskId req.callerAgentId task ∧
      (task.status = .completed ∨ task.status = .failed) ∧
      task.lineageDepth < env.settings.fleetLineageMaxDepth := guarded_answered answered

theorem redirectTask_guarded {clk : Clock} {hex : String} {req : RedirectRequest}
    (answered : Answered ((Op.redirectTask clk hex req).exec env s).1 = true) :
    ∃ task, Admitted s req.workflowId req.taskId req.callerAgentId task ∧
      (task.status = .running ∨ task.status = .paused) ∧
      task.lineageDepth < env.settings.fleetLineageMaxDepth := guarded_answered answered

theorem Performs.answered {t : Task} {a : LinkAction} {op : Op} (performs : Performs t a op)
    (stored : s.tasks.find? t.id = some t) (answered : Answered (op.exec env s).1 = true) :
    Offered t a ∧ op.Permitted env t := by
  have own : ∀ {workflowId taskId agent : String} {task : Task}, taskId = t.id →
      Admitted s workflowId taskId agent task → task = t := by
    intro workflowId taskId agent task addressed admitted
    have loaded := admitted.stored
    rw [addressed, stored] at loaded
    exact (Option.some.inj loaded).symm
  have outcome := op.exec_outcome env s
  generalize run : op.exec env s = r at outcome answered
  obtain ⟨answer, s'⟩ := r
  rw [offered_iff]
  cases performs with
  | redirect clk hex req workflow task caller =>
      obtain ⟨task', admitted, redirectable, room⟩ := redirectTask_guarded (by rw [run]; exact answered)
      obtain rfl := own task admitted
      exact ⟨redirectable, room⟩
  | retask clk hex req workflow task caller =>
      obtain ⟨task', admitted, reviewable, room⟩ := retaskTask_guarded (by rw [run]; exact answered)
      obtain rfl := own task admitted
      exact ⟨reviewable, room⟩
  | cancel clk reason =>
      cases outcome with
      | refused => cases answered
      | cancelled _ _ _ _ _ task e s' admitted valid =>
          obtain rfl := own rfl admitted
          exact ⟨valid, trivial⟩
  | pause clk reason =>
      cases outcome with
      | refused => cases answered
      | paused _ _ _ _ _ task e s' admitted running =>
          obtain rfl := own rfl admitted
          exact ⟨running, trivial⟩
  | resume clk priority =>
      cases outcome with
      | refused => cases answered
      | expired => cases answered
      | resumed _ _ _ _ _ task priority e s' admitted paused live =>
          obtain rfl := own rfl admitted
          exact ⟨paused, live⟩
  | context clk hex req workflow task caller =>
      cases outcome with
      | refused => cases answered
      | injected _ _ _ task' response s' admitted injectable =>
          obtain rfl := own task admitted
          exact ⟨injectable, trivial⟩

end converse

/-! ## What is offered succeeds -/

section availability
variable {env : Env} {s : Store} {clk : Clock} {hex workflowId taskId agent : String} {t : Task}

theorem cancelTask_answered (reason : Option String) (admitted : Admitted s workflowId taskId agent t)
    (valid : .cancelled ∈ validTransitions t.status)
    (fits : fitsInteger (s.maxSequence t.id + 1) = true) :
    Answered ((Op.cancelTask clk workflowId taskId agent reason).exec env s).1 = true := by
  have moved := @Task.transitionTo_ended t .cancelled clk.nowUtc valid rfl
  let event : TaskEvent := {
    taskId := t.id
    eventType := "status"
    data := some [
      ("from_status", .str t.status.value),
      ("to_status", .str "cancelled"),
      ("reason", .ofOption reason),
      ("cancelled_by", .str agent)]
    sequence := s.maxSequence t.id + 1
    createdAt := clk.dbNow }
  obtain ⟨s', committed, -⟩ := @Store.flush_dirty s t (t.ended .cancelled clk.nowUtc) event
    admitted.loaded (t.ended_origin _ _) rfl fits (Int.lt_succ _)
  simp only [event] at committed
  simp [Op.exec, Op.program, cancelTask, Prog.run_bind, admitted.authorized_run, Prog.run, Prog.pure_eq,
    moved, Db.query, Db.commit, Db.refresh, committed, Answered, Except.isOk, Except.toBool]

theorem pauseTask_answered (reason : Option String) (admitted : Admitted s workflowId taskId agent t)
    (running : t.status = .running) (fits : fitsInteger (s.maxSequence t.id + 1) = true) :
    Answered ((Op.pauseTask clk workflowId taskId agent reason).exec env s).1 = true := by
  have moved := (@Task.transitionTo_ok t _ clk.nowUtc .paused).mpr ⟨by rw [running]; decide, rfl⟩
  have final : isTerminal .paused = false := rfl
  let event : TaskEvent := {
    taskId := t.id
    eventType := "pause_requested"
    data := some [
      ("from_status", .str TaskStatus.running.value),
      ("to_status", .str "paused"),
      ("reason", .ofOption reason),
      ("paused_by", .str agent),
      ("paused_state", .obj (pausedState env t clk.now))]
    sequence := s.maxSequence t.id + 1
    createdAt := clk.dbNow }
  obtain ⟨s', committed, -⟩ := @Store.flush_dirty s t (t.pausedSince clk.now) event
    admitted.loaded (t.pausedSince_origin _) rfl fits (Int.lt_succ _)
  simp only [Task.pausedSince, event] at committed
  simp [Op.exec, Op.program, pauseTask, Prog.run_bind, admitted.authorized_run, Db.ensure, Prog.run,
    Prog.pure_eq, running, moved, final, Db.query, Db.commit, Db.refresh, committed, Answered,
    Except.isOk, Except.toBool]

theorem resumeTask_answered {requested : Option String} (admitted : Admitted s workflowId taskId agent t)
    (paused : t.status = .paused) (live : pauseExpired env t clk.now = false)
    (names : NamesPriority requested) (fits : fitsInteger (s.maxSequence t.id + 1) = true) :
    Answered ((Op.resumeTask clk workflowId taskId agent requested).exec env s).1 = true := by
  obtain ⟨priority, resolved⟩ := names.resolves t.priority
  obtain ⟨e, s', done, -⟩ := resumeTask_live admitted paused live resolved (admitted.own ▸ fits)
  rw [done]
  rfl

theorem Store.flush_succession {next : Task} {status : TaskStatus} {at' : Time} {e created : TaskEvent}
    (logged : Logged s) (stored : s.tasks.find? t.id = some t) (inserted : ∃ mid, s.insertTask next = .ok mid)
    (own : e.taskId = t.id) (fits : fitsInteger e.sequence = true) (later : s.maxSequence t.id < e.sequence)
    (new : created.taskId = next.id) (one : created.sequence = 1) :
    ∃ s', Store.flush (succession t next status at' e created) s = .ok s' := by
  obtain ⟨mid, inserted⟩ := inserted
  obtain ⟨-, -, -, tasks, added, rfl⟩ := Store.insertTask_ok inserted
  have absent : s.tasks.find? next.id = none := Table.insert?_isSome.mp ⟨tasks, added⟩
  have other : next.id ≠ t.id := by
    intro same
    rw [same, stored] at absent
    cases absent
  have kept : tasks.find? t.id = some t := by rw [Table.find?_insert? added, if_neg other, stored]
  have updated : ∀ id, (Store.updateTask { s with tasks } t (t.ended status at')).tasks.find? id =
      if t.id = id then some (t.ended status at') else tasks.find? id :=
    fun id => @Store.updateTask_find? { s with tasks } t (t.ended status at') kept rfl id
  -- the event of the old task is numbered after its log
  obtain ⟨s₁, first, same⟩ := @Store.insertEvent_later
    (Store.updateTask { s with tasks } t (t.ended status at')) e (t.ended status at')
    (by rw [own, updated, if_pos rfl]) fits (own ▸ later)
  obtain ⟨-, -, events, appended, rfl⟩ := Store.insertEvent_ok first
  -- the log of the new task is empty
  have known : ∃ u, (Store.updateTask { s with tasks } t (t.ended status at')).tasks.find? created.taskId =
      some u := by
    rw [new, updated, if_neg other.symm, Table.find?_insert? added, if_pos rfl]
    exact ⟨next, rfl⟩
  have free : events.find? created.slot = none := by
    have apart : e.slot ≠ created.slot := by
      intro same
      have tasks : e.taskId = created.taskId := congrArg Prod.fst same
      rw [own, new] at tasks
      exact other tasks.symm
    rw [Table.find?_insert? appended, if_neg apart, Table.find?_eq_none]
    intro x member same
    obtain ⟨u, found⟩ := logged.owned x member
    have tasks : x.taskId = created.taskId := congrArg Prod.fst same
    rw [tasks, new, absent] at found
    cases found
  obtain ⟨s₂, second⟩ := (@insertEvent_iff { Store.updateTask { s with tasks } t (t.ended status at') with
    events } created).mpr ⟨by rw [one]; decide, known, free⟩
  refine ⟨s₂, ?_⟩
  simp only [Store.flush, succession, inserted, Store.insertEvents, first, second]

theorem Served.insert_successor (served : Served env s) (stored : s.tasks.find? t.id = some t)
    (inside : t.workflowId = workflowId)
    (depth : fitsInteger ((t.lineageDepth + 1 : Nat) : Int) = true) (short : hex.length ≤ 8)
    (fresh : s.tasks.find? (newTaskId hex) = none) {key : Option String} (unused : Unused s key)
    (fits : ∀ k, key = some k → k.length ≤ 256) (input metadata : Dict) (priority : TaskPriority)
    (now : Time) :
    ∃ mid, s.insertTask (successor t workflowId hex input priority now key metadata) = .ok mid := by
  obtain ⟨refers, timeout⟩ := served.anchored t (Table.find?_eq_some.mp stored).1
  have id : (newTaskId hex).length ≤ 128 := by
    rw [newTaskId, String.length_append]
    have : "task-".length = 5 := by decide
    omega
  refine insertTask_iff.mpr ⟨?_, ?_, unused, fresh⟩
  · have keys : key.all (fun k => k.length ≤ 256) = true :=
      Option.all_eq_true _ _ |>.mpr fun k given => decide_eq_true (fits k given)
    simp only [Task.fits, successor, id, timeout, depth, keys, Option.all_none, decide_true, Bool.and_self]
  · simp only [Store.references, Bool.and_eq_true] at refers
    obtain ⟨⟨⟨⟨workflow, principal⟩, executor⟩, -⟩, root⟩ := refers
    have parent : (s.tasks.find? t.id).isSome = true := by rw [stored]; rfl
    have ancestor : (s.tasks.find? (orElse t.rootTaskId t.id)).isSome = true := by
      cases given : t.rootTaskId with
      | none => exact parent
      | some r =>
          rw [given] at root
          simp only [orElse]
          split
          · exact parent
          · exact root
    simp only [Store.references, successor, ← inside, workflow, principal, executor, parent, ancestor,
      Option.all_some, Bool.and_self]

theorem Served.flush_successor (served : Served env s) (admitted : Admitted s workflowId taskId agent t)
    (number : fitsInteger (s.maxSequence t.id + 1) = true)
    (depth : fitsInteger ((t.lineageDepth + 1 : Nat) : Int) = true) (short : hex.length ≤ 8)
    (fresh : s.tasks.find? (newTaskId hex) = none) {key : Option String} (unused : Unused s key)
    (fits : ∀ k, key = some k → k.length ≤ 256) (input metadata : Dict) (priority : TaskPriority)
    (status : TaskStatus) (at' : Time) {e : TaskEvent} (own : e.taskId = t.id)
    (numbered : e.sequence = s.maxSequence t.id + 1) (caller : String) (origin : Dict) (now : Time) :
    let next := successor t workflowId hex input priority now key metadata
    ∃ s', Store.flush (succession t next status at' e (createdEvent next.id caller origin now)) s =
      .ok s' := by
  have inserted := served.insert_successor admitted.loaded admitted.inside depth short fresh unused fits
    input metadata priority now
  refine Store.flush_succession served.reachable.logged admitted.loaded inserted own ?_ ?_ rfl rfl
  · rw [numbered]
    exact number
  · rw [numbered]
    exact Int.lt_succ _

theorem replayOf_unused {key : Option String} (unused : Unused s key) (input : Dict) :
    (replayOf env key input).run Store.flush s = (.ok none, s) := by
  have absent : key.bind s.byIdempotencyKey? = none := by
    cases key with
    | none => rfl
    | some k => exact unused k rfl
  rw [replayOf_any, absent]

theorem replayOf_replays {key : Option String} {input : Dict} {u : Task}
    (replays : Replays env s key input u) :
    (replayOf env key input).run Store.flush s = (.ok (some u), s) := by
  obtain ⟨k, rfl, stored, same⟩ := replays
  rw [replayOf_run stored, if_pos same]

theorem Served.retaskTask_answered (served : Served env s) {req : RetaskRequest}
    (admitted : Admitted s req.workflowId req.taskId req.callerAgentId t)
    (reviewable : t.status = .completed ∨ t.status = .failed)
    (depth : t.lineageDepth < env.settings.fleetLineageMaxDepth) (room : Room s t .retask)
    (arguments : Continuation env s hex req.priority req.idempotencyKey (mergedInput t req.refinement)) :
    Answered ((Op.retaskTask clk hex req).exec env s).1 = true := by
  rcases arguments.key with ⟨unused, fits⟩ | ⟨u, replays⟩
  · obtain ⟨priority, resolved⟩ := arguments.priority.resolves t.priority
    have moved := @Task.transitionTo_ended t .retasked clk.nowUtc
      (by rcases reviewable with status | status <;> rw [status] <;> decide) rfl
    let next := successor t req.workflowId hex (mergedInput t req.refinement) priority clk.now
      req.idempotencyKey [("refinement", .obj req.refinement.toDict)]
    let event : TaskEvent := {
      taskId := t.id
      eventType := "status"
      data := some [
        ("from_status", .str t.status.value),
        ("to_status", .str "retasked"),
        ("retask_id", .str next.id),
        ("retasked_by", .str req.callerAgentId),
        ("refinement_message", .str req.refinement.message)]
      sequence := s.maxSequence t.id + 1
      createdAt := clk.now }
    obtain ⟨s', committed⟩ := served.flush_successor admitted room.number (room.depth (.inr rfl))
      arguments.short arguments.fresh unused fits (mergedInput t req.refinement)
      [("refinement", .obj req.refinement.toDict)] priority .retasked clk.nowUtc (e := event) rfl rfl
      t.principalAgentId [("retask_of", .str t.id)] clk.now
    simp only [succession, next, event] at committed
    simp [Op.exec, Op.program, retaskTask, Prog.run_bind, admitted.authorized_run, Db.ensure, Prog.run,
      Prog.pure_eq, reviewable, depth, replayOf_unused unused, moved, Db.ofExcept, resolved, Db.query,
      Db.commit, Db.refresh, committed, Answered, Except.isOk, Except.toBool]
  · simp [Op.exec, Op.program, retaskTask, Prog.run_bind, admitted.authorized_run, Db.ensure, Prog.run,
      Prog.pure_eq, reviewable, depth, replayOf_replays replays, Answered, Except.isOk, Except.toBool]

theorem Served.redirectTask_answered (served : Served env s) {req : RedirectRequest}
    (admitted : Admitted s req.workflowId req.taskId req.callerAgentId t)
    (redirectable : t.status = .running ∨ t.status = .paused)
    (depth : t.lineageDepth < env.settings.fleetLineageMaxDepth) (room : Room s t .redirect)
    (arguments : Continuation env s hex req.priority req.idempotencyKey req.newInput) :
    Answered ((Op.redirectTask clk hex req).exec env s).1 = true := by
  rcases arguments.key with ⟨unused, fits⟩ | ⟨u, replays⟩
  · obtain ⟨priority, resolved⟩ := arguments.priority.resolves t.priority
    have moved := @Task.transitionTo_ended t .redirected clk.nowUtc
      (by rcases redirectable with status | status <;> rw [status] <;> decide) rfl
    let next := successor t req.workflowId hex req.newInput priority clk.now req.idempotencyKey
      (redirectMetadata t req.reason req.inheritProgress)
    let event : TaskEvent := {
      taskId := t.id
      eventType := "status"
      data := some [
        ("from_status", .str t.status.value),
        ("to_status", .str "redirected"),
        ("reason", .str req.reason),
        ("redirect_id", .str next.id),
        ("redirected_by", .str req.callerAgentId)]
      sequence := s.maxSequence t.id + 1
      createdAt := clk.now }
    obtain ⟨s', committed⟩ := served.flush_successor admitted room.number (room.depth (.inl rfl))
      arguments.short arguments.fresh unused fits req.newInput
      (redirectMetadata t req.reason req.inheritProgress) priority .redirected clk.nowUtc (e := event)
      rfl rfl t.principalAgentId [("redirect_of", .str t.id)] clk.now
    simp only [succession, next, event] at committed
    simp [Op.exec, Op.program, redirectTask, Prog.run_bind, admitted.authorized_run, Db.ensure, Prog.run,
      Prog.pure_eq, redirectable, depth, replayOf_unused unused, moved, Db.ofExcept, resolved, Db.query,
      Db.commit, Db.refresh, committed, Answered, Except.isOk, Except.toBool]
  · simp [Op.exec, Op.program, redirectTask, Prog.run_bind, admitted.authorized_run, Db.ensure, Prog.run,
      Prog.pure_eq, redirectable, depth, replayOf_replays replays, Answered, Except.isOk, Except.toBool]

theorem Performs.available {a : LinkAction} {op : Op} (performs : Performs t a op) (served : Served env s)
    (stored : s.tasks.find? t.id = some t) (room : Room s t a) (valid : op.Valid env s t)
    (offered : Offered t a) (permitted : op.Permitted env t) : Answered (op.exec env s).1 = true := by
  rw [offered_iff] at offered
  have known : (s.workflows.find? t.workflowId).isSome = true := by
    have refers := (served.anchored t (Table.find?_eq_some.mp stored).1).1
    simp only [Store.references, Bool.and_eq_true] at refers
    exact refers.1.1.1.1
  obtain ⟨workflow, known⟩ := Option.isSome_iff_exists.mp known
  have admitted : Admitted s t.workflowId t.id t.principalAgentId t :=
    ⟨stored, rfl, workflow, known, .inl rfl⟩
  cases performs with
  | cancel clk reason => exact cancelTask_answered reason admitted offered room.number
  | pause clk reason => exact pauseTask_answered reason admitted offered room.number
  | resume clk priority => exact resumeTask_answered admitted offered permitted valid room.number
  | context clk hex req inside own caller =>
      rw [← inside, ← own, ← caller] at admitted
      obtain ⟨s', committed⟩ := @Store.flush_event s t
        (injectionEvent clk hex req t.id (s.maxSequence t.id)) stored room.number (Int.lt_succ _)
      refine (injectContext_answered admitted offered).mpr ⟨own ▸ valid, ?_⟩
      rw [committed]
      rfl
  | redirect clk hex req inside own caller =>
      rw [← inside, ← own, ← caller] at admitted
      exact served.redirectTask_answered admitted offered permitted room valid
  | retask clk hex req inside own caller =>
      rw [← inside, ← own, ← caller] at admitted
      exact served.retaskTask_answered admitted offered permitted room valid

end availability

namespace Demo

end Demo

end Fleet.Api
