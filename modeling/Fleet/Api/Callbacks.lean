/- Callbacks against the endings of a task. -/
import Fleet.Api.ContextSignals
import Fleet.Api.Rows

namespace Fleet.Api
open Fleet.Lib

/-! ## What a run schedules, and what it ends -/

/-- The step moves the task into a terminal status: the status it enters. -/
def Step.endings (env : Env) (id : String) (s : Store) (a : Step) : List TaskStatus :=
  ((a.exec env s).status? id).toList.filter fun status =>
    isTerminal status && s.status? id ≠ some status

/-- `deliver_callback` is scheduled for the task in the step, with the status the task
has then. -/
def Step.callbacks (env : Env) (id : String) (s : Store) : Step → List TaskStatus
  | .op (.processSidecarEvent clk req) =>
      match ((Op.processSidecarEvent clk req).exec env s).1 with
      | .ok (.recorded _ task true) => if req.taskId = id then [task.status] else []
      | _ => []
  | _ => []

/-- The endings of a task in a run, in order. -/
def endings (env : Env) (id : String) : List Step → Store → List TaskStatus :=
  collect env (Step.endings env id)

/-- The callbacks scheduled for a task in a run, in order. -/
def callbacks (env : Env) (id : String) : List Step → Store → List TaskStatus :=
  collect env (Step.callbacks env id)

/-! ## Where scheduling and ending part -/

/-- A request that passes the guards of an operation which ends the task and schedules
nothing, or an event that passes the guards and ends nothing of a task that has ended. -/
inductive Misses (env : Env) (s : Store) (t : Task) : Op → Prop
  | cancel (clk : Clock) (workflowId agent : String) (reason : Option String)
      (admitted : Admitted s workflowId t.id agent t) (valid : .cancelled ∈ validTransitions t.status) :
      Misses env s t (.cancelTask clk workflowId t.id agent reason)
  | retask (clk : Clock) (hex : String) (req : RetaskRequest) (own : t.id = req.taskId)
      (admitted : Admitted s req.workflowId req.taskId req.callerAgentId t)
      (reviewable : t.status = .completed ∨ t.status = .failed)
      (room : t.lineageDepth < env.settings.fleetLineageMaxDepth) (unused : Unused s req.idempotencyKey)
      (priority : TaskPriority) (resolved : resolvePriority req.priority t.priority = .ok priority) :
      Misses env s t (.retaskTask clk hex req)
  | redirect (clk : Clock) (hex : String) (req : RedirectRequest) (own : t.id = req.taskId)
      (admitted : Admitted s req.workflowId req.taskId req.callerAgentId t)
      (redirectable : t.status = .running ∨ t.status = .paused)
      (room : t.lineageDepth < env.settings.fleetLineageMaxDepth) (unused : Unused s req.idempotencyKey)
      (priority : TaskPriority) (resolved : resolvePriority req.priority t.priority = .ok priority) :
      Misses env s t (.redirectTask clk hex req)
  | expire (clk : Clock) (workflowId agent : String) (requested : Option String)
      (admitted : Admitted s workflowId t.id agent t) (paused : t.status = .paused)
      (late : pauseExpired env t clk.now = true) :
      Misses env s t (.resumeTask clk workflowId t.id agent requested)
  | afterwards (clk : Clock) (req : EventRequest) (own : t.id = req.taskId)
      (known : req.eventType ∈ validEventTypes) (terminal : isTerminal t.status = true)
      (executor : t.executorAgentId = some req.executorAgentId)
      (later : s.maxSequence req.taskId < req.sequence)
      (still : ∃ t', applyEvent clk req.eventType req.data t = .ok t' ∧ t'.status = t.status) :
      Misses env s t (.processSidecarEvent clk req)

section step
variable {env : Env} {s s' : Store} {op : Op} {r : Except Failure Answer} {id : String} {t t' : Task}

/-- A principal's request that ends a task is one of those that miss it. -/
theorem Outcome.ending_misses (h : Outcome env s op r s') (principal : op.byPrincipal = true)
    (stored : s.tasks.find? id = some t) (now : s'.tasks.find? id = some t')
    (moved : t'.status ≠ t.status) (terminal : isTerminal t'.status = true) : Misses env s t op := by
  have unchanged : s' ≠ s := by
    intro same
    rw [same, stored] at now
    cases now
    exact moved rfl
  rcases h.row id with same | ⟨u, u', before, after, step⟩ | ⟨u, absent, _⟩
  · rw [now, stored] at same
    cases same
    exact absurd rfl moved
  · cases before.symm.trans stored
    cases after.symm.trans now
    -- the row the operation loaded is this row
    have loaded : ∀ {workflowId agent task}, Admitted s workflowId t.id agent task → task = t := by
      intro workflowId agent task admitted
      have own := (Table.find?_eq_some.mp stored).2
      exact Option.some.inj (admitted.stored.symm.trans (own ▸ stored))
    cases step with
    | paused | resumed => cases terminal
    | applied => cases principal
    | cancelled valid =>
        cases h with
        | refused => exact absurd rfl unchanged
        | cancelled clk workflowId taskId agent reason task e s' admitted =>
            cases loaded admitted
            exact .cancel _ _ _ _ admitted valid
    | expired paused late =>
        cases h with
        | refused => exact absurd rfl unchanged
        | resumed clk workflowId taskId agent requested task priority e s' admitted _ live =>
            cases loaded admitted
            cases late.symm.trans live
        | expired clk workflowId taskId agent requested task elapsed e s' admitted =>
            cases loaded admitted
            exact .expire _ _ _ _ admitted paused late
    | retasked own reviewable =>
        cases h with
        | refused | retaskReplayed => exact absurd rfl unchanged
        | retasked clk hex req task priority e created s' admitted _ room unused resolved =>
            cases loaded (own ▸ admitted)
            exact .retask _ _ _ own admitted reviewable room unused priority resolved
    | redirected own redirectable =>
        cases h with
        | refused | redirectReplayed => exact absurd rfl unchanged
        | redirected clk hex req task priority e created s' admitted _ room unused resolved =>
            cases loaded (own ▸ admitted)
            exact .redirect _ _ _ own admitted redirectable room unused priority resolved
  · rw [stored] at absent
    cases absent

theorem Step.endings_row {a : Step} (stored : s.tasks.find? id = some t)
    (now : (a.exec env s).tasks.find? id = some t') :
    a.endings env id s = if isTerminal t'.status = true ∧ t'.status ≠ t.status then [t'.status] else [] := by
  have before : s.status? id = some t.status := by rw [Store.status?, stored]; rfl
  have after : (a.exec env s).status? id = some t'.status := by rw [Store.status?, now]; rfl
  rw [Step.endings, before, after, Option.toList_some]
  by_cases ends : isTerminal t'.status = true ∧ t'.status ≠ t.status
  · rw [if_pos ends, List.filter_singleton]
    simp [ends.1, Ne.symm ends.2]
  · rw [if_neg ends, List.filter_eq_nil_iff]
    intro status member both
    rw [List.mem_singleton] at member
    subst member
    simp only [Bool.and_eq_true, decide_eq_true_eq, ne_eq, Option.some.injEq] at both
    exact ends ⟨both.1, fun same => both.2 same.symm⟩

/-- A step that misses nothing schedules one callback for an ending of the task and none
otherwise. -/
theorem Step.callbacks_match (a : Step) (stored : s.tasks.find? id = some t)
    (watched : t.callbackUrl.isSome = true) (meets : ∀ op, a = .op op → ¬ Misses env s t op) :
    a.callbacks env id s = a.endings env id s := by
  obtain ⟨t', now, origin⟩ := a.exec_keeps env stored
  rw [Step.endings_row stored now]
  cases a with
  | catalog agents workflows =>
      cases stored.symm.trans now
      simp [Step.callbacks]
  | op o =>
      by_cases principal : o.byPrincipal = true
      · have silent : (Step.op o).callbacks env id s = [] := by
          cases o with
          | processSidecarEvent clk req => cases principal
          | createTask | retaskTask | redirectTask | cancelTask | pauseTask | resumeTask
          | injectContext => rfl
        rw [silent, if_neg]
        intro ends
        exact meets o rfl
          ((o.exec_outcome env s).ending_misses principal stored now ends.2 ends.1)
      · cases o with
        | processSidecarEvent clk req =>
            have outcome := (Op.processSidecarEvent clk req).exec_outcome env s
            generalize done : (Op.processSidecarEvent clk req).exec env s = result at outcome
            obtain ⟨answer, s'⟩ := result
            have now' : s'.tasks.find? id = some t' := by
              rw [Step.exec, done] at now
              exact now
            cases outcome with
            | refused _ e ordinary =>
                cases stored.symm.trans now'
                simp [Step.callbacks, done]
            | recorded _ _ task task' _ known found executor later applied committed =>
                have own := (Table.find?_eq_some.mp found).2
                have row := find?_dirty (own ▸ found) (applyEvent_origin known applied) committed id
                by_cases mine : task.id = id
                · rw [if_pos mine, now'] at row
                  cases row
                  rw [← own, mine, stored] at found
                  cases found
                  have url := (applyEvent_origin known applied).callbackUrl
                  have flag : t'.callbackUrl.isSome = true := by rw [url, watched]
                  have ended : isTerminal t'.status = true → t'.status ≠ t.status := by
                    intro terminal same
                    refine meets _ rfl (.afterwards clk req own known ?_ executor later ⟨t', applied, same⟩)
                    rw [← same, terminal]
                  simp only [Step.callbacks, done, flag, Bool.and_true]
                  cases terminal : isTerminal t'.status with
                  | false => simp
                  | true => simp [← own, mine, ended terminal]
                · rw [if_neg mine, now', stored] at row
                  cases row
                  have other : req.taskId ≠ id := own ▸ mine
                  simp only [Step.callbacks, done, other, if_false, ne_eq, not_true_eq_false, and_false]
                  split <;> rfl
        | createTask | retaskTask | redirectTask | cancelTask | pauseTask | resumeTask
        | injectContext => exact absurd rfl principal

theorem Step.callbacks_absent (env : Env) (a : Step) (absent : s.tasks.find? id = none) :
    a.callbacks env id s = [] ∧ a.endings env id s = [] := by
  have none : s.status? id = none := by rw [Store.status?, absent]; rfl
  constructor
  · cases a with
    | catalog agents workflows => rfl
    | op o =>
        cases o with
        | processSidecarEvent clk req =>
            have outcome := (Op.processSidecarEvent clk req).exec_outcome env s
            generalize done : (Op.processSidecarEvent clk req).exec env s = result at outcome
            obtain ⟨answer, s'⟩ := result
            cases outcome with
            | refused _ e ordinary => simp [Step.callbacks, done]
            | recorded _ _ task task' _ known found executor later applied committed =>
                have other : req.taskId ≠ id := by
                  intro same
                  rw [same, absent] at found
                  cases found
                simp only [Step.callbacks, done, other, if_false]
                split <;> rfl
        | createTask | retaskTask | redirectTask | cancelTask | pauseTask | resumeTask
        | injectContext => rfl
  · rw [Step.endings, List.filter_eq_nil_iff]
    intro status member both
    rw [Option.mem_toList] at member
    cases now : (a.exec env s).tasks.find? id with
    | none => rw [Store.status?, now] at member; cases member
    | some t =>
        rw [Store.status?, now] at member
        cases member
        rcases Step.exec_origin now with ⟨u, stored, _⟩ | ⟨op, _, _, born, _⟩
        · rw [absent] at stored
          cases stored
        · rw [born.accepted] at both
          cases both

end step

/-! ## Runs -/

/-- No step of the run misses the task. -/
def NoneMissed (env : Env) (id : String) (steps : List Step) (s : Store) : Prop :=
  ∀ before op after, steps = before ++ .op op :: after → ∀ t,
    (runSteps env before s).tasks.find? id = some t → ¬ Misses env (runSteps env before s) t op

theorem NoneMissed.nil (env : Env) (id : String) (s : Store) : NoneMissed env id [] s := by
  intro before op after split
  simp at split

theorem NoneMissed.cons {env : Env} {id : String} {op : Op} {steps : List Step} {s : Store}
    (first : ∀ t, s.tasks.find? id = some t → ¬ Misses env s t op)
    (rest : NoneMissed env id steps ((Step.op op).exec env s)) :
    NoneMissed env id (.op op :: steps) s := by
  intro before op' after split
  cases before with
  | nil =>
      cases split
      exact first
  | cons a before =>
      cases split
      exact rest before op' after rfl

/-- In every run none of whose steps misses a task with a callback, one callback is
scheduled for each ending of the task, in order, and none otherwise. -/
theorem callbacks_eq_endings (env : Env) (s₀ : Store) (steps : List Step) (id : String)
    (meets : NoneMissed env id steps s₀)
    (watched : ∀ t, (runSteps env steps s₀).tasks.find? id = some t → t.callbackUrl.isSome = true) :
    callbacks env id steps s₀ = endings env id steps s₀ := by
  induction steps using List.reverseRecOn with
  | nil => rfl
  | append_singleton steps a ih =>
      have earlier : NoneMissed env id steps s₀ := by
        intro before op after split t stored
        exact meets before op (after ++ [a]) (by simp [split]) t stored
      have kept : ∀ t, (runSteps env steps s₀).tasks.find? id = some t →
          t.callbackUrl.isSome = true := by
        intro t stored
        obtain ⟨t', now, origin⟩ := a.exec_keeps env stored
        rw [runSteps_append] at watched
        rw [← origin.callbackUrl]
        exact watched t' now
      have last : a.callbacks env id (runSteps env steps s₀) =
          a.endings env id (runSteps env steps s₀) := by
        cases stored : (runSteps env steps s₀).tasks.find? id with
        | none =>
            obtain ⟨silent, still⟩ := a.callbacks_absent env stored
            rw [silent, still]
        | some t =>
            apply a.callbacks_match stored (kept t stored)
            intro op same
            subst same
            exact meets steps op [] rfl t stored
      have first : collect env (Step.callbacks env id) steps s₀ =
          collect env (Step.endings env id) steps s₀ := ih earlier kept
      rw [callbacks, endings, collect_append, collect_append, first]
      simp only [collect, List.append_nil, last]

namespace Demo

def watch : Op := .createTask (at' 0) "a"
  { workflowId := "wf", callerAgentId := "principal", input := [], callbackUrl := some "http://caller" }

def watched : List Step := [.op watch, .op (post 1 "task-a" "status" [("status", .str "running")] 2)]

def watchedToEnd : List Step := watched ++ [.op (post 2 "task-a" "completed" [] 3)]

end Demo

theorem callbacks_eq_endings_completed :
    callbacks Demo.env "task-a" Demo.watchedToEnd Demo.store = [.completed] := by
  -- an event is missed only by a task that has ended
  have live : ∀ {s : Store} {clk : Clock} {req : EventRequest},
      (s.status? "task-a").all (fun status => !isTerminal status) = true →
      ∀ t, s.tasks.find? "task-a" = some t → ¬ Misses Demo.env s t (.processSidecarEvent clk req) := by
    intro s clk req status t stored missed
    rw [Store.status?, stored] at status
    cases missed with
    | afterwards _ _ own known terminal => simp [terminal] at status
  have meets : NoneMissed Demo.env "task-a" Demo.watchedToEnd Demo.store := by
    refine .cons (fun t _ missed => by cases missed) (.cons (live ?_) (.cons (live ?_) (.nil _ _ _)))
    · decide +kernel
    · decide +kernel
  rw [callbacks_eq_endings Demo.env Demo.store Demo.watchedToEnd "task-a" meets]
  · decide +kernel
  · have url : ∀ t ∈ (runSteps Demo.env Demo.watchedToEnd Demo.store).tasks.rows,
        t.callbackUrl.isSome = true := by decide +kernel
    intro t stored
    exact url t (Table.find?_eq_some.mp stored).1

/-- A cancelled task never calls back; a completed one calls back again for a log line. -/
theorem callbacks_missed_and_repeated :
    (endings Demo.env "task-a"
        (Demo.watched ++ [.op (.cancelTask (Demo.at' 2) "wf" "task-a" "principal" none)]) Demo.store =
          [.cancelled] ∧
      callbacks Demo.env "task-a"
        (Demo.watched ++ [.op (.cancelTask (Demo.at' 2) "wf" "task-a" "principal" none)]) Demo.store =
          []) ∧
    (endings Demo.env "task-a"
        (Demo.watchedToEnd ++ [.op (Demo.post 3 "task-a" "log" [] 4)]) Demo.store = [.completed] ∧
      callbacks Demo.env "task-a"
        (Demo.watchedToEnd ++ [.op (Demo.post 3 "task-a" "log" [] 4)]) Demo.store =
          [.completed, .completed]) := by
  decide +kernel

end Fleet.Api
