/- The time to live of a pause, measured from the move into PAUSED. -/
import Fleet.Api.ContextSignals
import Fleet.Api.EventLog
import Fleet.Api.Rows

namespace Fleet.Api
open Fleet.Lib

/-! ## Moves into PAUSED -/

/-- A move into PAUSED: when it was made, and whether a principal made it. -/
structure Pause where
  at' : Time
  byPrincipal : Bool

def Step.pauses (env : Env) (id : String) (s : Store) : Step → List Pause
  | .op o =>
      if s.status? id ≠ some .paused ∧ (o.exec env s).2.status? id = some .paused then
        [⟨o.clock.now, o.byPrincipal⟩]
      else []
  | .catalog _ _ => []

/-- The moves of a task into PAUSED in a run, oldest first. -/
def pauses (env : Env) (id : String) : List Step → Store → List Pause := collect env (Step.pauses env id)

/-- A paused task was last paused by some move, and `paused_at` holds its time if a
principal made it. -/
def PauseKept (t : Task) (moves : List Pause) : Prop :=
  t.status = .paused → ∃ p, moves.getLast? = some p ∧ (p.byPrincipal = true → t.pausedAt = some p.at')

theorem PauseKept.step {env : Env} {s : Store} {id : String} {moves : List Pause} (a : Step)
    (h : ∀ t, s.tasks.find? id = some t → PauseKept t moves) {t' : Task}
    (now : (a.exec env s).tasks.find? id = some t') :
    PauseKept t' (moves ++ a.pauses env id s) := by
  intro paused
  have status' : (a.exec env s).status? id = some .paused := by
    rw [Store.status?, now, Option.map_some, paused]
  -- a task that was paused before made no move
  have still : ∀ t, s.tasks.find? id = some t → t.status = .paused → t'.pausedAt = t.pausedAt →
      ∃ p, (moves ++ a.pauses env id s).getLast? = some p ∧
        (p.byPrincipal = true → t'.pausedAt = some p.at') := by
    intro t stored before same
    have silent : a.pauses env id s = [] := by
      cases a with
      | catalog agents workflows => rfl
      | op o =>
          have status : s.status? id = some .paused := by
            rw [Store.status?, stored, Option.map_some, before]
          simp [Step.pauses, status]
    rw [silent, List.append_nil, same]
    exact h t stored before
  rcases a.exec_row env s id with same | ⟨op, rfl, ⟨t, u, stored, found, step⟩ | ⟨u, absent, found, born, _⟩⟩
  · rw [now] at same
    exact still t' same.symm paused rfl
  · rw [now] at found
    cases found
    -- a move made now is the last one
    have fresh : t.status ≠ .paused → (moves ++ (Step.op op).pauses env id s).getLast? =
        some ⟨op.clock.now, op.byPrincipal⟩ := by
      intro before
      have status : s.status? id ≠ some .paused := by
        rw [Store.status?, stored, Option.map_some]
        simpa using before
      have single : (Step.op op).pauses env id s = [⟨op.clock.now, op.byPrincipal⟩] :=
        if_pos ⟨status, status'⟩
      rw [single, List.getLast?_concat]
    cases step with
    | cancelled | retasked | redirected | resumed | expired => cases paused
    | paused running =>
        exact ⟨_, fresh (by rw [running]; decide), fun _ => rfl⟩
    | applied own known applied =>
        have assigned := applyEvent_assigns applied
        by_cases before : t.status = .paused
        · exact still t stored before assigned.pausedAt
        · refine ⟨_, fresh before, fun principal => ?_⟩
          cases principal
  · rw [now] at found
    cases found
    cases born.accepted.symm.trans paused

theorem pauseKept_run (env : Env) {s : Store} (blank : s.Blank) (id : String) (steps : List Step)
    {t : Task} (stored : (runSteps env steps s).tasks.find? id = some t) :
    PauseKept t (pauses env id steps s) := by
  induction steps using List.reverseRecOn generalizing t with
  | nil =>
      rw [show runSteps env [] s = s from rfl, blank.find?_none] at stored
      cases stored
  | append_singleton steps a ih =>
      rw [runSteps_append] at stored
      have step := PauseKept.step a (fun t stored => ih stored) stored
      have moves : pauses env id (steps ++ [a]) s =
          pauses env id steps s ++ a.pauses env id (runSteps env steps s) := by
        simp [pauses, collect_append, collect]
      rw [moves]
      exact step

/-! ## Resuming a stored task -/

/-- The event names how long the pause lasted. -/
def TaskEvent.Reports (e : TaskEvent) (duration : Int) : Prop :=
  e.dataD.get? "paused_duration_seconds" = some (.num duration)

section resume
variable {env : Env} {s : Store} {clk : Clock} {workflowId taskId agent : String}
  {requested : Option String} {t : Task}

theorem resumeTask_live {priority : TaskPriority} (admitted : Admitted s workflowId taskId agent t)
    (paused : t.status = .paused) (live : pauseExpired env t clk.now = false)
    (valid : resolvePriority requested t.priority = .ok priority)
    (fits : fitsInteger (s.maxSequence taskId + 1) = true) :
    ∃ e s', (Op.resumeTask clk workflowId taskId agent requested).exec env s =
        (.ok (.signalled (t.resumed priority) e), s') ∧
      s'.tasks.find? taskId = some (t.resumed priority) ∧
      e.Reports (seconds ((pausedFor t clk.now).getD 0)) := by
  have own := admitted.own
  have moved := (@Task.transitionTo_ok t _ clk.nowUtc .running).mpr ⟨by rw [paused]; decide, rfl⟩
  have final : isTerminal .running = false := rfl
  let event : TaskEvent := {
    taskId := t.id
    eventType := "resume_requested"
    data := some [
      ("from_status", .str TaskStatus.paused.value),
      ("to_status", .str "running"),
      ("resumed_by", .str agent),
      ("paused_duration_seconds", .num (seconds ((pausedFor t clk.now).getD 0))),
      ("priority", .str priority.value)]
    sequence := s.maxSequence t.id + 1
    createdAt := clk.dbNow }
  have above : s.maxSequence t.id < event.sequence := by
    show s.maxSequence t.id < s.maxSequence t.id + 1
    omega
  obtain ⟨s', committed, now⟩ := @Store.flush_dirty s t (t.resumed priority) event
    admitted.loaded (t.resumed_origin priority) rfl (by subst own; exact fits) above
  refine ⟨event, s', ?_, own ▸ now, rfl⟩
  simp only [Task.resumed, event] at committed now
  simp [Op.exec, Op.program, resumeTask, Prog.run_bind, admitted.authorized_run, Db.ensure, Prog.run,
    Prog.pure_eq, paused, live, moved, Db.ofExcept, valid, Db.query, Db.commit, Db.refresh, final,
    committed, now, Task.resumed, event]

theorem resumeTask_expired (requested : Option String)
    (admitted : Admitted s workflowId taskId agent t)
    (paused : t.status = .paused) (late : pauseExpired env t clk.now = true)
    (fits : fitsInteger (s.maxSequence taskId + 1) = true) :
    ∃ e s', (Op.resumeTask clk workflowId taskId agent requested).exec env s =
        (.error (.api (pauseTimeout env t ((pausedFor t clk.now).getD 0))), s') ∧
      s'.tasks.find? taskId = some (t.ended .cancelled clk.nowUtc) ∧
      e ∈ s'.events ∧ e.Reports (seconds ((pausedFor t clk.now).getD 0)) := by
  have own := admitted.own
  have moved := @Task.transitionTo_ended t .cancelled clk.nowUtc (by rw [paused]; decide) rfl
  let event := expiryEvent clk t ((pausedFor t clk.now).getD 0) (s.maxSequence t.id)
  have above : s.maxSequence t.id < event.sequence := by
    show s.maxSequence t.id < s.maxSequence t.id + 1
    omega
  obtain ⟨s', committed, now⟩ := @Store.flush_dirty s t (t.ended .cancelled clk.nowUtc) event
    admitted.loaded (t.ended_origin _ _) rfl (by subst own; exact fits) above
  refine ⟨event, s', ?_, own ▸ now, ?_, rfl⟩
  · simp [Op.exec, Op.program, resumeTask, Prog.run_bind, admitted.authorized_run, Db.ensure, Prog.run,
      Prog.pure_eq, paused, late, moved, expirePause, Db.query, Db.commit, Db.refresh, Db.raise,
      Prog.raise, committed, event]
  · obtain ⟨_, _, _, _, _, events⟩ := Store.flush_ok committed
    rw [← Table.mem_rows, events]
    exact List.mem_append_right _ (List.mem_singleton_self _)

end resume

/-- In every run a paused task has a last move into PAUSED. Where `pause_task` made it,
a resume succeeds up to the TTL after that move and cancels the task later, and both
report the time since it. -/
theorem pause_ttl (env : Env) {s₀ : Store} (blank : s₀.Blank) (steps : List Step) (clk : Clock)
    (workflowId taskId agent : String) (requested : Option String) (t : Task) (priority : TaskPriority)
    (admitted : Admitted (runSteps env steps s₀) workflowId taskId agent t)
    (paused : t.status = .paused) (valid : resolvePriority requested t.priority = .ok priority)
    (room : (runSteps env steps s₀).maxSequence taskId < 2147483647) :
    ∃ p, (pauses env taskId steps s₀).getLast? = some p ∧ (p.byPrincipal = true →
      (clk.now - p.at' ≤ env.settings.fleetPauseTtlSeconds * 1000000 → ∃ e s',
        (Op.resumeTask clk workflowId taskId agent requested).exec env (runSteps env steps s₀) =
            (.ok (.signalled (t.resumed priority) e), s') ∧
          s'.tasks.find? taskId = some (t.resumed priority) ∧
          e.Reports (seconds (clk.now - p.at'))) ∧
      (env.settings.fleetPauseTtlSeconds * 1000000 < clk.now - p.at' → ∃ e s',
        (Op.resumeTask clk workflowId taskId agent requested).exec env (runSteps env steps s₀) =
            (.error (.api (pauseTimeout env t (clk.now - p.at'))), s') ∧
          s'.tasks.find? taskId = some (t.ended .cancelled clk.nowUtc) ∧
          e ∈ s'.events ∧ e.Reports (seconds (clk.now - p.at')))) := by
  obtain ⟨p, last, recorded⟩ := pauseKept_run env blank taskId steps admitted.stored paused
  refine ⟨p, last, fun principal => ?_⟩
  have elapsed : pausedFor t clk.now = some (clk.now - p.at') := by
    rw [pausedFor, recorded principal]
    rfl
  have fits := ((Reachable.start blank).runSteps steps : Reachable env _).logged.next_fits
    admitted.stored room
  refine ⟨fun within => ?_, fun beyond => ?_⟩
  · have live : pauseExpired env t clk.now = false := by
      simpa [pauseExpired, elapsed] using within
    have resumed := resumeTask_live admitted paused live valid fits
    rw [elapsed] at resumed
    exact resumed
  · have late : pauseExpired env t clk.now = true := by
      simpa [pauseExpired, elapsed] using beyond
    have expired := resumeTask_expired requested admitted paused late fits
    rw [elapsed] at expired
    exact expired

theorem pause_ttl_within :
    ∃ p, (pauses Demo.env "task-a" Demo.paused Demo.store).getLast? = some p ∧ p.at' = 2000000 ∧
      ∃ t e s', (Op.resumeTask (Demo.at' 3602) "wf" "task-a" "principal" none).exec Demo.env
          (runSteps Demo.env Demo.paused Demo.store) = (.ok (.signalled t e), s') ∧ e.Reports 3600 := by
  obtain ⟨t, member, id, inside, principal, paused⟩ :
      ∃ t ∈ (runSteps Demo.env Demo.paused Demo.store).tasks.rows, t.id = "task-a" ∧
        t.workflowId = "wf" ∧ t.principalAgentId = "principal" ∧ t.status = .paused := by
    decide +kernel
  have admitted : Admitted (runSteps Demo.env Demo.paused Demo.store) "wf" "task-a" "principal" t :=
    ⟨Table.find?_eq_some.mpr ⟨member, id⟩, inside, Demo.workflow, by rfl, .inl principal.symm⟩
  obtain ⟨p, last, law⟩ := pause_ttl Demo.env Demo.store_blank Demo.paused (Demo.at' 3602) "wf" "task-a"
    "principal" none t t.priority admitted paused rfl (by decide +kernel)
  have known : (pauses Demo.env "task-a" Demo.paused Demo.store).getLast? = some ⟨2000000, true⟩ := by rfl
  rw [known] at last
  cases last
  obtain ⟨e, s', done, _, reports⟩ := (law rfl).1 (by decide)
  exact ⟨_, known, rfl, _, e, s', done, reports⟩

namespace Demo

/-- The executor reports a pause of its own; the principal resumes long after the TTL. -/
def executorPaused : List Step :=
  running ++ [.op (post 10 "task-a" "status" [("status", .str "paused")] 3)]

/-- The executor ends a pause and starts another, one second before the resume. -/
def executorPausedAgain : List Step := paused ++ [
  .op (post 3 "task-a" "status" [("status", .str "running")] 4),
  .op (post 4999 "task-a" "status" [("status", .str "paused")] 5)]

end Demo

/-- After 9990 seconds of a pause the executor reported, with a TTL of 3600, the resume
succeeds; after one second of another it finds the pause expired. -/
theorem executor_pause_breaks_ttl :
    ((pauses Demo.env "task-a" Demo.executorPaused Demo.store).map Pause.at' = [10000000] ∧
      ((Op.resumeTask (Demo.at' 10000) "wf" "task-a" "principal" none).exec Demo.env
        (runSteps Demo.env Demo.executorPaused Demo.store)).2.status? "task-a" = some .running) ∧
    ((pauses Demo.env "task-a" Demo.executorPausedAgain Demo.store).map Pause.at' =
        [2000000, 4999000000] ∧
      refusal? ((Op.resumeTask (Demo.at' 5000) "wf" "task-a" "principal" none).exec Demo.env
        (runSteps Demo.env Demo.executorPausedAgain Demo.store)).1 = some .pauseTimeout) := by
  decide +kernel

end Fleet.Api
