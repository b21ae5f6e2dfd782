/- A raise rolls the request back, except for the expiry of a pause. -/
import Fleet.Api.Effects

namespace Fleet.Api
open Fleet.Lib

/-- The store after the pause of one task expired: that task is cancelled, one
event says why, and nothing else changed. -/
structure PauseExpiry (clk : Clock) (taskId : String) (s s' : Store) : Prop where
  paused : ∃ task, s.tasks.find? taskId = some task ∧ task.status = .paused
  agents : s'.agents = s.agents
  workflows : s'.workflows = s.workflows
  tasks : s'.tasks.rows = s.tasks.rows.map (fun t =>
    if t.id = taskId then { t with status := .cancelled, completedAt := some clk.nowUtc } else t)
  event : ∃ e, s'.events.rows = s.events.rows ++ [e] ∧ e.taskId = taskId ∧
    e.eventType = "status" ∧ e.dataD.get "to_status" = .str "cancelled" ∧
    e.dataD.get "reason" = .str "PAUSE_TIMEOUT"

theorem PauseExpiry.of_flush {clk : Clock} {task : Task} {elapsed last : Int} {s s' : Store}
    (stored : s.tasks.find? task.id = some task) (paused : task.status = .paused)
    (committed : Store.flush {
      dirty := some (task, { task with status := .cancelled, completedAt := some clk.nowUtc })
      newEvents := [expiryEvent clk task elapsed last] } s = .ok s') :
    PauseExpiry clk task.id s s' := by
  obtain ⟨mid, inserted, agents, workflows, tasks, events⟩ := Store.flush_ok committed
  cases inserted
  refine ⟨⟨task, stored, paused⟩, agents, workflows, ?_, _, events, rfl, rfl, rfl, rfl⟩
  have origin : Task.SameOrigin task
      { task with status := .cancelled, completedAt := some clk.nowUtc } := rfl
  simp only at tasks
  rw [tasks, Store.updateTask_rows stored origin]
  apply List.map_congr_left
  intro t member
  split
  · rename_i same
    rw [Table.eq_of_key member (Table.find?_eq_some.mp stored).1 same]
  · rfl

/-- What a raise leaves of the store `s` the request found. -/
def RolledBack (op : Op) (s : Store) (r : Except Failure Answer) (s' : Store) : Prop :=
  ∀ e, r = .error e →
    if e.isPauseTimeout then
      ∃ clk workflowId taskId agent priority,
        op = .resumeTask clk workflowId taskId agent priority ∧ PauseExpiry clk taskId s s'
    else s' = s

theorem rolledBack_wp (env : Env) (op : Op) (s : Store) :
    (op.program env).wp Store.flush Eq (Change env Eq op.quiet) (RolledBack op s) s := by
  refine op.program_wp (fun _ => rfl) (fun _ _ _ => Eq.trans) ?_ ?_ ?_
  · rintro e ordinary s' rfl _ ⟨⟩
    rw [ordinary]
    rfl
  · intro a s' _ given
    cases given
  · rintro clk workflowId taskId agent priority rfl task elapsed last _ _ _ _ own rfl stored paused
      _ _ rfl committed rfl _ ⟨⟩
    rw [if_pos (isPauseTimeout_pauseTimeout env task elapsed)]
    exact ⟨clk, workflowId, taskId, agent, priority, rfl,
      own ▸ PauseExpiry.of_flush stored paused committed⟩

/-- An operation that raises leaves every task and event as it was, but for the
resume that finds its pause expired. -/
theorem raise_rolls_back (env : Env) (op : Op) (s : Store) (e : Failure)
    (raised : (op.exec env s).1 = .error e) :
    if e.isPauseTimeout then
      ∃ clk workflowId taskId agent priority,
        op = .resumeTask clk workflowId taskId agent priority ∧
          PauseExpiry clk taskId s (op.exec env s).2
    else (op.exec env s).2 = s :=
  Prog.wp_run (rolledBack_wp env op s) e raised

/-- Two hours into a pause of at most one. -/
theorem raise_rolls_back_late_resume :
    PauseExpiry (Demo.at' 7202) "task-a" (runSteps Demo.env Demo.paused Demo.store)
      ((Op.resumeTask (Demo.at' 7202) "wf" "task-a" "principal" none).exec Demo.env
        (runSteps Demo.env Demo.paused Demo.store)).2 := by
  let op := Op.resumeTask (Demo.at' 7202) "wf" "task-a" "principal" none
  let s := runSteps Demo.env Demo.paused Demo.store
  have timeout : (match (op.exec Demo.env s).1 with
      | .error e => e.isPauseTimeout
      | .ok _ => false) = true := by decide +kernel
  cases raised : (op.exec Demo.env s).1 with
  | ok answer => rw [raised] at timeout; cases timeout
  | error e =>
      rw [raised] at timeout
      have expired := raise_rolls_back Demo.env op s e raised
      rw [if_pos timeout] at expired
      obtain ⟨clk, _, taskId, _, _, same, change⟩ := expired
      injection same with clock _ task
      rw [← clock, ← task] at change
      exact change

end Fleet.Api
