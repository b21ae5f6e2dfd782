/- The timestamps of a task, over runs in which the clock never goes back. -/
import Fleet.Api.Responses
import Fleet.Api.Rows

namespace Fleet.Api
open Fleet.Lib

/-! ## Clock readings -/

/-- The readings an operation takes, in the order of its statements. -/
def Op.readings : Op → List Time
  | .createTask clk _ _ => [clk.now]
  | .retaskTask clk _ _ | .redirectTask clk _ _ => [clk.nowUtc, clk.now]
  | .cancelTask clk _ _ _ _ => [clk.nowUtc]
  | .pauseTask clk _ _ _ _ => [clk.now]
  | .resumeTask clk _ _ _ _ => [clk.now, clk.nowUtc]
  | .injectContext clk _ _ => [clk.now]
  | .processSidecarEvent clk _ => [clk.now, clk.nowUtc]

def Step.readings : Step → List Time
  | .op o => o.readings
  | .catalog _ _ => []

/-- The clock of a run never goes back. -/
def Monotone (steps : List Step) : Prop := (steps.flatMap Step.readings).Pairwise (· ≤ ·)

theorem Monotone.split {steps : List Step} {a : Step} (h : Monotone (steps ++ [a])) :
    Monotone steps ∧ ∀ x ∈ steps.flatMap Step.readings, ∀ r ∈ a.readings, x ≤ r := by
  unfold Monotone at h
  rw [List.flatMap_append, List.flatMap_singleton, List.pairwise_append] at h
  exact ⟨h.1, h.2.2⟩

/-! ## Coherent rows -/

def Task.stamps (t : Task) : List Time := t.createdAt :: (t.startedAt.toList ++ t.completedAt.toList)

theorem Task.mem_stamps {t : Task} {x : Time} :
    x ∈ t.stamps ↔ x = t.createdAt ∨ t.startedAt = some x ∨ t.completedAt = some x := by
  simp [Task.stamps, Option.mem_toList]

/-- The statuses that follow a start. -/
def startedStatuses : List TaskStatus := [.running, .paused, .completed, .redirected]

structure Coherent (t : Task) : Prop where
  completed : t.completedAt.isSome = isTerminal t.status
  started : t.status ∈ startedStatuses → t.startedAt.isSome = true
  createdStarted : ∀ a, t.startedAt = some a → t.createdAt ≤ a
  startedCompleted : ∀ a b, t.startedAt = some a → t.completedAt = some b → a ≤ b
  createdCompleted : ∀ b, t.completedAt = some b → t.createdAt ≤ b

/-- What a step writes into a row: nothing, a pause or its end, the end of the task,
or its start, each time at one of the step's readings. -/
inductive Stamped (readings : List Time) (t t' : Task) : Prop
  | quiet (created : t'.createdAt = t.createdAt) (status : t'.status = t.status)
      (startedAt : t'.startedAt = t.startedAt) (completedAt : t'.completedAt = t.completedAt)
  | kept (created : t'.createdAt = t.createdAt) (before : t.status ∈ activeStatuses)
      (after : t'.status ∈ activeStatuses) (startedAt : t'.startedAt = t.startedAt)
      (completedAt : t'.completedAt = t.completedAt)
  | ended (created : t'.createdAt = t.createdAt) (valid : t'.status ∈ validTransitions t.status)
      (terminal : isTerminal t'.status = true) (startedAt : t'.startedAt = t.startedAt) (r : Time)
      (read : r ∈ readings) (completedAt : t'.completedAt = some r)
  | begun (created : t'.createdAt = t.createdAt) (valid : .running ∈ validTransitions t.status)
      (running : t'.status = .running) (completedAt : t'.completedAt = t.completedAt) (r : Time)
      (read : r ∈ readings)
      (startedAt : t'.startedAt = if t.startedAt = none then some r else t.startedAt)

section step
variable {readings : List Time} {t t' : Task}

theorem Stamped.stamps (h : Stamped readings t t') {x : Time} (member : x ∈ t'.stamps) :
    x ∈ t.stamps ∨ x ∈ readings := by
  rw [Task.mem_stamps] at member ⊢
  cases h with
  | quiet created _ startedAt completedAt | kept created _ _ startedAt completedAt =>
      rw [created, startedAt, completedAt] at member
      exact .inl member
  | ended created valid terminal startedAt r read completedAt =>
      rw [created, startedAt, completedAt] at member
      rcases member with same | same | same
      · exact .inl (.inl same)
      · exact .inl (.inr (.inl same))
      · exact .inr (Option.some.inj same ▸ read)
  | begun created valid running completedAt r read startedAt =>
      rw [created, startedAt, completedAt] at member
      rcases member with same | same | same
      · exact .inl (.inl same)
      · split at same
        · exact .inr (Option.some.inj same ▸ read)
        · exact .inl (.inr (.inl same))
      · exact .inl (.inr (.inr same))

theorem Stamped.start_kept (h : Stamped readings t t') {a : Time} (started : t.startedAt = some a) :
    t'.startedAt = some a := by
  cases h with
  | quiet _ _ startedAt | kept _ _ _ startedAt | ended _ _ _ startedAt => rw [startedAt, started]
  | begun _ _ _ _ r _ startedAt => rw [startedAt, started, if_neg (by simp)]

theorem Coherent.open (h : Coherent t) (live : isTerminal t.status = false) : t.completedAt = none := by
  have done := h.completed
  rw [live] at done
  exact Option.not_isSome_iff_eq_none.mp (by simp [done])

/-- The times stay, and the status asks no more of them. -/
theorem Coherent.of_times (h : Coherent t) (created : t'.createdAt = t.createdAt)
    (startedAt : t'.startedAt = t.startedAt) (completedAt : t'.completedAt = t.completedAt)
    (terminal : isTerminal t'.status = isTerminal t.status)
    (starts : t'.status ∈ startedStatuses → t.status ∈ startedStatuses) : Coherent t' := by
  refine ⟨?_, fun member => ?_, ?_, ?_, ?_⟩ <;> simp only [created, startedAt, completedAt]
  · rw [terminal]
    exact h.completed
  · exact h.started (starts member)
  · exact h.createdStarted
  · exact h.startedCompleted
  · exact h.createdCompleted

theorem active_status {status : TaskStatus} (active : status ∈ activeStatuses) :
    isTerminal status = false ∧ status ∈ startedStatuses := by
  simp only [activeStatuses, List.mem_cons, List.not_mem_nil, or_false] at active
  rcases active with rfl | rfl <;> decide

theorem started_before {a b : TaskStatus} (valid : b ∈ validTransitions a)
    (terminal : isTerminal b = true) (starts : b ∈ startedStatuses) : a ∈ startedStatuses := by
  cases a <;> cases b <;> revert valid terminal starts <;> decide

theorem Coherent.ended (h : Coherent t) (created : t'.createdAt = t.createdAt)
    (valid : t'.status ∈ validTransitions t.status) (terminal : isTerminal t'.status = true)
    (startedAt : t'.startedAt = t.startedAt) {r : Time} (completedAt : t'.completedAt = some r)
    (past : ∀ x ∈ t.stamps, x ≤ r) : Coherent t' := by
  refine ⟨?_, fun member => ?_, ?_, ?_, ?_⟩ <;> simp only [created, startedAt, completedAt]
  · rw [terminal]
    rfl
  · -- a task is completed or redirected only out of a status that follows a start
    exact h.started (started_before valid terminal member)
  · exact h.createdStarted
  · intro a b started ended
    cases ended
    exact past a (Task.mem_stamps.mpr (.inr (.inl started)))
  · intro b ended
    cases ended
    exact past _ (Task.mem_stamps.mpr (.inl rfl))

theorem Coherent.begun (h : Coherent t) (created : t'.createdAt = t.createdAt)
    (valid : .running ∈ validTransitions t.status) (running : t'.status = .running)
    (completedAt : t'.completedAt = t.completedAt) {r : Time}
    (startedAt : t'.startedAt = if t.startedAt = none then some r else t.startedAt)
    (past : ∀ x ∈ t.stamps, x ≤ r) : Coherent t' := by
  have live : isTerminal t.status = false := by
    cases before : t.status <;> rw [before] at valid <;> revert valid <;> decide
  have none := completedAt.trans (h.open live)
  refine ⟨?_, fun _ => ?_, fun a started => ?_, fun a b _ ended => ?_, fun b ended => ?_⟩
  · rw [none, running]
    rfl
  · rw [startedAt]
    split
    · rfl
    · rename_i known
      exact Option.isSome_iff_ne_none.mpr known
  · rw [created]
    rw [startedAt] at started
    split at started
    · cases started
      exact past _ (Task.mem_stamps.mpr (.inl rfl))
    · exact h.createdStarted a started
  · rw [none] at ended
    cases ended
  · rw [none] at ended
    cases ended

theorem Coherent.step (h : Coherent t) (step : Stamped readings t t')
    (past : ∀ x ∈ t.stamps, ∀ r ∈ readings, x ≤ r) : Coherent t' := by
  cases step with
  | quiet created status startedAt completedAt =>
      exact h.of_times created startedAt completedAt (by rw [status]) fun member => status ▸ member
  | kept created before after startedAt completedAt =>
      obtain ⟨live, started⟩ := active_status before
      exact h.of_times created startedAt completedAt ((active_status after).1.trans live.symm)
        fun _ => started
  | ended created valid terminal startedAt r read completedAt =>
      exact h.ended created valid terminal startedAt completedAt fun x member => past x member r read
  | begun created valid running completedAt r read startedAt =>
      exact h.begun created valid running completedAt startedAt fun x member => past x member r read

end step

/-! ## Every operation stamps coherently -/

theorem running_from {a : TaskStatus} (valid : .paused ∈ validTransitions a) : a = .running := by
  cases a <;> revert valid <;> decide

theorem Assigned.stamped {clk : Clock} {t t' : Task} (h : Assigned clk t t')
    (created : t'.createdAt = t.createdAt) : Stamped [clk.now, clk.nowUtc] t t' := by
  have completedAt := h.completedAt
  have startedAt := h.startedAt
  rcases h.status with same | valid
  · rw [if_neg fun moved => moved.1 same] at completedAt startedAt
    exact .quiet created same startedAt completedAt
  · have moved := moved_ne valid
    by_cases terminal : isTerminal t'.status = true
    · rw [if_pos ⟨moved, terminal⟩] at completedAt
      rw [if_neg fun started => by rw [started.2.1] at terminal; cases terminal] at startedAt
      exact .ended created valid terminal startedAt clk.nowUtc (by simp) completedAt
    · rw [if_neg fun ended => terminal ended.2] at completedAt
      by_cases running : t'.status = .running
      · refine .begun created (running ▸ valid) running completedAt clk.now (by simp) ?_
        simpa [moved, running, running ▸ moved] using startedAt
      · rw [if_neg fun started => running started.2.1] at startedAt
        have paused : t'.status = .paused := by
          cases now : t'.status with
          | accepted =>
              rw [now] at valid
              exact absurd valid (accepted_not_reentered _)
          | running => exact absurd now running
          | paused => rfl
          | completed | failed | cancelled | retasked | redirected =>
              rw [now] at terminal
              exact absurd rfl terminal
        have before := running_from (paused ▸ valid)
        refine .kept created ?_ ?_ startedAt completedAt
        · simp [activeStatuses, before]
        · simp [activeStatuses, paused]

theorem RowStep.stamped {env : Env} {op : Op} {t t' : Task} (h : RowStep env op t t') :
    Stamped op.readings t t' := by
  cases h with
  | @cancelled clk workflowId agent reason _ valid =>
      exact .ended rfl valid rfl rfl clk.nowUtc (List.mem_singleton_self _) rfl
  | @retasked clk hex req _ own reviewable =>
      refine .ended rfl ?_ rfl rfl clk.nowUtc (List.mem_cons_self ..) rfl
      show .retasked ∈ validTransitions t.status
      rcases reviewable with now | now <;> rw [now] <;> decide
  | @redirected clk hex req _ own redirectable =>
      refine .ended rfl ?_ rfl rfl clk.nowUtc (List.mem_cons_self ..) rfl
      show .redirected ∈ validTransitions t.status
      rcases redirectable with now | now <;> rw [now] <;> decide
  | paused running =>
      exact .kept rfl (by simp [activeStatuses, running]) (List.mem_of_elem_eq_true rfl) rfl rfl
  | resumed paused live priority =>
      exact .kept rfl (by simp [activeStatuses, paused]) (List.mem_of_elem_eq_true rfl) rfl rfl
  | @expired clk workflowId agent requested _ paused late =>
      refine .ended rfl ?_ rfl rfl clk.nowUtc (List.mem_cons_of_mem _ (List.mem_singleton_self _)) rfl
      show .cancelled ∈ validTransitions t.status
      rw [paused]
      decide
  | applied own known applied =>
      exact (applyEvent_assigns applied).stamped (applyEvent_origin known applied).createdAt

theorem Born.coherent {s : Store} {op : Op} {t : Task} (h : Born s op t) :
    Coherent t ∧ ∀ x ∈ t.stamps, x ∈ op.readings := by
  -- a new row holds its creation only
  have first : ∀ {now : Time}, t.status = .accepted → t.createdAt = now → t.startedAt = none →
      t.completedAt = none → now ∈ op.readings →
      Coherent t ∧ ∀ x ∈ t.stamps, x ∈ op.readings := by
    intro now status created started completed read
    refine ⟨⟨?_, ?_, ?_, ?_, ?_⟩, fun x member => ?_⟩
    · rw [completed, status]
      rfl
    · rw [status]
      intro follows
      simp [startedStatuses] at follows
    · intro a same
      rw [started] at same
      cases same
    · intro a b same
      rw [started] at same
      cases same
    · intro b same
      rw [completed] at same
      cases same
    · rw [Task.mem_stamps, started, completed] at member
      rcases member with same | same | same
      · rw [same, created]
        exact read
      · cases same
      · cases same
  cases h with
  | requested unused requested =>
      exact first requested.status requested.createdAt requested.startedAt requested.completedAt
        (List.mem_singleton_self _)
  | retasked | redirected =>
      exact first rfl rfl rfl rfl (List.mem_cons_of_mem _ (List.mem_singleton_self _))

/-! ## Runs -/

theorem coherent_run (env : Env) {s : Store} (blank : s.Blank) (steps : List Step)
    (clock : Monotone steps) {id : String} {t : Task}
    (stored : (runSteps env steps s).tasks.find? id = some t) :
    Coherent t ∧ ∀ x ∈ t.stamps, x ∈ steps.flatMap Step.readings := by
  induction steps using List.reverseRecOn generalizing t with
  | nil =>
      rw [show runSteps env [] s = s from rfl, blank.find?_none] at stored
      cases stored
  | append_singleton steps a ih =>
      obtain ⟨earlier, past⟩ := clock.split
      rw [runSteps_append] at stored
      rw [List.flatMap_append, List.flatMap_singleton]
      rcases a.exec_row env (runSteps env steps s) id with
        same | ⟨op, rfl, ⟨u, u', before, after, step⟩ | ⟨u, _, after, born, _⟩⟩
      · obtain ⟨coherent, stamps⟩ := ih earlier (same ▸ stored)
        exact ⟨coherent, fun x member => List.mem_append_left _ (stamps x member)⟩
      · cases after.symm.trans stored
        obtain ⟨coherent, stamps⟩ := ih earlier before
        refine ⟨coherent.step step.stamped fun x member => past x (stamps x member), fun x member => ?_⟩
        rcases step.stamped.stamps member with old | new
        · exact List.mem_append_left _ (stamps x old)
        · exact List.mem_append_right _ new
      · cases after.symm.trans stored
        exact ⟨born.coherent.1, fun x member => List.mem_append_right _ (born.coherent.2 x member)⟩

theorem start_kept_run (env : Env) (steps : List Step) {s : Store} {id : String} {t : Task}
    (stored : s.tasks.find? id = some t) {a : Time} (started : t.startedAt = some a) :
    ∃ t', (runSteps env steps s).tasks.find? id = some t' ∧ t'.startedAt = some a := by
  induction steps generalizing s t with
  | nil => exact ⟨t, stored, started⟩
  | cons step steps ih =>
      rcases step.exec_row env s id with
        same | ⟨op, rfl, ⟨u, u', before, after, row⟩ | ⟨u, absent, _⟩⟩
      · exact ih (same.trans stored) started
      · cases before.symm.trans stored
        exact ih after (row.stamped.start_kept started)
      · rw [stored] at absent
        cases absent

theorem seconds_nonneg {micros : Int} (forward : 0 ≤ micros) : 0 ≤ seconds micros :=
  Int.tdiv_nonneg forward (by decide)

namespace Coherent
variable {t : Task}

theorem duration (h : Coherent t) : durationJson t = .null ∨ ∃ n, durationJson t = .num n ∧ 0 ≤ n := by
  unfold durationJson computeDuration
  cases started : t.startedAt with
  | none => exact .inl rfl
  | some a =>
      cases completed : t.completedAt with
      | none => exact .inl rfl
      | some b =>
          have order := h.startedCompleted a b started completed
          exact .inr ⟨_, rfl, seconds_nonneg (Int.sub_nonneg_of_le order)⟩

theorem duration_completed (h : Coherent t) (done : t.status = .completed) :
    ∃ n, durationJson t = .num n ∧ 0 ≤ n := by
  rcases h.duration with missing | known
  · obtain ⟨a, started⟩ := Option.isSome_iff_exists.mp (h.started (by rw [done]; decide))
    obtain ⟨b, completed⟩ := Option.isSome_iff_exists.mp (h.completed.trans (by rw [done]; rfl))
    simp [durationJson, computeDuration, started, completed] at missing
  · exact known

end Coherent

/-- In every run with a clock that never goes back, every task has coherent timestamps,
keeps its start for ever, and reports durations that are never negative and never
missing once it is completed. -/
theorem timestamps_coherent (env : Env) {s₀ : Store} (blank : s₀.Blank) (steps : List Step)
    (clock : Monotone steps) (t : Task) (member : t ∈ (runSteps env steps s₀).tasks) :
    Coherent t ∧
      (∀ a, t.startedAt = some a → ∀ later : List Step, ∃ t',
        (runSteps env later (runSteps env steps s₀)).tasks.find? t.id = some t' ∧
          t'.startedAt = some a) ∧
      ∀ response ∈ [taskToDetailResponse env t, taskToSummaryResponse env t],
        (∀ v, response.get? "duration_seconds" = some v → v = .null ∨ ∃ n, v = .num n ∧ 0 ≤ n) ∧
        (t.status = .completed →
          ∃ n, response.get? "duration_seconds" = some (.num n) ∧ 0 ≤ n) := by
  have coherent := (coherent_run env blank steps clock (Table.find?_mem member)).1
  refine ⟨coherent, fun a started later => start_kept_run env later (Table.find?_mem member) started,
    fun response given => ?_⟩
  have reported : ∃ c : Prop, ∃ _ : Decidable c, (t.status = .completed → c) ∧
      response.get? "duration_seconds" = if c then some (durationJson t) else none := by
    simp only [List.mem_cons, List.not_mem_nil, or_false] at given
    rcases given with same | same <;> rw [same]
    · exact ⟨_, _, fun done => .inl done, detail_duration env t⟩
    · exact ⟨_, _, fun done => done, summary_duration env t⟩
  obtain ⟨c, decides, due, answer⟩ := reported
  rw [answer]
  refine ⟨fun v same => ?_, fun done => ?_⟩
  · split at same
    · cases same
      exact coherent.duration
    · cases same
  · obtain ⟨n, known, positive⟩ := coherent.duration_completed done
    exact ⟨n, by rw [if_pos (due done), known], positive⟩

namespace Demo

def completed : List Step := paused ++ [
  .op (.resumeTask (at' 5) "wf" "task-a" "principal" none),
  .op (post 9 "task-a" "completed" [("result", .str "done")] 5)]

end Demo

theorem timestamps_coherent_completed :
    ∃ t ∈ (runSteps Demo.env Demo.completed Demo.store).tasks, t.status = .completed ∧
      ∃ n, (taskToDetailResponse Demo.env t).get? "duration_seconds" = some (.num n) ∧ 0 ≤ n := by
  obtain ⟨t, member, done⟩ : ∃ t ∈ (runSteps Demo.env Demo.completed Demo.store).tasks.rows,
      t.status = .completed := by decide +kernel
  have clock : Monotone Demo.completed := by
    unfold Monotone
    decide
  have coherent := timestamps_coherent Demo.env Demo.store_blank Demo.completed clock t member
  exact ⟨t, member, done, (coherent.2.2 _ (by simp)).2 done⟩

end Fleet.Api
