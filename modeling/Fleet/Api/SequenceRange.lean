/- The numbers the principal's operations give their events, and the range of the
   column that stores them. -/
import Fleet.Api.Authority

namespace Fleet.Api
open Fleet.Lib

/-! ## Stored numbers fit their column -/

namespace Store
variable {s s' : Store}

theorem insertEvents_fit {es : List TaskEvent} (h : insertEvents es s = .ok s') :
    ∀ e ∈ es, fitsInteger e.sequence = true := by
  induction es generalizing s with
  | nil => exact nofun
  | cons e es ih =>
      simp only [insertEvents] at h
      split at h
      · rename_i mid first
        intro x member
        rcases List.mem_cons.mp member with rfl | later
        · exact (insertEvent_ok first).1
        · exact ih h x later
      · cases h

theorem flush_fit {w : Work} (h : flush w s = .ok s') : ∀ e ∈ w.newEvents, fitsInteger e.sequence = true := by
  unfold flush at h
  split at h
  · cases h
  · exact insertEvents_fit h

/-- No stored event has a number outside its column. -/
def Fitting (s : Store) : Prop := ∀ e ∈ s.events, fitsInteger e.sequence = true

theorem maxSequence_mem {id : String} (positive : s.maxSequence id ≠ 0) :
    ∃ e ∈ s.eventsOf id, e.sequence = s.maxSequence id := by
  unfold maxSequence at positive ⊢
  cases eq : ((s.eventsOf id).map TaskEvent.sequence).max? with
  | none => rw [eq] at positive; exact absurd rfl positive
  | some m =>
      obtain ⟨e, member, number⟩ := List.mem_map.mp (List.max?_eq_some_iff.mp eq).1
      exact ⟨e, member, number⟩

end Store

theorem Reachable.fitting {env : Env} {s : Store} (h : Reachable env s) : s.Fitting := by
  refine Reachable.invariant ?_ (fun s agents workflows fitting => fitting) ?_ h
  · intro s blank e member
    rw [← Table.mem_rows, blank.2] at member
    cases member
  · intro quiet s w s' fitting change committed e member
    rw [← Table.mem_rows, (Store.flush_effect committed change.current).2.2, List.mem_append] at member
    rcases member with old | new
    · exact fitting e old
    · exact Store.flush_fit committed e new

theorem next_fits_iff {env : Env} {s : Store} (reachable : Reachable env s) {id : String} {t : Task}
    (stored : s.tasks.find? id = some t) : fitsInteger (s.maxSequence id + 1) = true ↔
      ∀ e ∈ s.eventsOf id, e.sequence ≠ 2147483647 := by
  have positive : 1 ≤ s.maxSequence id := reachable.logged.one_le_maxSequence stored
  constructor
  · intro fits e member greatest
    obtain ⟨known, rfl⟩ := Store.mem_eventsOf.mp member
    have bound := Store.le_maxSequence known
    simp only [fitsInteger, decide_eq_true_eq] at fits
    omega
  · intro unused
    have some : s.maxSequence id ≠ 0 := by omega
    obtain ⟨e, member, number⟩ := Store.maxSequence_mem some
    have below := reachable.fitting e (Store.mem_eventsOf.mp member).1
    have other := unused e member
    simp only [fitsInteger, decide_eq_true_eq] at below ⊢
    omega

/-! ## The numbers an operation computes -/

/-- The write set numbers one event after the log of the stored task, and the first
event of a new task. -/
structure Numbers (id : String) (s : Store) (w : Work) : Prop where
  stored : ∃ t, s.tasks.find? id = some t
  next : ∃ e rest, w.newEvents = e :: rest ∧ e.sequence = s.maxSequence id + 1 ∧
    ∀ x ∈ rest, x.sequence = 1

section operations
variable {env : Env} {s : Store} {id : String}

theorem wp_numbers {α : Type} {w : Int → Work} {rest : Int → Unit → Db α}
    (numbers : Numbers id s (w (s.maxSequence id)))
    (silent : ∀ n s', (rest n ()).wp Store.flush Eq (Numbers id) (fun _ _ => True) s') :
    (Db.query (fun s => s.maxSequence id) >>= fun last => Db.commit (w last) >>= rest last).wp
      Store.flush Eq (Numbers id) (fun _ _ => True) s := by
  simp only [Prog.wp_bind, Db.wp_query, Db.wp_commit, forall_eq']
  exact ⟨numbers, fun s' _ => silent _ s', fun _ _ => trivial⟩

theorem cancelTask_numbers (clk : Clock) (workflowId agent : String) (reason : Option String) :
    (cancelTask clk workflowId id agent reason).wp Store.flush Eq (Numbers id) (fun _ _ => True) s := by
  unfold cancelTask
  apply wp_admitted (fun _ _ => trivial)
  intro task admitted
  obtain rfl := admitted.own
  cases task.transitionTo clk.nowUtc .cancelled with
  | error e => exact trivial
  | ok task' =>
      apply wp_numbers ⟨⟨task, admitted.stored⟩, _, [], rfl, rfl, nofun⟩
      intro n s'
      simp only [Db.wp_refresh, implies_true]

theorem pauseTask_numbers (clk : Clock) (workflowId agent : String) (reason : Option String) :
    (pauseTask env clk workflowId id agent reason).wp Store.flush Eq (Numbers id) (fun _ _ => True) s := by
  unfold pauseTask
  apply wp_admitted (fun _ _ => trivial)
  intro task admitted
  obtain rfl := admitted.own
  rw [Prog.wp_bind, Db.wp_ensure]
  refine ⟨fun _ => ?_, fun _ => trivial⟩
  dsimp only
  cases task.transitionTo clk.nowUtc .paused with
  | error e => exact trivial
  | ok task' =>
      apply wp_numbers ⟨⟨task, admitted.stored⟩, _, [], rfl, rfl, nofun⟩
      intro n s'
      simp only [Prog.wp_bind, Db.wp_refresh, Prog.wp_pure, implies_true]

theorem resumeTask_numbers (clk : Clock) (workflowId agent : String) (priority : Option String) :
    (resumeTask env clk workflowId id agent priority).wp Store.flush Eq (Numbers id)
      (fun _ _ => True) s := by
  unfold resumeTask
  apply wp_admitted (fun _ _ => trivial)
  intro task admitted
  obtain rfl := admitted.own
  rw [Prog.wp_bind, Db.wp_ensure]
  refine ⟨fun _ => ?_, fun _ => trivial⟩
  dsimp only
  rw [Prog.wp_ite]
  refine ⟨fun _ => ?_, fun _ => ?_⟩
  · apply wp_numbers ⟨⟨task, admitted.stored⟩, _, [], rfl, rfl, nofun⟩
    intro n s'
    simp only [Prog.wp_bind, Db.wp_refresh, Db.wp_raise, implies_true]
  · cases task.transitionTo clk.nowUtc .running with
    | error e => exact trivial
    | ok task' =>
        rw [Prog.wp_bind, Db.wp_ofExcept]
        cases resolvePriority priority task.priority with
        | error e => exact trivial
        | ok priority =>
            apply wp_numbers ⟨⟨task, admitted.stored⟩, _, [], rfl, rfl, nofun⟩
            intro n s'
            simp only [Prog.wp_bind, Db.wp_refresh, Prog.wp_pure, implies_true]

theorem injectContext_numbers (clk : Clock) (hex : String) (req : ContextRequest) :
    (injectContext env clk hex req).wp Store.flush Eq (Numbers req.taskId) (fun _ _ => True) s := by
  unfold injectContext
  apply wp_admitted (fun _ _ => trivial)
  intro task admitted
  rw [Prog.wp_bind, Db.wp_ensure]
  refine ⟨fun _ => ?_, fun _ => trivial⟩
  dsimp only
  rw [Prog.wp_bind]
  apply wp_getMaxContextSequence
  rintro _ rfl r _
  cases r with
  | error e => exact trivial
  | ok last =>
      dsimp only
      rw [Prog.wp_bind, Db.wp_ensure]
      refine ⟨fun _ => ?_, fun _ => trivial⟩
      dsimp only
      rw [admitted.own]
      apply wp_numbers ⟨⟨task, admitted.stored⟩, _, [], rfl, rfl, nofun⟩
      intro n s'
      exact trivial

theorem wp_successor_numbers {task : Task} {key : Option String} {input : Dict} {status : TaskStatus}
    {at' : Time} {priority : Except Failure TaskPriority} {refusal : FleetAPIError}
    {next : TaskPriority → Task} {e : TaskPriority → Int → TaskEvent} {created : TaskPriority → TaskEvent}
    (stored : s.tasks.find? task.id = some task) (number : ∀ p n, (e p n).sequence = n + 1)
    (first : ∀ p, (created p).sequence = 1) :
    (replayOf env key input >>= fun
      | some existing => pure (existing, task, true)
      | none =>
        match task.transitionTo at' status with
        | .error _ => Db.raise refusal
        | .ok task' => do
            let p ← Db.ofExcept priority
            let last ← Db.query (fun s => s.maxSequence task.id)
            Db.commit {
              newTask := some (next p)
              dirty := some (task, task')
              newEvents := [e p last, created p] }
            let next ← Db.refresh (next p)
            let task' ← Db.refresh task'
            return (next, task', false)).wp Store.flush Eq (Numbers task.id) (fun _ _ => True) s := by
  apply wp_replays
  · exact fun _ _ => trivial
  · exact fun _ _ => trivial
  · intro _
    dsimp only
    cases task.transitionTo at' status with
    | error e => exact trivial
    | ok task' =>
        dsimp only
        rw [Prog.wp_bind, Db.wp_ofExcept]
        cases priority with
        | error e => exact trivial
        | ok p =>
            apply wp_numbers
            · refine ⟨⟨task, stored⟩, e p (s.maxSequence task.id), [created p], rfl, number p _, ?_⟩
              intro x member
              rw [List.mem_singleton.mp member]
              exact first p
            · intro n s'
              simp only [Prog.wp_bind, Db.wp_refresh, Prog.wp_pure, implies_true]

theorem retaskTask_numbers (clk : Clock) (hex : String) (req : RetaskRequest) :
    (retaskTask env clk hex req).wp Store.flush Eq (Numbers req.taskId) (fun _ _ => True) s := by
  unfold retaskTask
  apply wp_admitted (fun _ _ => trivial)
  intro task admitted
  rw [Prog.wp_bind, Db.wp_ensure]
  refine ⟨fun _ => ?_, fun _ => trivial⟩
  dsimp only
  rw [Prog.wp_bind, Db.wp_ensure]
  refine ⟨fun _ => ?_, fun _ => trivial⟩
  rw [← admitted.own]
  exact wp_successor_numbers admitted.loaded (fun _ _ => rfl) fun _ => rfl

theorem redirectTask_numbers (clk : Clock) (hex : String) (req : RedirectRequest) :
    (redirectTask env clk hex req).wp Store.flush Eq (Numbers req.taskId) (fun _ _ => True) s := by
  unfold redirectTask
  apply wp_admitted (fun _ _ => trivial)
  intro task admitted
  rw [Prog.wp_bind, Db.wp_ensure]
  refine ⟨fun _ => ?_, fun _ => trivial⟩
  dsimp only
  rw [Prog.wp_bind, Db.wp_ensure]
  refine ⟨fun _ => ?_, fun _ => trivial⟩
  rw [← admitted.own]
  exact wp_successor_numbers admitted.loaded (fun _ _ => rfl) fun _ => rfl

end operations

theorem Op.program_numbers {env : Env} {s : Store} {op : Op} (principal : op.byPrincipal = true)
    {id : String} (target : op.target? = some id) :
    (op.program env).wp Store.flush Eq (Numbers id) (fun _ _ => True) s := by
  have answered : ∀ {α : Type} {p : Db α} {f : α → Answer}, p.wp Store.flush Eq (Numbers id)
      (fun _ _ => True) s → (p >>= fun a => pure (f a) : Db Answer).wp Store.flush Eq (Numbers id)
        (fun _ _ => True) s := by
    intro α p f h
    rw [Prog.wp_bind]
    refine Prog.wp_mono h (fun _ _ numbers => numbers) fun r s' _ => ?_
    cases r with
    | ok a => exact trivial
    | error e => exact trivial
  cases op with
  | createTask clk hex req => cases target
  | processSidecarEvent clk req => cases principal
  | retaskTask clk hex req => cases target; exact answered (retaskTask_numbers clk hex req)
  | redirectTask clk hex req => cases target; exact answered (redirectTask_numbers clk hex req)
  | cancelTask clk workflowId taskId agent reason =>
      cases target; exact answered (cancelTask_numbers clk workflowId agent reason)
  | pauseTask clk workflowId taskId agent reason =>
      cases target; exact answered (pauseTask_numbers clk workflowId agent reason)
  | resumeTask clk workflowId taskId agent priority =>
      cases target; exact answered (resumeTask_numbers clk workflowId agent priority)
  | injectContext clk hex req => cases target; exact answered (injectContext_numbers clk hex req)

/-- In every run, an operation of the principal that gets as far as its commit numbers
its events within the column exactly when no event of the task has the greatest
number; otherwise the database refuses it. -/
theorem next_sequence_fits_iff (env : Env) {s₀ : Store} (blank : s₀.Blank) (steps : List Step) (op : Op)
    (principal : op.byPrincipal = true) (id : String) (target : op.target? = some id) (w : Work)
    (offers : (op.program env).offered (runSteps env steps s₀) = some w) :
    ((∀ e ∈ w.newEvents, fitsInteger e.sequence = true) ↔
        ∀ e ∈ (runSteps env steps s₀).eventsOf id, e.sequence ≠ 2147483647) ∧
      ((∃ e ∈ w.newEvents, fitsInteger e.sequence = false) →
        ∃ e, op.exec env (runSteps env steps s₀) = (.error e, runSteps env steps s₀)) := by
  have reachable : Reachable env (runSteps env steps s₀) := (Reachable.start blank).runSteps steps
  obtain ⟨⟨t, stored⟩, first, rest, events, number, ones⟩ :=
    Prog.wp_offered (Op.program_numbers principal target) offers
  constructor
  · rw [← next_fits_iff reachable stored, events, ← number]
    constructor
    · intro all
      exact all first List.mem_cons_self
    · intro fits e member
      rcases List.mem_cons.mp member with rfl | later
      · exact fits
      · rw [ones e later]
        decide
  · intro overflow
    obtain ⟨e, member, outside⟩ := overflow
    cases committed : Store.flush w (runSteps env steps s₀) with
    | ok s' =>
        rw [Store.flush_fit committed e member] at outside
        cases outside
    | error refusal => exact ⟨refusal, Prog.run_refused offers committed⟩

namespace Demo

/-- The executor logs under the greatest number the column holds. -/
def exhausted : List Step := running ++ [.op (post 2 "task-a" "log" [] 2147483647)]

def cancelling : Op := .cancelTask (at' 3) "wf" "task-a" "principal" none

end Demo

theorem next_sequence_fits_running :
    ∃ w, (Demo.cancelling.program Demo.env).offered (runSteps Demo.env Demo.running Demo.store) = some w ∧
      ((∀ e ∈ w.newEvents, fitsInteger e.sequence = true) ↔
        ∀ e ∈ (runSteps Demo.env Demo.running Demo.store).eventsOf "task-a", e.sequence ≠ 2147483647) :=
  ⟨_, rfl, (next_sequence_fits_iff Demo.env Demo.store_blank Demo.running Demo.cancelling rfl "task-a" rfl
    _ rfl).1⟩

/-- The principal cannot cancel its running task after that. -/
theorem greatest_sequence_blocks :
    (runSteps Demo.env Demo.exhausted Demo.store).status? "task-a" = some .running ∧
      (runSteps Demo.env Demo.exhausted Demo.store).maxSequence "task-a" = 2147483647 ∧
      (Demo.cancelling.exec Demo.env (runSteps Demo.env Demo.exhausted Demo.store)).1 =
        .error (.db .valueOutOfRange) :=
  ⟨by decide, by decide, rfl⟩

end Fleet.Api
