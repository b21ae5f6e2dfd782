/- What a task refers to stays stored: runs of the service, whose requests remove no agent
   and no workflow. -/
import Fleet.Api.Effects
import Fleet.Api.Registration
import Fleet.Api.Workflows

namespace Fleet.Api
open Fleet.Lib

/-! ## Runs that remove no row -/

/-- The tables have a row wherever the store has one. -/
structure Store.Conserved (s : Store) (agents : Table String Agent Agent.id)
    (workflows : Table String Workflow Workflow.id) : Prop where
  agents : ∀ id, (s.agents.find? id).isSome = true → (agents.find? id).isSome = true
  workflows : ∀ id, (s.workflows.find? id).isSome = true → (workflows.find? id).isSome = true

def Step.Conserves (s : Store) : Step → Prop
  | .op _ => True
  | .catalog agents workflows => s.Conserved agents workflows

/-- The stores of the service: no request deletes an agent or a workflow. -/
inductive Served (env : Env) : Store → Prop
  | start {s : Store} (blank : s.Blank) : Served env s
  | step {s : Store} (h : Served env s) (a : Step) (conserves : a.Conserves s) : Served env (a.exec env s)

theorem Served.reachable {env : Env} {s : Store} (h : Served env s) : Reachable env s := by
  induction h with
  | start blank => exact .start blank
  | step _ a _ ih => exact ih.step a

theorem Served.runSteps {env : Env} {s : Store} (h : Served env s) (steps : List Step)
    (ops : ∀ a ∈ steps, ∃ op, a = .op op) : Served env (runSteps env steps s) := by
  induction steps generalizing s with
  | nil => exact h
  | cons a steps ih =>
      obtain ⟨op, rfl⟩ := ops a List.mem_cons_self
      exact ih (h.step (.op op) trivial) fun b member => ops b (List.mem_cons_of_mem _ member)

theorem WorkflowCall.exec_conserves (c : WorkflowCall) (s : Store) :
    s.Conserved (c.exec s).2.agents (c.exec s).2.workflows := by
  have same : s.Conserved s.agents s.workflows := ⟨fun _ => id, fun _ => id⟩
  have put : ∀ {s' : Store} {w : Workflow}, s.Puts s' w → s.Conserved s'.agents s'.workflows := by
    intro s' w puts
    refine ⟨fun id known => ?_, fun id known => ?_⟩
    · rw [puts.frame]
      exact known
    · rw [puts.row]
      split
      · rfl
      · exact known
  have outcome := c.exec_outcome s
  generalize c.exec s = r at *
  obtain ⟨answer, s'⟩ := r
  cases outcome with
  | refused | found => exact same
  | created clk req _ valid absent puts => exact put puts
  | updated clk req loaded written _ stored own assigned input output puts => exact put puts

theorem Monitored.step_workflows (timeoutSeconds : Int) (w : Monitored) (statement : Statement) :
    (w.step timeoutSeconds statement).store.workflows = w.store.workflows := by
  have outcome := w.step_outcome timeoutSeconds statement
  generalize w.step timeoutSeconds statement = w' at *
  cases outcome <;> rfl

theorem Registry.step_conserves (timeoutSeconds : Int) (w : Registry) (statement : RegistryStatement) :
    w.store.Conserved (w.step timeoutSeconds statement).1.store.agents
      (w.step timeoutSeconds statement).1.store.workflows := by
  have same : w.store.Conserved w.store.agents w.store.workflows := ⟨fun _ => id, fun _ => id⟩
  have outcome := w.step_outcome timeoutSeconds statement
  generalize w.step timeoutSeconds statement = r at *
  cases outcome with
  | monitored statement =>
      have keys := Monitored.step_keyOf timeoutSeconds w.monitored statement
      refine ⟨fun id known => ?_, fun id known => ?_⟩
      · have key : (w.store.keyOf? id).isSome = true := by rwa [Store.keyOf?, Option.isSome_map]
        have later := congrArg Option.isSome (keys id)
        rw [Store.keyOf?, Option.isSome_map] at later
        exact later.trans key
      · have same := Monitored.step_workflows timeoutSeconds w.monitored statement
        change ((w.monitored.step timeoutSeconds statement).store.workflows.find? id).isSome = true
        rw [same]
        exact known
  | asked | idle | answered | absent | failed | inserted => exact same
  | @created i agent agents holds inserted =>
      refine ⟨fun id known => ?_, fun id known => known⟩
      change (agents.find? id).isSome = true
      rw [Table.find?_insert? inserted]
      split
      · rfl
      · exact known

/-! ## The references of a stored task -/

/-- Every stored task refers to stored rows, and its timeout fits its column. -/
def Store.Anchored (s : Store) : Prop :=
  ∀ t ∈ s.tasks, s.references t = true ∧ t.timeoutSeconds.all fitsInteger = true

section anchored
variable {s s' : Store} {t t' : Task}

theorem references_origin (origin : Task.SameOrigin t t') : s.references t' = s.references t := by
  simp only [Store.references, origin.workflowId, origin.principal, origin.executor, origin.parent,
    origin.root]

theorem references_mono (conserved : s.Conserved s'.agents s'.workflows)
    (tasks : ∀ id, (s.tasks.find? id).isSome = true → (s'.tasks.find? id).isSome = true)
    (refers : s.references t = true) : s'.references t = true := by
  simp only [Store.references, Bool.and_eq_true, Option.all_eq_true] at refers ⊢
  obtain ⟨⟨⟨⟨workflow, principal⟩, executor⟩, parent⟩, root⟩ := refers
  exact ⟨⟨⟨⟨conserved.workflows _ workflow, conserved.agents _ principal⟩,
    fun id given => conserved.agents _ (executor id given)⟩, fun id given => tasks _ (parent id given)⟩,
    fun id given => tasks _ (root id given)⟩

/-- A commit keeps the references: a new task was checked, a changed one has those it had. -/
theorem Store.Anchored.flush (h : s.Anchored) {w : Work} (fresh : w.Current s)
    (committed : Store.flush w s = .ok s') : s'.Anchored := by
  obtain ⟨-, tasks, -⟩ := Store.flush_effect committed fresh
  obtain ⟨mid, inserted, agents, workflows, -⟩ := Store.flush_ok committed
  have refers : ∀ {t : Task}, s.references t = true → s'.references t = true := by
    refine fun before => references_mono ⟨fun id => ?_, fun id => ?_⟩ (fun id known => ?_) before
    · rw [agents]
      exact fun known => known
    · rw [workflows]
      exact fun known => known
    · rw [tasks id, Option.isSome_or, known, Bool.or_true]
  intro t member
  have found := Table.find?_mem member
  rw [tasks t.id] at found
  rcases Option.or_eq_some_iff.mp found with changed | ⟨-, stored⟩
  · rcases List.mem_append.mp (List.mem_of_find?_eq_some changed) with dirty | new
    · obtain ⟨⟨task, task'⟩, written, rfl⟩ := Option.map_eq_some_iff.mp (Option.mem_toList.mp dirty)
      obtain ⟨loaded, origin⟩ := fresh task task' written
      obtain ⟨before, timeout⟩ := h task (Table.find?_eq_some.mp loaded).1
      rw [← references_origin origin] at before
      exact ⟨refers before, origin.timeout ▸ timeout⟩
    · rw [Option.mem_toList.mp new] at inserted
      obtain ⟨fits, before, -⟩ := Store.insertTask_ok inserted
      simp only [Task.fits, Bool.and_eq_true] at fits
      exact ⟨refers before, fits.1.1.1.2⟩
  · obtain ⟨before, timeout⟩ := h t (Table.find?_eq_some.mp stored).1
    exact ⟨refers before, timeout⟩

end anchored

theorem Op.exec_anchored (env : Env) (op : Op) {s : Store} (h : s.Anchored) :
    (op.exec env s).2.Anchored := by
  refine Prog.run_invariant (I := Store.Anchored) (fun _ _ _ before change ok => ?_)
    (op.program_wp (Q := fun _ _ => True) (fun _ => rfl) (fun _ _ _ => Eq.trans) ?_ ?_ ?_) h
  · exact before.flush change.current ok
  all_goals intros; trivial

theorem Served.anchored {env : Env} {s : Store} (h : Served env s) : s.Anchored := by
  induction h with
  | start blank => exact fun t member => absurd member (blank.not_mem t)
  | step _ a conserves ih =>
      cases a with
      | op o => exact o.exec_anchored env ih
      | catalog agents workflows =>
          intro t member
          obtain ⟨before, timeout⟩ := ih t member
          exact ⟨references_mono conserves (fun _ known => known) before, timeout⟩

end Fleet.Api
