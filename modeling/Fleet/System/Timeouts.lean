/- Where the time limit of an execution comes from, over runs of requests of both kinds. -/
import Fleet.Agent.Executor
import Fleet.Api.Creation
import Fleet.Api.Workflows
import Fleet.System.Composed

namespace Fleet.System
open Fleet.Lib Fleet.Api
open Fleet.Agent (Execution)

/-- A request on workflows, one on tasks, or any other, which writes neither. -/
inductive Request where
  | workflow (c : WorkflowCall)
  | task (op : Op)
  | other (agents : Table String Agent Agent.id)

def Request.exec (env : Env) : Request → Store → Store
  | .workflow c, s => (c.exec s).2
  | .task op, s => (op.exec env s).2
  | .other agents, s => { s with agents }

def requests (env : Env) : Machine Store Request Empty where
  step s r := (r.exec env s, [])

/-- Null or at least one second. -/
def Limit (timeoutSeconds : Option Int) : Prop := ∀ n, timeoutSeconds = some n → 0 < n

instance (timeoutSeconds : Option Int) : Decidable (Limit timeoutSeconds) :=
  match timeoutSeconds with
  | none => isTrue (fun n h => by cases h)
  | some n => decidable_of_iff (0 < n) ⟨fun positive m same => by cases same; exact positive,
      fun all => all n rfl⟩

/-- The `gt=0` of the two models that have it; the model of an update has none. -/
def Request.Admitted : Request → Prop
  | .workflow (.create _ req) => Limit req.timeoutSeconds
  | .task (.createTask _ _ req) => Limit req.timeoutSeconds
  | _ => True

/-- No update by the owner of a workflow provides a limit that is not positive. -/
def Request.Limited (s : Store) : Request → Prop
  | .workflow (.update _ req) => ∀ loaded, s.workflows.find? req.workflowId = some loaded →
      loaded.ownerAgentId = req.callerAgentId → "timeout_seconds" ∈ req.provided →
      Limit req.timeoutSeconds
  | _ => True

structure Positive (s : Store) : Prop where
  workflows : ∀ id w, s.workflows.find? id = some w → Limit w.timeoutSeconds
  tasks : ∀ id t, s.tasks.find? id = some t → Limit t.timeoutSeconds

/-! ## One request -/

section step
variable {env : Env} {s : Store}

theorem Limit.orElse {a b : Option Int} (first : Limit a) (second : Limit b) : Limit (orElseInt a b) := by
  cases a with
  | none => exact second
  | some n =>
      rw [orElseInt, if_neg (first n rfl).ne']
      exact first

theorem Positive.workflow (h : Positive s) (c : WorkflowCall) (admitted : (Request.workflow c).Admitted)
    (limited : (Request.workflow c).Limited s) : Positive (c.exec s).2 := by
  have puts : ∀ {s' w}, s.Puts s' w → Limit w.timeoutSeconds → Positive s' := by
    intro s' w puts positive
    refine ⟨fun id v found => ?_, fun id t found => h.tasks id t ?_⟩
    · rw [puts.row] at found
      split_ifs at found
      · cases found
        exact positive
      · exact h.workflows id v found
    · rw [puts.frame] at found
      exact found
  have outcome := c.exec_outcome s
  generalize c.exec s = served at outcome
  obtain ⟨answer, s'⟩ := served
  dsimp only at outcome ⊢
  cases outcome with
  | refused | found => exact h
  | created clk req s' valid absent written => exact puts written admitted
  | updated clk req loaded written s' stored own assigned input output placed =>
      refine puts placed ?_
      rw [assigned.timeoutSeconds]
      split_ifs with provided
      · exact limited loaded stored own provided
      · exact h.workflows _ loaded stored

theorem Positive.born (h : Positive s) {op : Op} (admitted : (Request.task op).Admitted) {t : Task}
    (born : Born s op t) (answers : created? (op.exec env s).1 = some t) : Limit t.timeoutSeconds := by
  cases born with
  | requested unused requested =>
      obtain ⟨workflow, priority, dispatchable, -, rfl⟩ := created_row answers
      exact Limit.orElse admitted (h.workflows _ workflow dispatchable.known)
  | retasked stored =>
      have inherited := h.tasks _ _ stored
      exact inherited
  | redirected stored =>
      have inherited := h.tasks _ _ stored
      exact inherited

theorem Positive.task (h : Positive s) (op : Op) (admitted : (Request.task op).Admitted) :
    Positive (op.exec env s).2 := by
  refine ⟨fun id w found => h.workflows id w ?_, fun id t found => ?_⟩
  · rw [(op.exec_catalog env s).2] at found
    exact found
  · rcases Step.exec_origin (a := .op op) found with ⟨t₀, stored, origin⟩ | ⟨op', same, _, born, answers⟩
    · rw [origin.timeout]
      exact h.tasks id t₀ stored
    · cases same
      exact h.born admitted born answers

theorem Positive.step (h : Positive s) (r : Request) (admitted : r.Admitted) (limited : r.Limited s) :
    Positive (r.exec env s) := by
  cases r with
  | workflow c => exact h.workflow c admitted limited
  | task op => exact h.task op admitted
  | other agents => exact ⟨h.workflows, h.tasks⟩

end step

/-! ## Whole runs -/

/-- The limit of an execution of a task as the sidecar polled it. -/
def appliedLimit (env : Env) (t : Task) : Int := ({ task := pendingItem env t } : Execution).timeoutSeconds

theorem appliedLimit_stored (env : Env) {t : Task} (limit : Limit t.timeoutSeconds) :
    0 < appliedLimit env t ∧ appliedLimit env t = t.timeoutSeconds.getD 600 := by
  have same : (pendingItem env t).timeoutSeconds = t.timeoutSeconds := rfl
  unfold appliedLimit Execution.timeoutSeconds
  rw [same]
  cases stored : t.timeoutSeconds with
  | none => exact ⟨by decide, rfl⟩
  | some n =>
      have positive := limit n stored
      simp only [if_neg positive.ne', Option.getD_some]
      exact ⟨positive, trivial⟩

/-- Unless an owner's update provides a limit that is not positive, every stored limit is
null or positive after every run, and so is the limit of every execution. -/
theorem limits_positive (env : Env) {s : Store} (start : Positive s) (rs : List Request)
    (admitted : ∀ r ∈ rs, r.Admitted) (limited : (requests env).Along (fun s r => r.Limited s) s rs) :
    Positive ((requests env).run s rs).1 ∧
      ∀ id t, ((requests env).run s rs).1.tasks.find? id = some t →
        0 < appliedLimit env t ∧ appliedLimit env t = t.timeoutSeconds.getD 600 := by
  have conditions :=
    (Machine.along_of_forall (M := requests env) (fun r member _ => admitted r member) s).and limited
  have kept : Positive ((requests env).run s rs).1 :=
    Machine.run_establishes (I := fun s _ => Positive s)
      (fun _ _ r before met => before.step r met.1 met.2) start conditions
  exact ⟨kept, fun id t stored => appliedLimit_stored env (kept.tasks id t stored)⟩

namespace Demo

def limitTo (timeoutSeconds : Int) : Request := .workflow (.update (Api.Demo.at' 1) {
  workflowId := "wf", callerAgentId := "executor", timeoutSeconds := some timeoutSeconds
  providedFields := some ["timeout_seconds"] })

def limiting (timeoutSeconds : Int) : List Request :=
  [limitTo timeoutSeconds, .task (Api.Demo.create 2 "a")]

def limited (timeoutSeconds : Int) : Store :=
  ((requests Api.Demo.env).run Api.Demo.store (limiting timeoutSeconds)).1

theorem limiting_admitted (timeoutSeconds : Int) : ∀ r ∈ limiting timeoutSeconds, r.Admitted := by
  intro r member
  simp only [limiting, List.mem_cons, List.not_mem_nil, or_false] at member
  rcases member with rfl | rfl
  · trivial
  · exact fun n given => by cases given

theorem store_positive : Positive Api.Demo.store := by
  refine ⟨fun id w found => ?_, fun id t found => ?_⟩
  · obtain ⟨member, -⟩ := Table.find?_eq_some.mp found
    cases List.mem_singleton.mp member
    exact fun n given => by cases given
  · rw [Api.Demo.store_blank.find?_none] at found
    cases found

theorem limiting_limited : (requests Api.Demo.env).Along (fun s r => r.Limited s) Api.Demo.store
    (limiting 90) := by
  refine ⟨fun loaded stored own provided n given => ?_, trivial, trivial⟩
  cases given
  decide

end Demo

theorem limits_positive_ninety : Positive (Demo.limited 90) ∧
    ∀ id t, (Demo.limited 90).tasks.find? id = some t →
      0 < appliedLimit Api.Demo.env t ∧ appliedLimit Api.Demo.env t = t.timeoutSeconds.getD 600 :=
  limits_positive Api.Demo.env Demo.store_positive (Demo.limiting 90) (Demo.limiting_admitted 90)
    Demo.limiting_limited

/-- A limit of -5 seconds passes the update, is stored with the workflow and the task, and
is the limit of the execution. -/
theorem negative_limit_stored : (∀ r ∈ Demo.limiting (-5), r.Admitted) ∧ ¬ Positive (Demo.limited (-5)) ∧
    ∃ t, (Demo.limited (-5)).tasks.find? "task-a" = some t ∧ appliedLimit Api.Demo.env t = -5 := by
  have present : ((Demo.limited (-5)).tasks.find? "task-a").isSome := by decide +kernel
  obtain ⟨t, found⟩ := Option.isSome_iff_exists.mp present
  have stored : ∀ t ∈ (Demo.limited (-5)).tasks.find? "task-a", t.timeoutSeconds = some (-5) := by
    decide +kernel
  have limit := stored t found
  refine ⟨Demo.limiting_admitted (-5), fun positive => ?_, t, found, ?_⟩
  · exact absurd (positive.tasks _ t found (-5) limit) (by decide)
  · have same : (pendingItem Api.Demo.env t).timeoutSeconds = some (-5) := limit
    unfold appliedLimit Execution.timeoutSeconds
    rw [same]
    rfl

end Fleet.System
