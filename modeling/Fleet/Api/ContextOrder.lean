/- The order of accepted context injections, and what may be injected next. -/
import Mathlib.Data.List.Induction
import Fleet.Api.ContextSignals
import Fleet.Api.Outcomes

namespace Fleet.Api
open Fleet.Lib

/-! ## The last accepted sequence -/

/-- What `get_max_context_sequence` reads from a store. -/
def maxContextSequence (s : Store) (taskId : String) : Except Failure Int :=
  match (latest (contextEvents s taskId)).bind TaskEvent.data with
  | none => .ok 0
  | some data => toInt ((data.get? "context_sequence").getD (.num 0))

theorem getMaxContextSequence_run (s : Store) (taskId : String) :
    (getMaxContextSequence taskId).run Store.flush s = (maxContextSequence s taskId, s) := by
  simp only [getMaxContextSequence, maxContextSequence, Prog.run_bind, Db.query, Prog.run, Prog.pure_eq]
  cases (latest (contextEvents s taskId)).bind TaskEvent.data with
  | none => rfl
  | some data => rfl

section injection
variable {env : Env} {s : Store} {clk : Clock} {hex : String} {req : ContextRequest}

theorem injectContext_answered {task : Task}
    (admitted : Admitted s req.workflowId req.taskId req.callerAgentId task)
    (injectable : task.status ∈ contextInjectableStatuses) :
    Answered ((Op.injectContext clk hex req).exec env s).1 = true ↔
      (∃ last, maxContextSequence s req.taskId = .ok last ∧ last < req.sequence) ∧
        (Store.flush { newEvents :=
          [injectionEvent clk hex req task.id (s.maxSequence task.id)] } s).isOk = true := by
  simp only [Op.exec, Op.program, injectContext, Prog.run_bind, admitted.authorized_run, Db.ensure,
    injectable, if_true, Prog.pure_eq, Prog.run, getMaxContextSequence_run]
  cases maxContextSequence s req.taskId with
  | error e => simp [Answered, Except.isOk, Except.toBool]
  | ok last =>
      by_cases above : last < req.sequence
      · simp only [above, if_true, Prog.run, Prog.pure_eq, Db.query, Db.commit,
          Except.ok.injEq, exists_eq_left', true_and]
        cases Store.flush { newEvents :=
          [injectionEvent clk hex req task.id (s.maxSequence task.id)] } s with
        | ok s' => simp [Answered, Except.isOk, Except.toBool]
        | error e => simp [Answered, Except.isOk, Except.toBool]
      · simp [above, Db.raise, Prog.raise, Prog.run, Answered, Except.isOk, Except.toBool]

end injection

/-! ## Runs -/

namespace Demo

/-- The executor reports the first of two injections; the second is then sent again. -/
def repeated : List Step := twoInjections ++ [
  .op (post 5 "task-a" "context_injected" [("context_sequence", .num 1)] 5), injection 6 "d" 2]

end Demo

end Fleet.Api
