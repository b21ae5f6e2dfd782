/- The query of the pending tasks, as the code spells it. -/
import Fleet.Api.Crud

namespace Fleet.Api
open Fleet.Lib

/-- A call of an SQL function; each clause is a priority and its weight. -/
structure SqlCall where
  name : String
  clauses : List (TaskPriority × Int)

def functionKeywords : List String := ["type_", "packagenames"]

def unexpectedKeyword (keyword : String) : Failure :=
  .python s!"Function.__init__() got an unexpected keyword argument '{keyword}'"

/-- `func.<name>(*clauses, **keywords)`: any other keyword raises a `TypeError`. -/
def func (name : String) (clauses : List (TaskPriority × Int)) (keywords : List (String × Int)) :
    Except Failure SqlCall :=
  match keywords.find? (fun k => k.1 ∉ functionKeywords) with
  | some k => .error (unexpectedKeyword k.1)
  | none => .ok { name, clauses }

def priorityWeights : List (TaskPriority × Int) := [(.critical, 4), (.high, 3), (.normal, 2), (.low, 1)]

def acceptedTasks (s : Store) (agentId : String) : List Task :=
  s.tasks.rows.filter fun t => t.executorAgentId = some agentId ∧ t.status = .accepted

/-- The statement, by what the database makes of the first sort key. -/
def selectPending (weight : Task → Int) (s : Store) (agentId : String) : List Task :=
  (acceptedTasks s agentId).insertionSort fun a b =>
    weight b < weight a ∨ (weight a = weight b ∧ a.createdAt ≤ b.createdAt)

/-- `get_pending_tasks`; `value` is what the database computes for the call on a row. -/
def getPendingTasks (value : SqlCall → Task → Int) (agentId : String) : Db (List Task) := do
  let priorityOrder ← Db.ofExcept (func "case" priorityWeights [("else_", 0)])
  Db.query fun s => selectPending (value priorityOrder) s agentId

theorem func_case : func "case" priorityWeights [("else_", 0)] = .error (unexpectedKeyword "else_") := by
  have known : "else_" ∉ functionKeywords := by decide
  simp [func, known]

/-- The call raises before the statement is built, so the listing is never returned. -/
theorem getPendingTasks_raises (value : SqlCall → Task → Int) (agentId : String) (s : Store) :
    (getPendingTasks value agentId).run Store.flush s = (.error (unexpectedKeyword "else_"), s) := by
  unfold getPendingTasks
  rw [func_case]
  rfl

end Fleet.Api
