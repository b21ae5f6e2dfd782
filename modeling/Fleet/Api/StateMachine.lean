/- The task state machine: states, terminal states and the transition table. -/
import Mathlib.Data.List.Basic
import Mathlib.Tactic.Common

namespace Fleet.Api

inductive TaskStatus where
  | accepted | running | paused | completed | failed | cancelled | retasked | redirected
  deriving DecidableEq, Repr

namespace TaskStatus

def value : TaskStatus → String
  | accepted => "accepted"
  | running => "running"
  | paused => "paused"
  | completed => "completed"
  | failed => "failed"
  | cancelled => "cancelled"
  | retasked => "retasked"
  | redirected => "redirected"

def all : List TaskStatus :=
  [accepted, running, paused, completed, failed, cancelled, retasked, redirected]

/-- `TaskStatus(value)`; `none` stands for the `ValueError`. -/
def ofValue? (v : String) : Option TaskStatus := all.find? (fun st => st.value = v)

@[simp] theorem ofValue?_value (st : TaskStatus) : ofValue? st.value = some st := by
  cases st <;> decide

end TaskStatus

open TaskStatus

def terminalStates : List TaskStatus := [completed, failed, cancelled, retasked, redirected]

/-- `VALID_TRANSITIONS.get(from_status, set())`. -/
def validTransitions : TaskStatus → List TaskStatus
  | accepted => [running, cancelled, failed]
  | running => [completed, failed, paused, cancelled, redirected]
  | paused => [running, cancelled, redirected]
  | completed => [retasked]
  | failed => [retasked]
  | cancelled | retasked | redirected => []

structure InvalidStateTransition where
  fromStatus : TaskStatus
  toStatus : TaskStatus

def validateTransition (fromStatus toStatus : TaskStatus) : Except InvalidStateTransition Unit :=
  if toStatus ∈ validTransitions fromStatus then .ok () else .error ⟨fromStatus, toStatus⟩

def isTerminal (status : TaskStatus) : Bool := status ∈ terminalStates

/-- Only a completed or failed task leaves its terminal state, and only to be retasked. -/
theorem terminal_exit {a b : TaskStatus} (terminal : isTerminal a = true)
    (valid : b ∈ validTransitions a) : (a = completed ∨ a = failed) ∧ b = retasked := by
  cases a <;> cases b <;> simp_all [isTerminal, terminalStates, validTransitions]

theorem no_self_transition (a : TaskStatus) : a ∉ validTransitions a := by
  cases a <;> decide

theorem moved_ne {a b : TaskStatus} (valid : b ∈ validTransitions a) : b ≠ a := by
  intro same
  subst same
  exact no_self_transition b valid

theorem accepted_not_reentered (a : TaskStatus) : accepted ∉ validTransitions a := by
  cases a <;> decide

/-- The statuses of a superseded task have no exit. -/
theorem superseded_final {a : TaskStatus} (h : a = retasked ∨ a = redirected) :
    validTransitions a = [] := by
  rcases h with rfl | rfl <;> rfl

end Fleet.Api
