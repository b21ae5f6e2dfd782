/- Signal state shared by the signal poller and the executor. -/
import Fleet.Agent.Models

namespace Fleet.Agent
open Fleet.Lib

/-- What is kept for one registered task. `paused` is a cleared pause event. -/
structure TaskSignals where
  paused : Bool := false
  cancelled : Bool := false
  redirect : Option Dict := none
  context : List Dict := []
  deriving DecidableEq

structure SignalState where
  entries : List (String × TaskSignals) := []
  processed : List String := []

namespace SignalState

def entry? (st : SignalState) (taskId : String) : Option TaskSignals := st.entries.lookup taskId

def hasTask (st : SignalState) (taskId : String) : Bool := (st.entry? taskId).isSome

def registerTask (st : SignalState) (taskId : String) : SignalState :=
  { st with entries := (taskId, {}) :: st.entries.filter (fun e => e.1 ≠ taskId) }

/-- Drop the task's state and its share of the processed signals. -/
def unregisterTask (st : SignalState) (taskId : String) : SignalState where
  entries := st.entries.filter (fun e => e.1 ≠ taskId)
  processed := st.processed.filter (fun key => !(taskId ++ ":").isPrefixOf key)

def update (st : SignalState) (taskId : String) (f : TaskSignals → TaskSignals) : SignalState :=
  { st with entries := st.entries.map fun e => if e.1 = taskId then (e.1, f e.2) else e }

def popContext (st : SignalState) (taskId : String) : List Dict × SignalState :=
  (((st.entry? taskId).map TaskSignals.context).getD [],
    st.update taskId (fun e => { e with context := [] }))

def markSignalProcessed (st : SignalState) (key : String) : SignalState :=
  { st with processed := key :: st.processed }

def isSignalProcessed (st : SignalState) (key : String) : Bool := st.processed.contains key

/-! ## What each operation leaves of an entry -/

variable (st : SignalState) (taskId id : String)

theorem lookup_filter_ne {α : Type} (l : List (String × α)) (taskId id : String) :
    (l.filter (fun e => e.1 ≠ taskId)).lookup id = if id = taskId then none else l.lookup id := by
  induction l with
  | nil => simp
  | cons e l ih =>
      obtain ⟨k, a⟩ := e
      rw [List.filter_cons]
      by_cases kept : k ≠ taskId
      · rw [if_pos (by simpa using kept), Json.lookup_cons_ite, Json.lookup_cons_ite, ih]
        by_cases own : id = k
        · subst own
          simp [kept]
        · simp [own]
      · rw [if_neg (by simpa using kept), Json.lookup_cons_ite, ih]
        have same : k = taskId := not_not.mp kept
        subst same
        by_cases own : id = k <;> simp [own]

theorem entry?_registerTask :
    entry? (st.registerTask taskId) id = if id = taskId then some {} else st.entry? id := by
  unfold entry? registerTask
  rw [Json.lookup_cons_ite, lookup_filter_ne]
  split <;> rfl

theorem entry?_unregisterTask :
    entry? (st.unregisterTask taskId) id = if id = taskId then none else st.entry? id := by
  unfold entry? unregisterTask
  exact lookup_filter_ne st.entries taskId id

theorem entry?_update (f : TaskSignals → TaskSignals) :
    entry? (st.update taskId f) id =
      if id = taskId then (st.entry? id).map f else st.entry? id := by
  unfold entry? update
  induction st.entries with
  | nil => simp
  | cons e l ih =>
      obtain ⟨k, a⟩ := e
      rw [List.map_cons]
      by_cases own : k = taskId
      · rw [if_pos own, Json.lookup_cons_ite, Json.lookup_cons_ite, ih]
        by_cases same : id = k
        · rw [if_pos same, if_pos same, if_pos (same.trans own)]
          rfl
        · rw [if_neg same, if_neg same]
      · rw [if_neg own, Json.lookup_cons_ite, Json.lookup_cons_ite, ih]
        by_cases same : id = k
        · have other : id ≠ taskId := fun eq => own (same.symm.trans eq)
          rw [if_pos same, if_pos same, if_neg other]
        · rw [if_neg same, if_neg same]

theorem entry?_popContext : entry? (st.popContext taskId).2 id =
    if id = taskId then (st.entry? id).map (fun e => { e with context := [] }) else st.entry? id :=
  entry?_update st taskId id _

theorem hasTask_registerTask :
    (st.registerTask taskId).hasTask id = true ↔ id = taskId ∨ st.hasTask id = true := by
  rw [hasTask, entry?_registerTask, hasTask]
  by_cases own : id = taskId <;> simp [own]

theorem hasTask_unregisterTask :
    (st.unregisterTask taskId).hasTask id = true ↔ id ≠ taskId ∧ st.hasTask id = true := by
  rw [hasTask, entry?_unregisterTask, hasTask]
  by_cases own : id = taskId <;> simp [own]

@[simp] theorem hasTask_update (f : TaskSignals → TaskSignals) :
    (st.update taskId f).hasTask id = st.hasTask id := by
  rw [hasTask, entry?_update, hasTask]
  split
  · exact Option.isSome_map
  · rfl

end SignalState
end Fleet.Agent
