/- The task poller: the executions in flight, what each does next, and a round of polling. -/
import Fleet.Lib.Table
import Fleet.Agent.Streamer
import Fleet.Agent.Executor
import Fleet.Agent.Signals

namespace Fleet.Agent
open Fleet.Lib

/-- One `_dispatch`: the execution and the stream that posts its events. `reported`
remembers that a completed or failed event was yielded. -/
structure Dispatch where
  execution : Execution
  stream : Stream
  reported : Bool := false

namespace Dispatch

def taskId (d : Dispatch) : String := d.execution.task.taskId

def start (task : PendingTask) : Dispatch where
  execution := { task }
  stream := Stream.start

def isResult (event : TaskEvent) : Bool := event.eventType = "completed" || event.eventType = "failed"

/-- While an event is posted the generator is suspended. A timeout then cancels
the whole dispatch, if the loop is what it guards. -/
def turn (d : Dispatch) (st : SignalState) (input : Input) : Option (Turn × SignalState) :=
  match d.stream.posting with
  | none => d.execution.turn st input
  | some _ =>
      match input with
      | .timeout _ => if d.execution.point.guarded then some (.ends .raised, st) else none
      | _ => none

def yielded (d : Dispatch) (event : TaskEvent) (next : Execution) : Dispatch where
  execution := next
  stream := d.stream.post event
  reported := d.reported || isResult event

/-- The generator takes the turn, or a timeout ends the dispatch while it posts. -/
theorem turn_cases {d : Dispatch} {st st' : SignalState} {input : Input} {t : Turn}
    (h : d.turn st input = some (t, st')) :
    d.execution.turn st input = some (t, st') ∨ (t = .ends .raised ∧ st' = st) := by
  unfold turn at h
  split at h
  · exact .inl h
  · split at h
    · split at h
      · cases h
        exact .inr ⟨rfl, rfl⟩
      · cases h
    · cases h

end Dispatch

/-- The state the task poller, its dispatches and the signal poller share. The
tasks in flight are those with a dispatch. -/
structure Sidecar where
  dispatches : Table String Dispatch Dispatch.taskId
  signals : SignalState

namespace Sidecar

/-- One round over the polled tasks: those in flight are skipped, and the round
stops at the concurrency limit. -/
def round (maxConcurrent : Nat) (c : Sidecar) : List PendingTask → Sidecar
  | [] => c
  | task :: rest =>
      match c.dispatches.insert? (.start task) with
      | none => round maxConcurrent c rest
      | some dispatches =>
          if maxConcurrent ≤ c.dispatches.rows.length then c
          else round maxConcurrent
            { dispatches, signals := c.signals.registerTask task.taskId } rest

def put (c : Sidecar) (d : Dispatch) : Sidecar := { c with dispatches := c.dispatches.put d }

/-- The `finally` of `_dispatch`. -/
def finish (c : Sidecar) (taskId : String) : Sidecar where
  dispatches := c.dispatches.erase taskId
  signals := c.signals.unregisterTask taskId

theorem round_dispatches {maxConcurrent : Nat} {c : Sidecar} {tasks : List PendingTask}
    {d : Dispatch} (member : d ∈ (c.round maxConcurrent tasks).dispatches) :
    d ∈ c.dispatches ∨ ∃ task ∈ tasks, d = .start task := by
  induction tasks generalizing c with
  | nil => exact .inl member
  | cons task rest ih =>
      simp only [round] at member
      split at member
      · exact (ih member).imp_right fun ⟨t, later, same⟩ => ⟨t, List.mem_cons_of_mem _ later, same⟩
      · rename_i dispatches inserted
        split at member
        · exact .inl member
        · rcases ih member with before | ⟨t, later, same⟩
          · rcases (Table.mem_insert? inserted).mp before with old | rfl
            · exact .inl old
            · exact .inr ⟨task, List.mem_cons_self, rfl⟩
          · exact .inr ⟨t, List.mem_cons_of_mem _ later, same⟩

/-- A live dispatch outlasts the round, and the signals of its task with it. -/
theorem round_live (maxConcurrent : Nat) {c : Sidecar} (tasks : List PendingTask) {id : String}
    {d : Dispatch} (live : c.dispatches.find? id = some d) :
    (c.round maxConcurrent tasks).dispatches.find? id = some d ∧
      SignalState.entry? (c.round maxConcurrent tasks).signals id = c.signals.entry? id := by
  induction tasks generalizing c with
  | nil => exact ⟨live, rfl⟩
  | cons task rest ih =>
      simp only [round]
      split
      · exact ih live
      · rename_i dispatches inserted
        split
        · exact ⟨live, rfl⟩
        · have other : (Dispatch.start task).taskId ≠ id := by
            rintro rfl
            rw [(Table.insert?_eq_some.mp inserted).1] at live
            cases live
          obtain ⟨later, entry⟩ := ih (c := { dispatches, signals := c.signals.registerTask task.taskId })
            (by rw [Table.find?_insert? inserted, if_neg other, live])
          refine ⟨later, entry.trans ?_⟩
          exact (SignalState.entry?_registerTask _ _ _).trans (if_neg (Ne.symm other))

theorem round_flags {maxConcurrent : Nat} {c : Sidecar} {tasks : List PendingTask}
    {cause : String → Prop} : FlagsFrom cause c.signals (c.round maxConcurrent tasks).signals := by
  induction tasks generalizing c with
  | nil => exact .of_entries rfl
  | cons task rest ih =>
      simp only [round]
      split
      · exact ih
      · split
        · exact .of_entries rfl
        · exact (FlagsFrom.registerTask task.taskId).trans ih

end Sidecar
end Fleet.Agent
