/- What the poll for signals returns, against what it is to return. -/
import Fleet.Api.Operations

namespace Fleet.Api
open Fleet.Lib

/-! ## The poll as it is -/

/-- The elements that the poll has put together when it comes to its last statement. -/
def signalItems (env : Env) (s : Store) (agentId : String) : List SignalItem :=
  (signalEvents s (activeTaskIds s agentId)).map (eventSignal env)

/-- `now() - interval` is a time, `now() - timestamp` an interval, and no time is compared with one. -/
theorem recentlyTerminated_unresolved : Sql.resolves recentlyTerminatedConditions = false := by decide

/-- An agent with an active task gets the error of the last statement, any other the empty list. -/
theorem getPendingSignals_run (env : Env) (s : Store) (agentId : String) :
    (getPendingSignals env agentId).run Store.flush s =
      (if activeTaskIds s agentId = [] then .ok [] else .error (.db .undefinedOperator), s) := by
  have unresolved : ∀ q : Store → List Task, Db.select recentlyTerminatedConditions q =
      .done (.error (.db .undefinedOperator)) := by
    intro q
    rw [Db.select, Db.under, recentlyTerminated_unresolved]
    rfl
  simp only [getPendingSignals, unresolved, Db.query, Prog.run_bind, Prog.run, Prog.pure_eq]
  split <;> rfl

theorem activeTaskIds_mem {s : Store} {agentId id : String} :
    id ∈ activeTaskIds s agentId ↔ ∃ t ∈ s.tasks, isActiveFor agentId t = true ∧ t.id = id := by
  simp only [activeTaskIds, List.mem_map, List.mem_filter, Table.mem_rows, and_assoc]

theorem activeTaskIds_ne_nil {s : Store} {agentId : String} {t : Task} (member : t ∈ s.tasks)
    (active : isActiveFor agentId t = true) : activeTaskIds s agentId ≠ [] :=
  List.ne_nil_of_mem (activeTaskIds_mem.mpr ⟨t, member, active, rfl⟩)

theorem getPendingSignals_raises {env : Env} {s : Store} {agentId : String} {t : Task} (member : t ∈ s.tasks)
    (active : isActiveFor agentId t = true) :
    (getPendingSignals env agentId).run Store.flush s = (.error (.db .undefinedOperator), s) := by
  rw [getPendingSignals_run, if_neg (activeTaskIds_ne_nil member active)]

theorem getPendingSignals_empty {env : Env} {s : Store} {agentId : String} {signals : List SignalItem}
    (returned : ((getPendingSignals env agentId).run Store.flush s).1 = .ok signals) : signals = [] := by
  rw [getPendingSignals_run] at returned
  dsimp only at returned
  split at returned
  · exact (Except.ok.inj returned).symm
  · cases returned

/-! ## The poll as it is to be -/

theorem signalEvents_mem {s : Store} {ids : List String} {e : TaskEvent} :
    e ∈ signalEvents s ids ↔ e ∈ s.events ∧ e.taskId ∈ ids ∧ e.eventType ∈ signalEventTypes := by
  rw [signalEvents, List.mem_insertionSort, List.mem_filter, Table.mem_rows, decide_eq_true_eq]

/-- The event is stored for a running or paused task of the agent. -/
def OnActiveTask (s : Store) (agentId : String) (e : TaskEvent) : Prop :=
  ∃ t ∈ s.tasks, isActiveFor agentId t = true ∧ t.id = e.taskId

theorem mem_signalItems {env : Env} {s : Store} {agentId : String} {item : SignalItem} :
    item ∈ signalItems env s agentId ↔ ∃ e ∈ s.events, e.eventType ∈ signalEventTypes ∧
      OnActiveTask s agentId e ∧ eventSignal env e = item := by
  simp only [signalItems, List.mem_map, signalEvents_mem, activeTaskIds_mem, OnActiveTask]
  constructor
  · rintro ⟨e, ⟨stored, active, type⟩, same⟩
    exact ⟨e, stored, type, active, same⟩
  · rintro ⟨e, stored, type, active, same⟩
    exact ⟨e, ⟨stored, active, type⟩, same⟩

/-- A task of the agent that was cancelled or redirected within the last minute. -/
def StoppedOfLate (agentId : String) (dbNow : Time) (t : Task) : Prop :=
  isTerminatedFor agentId t = true ∧ ∃ at', t.completedAt = some at' ∧ dbNow - 60 * 1000000 ≤ at'

/-- What the poll of an agent is to return: the stops of its tasks, and the signal events of those
that are active. -/
structure SignalsComplete (env : Env) (dbNow : Time) (s : Store) (agentId : String)
    (answer : Except Failure (List SignalItem)) : Prop where
  stops : ∀ t ∈ s.tasks, StoppedOfLate agentId dbNow t →
    ∃ signals, answer = .ok signals ∧ stopSignal env t ∈ signals
  events : ∀ e ∈ s.events, e.eventType ∈ signalEventTypes → OnActiveTask s agentId e →
    ∃ signals, answer = .ok signals ∧ eventSignal env e ∈ signals

/-- The poll returns all that it is to return if and only if there is nothing to return. -/
theorem signals_complete_iff (env : Env) (dbNow : Time) (s : Store) (agentId : String) :
    SignalsComplete env dbNow s agentId ((getPendingSignals env agentId).run Store.flush s).1 ↔
      (¬ ∃ t ∈ s.tasks, StoppedOfLate agentId dbNow t) ∧
        ¬ ∃ e ∈ s.events, e.eventType ∈ signalEventTypes ∧ OnActiveTask s agentId e := by
  have nothing : ∀ item, ¬ ∃ signals, ((getPendingSignals env agentId).run Store.flush s).1 = .ok signals ∧
      item ∈ signals := by
    rintro item ⟨signals, returned, member⟩
    rw [getPendingSignals_empty returned] at member
    cases member
  constructor
  · intro complete
    refine ⟨?_, ?_⟩
    · rintro ⟨t, member, stopped⟩
      exact nothing _ (complete.stops t member stopped)
    · rintro ⟨e, stored, type, active⟩
      exact nothing _ (complete.events e stored type active)
  · rintro ⟨unstopped, silent⟩
    refine ⟨fun t member stopped => ?_, fun e stored type active => ?_⟩
    · exact absurd ⟨t, member, stopped⟩ unstopped
    · exact absurd ⟨e, stored, type, active⟩ silent

namespace Demo

def cancelled : List Step :=
  running ++ [.op (.cancelTask (at' 2) "wf" "task-a" "principal" none)]

def cancelledBeside : List Step := cancelled ++ [
  .op (create 3 "b"), .op (post 4 "task-b" "status" [("status", .str "running")] 2)]

end Demo

/-- A second after the cancellation of the agent's only task its poll is empty, and with another
task running it raises. -/
theorem lone_cancel_not_reported :
    (((getPendingSignals Demo.env "executor").run Store.flush
          (runSteps Demo.env Demo.cancelled Demo.store)).1 = .ok [] ∧
      ¬ SignalsComplete Demo.env 3000000 (runSteps Demo.env Demo.cancelled Demo.store) "executor" (.ok [])) ∧
    (((getPendingSignals Demo.env "executor").run Store.flush
          (runSteps Demo.env Demo.cancelledBeside Demo.store)).1 = .error (.db .undefinedOperator) ∧
      ¬ SignalsComplete Demo.env 5000000 (runSteps Demo.env Demo.cancelledBeside Demo.store) "executor"
        (.error (.db .undefinedOperator))) := by
  have alone : ∃ t ∈ (runSteps Demo.env Demo.cancelled Demo.store).tasks.rows,
      isTerminatedFor "executor" t = true ∧ t.completedAt = some 2000000 := by decide +kernel
  have beside : ∃ t ∈ (runSteps Demo.env Demo.cancelledBeside Demo.store).tasks.rows,
      isTerminatedFor "executor" t = true ∧ t.completedAt = some 2000000 := by decide +kernel
  have idle : activeTaskIds (runSteps Demo.env Demo.cancelled Demo.store) "executor" = [] := by decide +kernel
  have busy : activeTaskIds (runSteps Demo.env Demo.cancelledBeside Demo.store) "executor" ≠ [] := by
    decide +kernel
  refine ⟨⟨by rw [getPendingSignals_run, if_pos idle], fun complete => ?_⟩,
    by rw [getPendingSignals_run, if_neg busy], fun complete => ?_⟩
  · obtain ⟨t, member, terminated, late⟩ := alone
    obtain ⟨signals, returned, inside⟩ := complete.stops t member ⟨terminated, _, late, by decide⟩
    cases returned
    cases inside
  · obtain ⟨t, member, terminated, late⟩ := beside
    obtain ⟨signals, returned, -⟩ := complete.stops t member ⟨terminated, _, late, by decide⟩
    cases returned

end Fleet.Api
