/- Every task the sidecar deals with is stored for its agent, and a signal concerns a
   task that is no longer accepted. -/
import Fleet.System.Steps

namespace Fleet.System
open Fleet.Lib Fleet.Api
open Fleet.Agent (PendingTask Signal SignalState Sidecar Dispatch Stream Post Outcome Input Ending
  SignalType)

variable {cfg : Setup} {st : State} {a : Action}

/-! ## What a list brings -/

theorem pendingTasks_mem {s : Store} {taskIds : List String} {task : PendingTask}
    (listed : task ∈ cfg.pendingTasks taskIds s) :
    s.Holds task.taskId (some cfg.agentId) (fun _ => True) := by
  obtain ⟨t, kept, rfl⟩ := List.mem_map.mp listed
  obtain ⟨found, own⟩ := List.mem_filter.mp kept
  obtain ⟨id, -, stored⟩ := List.mem_filterMap.mp found
  simp only [Bool.and_eq_true, decide_eq_true_eq] at own
  have row := (Table.find?_eq_some.mp stored).1
  exact ⟨t, Table.find?_mem row, own.1, trivial⟩

/-- A signal concerns a task of the agent that has left `accepted`; a cancel or
redirect signal, one that was cancelled or redirected. -/
structure SignalPlaced (cfg : Setup) (s : Store) (sig : Signal) : Prop where
  announced : s.Holds sig.taskId (some cfg.agentId) (fun b => b ≠ .accepted)
  stopped : sig.signalType.stops = true →
    s.Holds sig.taskId (some cfg.agentId) (fun b => b = .cancelled ∨ b = .redirected)

theorem pendingSignals_mem {s : Store} {signals : List Signal} {sig : Signal}
    (listed : sig ∈ cfg.pendingSignals signals s) : SignalPlaced cfg s sig := by
  obtain ⟨-, announced⟩ := List.mem_filter.mp listed
  obtain ⟨t, stored, given⟩ := (Option.any_eq_true _ _).mp announced
  obtain ⟨own, status⟩ := (Bool.and_eq_true _ _).mp given
  have own := of_decide_eq_true own
  cases stops : sig.signalType.stops with
  | false =>
      rw [stops] at status
      refine ⟨⟨t, stored, own, fun accepted => ?_⟩, fun impossible => by cases stops.symm.trans impossible⟩
      rw [accepted] at status
      exact absurd status (by decide)
  | true =>
      rw [stops] at status
      have ended : t.status = .cancelled ∨ t.status = .redirected := by simpa using status
      refine ⟨⟨t, stored, own, fun accepted => ?_⟩, fun _ => ⟨t, stored, own, ended⟩⟩
      rw [accepted] at ended
      rcases ended with impossible | impossible <;> cases impossible

/-! ## The invariant -/

structure Placed (cfg : Setup) (st : State) : Prop where
  reachable : Reachable cfg.env st.store
  offered : ∀ task ∈ st.offered, st.store.Holds task.taskId (some cfg.agentId) (fun _ => True)
  dispatched : ∀ d ∈ st.sidecar.dispatches,
    st.store.Holds d.taskId (some cfg.agentId) (fun _ => True)
  queued : ∀ sig ∈ st.queue, SignalPlaced cfg st.store sig
  acked : ∀ k, st.ack = some k → st.store.Holds k.taskId (some cfg.agentId) (fun b => b ≠ .accepted)

theorem Placed.initial {store : Store} (blank : store.Blank) : Placed cfg (.initial store) := by
  refine ⟨.start blank, ?_, ?_, ?_, ?_⟩
  · intro task member; cases member
  · intro d member; cases member
  · intro sig member; cases member
  · intro k current; cases current

theorem SignalPlaced.step {sig : Signal} (h : SignalPlaced cfg st.store sig) :
    SignalPlaced cfg (cfg.step st a).1.store sig :=
  ⟨step_holds permanent_announced h.announced,
    fun stops => step_holds permanent_stopped (h.stopped stops)⟩

theorem Placed.step (h : Placed cfg st) (a : Action) : Placed cfg (cfg.step st a).1 := by
  refine ⟨step_reachable h.reachable, ?_, ?_, ?_, ?_⟩
  · intro task member
    refine step_holds permanent_true ?_
    rcases (@step_frame cfg st a).offered task member with old | ⟨taskIds, listed⟩
    · exact h.offered task old
    · exact pendingTasks_mem listed
  · intro d member
    apply step_holds permanent_true
    cases step_dispatch member with
    | kept _ old => exact h.dispatched d old
    | fresh task offered => exact h.offered task offered
    | answered e old | refused e old | retried e old | settled e old => exact h.dispatched e old
    | started e old idle next input signals turn =>
        cases Agent.turn_cases turn with
        | started => exact h.dispatched e old
    | awaits e old idle next input signals turn =>
        cases Agent.turn_cases turn with
        | awaits => exact h.dispatched e old
    | yields e old idle event next input signals turn =>
        have placed := h.dispatched e old
        rw [Dispatch.taskId, ← Agent.turn_task turn] at placed
        exact placed
  · intro sig member
    apply SignalPlaced.step
    rcases (@step_frame cfg st a).queue sig member with old | ⟨signals, listed⟩
    · exact h.queued sig old
    · exact pendingSignals_mem listed
  · intro k current
    apply step_holds permanent_announced
    cases step_ack current with
    | kept _ old => exact h.acked k old
    | fresh sig queued _ own =>
        rw [own]
        exact (h.queued sig queued).announced
    | answered j old | retried j old | next j old => exact h.acked j old

end Fleet.System
