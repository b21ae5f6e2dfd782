/- The signals of the service as the sidecar reads them. -/
import Fleet.Api.PendingSignals
import Fleet.Agent.Signals

namespace Fleet.System
open Fleet.Lib
open Fleet.Api (Env Store Time SignalItem)

/-- One element of the `signals` array of the answer. -/
def itemJson (item : SignalItem) : Json := .obj (
  [("task_id", .str item.taskId), ("signal_type", .str item.signalType),
    ("timestamp", .str item.timestamp)] ++
  (item.payload.map fun d => ("payload", .obj d)).toList)

/-- The kind of a signal, under the name the service gives it. -/
def kindOf (signalType : String) : Option Agent.Handler :=
  match signalType with
  | "pause_requested" => some .pause
  | "resume_requested" => some .resume
  | "cancel_requested" => some .cancel
  | "redirect_requested" => some .redirect
  | "context_injected" => some .contextInjection
  | _ => none

/-- The sidecar accepts the element and, for a registered task, runs the handler
of its kind. -/
def Understood (item : SignalItem) : Prop :=
  ∃ sig kind, Agent.Signal.modelValidate (itemJson item) = some sig ∧
    sig.taskId = item.taskId ∧ kindOf item.signalType = some kind ∧
    ∀ (st : Agent.SignalState) e, st.entry? sig.taskId = some e →
      Agent.handleSignal st sig =
        (st.update sig.taskId (fun _ => (Agent.runHandler (item.payload.getD []) e kind).1),
          (Agent.runHandler (item.payload.getD []) e kind).2)

/-- Every element of a list that is returned is understood, and an injection for an active task
is in a list that the sidecar takes as a whole. -/
structure PollUnderstood (env : Env) (s : Store) (agentId : String)
    (answer : Except Api.Failure (List SignalItem)) : Prop where
  each : ∀ items, answer = .ok items → ∀ item ∈ items, Understood item
  injections : ∀ e ∈ s.events, e.eventType = "context_injected" → Api.OnActiveTask s agentId e →
    ∃ items sigs, answer = .ok items ∧ Api.eventSignal env e ∈ items ∧
      Agent.pollSignals (items.map itemJson) = some sigs ∧
      sigs.map Agent.Signal.taskId = items.map SignalItem.taskId

theorem modelValidate_itemJson (item : SignalItem) :
    Agent.Signal.modelValidate (itemJson item) =
      (Agent.SignalType.ofValue? item.signalType).map fun signalType =>
        { taskId := item.taskId, signalType, timestamp := item.timestamp, payload := item.payload } := by
  cases payload : item.payload with
  | none => cases known : Agent.SignalType.ofValue? item.signalType <;>
      simp [Agent.Signal.modelValidate, itemJson, payload, Dict.get?, List.lookup_cons, Json.str?, known,
        Agent.optionalDict]
  | some d => cases known : Agent.SignalType.ofValue? item.signalType <;>
      simp [Agent.Signal.modelValidate, itemJson, payload, Dict.get?, List.lookup_cons, Json.str?, known,
        Agent.optionalDict]

theorem understood_of_known {item : SignalItem} {signalType : Agent.SignalType}
    (known : Agent.SignalType.ofValue? item.signalType = some signalType)
    (kind : kindOf item.signalType = some (Agent.handlerFor signalType)) : Understood item := by
  refine ⟨{ taskId := item.taskId, signalType, timestamp := item.timestamp, payload := item.payload },
    _, ?_, rfl, kind, fun st e found => ?_⟩
  · rw [modelValidate_itemJson, known]
    rfl
  · simp only [Agent.handleSignal, found]

theorem not_understood {item : SignalItem} (type : item.signalType = "context_injected") :
    ¬ Understood item := by
  intro given
  obtain ⟨sig, _, accepted, _⟩ := given
  have unknown : Agent.SignalType.ofValue? "context_injected" = none := by decide
  rw [modelValidate_itemJson, type, unknown] at accepted
  cases accepted

theorem mapM_understood {items : List SignalItem} (each : ∀ item ∈ items, Understood item) :
    ∃ sigs, Agent.pollSignals (items.map itemJson) = some sigs ∧
      sigs.map Agent.Signal.taskId = items.map SignalItem.taskId := by
  induction items with
  | nil => exact ⟨[], rfl, rfl⟩
  | cons item items ih =>
      obtain ⟨sigs, polled, ids⟩ := ih fun i member => each i (List.mem_cons_of_mem _ member)
      obtain ⟨sig, _, accepted, same, _⟩ := each item List.mem_cons_self
      refine ⟨sig :: sigs, ?_, by rw [List.map_cons, ids, same, List.map_cons]⟩
      unfold Agent.pollSignals at polled ⊢
      simp [accepted, polled]

/-- The sidecar takes what the poll has put together unless the store holds a context injection
for an active task of the agent: the two programs have two names for it. -/
theorem signalItems_understood_iff (env : Env) (s : Store) (agentId : String) :
    ((∀ item ∈ Api.signalItems env s agentId, Understood item) ∧
        ∃ sigs, Agent.pollSignals ((Api.signalItems env s agentId).map itemJson) = some sigs ∧
          sigs.map Agent.Signal.taskId = (Api.signalItems env s agentId).map SignalItem.taskId) ↔
      ¬ ∃ e ∈ s.events, e.eventType = "context_injected" ∧ Api.OnActiveTask s agentId e := by
  constructor
  · rintro ⟨understood, -⟩ ⟨e, stored, type, active⟩
    have signal : Api.eventSignal env e ∈ Api.signalItems env s agentId :=
      Api.mem_signalItems.mpr ⟨e, stored, by rw [type]; decide, active, rfl⟩
    exact not_understood type (understood _ signal)
  · intro none
    suffices each : ∀ item ∈ Api.signalItems env s agentId, Understood item from ⟨each, mapM_understood each⟩
    intro item member
    obtain ⟨e, stored, type, active, rfl⟩ := Api.mem_signalItems.mp member
    simp only [Api.signalEventTypes, List.mem_cons, List.not_mem_nil, or_false] at type
    rcases type with pause | resume | context
    · refine @understood_of_known _ .pauseRequested ?_ ?_ <;>
        simp only [Api.eventSignal, pause] <;> rfl
    · refine @understood_of_known _ .resumeRequested ?_ ?_ <;>
        simp only [Api.eventSignal, resume] <;> rfl
    · exact absurd ⟨e, stored, context, active⟩ none

/-- A poll is understood if and only if the store holds no context injection for an active
task of the agent. -/
theorem poll_understood_iff (env : Env) (s : Store) (agentId : String) :
    PollUnderstood env s agentId ((Api.getPendingSignals env agentId).run Store.flush s).1 ↔
      ¬ ∃ e ∈ s.events, e.eventType = "context_injected" ∧ Api.OnActiveTask s agentId e := by
  constructor
  · rintro understood ⟨e, stored, type, active⟩
    obtain ⟨items, _, returned, member, -⟩ := understood.injections e stored type active
    rw [Api.getPendingSignals_empty returned] at member
    cases member
  · intro none
    refine ⟨fun items returned item member => ?_, fun e stored type active => ?_⟩
    · rw [Api.getPendingSignals_empty returned] at member
      cases member
    · exact absurd ⟨e, stored, type, active⟩ none

namespace Demo

def injected : List Api.Step := Api.Demo.paused ++ [
  .op (Api.Demo.create 3 "b"),
  .op (Api.Demo.post 4 "task-b" "status" [("status", .str "running")] 2),
  .op (.injectContext (Api.Demo.at' 5) "c"
    { workflowId := "wf", taskId := "task-b", callerAgentId := "principal"
      contextType := "correction", payload := [], sequence := 1 })]

def injectedStore : Store := Api.runSteps Api.Demo.env injected Api.Demo.store

end Demo

/-- The poll raises, and neither the injection nor the pause of the other task is returned; and
the sidecar would refuse the two as they had been put together. -/
theorem injection_aborts_poll :
    ((Api.getPendingSignals Api.Demo.env "executor").run Store.flush Demo.injectedStore).1 =
        .error (.db .undefinedOperator) ∧
      ¬ PollUnderstood Api.Demo.env Demo.injectedStore "executor" (.error (.db .undefinedOperator)) ∧
      (Api.signalItems Api.Demo.env Demo.injectedStore "executor").map
          (fun item => (item.taskId, item.signalType)) =
        [("task-a", "pause_requested"), ("task-b", "context_injected")] ∧
      Agent.pollSignals ((Api.signalItems Api.Demo.env Demo.injectedStore "executor").map itemJson) =
        none := by
  have busy : Api.activeTaskIds Demo.injectedStore "executor" ≠ [] := by decide +kernel
  refine ⟨by rw [Api.getPendingSignals_run, if_neg busy], fun understood => ?_, by decide +kernel,
    by decide +kernel⟩
  have injection : ∃ e ∈ Demo.injectedStore.events.rows, e.eventType = "context_injected" ∧
      ∃ t ∈ Demo.injectedStore.tasks.rows, Api.isActiveFor "executor" t = true ∧ t.id = e.taskId := by
    decide +kernel
  obtain ⟨e, stored, type, active⟩ := injection
  obtain ⟨items, _, returned, -⟩ := understood.injections e stored type active
  cases returned

end Fleet.System
