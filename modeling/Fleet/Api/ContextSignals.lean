/- The context signals of a run against the injections it accepted. -/
import Fleet.Api.EventLog
import Fleet.Api.PendingSignals

namespace Fleet.Api
open Fleet.Lib

/-- Filtering a stable sort is filtering first, where what is kept is in order already. -/
theorem filter_insertionSort {α : Type} {r : α → α → Prop} [DecidableRel r] [Std.Total r]
    [IsTrans α r] {p : α → Bool} {l : List α} (sorted : (l.filter p).Pairwise r) :
    (l.insertionSort r).filter p = l.filter p := by
  have inside : (l.filter p).Sublist (l.insertionSort r) :=
    List.sublist_insertionSort sorted List.filter_sublist
  have kept : (l.filter p).Sublist ((l.insertionSort r).filter p) := by
    have twice := inside.filter p
    simpa only [List.filter_filter, Bool.and_self] using twice
  have size : ((l.insertionSort r).filter p).length = (l.filter p).length :=
    ((List.perm_insertionSort r l).filter p).length_eq
  exact (kept.eq_of_length size.symm).symm

/-! ## What a run records -/

structure Injection where
  clk : Clock
  hex : String
  req : ContextRequest

def Injection.signal (env : Env) (i : Injection) : SignalItem where
  taskId := i.req.taskId
  signalType := "context_injected"
  timestamp := env.isoformat i.clk.now
  payload := some (injectionData i.req ("ctx-" ++ i.hex))

def Answered (r : Except Failure Answer) : Bool := r.isOk

/-- The injection a step accepts for the task, if it is one. -/
def Step.injections (env : Env) (taskId : String) (s : Store) : Step → List Injection
  | .op (.injectContext clk hex req) =>
      if req.taskId = taskId ∧ Answered ((Op.injectContext clk hex req).exec env s).1
      then [⟨clk, hex, req⟩] else []
  | _ => []

/-- The executor's own `context_injected` event a step accepts for the task. -/
def Step.echoes (env : Env) (taskId : String) (s : Store) : Step → List EventRequest
  | .op (.processSidecarEvent clk req) =>
      if req.taskId = taskId ∧ req.eventType = "context_injected" ∧
        Answered ((Op.processSidecarEvent clk req).exec env s).1
      then [req] else []
  | _ => []

def collect {α : Type} (env : Env) (f : Store → Step → List α) : List Step → Store → List α
  | [], _ => []
  | a :: steps, s => f s a ++ collect env f steps (a.exec env s)

theorem collect_append {α : Type} (env : Env) (f : Store → Step → List α) (as bs : List Step)
    (s : Store) :
    collect env f (as ++ bs) s = collect env f as s ++ collect env f bs (runSteps env as s) := by
  induction as generalizing s with
  | nil => rfl
  | cons a as ih =>
      rw [List.cons_append, collect, collect, ih, List.append_assoc]
      rfl

def acceptedInjections (env : Env) (taskId : String) : List Step → Store → List Injection :=
  collect env (Step.injections env taskId)

def acceptedEchoes (env : Env) (taskId : String) : List Step → Store → List EventRequest :=
  collect env (Step.echoes env taskId)

/-! ## One step -/

theorem contextEvents_append {s s' : Store} {es : List TaskEvent}
    (h : s'.events.rows = s.events.rows ++ es) (id : String) :
    contextEvents s' id = contextEvents s id ++
      es.filter (fun e => e.taskId = id ∧ e.eventType = "context_injected") := by
  rw [contextEvents, eventsOf_append h, List.filter_append, List.filter_filter, contextEvents]
  congr 1
  apply List.filter_congr
  intro e _
  simp [Bool.and_comm]

theorem not_context_of_recorded {e : TaskEvent} {status : TaskStatus}
    (records : recordedStatus e = some status) : e.eventType ≠ "context_injected" := by
  intro type
  rw [recordedStatus, type] at records
  cases records

theorem Change.contextEvents {env : Env} {s s' : Store} {w : Work}
    (change : Change env Eq (fun _ => False) s w) (committed : Store.flush w s = .ok s')
    (id : String) : contextEvents s' id = contextEvents s id := by
  have events := (Store.flush_effect committed change.current).2.2
  rw [contextEvents_append events]
  have silent : ∀ e ∈ w.newEvents, e.eventType ≠ "context_injected" := by
    intro e member
    cases change with
    | create task caller now fresh =>
        rw [List.mem_singleton.mp member]
        exact not_context_of_recorded (recordedStatus_created _ _ _ _)
    | move task task' e' touched valid records =>
        rw [List.mem_singleton.mp member]
        exact not_context_of_recorded records
    | note task task' e' touched same silent allowed => exact allowed.elim
    | inject task e' touched silent allowed => exact allowed.elim
    | succeed task task' e' touched valid superseded records =>
        simp only [List.mem_cons, List.not_mem_nil, or_false] at member
        rcases member with rfl | rfl
        · exact not_context_of_recorded records
        · exact not_context_of_recorded (recordedStatus_created _ _ _ _)
  have none : w.newEvents.filter (fun e => e.taskId = id ∧ e.eventType = "context_injected") = [] := by
    rw [List.filter_eq_nil_iff]
    intro e member kept
    exact silent e member (of_decide_eq_true kept).2
  rw [none, List.append_nil]

theorem injectContext_exec (env : Env) (clk : Clock) (hex : String) (req : ContextRequest)
    (s : Store) :
    let done := (Op.injectContext clk hex req).exec env s
    (Answered done.1 = false ∧ done.2 = s) ∨ (Answered done.1 = true ∧ ∃ last, Store.flush
      { newEvents := [injectionEvent clk hex req req.taskId last] } s = .ok done.2) := by
  have spec : ((Op.injectContext clk hex req).program env).wp Store.flush Eq
      (Change env Eq (fun _ => True)) (fun r s' => (Answered r = false ∧ s' = s) ∨
        (Answered r = true ∧ ∃ last, Store.flush
          { newEvents := [injectionEvent clk hex req req.taskId last] } s = .ok s')) s := by
    rw [Op.program, Prog.wp_bind]
    refine injectContext_wp env (fun _ => rfl) (fun _ _ _ => Eq.trans) (fun _ => trivial) ?_ ?_
    · intro e _ s' same
      subst same
      exact .inl ⟨rfl, rfl⟩
    · intro a last s₁ s' same committed
      subst same
      exact .inr ⟨rfl, last, committed⟩
  exact Prog.wp_run spec

theorem processSidecarEvent_exec (env : Env) (clk : Clock) (req : EventRequest) (s : Store) :
    let done := (Op.processSidecarEvent clk req).exec env s
    (Answered done.1 = false ∧ done.2 = s) ∨ (Answered done.1 = true ∧ ∃ task task', Store.flush
      { dirty := some (task, task'), newEvents := [sidecarEvent clk req] } s = .ok done.2) := by
  have spec : ((Op.processSidecarEvent clk req).program env).wp Store.flush Eq
      (Change env Eq (fun _ => True)) (fun r s' => (Answered r = false ∧ s' = s) ∨
        (Answered r = true ∧ ∃ task task', Store.flush
          { dirty := some (task, task'), newEvents := [sidecarEvent clk req] } s = .ok s')) s := by
    rw [Op.program, Prog.wp_bind]
    refine processSidecarEvent_wp env (fun _ => rfl) (fun _ _ _ => Eq.trans) trivial ?_ ?_
    · intro e _ s' same
      subst same
      exact .inl ⟨rfl, rfl⟩
    · rintro a task task' s₁ s₂ s' rfl committed rfl
      exact .inr ⟨rfl, task, task', committed⟩
  exact Prog.wp_run spec

/-- The context events a step adds to a task, and what they stand for. -/
structure Adds (env : Env) (injections : List Injection) (echoes : List EventRequest)
    (new : List TaskEvent) : Prop where
  count : new.length = injections.length + echoes.length
  signals : echoes = [] → new.map (eventSignal env) = injections.map (Injection.signal env) ∧
    new.map TaskEvent.createdAt = injections.map (fun i => i.clk.now)

theorem Adds.append {env : Env} {i j : List Injection} {e f : List EventRequest}
    {new more : List TaskEvent} (h : Adds env i e new) (k : Adds env j f more) :
    Adds env (i ++ j) (e ++ f) (new ++ more) := by
  refine ⟨?_, fun none => ?_⟩
  · rw [List.length_append, List.length_append, List.length_append, h.count, k.count]
    omega
  · obtain ⟨rfl, rfl⟩ := List.append_eq_nil_iff.mp none
    simp [h.signals rfl, k.signals rfl]

theorem step_context (env : Env) (id : String) (s : Store) (a : Step) :
    ∃ new, contextEvents (a.exec env s) id = contextEvents s id ++ new ∧
      Adds env (a.injections env id s) (a.echoes env id s) new := by
  have idle : ∀ {s'}, contextEvents s' id = contextEvents s id →
      ∃ new, contextEvents s' id = contextEvents s id ++ new ∧ Adds env [] [] new := by
    intro s' same
    exact ⟨[], by rw [same, List.append_nil], rfl, fun _ => ⟨rfl, rfl⟩⟩
  have quiet : ∀ o : Op, o.quiet = (fun _ => False) →
      contextEvents (o.exec env s).2 id = contextEvents s id := by
    intro o silent
    refine Prog.run_invariant (I := fun s' => contextEvents s' id = contextEvents s id)
      (fun s₁ w s₂ before change committed => ?_)
      (o.program_wp (Q := fun _ _ => True) (fun _ => rfl) (fun _ _ _ => Eq.trans) ?_ ?_ ?_) rfl
    · rw [silent] at change
      exact (change.contextEvents committed id).trans before
    all_goals intros; trivial
  cases a with
  | catalog agents workflows => exact idle rfl
  | op o =>
      cases o with
      | createTask | retaskTask | redirectTask | cancelTask | pauseTask | resumeTask =>
          exact idle (quiet _ rfl)
      | injectContext clk hex req =>
          rcases injectContext_exec env clk hex req s with ⟨refused, same⟩ | ⟨ok, last, committed⟩
          · simp only [Step.injections, Step.echoes, refused, Bool.false_eq_true, and_false, if_false]
            exact idle (by rw [Step.exec, same])
          · obtain ⟨_, _, _, _, _, events⟩ := Store.flush_ok committed
            have grown := contextEvents_append events id
            by_cases own : req.taskId = id
            · refine ⟨_, grown, ?_⟩
              simp only [Step.injections, Step.echoes, own, ok, and_self, if_true]
              refine ⟨by simp [injectionEvent], fun _ => ?_⟩
              simp [injectionEvent, own, eventSignal, Injection.signal, TaskEvent.dataD,
                injectionData]
            · simp only [Step.injections, Step.echoes, own, false_and, if_false]
              apply idle
              simpa [Step.exec, injectionEvent, own] using grown
      | processSidecarEvent clk req =>
          rcases processSidecarEvent_exec env clk req s with
            ⟨refused, same⟩ | ⟨ok, task, task', committed⟩
          · simp only [Step.injections, Step.echoes, refused, Bool.false_eq_true, and_false, if_false]
            exact idle (by rw [Step.exec, same])
          · obtain ⟨_, _, _, _, _, events⟩ := Store.flush_ok committed
            have grown := contextEvents_append events id
            by_cases echo : req.taskId = id ∧ req.eventType = "context_injected"
            · refine ⟨_, grown, ?_⟩
              simp only [Step.injections, Step.echoes, echo.1, echo.2, ok, and_self, if_true]
              refine ⟨by simp [sidecarEvent, echo], fun none => by cases none⟩
            · have other : Step.echoes env id s (.op (.processSidecarEvent clk req)) = [] := by
                simp only [Step.echoes, ← and_assoc]
                rw [if_neg]
                exact fun all => echo all.1
              rw [other]
              apply idle
              simpa [Step.exec, sidecarEvent, echo] using grown

/-! ## Whole runs -/

theorem run_context (env : Env) (id : String) (steps : List Step) (s : Store) :
    ∃ new, contextEvents (runSteps env steps s) id = contextEvents s id ++ new ∧
      Adds env (acceptedInjections env id steps s) (acceptedEchoes env id steps s) new := by
  induction steps generalizing s with
  | nil => exact ⟨[], (List.append_nil _).symm, rfl, fun _ => ⟨rfl, rfl⟩⟩
  | cons a steps ih =>
      obtain ⟨new, first, adds⟩ := step_context env id s a
      obtain ⟨more, rest, adds'⟩ := ih (a.exec env s)
      refine ⟨new ++ more, ?_, adds.append adds'⟩
      rw [← List.append_assoc, ← first]
      exact rest

/-- The context signals of one task among the signals of a poll. -/
def contextSignals (signals : List SignalItem) (taskId : String) : List SignalItem :=
  signals.filter (fun i => i.taskId = taskId ∧ i.signalType = "context_injected")

theorem contextSignals_items {env : Env} {s : Store} {agentId id : String} :
    contextSignals (signalItems env s agentId) id =
      ((signalEvents s (activeTaskIds s agentId)).filter
        (fun e => e.taskId = id ∧ e.eventType = "context_injected")).map (eventSignal env) := by
  rw [contextSignals, signalItems, List.filter_map]
  rfl

theorem selected_context {s : Store} {agentId : String} {t : Task} (member : t ∈ s.tasks)
    (active : isActiveFor agentId t = true) :
    (s.events.rows.filter (fun e => e.taskId ∈ activeTaskIds s agentId ∧
        e.eventType ∈ signalEventTypes)).filter
      (fun e => e.taskId = t.id ∧ e.eventType = "context_injected") = contextEvents s t.id := by
  have listed : t.id ∈ activeTaskIds s agentId := activeTaskIds_mem.mpr ⟨t, member, active, rfl⟩
  rw [contextEvents, Store.eventsOf, List.filter_filter, List.filter_filter]
  apply List.filter_congr
  intro e _
  by_cases own : e.taskId = t.id
  · by_cases context : e.eventType = "context_injected"
    · simp [own, context, listed, signalEventTypes]
    · simp [own, context]
  · simp [own]

/-- What the poll has put together for an active task are the accepted injections, in the order
of their acceptance, if the executor echoed none of them and each was accepted at a later instant
than the one before; with an echo it never is. -/
theorem signalItems_injections (env : Env) (agentId : String) {s : Store} (blank : s.Blank)
    (steps : List Step) : ∀ t ∈ (runSteps env steps s).tasks, isActiveFor agentId t = true →
      (acceptedEchoes env t.id steps s = [] →
        ((acceptedInjections env t.id steps s).map (fun i => i.clk.now)).Pairwise (· < ·) →
        contextSignals (signalItems env (runSteps env steps s) agentId) t.id =
          (acceptedInjections env t.id steps s).map (Injection.signal env)) ∧
      (acceptedEchoes env t.id steps s ≠ [] →
        contextSignals (signalItems env (runSteps env steps s) agentId) t.id ≠
          (acceptedInjections env t.id steps s).map (Injection.signal env)) := by
  intro t member active
  obtain ⟨new, events, adds⟩ := run_context env t.id steps s
  have empty : contextEvents s t.id = [] := by
    rw [contextEvents, blank.eventsOf]
    rfl
  rw [empty, List.nil_append] at events
  rw [contextSignals_items]
  constructor
  · intro none increasing
    obtain ⟨signals, times⟩ := adds.signals none
    have sorted : (contextEvents (runSteps env steps s) t.id).Pairwise
        (fun a b => a.createdAt ≤ b.createdAt) := by
      rw [← times, List.pairwise_map] at increasing
      rw [events]
      exact increasing.imp Int.le_of_lt
    rw [signalEvents, filter_insertionSort, selected_context member active, events, signals]
    rw [selected_context member active]
    exact sorted
  · intro some same
    have size := congrArg List.length same
    have perm := (List.perm_insertionSort (fun a b : TaskEvent => a.createdAt ≤ b.createdAt)
      ((runSteps env steps s).events.rows.filter (fun e => e.taskId ∈
        activeTaskIds (runSteps env steps s) agentId ∧ e.eventType ∈ signalEventTypes))).filter
      (fun e => e.taskId = t.id ∧ e.eventType = "context_injected")
    have count := perm.length_eq
    rw [selected_context member active, events, adds.count] at count
    rw [List.length_map, List.length_map, signalEvents, count] at size
    have : (acceptedEchoes env t.id steps s).length = 0 := by omega
    exact some (List.eq_nil_of_length_eq_zero this)

/-- The signals that a poll returns: none where it raises. -/
def returnedSignals : Except Failure (List SignalItem) → List SignalItem
  | .ok signals => signals
  | .error _ => []

/-- For an active task, the context signals that a poll returns are the accepted injections if
and only if there are none: the poll of an agent with an active task raises. -/
theorem context_signals_are_injections (env : Env) (agentId : String) {s : Store} (steps : List Step) :
    ∀ t ∈ (runSteps env steps s).tasks, isActiveFor agentId t = true →
      (contextSignals (returnedSignals
          ((getPendingSignals env agentId).run Store.flush (runSteps env steps s)).1) t.id =
        (acceptedInjections env t.id steps s).map (Injection.signal env) ↔
          acceptedInjections env t.id steps s = []) := by
  intro t member active
  rw [getPendingSignals_raises member active]
  constructor
  · intro same
    exact List.map_eq_nil_iff.mp same.symm
  · intro none
    rw [none]
    rfl

namespace Demo

def injection (second : Int) (hex : String) (sequence : Int) : Step :=
  .op (.injectContext (at' second) hex
    { workflowId := "wf", taskId := "task-a", callerAgentId := "principal"
      contextType := "correction", payload := [], sequence })

def twoInjections : List Step := running ++ [injection 3 "b" 1, injection 4 "c" 2]

/-- The executor reports the injection it delivered, as `_read_events` does. -/
def echo : Step := .op (post 5 "task-a" "context_injected"
  [("context_type", .str "correction"), ("context_sequence", .num 1), ("payload", .obj []),
    ("urgency", .str "normal")] 4)

def echoed : List Step := running ++ [injection 3 "b" 1, echo]

end Demo

theorem context_signals_are_injections_running :
    contextSignals (returnedSignals ((getPendingSignals Demo.env "executor").run Store.flush
      (runSteps Demo.env Demo.running Demo.store)).1) "task-a" = [] := by
  obtain ⟨t, member, active, id⟩ : ∃ t ∈ (runSteps Demo.env Demo.running Demo.store).tasks.rows,
      isActiveFor "executor" t = true ∧ t.id = "task-a" := by decide +kernel
  have none : acceptedInjections Demo.env t.id Demo.running Demo.store = [] := by
    rw [id]
    decide +kernel
  have returns := (context_signals_are_injections Demo.env "executor" Demo.running t member active).mpr none
  rw [none, id] at returns
  exact returns

/-- Two accepted injections, and a poll that raises; after an echo, what it has put together
has an element more than there are injections. -/
theorem echo_returned_as_signal :
    ((acceptedInjections Demo.env "task-a" Demo.twoInjections Demo.store).length = 2 ∧
      ((getPendingSignals Demo.env "executor").run Store.flush
        (runSteps Demo.env Demo.twoInjections Demo.store)).1 = .error (.db .undefinedOperator) ∧
      contextSignals (returnedSignals ((getPendingSignals Demo.env "executor").run Store.flush
        (runSteps Demo.env Demo.twoInjections Demo.store)).1) "task-a" ≠
          (acceptedInjections Demo.env "task-a" Demo.twoInjections Demo.store).map
            (Injection.signal Demo.env)) ∧
    ((acceptedInjections Demo.env "task-a" Demo.echoed Demo.store).length = 1 ∧
      (contextSignals (signalItems Demo.env
        (runSteps Demo.env Demo.echoed Demo.store) "executor") "task-a").map SignalItem.timestamp =
          ["1970-01-01T00:00:03+00:00", "1970-01-01T00:00:05+00:00"]) := by
  have two : (acceptedInjections Demo.env "task-a" Demo.twoInjections Demo.store).length = 2 := by
    decide +kernel
  have busy : activeTaskIds (runSteps Demo.env Demo.twoInjections Demo.store) "executor" ≠ [] := by
    decide +kernel
  have raises : ((getPendingSignals Demo.env "executor").run Store.flush
      (runSteps Demo.env Demo.twoInjections Demo.store)).1 = .error (.db .undefinedOperator) := by
    rw [getPendingSignals_run, if_neg busy]
  refine ⟨⟨two, raises, fun same => ?_⟩, by decide +kernel⟩
  rw [raises] at same
  have size := congrArg List.length same
  rw [List.length_map, two] at size
  cases size

end Fleet.Api
