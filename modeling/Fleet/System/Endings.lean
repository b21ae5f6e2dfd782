/- The status a task is left with when its dispatch ends. -/
import Fleet.System.Sequences

namespace Fleet.System
open Fleet.Lib Fleet.Api
open Fleet.Agent (Stream Post Dispatch Point Input Outcome Ending runningEvent maxRetries)

/-- A dispatch that ends after a result, an error, a timeout or a stop leaves the
task in a terminal status. -/
def Concluded (log : List Report) : Prop :=
  ∀ id status, .ended id status true ∈ log → ∃ b, status = some b ∧ isTerminal b = true

/-! ## What a run is assumed to be, and what it must avoid -/

/-- The number is above the log of the task and fits its column. -/
def Admissible (cfg : Setup) (s : Store) (id : String) (event : Agent.TaskEvent) : Prop :=
  s.maxSequence id < cfg.number s id event.sequence ∧
    fitsInteger (cfg.number s id event.sequence) = true

instance (cfg : Setup) (s : Store) (id : String) (event : Agent.TaskEvent) :
    Decidable (Admissible cfg s id event) := by
  unfold Admissible
  infer_instance

/-- Every posted event arrives under an admissible number, and no retries are
exhausted: only a server error precedes the processing, and a post whose last retry
is reached has a final answer. -/
def Reliable (cfg : Setup) (st : State) : Action → Prop
  | .arrive lane _ => ∀ p ∈ st.posting? lane, Admissible cfg st.store p.1 p.2.event
  | .refuse _ code => 500 ≤ code
  | .settle lane outcome => ∀ p ∈ st.posting? lane, p.2.attempt < maxRetries ∨
      outcome = .raised ∨ ∃ code ∈ p.2.answer, code < 500
  | _ => True

instance (cfg : Setup) (st : State) (a : Action) : Decidable (Reliable cfg st a) := by
  unfold Reliable
  split <;> infer_instance

def Store.terminal (s : Store) (id : String) : Bool := (s.status? id).any isTerminal

/-- The input ends the execution without an event: an exception that the generator
does not handle, or its timeout while an event is being posted. -/
def abandons (d : Dispatch) : Input → Bool
  | .timeout _ => d.stream.posting.isSome
  | input => input.crashes

/-- Unless the task has ended already, no completed or failed event arrives without
data or while the task is paused, no execution is abandoned, and no exception ends
the post of a dispatch. -/
def Orderly (st : State) : Action → Prop
  | .arrive lane _ => ∀ p ∈ st.posting? lane, Dispatch.isResult p.2.event = true →
      Store.terminal st.store p.1 = true ∨
        (p.2.event.data.isSome = true ∧ st.store.status? p.1 ≠ some .paused)
  | .advance taskId input => ∀ d ∈ st.sidecar.dispatches.find? taskId,
      abandons d input = true → Store.terminal st.store taskId = true
  | .settle (.dispatch taskId) .raised =>
      (st.posting? (.dispatch taskId)).isSome = true → Store.terminal st.store taskId = true
  | _ => True

instance (st : State) (a : Action) : Decidable (Orderly st a) := by
  unfold Orderly
  split <;> infer_instance

/-! ## Events that arrive are granted -/

section arrival
variable {cfg : Setup}

theorem arrival_applies {clk : Clock} {s : Store} {id : String} {event : Agent.TaskEvent} {data : Dict}
    {t t' : Task} (reachable : Reachable cfg.env s) (shape : event.data = some data)
    (stored : s.tasks.find? id = some t) (executor : t.executorAgentId = some cfg.agentId)
    (admissible : Admissible cfg s id event) (known : event.eventType ∈ validEventTypes)
    (applied : applyEvent clk event.eventType data t = .ok t') :
    (cfg.arrival clk s id event).store.tasks.find? id = some t' := by
  have positive : ¬ (cfg.request s id event data).sequence ≤ 0 := by
    have one := one_le_maxSequence reachable stored
    have above := admissible.1
    simp only [Setup.request]
    omega
  simp only [Setup.arrival, shape, positive, if_false]
  exact @processSidecarEvent_applies cfg.env clk (cfg.request s id event data) s t t' known stored
    executor admissible.1 admissible.2 applied

theorem arrival_grants {clk : Clock} {s : Store} {id : String} {event : Agent.TaskEvent} {data : Dict}
    {status before : TaskStatus} (reachable : Reachable cfg.env s) (shape : event.data = some data)
    (stored : s.Holds id (some cfg.agentId) (fun b => b = before))
    (admissible : Admissible cfg s id event) (known : event.eventType ∈ validEventTypes)
    (requests : Requests event.eventType data status) (valid : status ∈ validTransitions before) :
    (cfg.arrival clk s id event).store.Holds id (some cfg.agentId) (fun b => b = status) := by
  obtain ⟨t, found, executor, rfl⟩ := stored
  obtain ⟨t', applied, now, origin⟩ := @applyEvent_grants clk _ _ t _ requests valid
  exact ⟨t', arrival_applies reachable shape found executor admissible known applied,
    origin.executor.trans executor, now⟩

end arrival

/-! ## The invariant -/

/-- The post under way has no final answer yet and carries such an event. -/
def Waiting (d : Dispatch) (P : Agent.TaskEvent → Prop) : Prop :=
  ∃ post, d.stream.posting = some post ∧ (∀ code ∈ post.answer, 500 ≤ code) ∧ P post.event

/-- The task of the dispatch is stored for the agent, in a status with the property. -/
def Stands (cfg : Setup) (s : Store) (d : Dispatch) (P : TaskStatus → Prop) : Prop :=
  s.Holds d.taskId (some cfg.agentId) P

/-- The first event still waits or the task has left `accepted`; a reported result
still waits or the task has ended; and so has the task of a stopped execution. -/
structure Accounted (cfg : Setup) (s : Store) (d : Dispatch) : Prop where
  announced : Waiting d (· = runningEvent) ∨ Stands cfg s d (fun b => b ≠ .accepted)
  reported : d.reported = true → Waiting d (fun e => Dispatch.isResult e = true) ∨
    Stands cfg s d (fun b => isTerminal b = true)
  closing : ∀ how, d.execution.point = .closing how →
    d.reported = true ∨ Stands cfg s d (fun b => isTerminal b = true)

/-- A stop flag is only set for a task that was cancelled or redirected. -/
def Stopping (cfg : Setup) (st : State) : Prop :=
  ∀ p ∈ st.sidecar.signals.entries, p.2.flagged = true →
    st.store.Holds p.1 (some cfg.agentId) (fun b => b = .cancelled ∨ b = .redirected)

structure Accounts (cfg : Setup) (st : State) (log : List Report) : Prop where
  placed : Placed cfg st
  stopping : Stopping cfg st
  accounted : ∀ d ∈ st.sidecar.dispatches, Accounted cfg st.store d
  concluded : Concluded log

section step
variable {cfg : Setup} {st : State} {log : List Report} {a : Action} {d : Dispatch}

theorem Stopping.step (h : Stopping cfg st) (placed : Placed cfg st) (a : Action) :
    Stopping cfg (cfg.step st a).1 := by
  intro p member flag
  apply step_holds permanent_stopped
  rcases (@step_frame cfg st a).flags p member flag with
    ⟨q, old, same, before⟩ | ⟨sig, queued, own, stops⟩
  · rw [← same]
    exact h q old before
  · rw [own]
    exact (placed.queued sig queued).stopped stops

theorem Stopping.terminal (h : Stopping cfg st) {e : Agent.TaskSignals}
    (entry : st.sidecar.signals.entry? d.taskId = some e) (flag : e.flagged = true) :
    Stands cfg st.store d (fun b => isTerminal b = true) := by
  refine (h _ (Agent.entry?_mem entry) flag).imp ?_
  rintro b (rfl | rfl) <;> rfl

theorem Accounted.idle (h : Accounted cfg st.store d) (idle : d.stream.posting = none) :
    Stands cfg st.store d (fun b => b ≠ .accepted) ∧
      (d.reported = true → Stands cfg st.store d (fun b => isTerminal b = true)) := by
  have waits : ∀ {P}, ¬ Waiting d P := by
    intro P given
    obtain ⟨post, posting, _⟩ := given
    rw [idle] at posting
    cases posting
  exact ⟨h.announced.resolve_left waits, fun reported => (h.reported reported).resolve_left waits⟩

/-- The `running` event of an accepted task starts it. -/
theorem arrival_announces (placed : Placed cfg st) (member : d ∈ st.sidecar.dispatches) {clk : Clock}
    (admissible : Admissible cfg st.store d.taskId runningEvent) :
    (cfg.arrival clk st.store d.taskId runningEvent).store.Holds d.taskId (some cfg.agentId)
      (fun b => b ≠ .accepted) := by
  obtain ⟨t, found, executor, _⟩ := placed.dispatched d member
  by_cases accepted : t.status = .accepted
  · refine (@arrival_grants cfg clk _ _ runningEvent _ .running .accepted placed.reachable rfl
      ⟨t, found, executor, accepted⟩ admissible (by decide) (.inl ⟨rfl, rfl⟩) (by decide)).imp ?_
    intro b same
    subst same
    decide
  · exact cfg.arrival_holds permanent_announced ⟨t, found, executor, accepted⟩ clk _ _

theorem arrival_concludes (placed : Placed cfg st) {clk : Clock} {event : Agent.TaskEvent}
    (admissible : Admissible cfg st.store d.taskId event) (result : Dispatch.isResult event = true)
    (announced : Stands cfg st.store d (fun b => b ≠ .accepted))
    (orderly : Store.terminal st.store d.taskId = true ∨
      (event.data.isSome = true ∧ st.store.status? d.taskId ≠ some .paused)) :
    (cfg.arrival clk st.store d.taskId event).store.Holds d.taskId (some cfg.agentId)
      (fun b => isTerminal b = true) := by
  obtain ⟨t, found, executor, started⟩ := announced
  have status : st.store.status? d.taskId = some t.status := by rw [Store.status?, found]; rfl
  by_cases ended : isTerminal t.status = true
  · exact cfg.arrival_holds permanent_terminal ⟨t, found, executor, ended⟩ clk _ _
  · obtain ⟨some, unpaused⟩ := orderly.resolve_left fun terminal => by
      rw [Store.terminal, status] at terminal
      exact ended terminal
    obtain ⟨data, shape⟩ := Option.isSome_iff_exists.mp some
    have running : t.status = .running := by
      rw [status] at unpaused
      cases now : t.status <;> simp_all [isTerminal, terminalStates]
    simp only [Dispatch.isResult, Bool.or_eq_true, decide_eq_true_eq] at result
    rcases result with type | type
    · refine (@arrival_grants cfg clk _ _ event data .completed .running placed.reachable shape
        ⟨t, found, executor, running⟩ admissible (by rw [type]; decide) (.inr (.inl ⟨type, rfl⟩))
        (by decide)).imp ?_
      intro b same
      subst same
      rfl
    · refine (@arrival_grants cfg clk _ _ event data .failed .running placed.reachable shape
        ⟨t, found, executor, running⟩ admissible (by rw [type]; decide) (.inr (.inr ⟨type, rfl⟩))
        (by decide)).imp ?_
      intro b same
      subst same
      rfl

theorem Accounted.kept (h : Accounted cfg st.store d) : Accounted cfg (cfg.step st a).1.store d :=
  ⟨h.announced.imp_right (step_holds permanent_announced),
    fun reported => (h.reported reported).imp_right (step_holds permanent_terminal),
    fun how point => (h.closing how point).imp_right (step_holds permanent_terminal)⟩

theorem Waiting.event {P : Agent.TaskEvent → Prop} (h : Waiting d P) {post : Post}
    (posting : d.stream.posting = some post) : P post.event := by
  obtain ⟨first, current, _, holds⟩ := h
  obtain rfl : first = post := Option.some.inj (current.symm.trans posting)
  exact holds

theorem Accounted.reposted {s : Store} (h : Accounted cfg s d) {post post' : Post}
    (posting : d.stream.posting = some post) (unanswered : ∀ code ∈ post'.answer, 500 ≤ code)
    (same : post'.event = post.event) :
    Accounted cfg s { d with stream := { d.stream with posting := some post' } } := by
  have waits : ∀ {P}, Waiting d P →
      Waiting { d with stream := { d.stream with posting := some post' } } P := by
    intro P waiting
    have holds : P post.event := waiting.event posting
    exact ⟨post', rfl, unanswered, same ▸ holds⟩
  exact ⟨h.announced.imp_left waits, fun reported => (h.reported reported).imp_left waits, h.closing⟩

theorem Accounted.answered (h : Accounted cfg st.store d) (placed : Placed cfg st)
    (member : d ∈ st.sidecar.dispatches) {post : Post} (posting : d.stream.posting = some post)
    {clk : Clock} (reliable : Reliable cfg st (.arrive (.dispatch d.taskId) clk))
    (orderly : Orderly st (.arrive (.dispatch d.taskId) clk))
    (now : (cfg.step st a).1.store = (cfg.arrival clk st.store d.taskId post.event).store)
    (post' : Post) : Accounted cfg (cfg.step st a).1.store
      { d with stream := { d.stream with posting := some post' } } := by
  have posted : st.posting? (.dispatch d.taskId) = some (d.taskId, post) :=
    State.posting_dispatch.mpr ⟨d, member, rfl, rfl, posting⟩
  have admissible : Admissible cfg st.store d.taskId post.event := reliable _ posted
  have concludes : Dispatch.isResult post.event = true →
      Stands cfg (cfg.step st a).1.store d (fun b => isTerminal b = true) := by
    intro result
    have announced : Stands cfg st.store d (fun b => b ≠ .accepted) := by
      refine h.announced.resolve_left fun waiting => ?_
      have running : post.event = runningEvent := waiting.event posting
      rw [running] at result
      exact absurd result (by decide)
    rw [Stands, now]
    exact arrival_concludes placed admissible result announced (orderly _ posted result)
  refine ⟨.inr ?_, fun reported => .inr ?_, fun how point => ?_⟩
  · rcases h.announced with waiting | announced
    · have running : post.event = runningEvent := waiting.event posting
      rw [now, running]
      exact arrival_announces placed member (running ▸ admissible)
    · exact step_holds permanent_announced announced
  · rcases h.reported reported with waiting | ended
    · exact concludes (waiting.event posting)
    · exact step_holds permanent_terminal ended
  · exact (h.closing how point).imp_right (step_holds permanent_terminal)

theorem Accounted.yielded (h : Accounted cfg st.store d) (idle : d.stream.posting = none)
    {event : Agent.TaskEvent} {next : Agent.Execution} (task : next.task = d.execution.task)
    (closing : ∀ how, next.point = .closing how → Dispatch.isResult event = true ∨
      Stands cfg st.store d (fun b => isTerminal b = true)) :
    Accounted cfg (cfg.step st a).1.store (d.yielded event next) := by
  obtain ⟨announced, ended⟩ := h.idle idle
  have same : (d.yielded event next).taskId = d.taskId := congrArg Agent.PendingTask.taskId task
  have keeps : ∀ {P}, Permanent P → Stands cfg st.store d P →
      Stands cfg (cfg.step st a).1.store (d.yielded event next) P := by
    intro P permanent stands
    rw [Stands, same]
    exact step_holds permanent stands
  refine ⟨.inr (keeps permanent_announced announced), fun reported => ?_, fun how point => ?_⟩
  · rcases (Bool.or_eq_true _ _).mp reported with before | result
    · exact .inr (keeps permanent_terminal (ended before))
    · exact .inl ⟨_, rfl, nofun, result⟩
  · refine (closing how point).imp (fun result => ?_) (keeps permanent_terminal)
    exact (Bool.or_eq_true _ _).mpr (.inr result)

theorem Accounts.accounted_step (h : Accounts cfg st log) (reliable : Reliable cfg st a)
    (orderly : Orderly st a) (member : d ∈ (cfg.step st a).1.sidecar.dispatches) :
    Accounted cfg (cfg.step st a).1.store d := by
  cases step_dispatch member with
  | kept _ old => exact (h.accounted d old).kept
  | fresh task offered =>
      exact ⟨.inl ⟨_, rfl, nofun, rfl⟩, nofun, nofun⟩
  | answered e old post posting clk served now reports =>
      subst served
      exact (h.accounted e old).answered h.placed old posting reliable orderly now _
  | refused e old post posting code served =>
      subst served
      have before := (h.accounted e old).kept (a := .refuse (.dispatch e.taskId) code)
      refine @Accounted.reposted _ _ _ before post { post with answer := some code } posting ?_ rfl
      intro other same
      cases same
      exact reliable
  | retried e old post posting =>
      exact ((h.accounted e old).kept (a := a)).reposted posting nofun rfl
  | settled e old post posting outcome served returned =>
      subst served
      have kept := reliable (e.taskId, post)
        (State.posting_dispatch.mpr ⟨e, old, rfl, rfl, posting⟩)
      obtain ⟨code, answered, final⟩ := post.settle_returned returned kept
      have waits : ∀ {P}, ¬ Waiting e P := by
        intro P waiting
        obtain ⟨first, current, unanswered, _⟩ := waiting
        obtain rfl : first = post := Option.some.inj (current.symm.trans posting)
        exact absurd final (Nat.not_lt.mpr (unanswered code answered))
      have before := (h.accounted e old).kept (a := .settle (.dispatch e.taskId) outcome)
      exact ⟨.inr (before.announced.resolve_left waits),
        fun reported => .inr ((before.reported reported).resolve_left waits), before.closing⟩
  | started e old idle next input signals turn =>
      obtain ⟨_, rfl⟩ := turn_started turn
      have before := (h.accounted e old).kept (a := a)
      exact ⟨.inr (before.idle idle).1, fun reported => .inr ((before.idle idle).2 reported), nofun⟩
  | awaits e old idle next input signals turn =>
      have before := (h.accounted e old).kept (a := a)
      cases Agent.turn_cases turn with
      | awaits live point inside =>
          exact ⟨.inr (before.idle idle).1, fun reported => .inr ((before.idle idle).2 reported),
            fun how last => absurd last (inside how)⟩
  | yields e old idle event next input signals turn =>
      refine (h.accounted e old).yielded idle (Agent.turn_task turn) fun how last => ?_
      generalize outcome : Agent.Turn.yields event next = t at turn
      cases Agent.turn_cases turn with
      | speaks live said point inside =>
          cases outcome
          exact absurd last (inside how)
      | fails error details =>
          cases outcome
          exact .inl rfl
      | cancels live k entry flag =>
          cases outcome
          exact .inr (h.stopping.terminal entry (by rw [Agent.TaskSignals.flagged, flag]; rfl))
      | started | awaits | redirects | crashes | exits | closes => cases outcome

/-- Whatever ends a dispatch conclusively, its task has ended. -/
theorem Accounts.ended_step (h : Accounts cfg st log) (reliable : Reliable cfg st a)
    (orderly : Orderly st a) : Concluded (cfg.step st a).2 := by
  intro id status ended
  generalize report : Report.ended id status true = r at ended
  cases report_cases ended with
  | ended e old how cause =>
      obtain ⟨rfl, rfl, conclusive⟩ := Report.ended.inj report
      suffices terminal : Stands cfg st.store e (fun b => isTerminal b = true) from terminal.status
      have orderly_terminal : Store.terminal st.store e.taskId = true →
          Stands cfg st.store e (fun b => isTerminal b = true) := by
        intro terminal
        obtain ⟨t, found, executor, _⟩ := h.placed.dispatched e old
        rw [Store.terminal, Store.status?, found] at terminal
        exact ⟨t, found, executor, terminal⟩
      have account := h.accounted e old
      rcases cause with ⟨input, signals, rfl, turn⟩ | ⟨post, outcome, rfl, posting, raised⟩
      · have stored : e ∈ st.sidecar.dispatches.find? e.taskId := Table.find?_mem old
        cases idle : e.stream.posting with
        | some post =>
            cases input with
            | timeout stderr => exact orderly_terminal (orderly e stored (by simp [abandons, idle]))
            | launched | notFound | launchError | fed | feedError | go | line | exited | gone =>
                simp [Dispatch.turn, idle] at turn
        | none =>
            obtain ⟨_, finished⟩ := account.idle idle
            simp only [Dispatch.turn, idle] at turn
            cases Agent.turn_cases turn with
            | redirects k entry flag =>
                exact h.stopping.terminal entry (by simp [Agent.TaskSignals.flagged, flag])
            | crashes broken =>
                refine orderly_terminal (orderly e stored ?_)
                cases input <;> first | exact broken | cases broken
            | exits drained =>
                rw [decide_eq_false (by decide), Bool.or_false] at conclusive
                exact finished conclusive.symm
            | closes _ last =>
                rcases account.closing how last with reported | terminal
                · exact finished reported
                · exact terminal
      · obtain rfl := Agent.Post.settle_raised raised
        refine orderly_terminal (orderly ?_)
        rw [State.posting_dispatch.mpr ⟨e, old, rfl, rfl, posting⟩]
        rfl
  | moved | started | arrived | settled => cases report

theorem Accounts.step (h : Accounts cfg st log) {a : Action}
    (condition : Reliable cfg st a ∧ Orderly st a) :
    Accounts cfg (cfg.step st a).1 (log ++ (cfg.step st a).2) := by
  refine ⟨h.placed.step a, h.stopping.step h.placed a, fun d member => ?_, fun id status ended => ?_⟩
  · exact h.accounted_step condition.1 condition.2 member
  · rcases List.mem_append.mp ended with before | now
    · exact h.concluded id status before
    · exact h.ended_step condition.1 condition.2 id status now

end step

/-- In a reliable run, a dispatch that ends conclusively leaves its task in a terminal
status, unless a result reached a paused task or an execution was abandoned. -/
theorem ended_terminal (cfg : Setup) {store : Store} (blank : store.Blank) (as : List Action)
    (orderly : cfg.machine.Along (fun st a => Reliable cfg st a ∧ Orderly st a) (.initial store) as) :
    Concluded (cfg.observe store as).2 := by
  have kept : Accounts cfg (cfg.observe store as).1 (cfg.observe store as).2 := by
    refine Setup.observe_invariant ?_ (fun _ _ a h condition => h.step condition) orderly
    refine ⟨.initial blank, ?_, ?_, ?_⟩
    · intro p member; cases member
    · intro d member; cases member
    · intro id status member; cases member
  exact kept.concluded

/-! ## A completion and a timeout lost to a pause -/

namespace Demo

def numbered : Setup := { setup with number := fun s id _ => s.maxSequence id + 1 }

def executing : List Action := create ++ take ++ post 1 ++ launch

def output (line : Dict) : List Action := [.advance "task-a" (.line (.value (.obj line)))]

def completed : List Action :=
  output [("event_type", .str "completed"), ("data", .obj [("result", .str "done")])]

def pause : List Action :=
  [.operate (.pauseTask (Api.Demo.at' 2) "wf" "task-a" "principal" none) rfl]

def next : List Action := [.advance "task-a" .go]

def concluded : List Action := executing ++ completed ++ post 3 ++ next ++ exit

/-- The principal pauses before the completed event arrives. -/
def racing : List Action := executing ++ pause ++ completed ++ post 3 ++ next ++ exit

/-- The principal pauses, and the handler writes nothing until its timeout. -/
def timedOut : List Action :=
  executing ++ pause ++ [.advance "task-a" (.timeout "")] ++ post 4 ++ next

/-- The completed event carries no data. -/
def bare : List Action :=
  executing ++ output [("event_type", .str "completed")] ++ post 3 ++ next ++ exit

end Demo

theorem ended_terminal_concluded :
    Concluded (Demo.numbered.observe Api.Demo.store Demo.concluded).2 ∧
      .ended "task-a" (some .completed) true ∈
        (Demo.numbered.observe Api.Demo.store Demo.concluded).2 :=
  ⟨ended_terminal Demo.numbered Api.Demo.store_blank Demo.concluded (by decide +kernel),
    by decide +kernel⟩

/-- A reliable run whose dispatch ended conclusively, with the task still in a status. -/
def Orphaned (cfg : Setup) (store : Store) (as : List Action) (status : TaskStatus) : Prop :=
  cfg.machine.Along (Reliable cfg) (.initial store) as ∧
    ∃ id, .ended id (some status) true ∈ (cfg.observe store as).2

theorem Orphaned.not_concluded {cfg : Setup} {store : Store} {as : List Action} {status : TaskStatus}
    (h : Orphaned cfg store as status) (active : isTerminal status = false) :
    ¬ Concluded (cfg.observe store as).2 := by
  intro concluded
  obtain ⟨id, ended⟩ := h.2
  obtain ⟨b, same, terminal⟩ := concluded id _ ended
  obtain rfl : status = b := Option.some.inj same
  exact absurd terminal (by rw [active]; decide)

/-- The completed event that meets a pause, the timeout of a paused execution and the
completed event without data are refused, and nothing reports them again. -/
theorem results_lost :
    (Orphaned Demo.numbered Api.Demo.store Demo.racing .paused ∧
      ¬ Concluded (Demo.numbered.observe Api.Demo.store Demo.racing).2) ∧
    (Orphaned Demo.numbered Api.Demo.store Demo.timedOut .paused ∧
      ¬ Concluded (Demo.numbered.observe Api.Demo.store Demo.timedOut).2) ∧
    (Orphaned Demo.numbered Api.Demo.store Demo.bare .running ∧
      ¬ Concluded (Demo.numbered.observe Api.Demo.store Demo.bare).2) := by
  have racing : Orphaned Demo.numbered Api.Demo.store Demo.racing .paused :=
    ⟨by decide +kernel, "task-a", by decide +kernel⟩
  have timedOut : Orphaned Demo.numbered Api.Demo.store Demo.timedOut .paused :=
    ⟨by decide +kernel, "task-a", by decide +kernel⟩
  have bare : Orphaned Demo.numbered Api.Demo.store Demo.bare .running :=
    ⟨by decide +kernel, "task-a", by decide +kernel⟩
  exact ⟨⟨racing, racing.not_concluded rfl⟩, ⟨timedOut, timedOut.not_concluded rfl⟩,
    ⟨bare, bare.not_concluded rfl⟩⟩

end Fleet.System
