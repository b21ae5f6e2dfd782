/- The numbers of the sidecar's posts against the numbers of the event log. -/
import Fleet.Api.EventLog
import Fleet.System.Placement

namespace Fleet.System
open Fleet.Lib Fleet.Api
open Fleet.Agent (Stream Post Dispatch runningEvent)

/-- The setup in which a post keeps the number the streamer gave it. -/
def Setup.streamed (cfg : Setup) : Setup := { cfg with number := asStreamed }

/-- Every post of the task that is over was processed, and every one that was
processed was numbered above the log of the task. -/
structure Admitted (id : String) (log : List Report) : Prop where
  above : ∀ b, .arrived id b ∈ log → b = true
  reached : ∀ b, .settled id b ∈ log → b = true

def Unheard (id : String) (log : List Report) : Prop :=
  ∀ b, .arrived id b ∉ log ∧ .settled id b ∉ log

theorem Unheard.append {id : String} {log out : List Report} :
    Unheard id (log ++ out) ↔ Unheard id log ∧ Unheard id out := by
  simp only [Unheard, List.mem_append, not_or, forall_and]
  tauto

theorem Admitted.earlier {id : String} {log out : List Report} (h : Admitted id (log ++ out)) :
    Admitted id log :=
  ⟨fun b member => h.above b (List.mem_append_left _ member),
    fun b member => h.reached b (List.mem_append_left _ member)⟩

/-! ## The first post of a stream -/

theorem one_le_maxSequence {env : Env} {s : Store} (reachable : Reachable env s) {id : String}
    {t : Task} (stored : s.tasks.find? id = some t) : 1 ≤ s.maxSequence id := by
  obtain ⟨e, rest, shape, one⟩ := (reachable.logged.history id t stored).head
  obtain ⟨member, own⟩ := Store.mem_eventsOf.mp (by rw [shape]; exact List.mem_cons_self :
    e ∈ s.eventsOf id)
  have bound := Store.le_maxSequence member
  rw [own] at bound
  calc 1 = e.sequence := one.symm
    _ ≤ s.maxSequence id := bound

def FirstPost (s : Stream) : Prop :=
  ∃ post, s.posting = some post ∧ post.event = runningEvent ∧ post.reached = false

theorem firstPost_start : FirstPost Stream.start := ⟨_, rfl, rfl, rfl⟩

theorem FirstPost.current {s : Stream} {post : Post} (h : FirstPost s) (posting : s.posting = some post) :
    post.event = runningEvent ∧ post.reached = false := by
  obtain ⟨first, current, first_post⟩ := h
  obtain rfl : first = post := Option.some.inj (current.symm.trans posting)
  exact first_post

theorem FirstPost.busy {s : Stream} (h : FirstPost s) : s.posting ≠ none := by
  obtain ⟨post, current, _⟩ := h
  rw [current]
  nofun

theorem arrival_running {cfg : Setup} {clk : Clock} {s : Store} {id : String} {b : Bool}
    (h : (cfg.streamed.arrival clk s id runningEvent).above = some b) :
    b = decide (s.maxSequence id < 1) := by
  have above : (cfg.streamed.arrival clk s id runningEvent).above =
      some (decide (s.maxSequence id < 1)) := rfl
  rw [above] at h
  exact (Option.some.inj h).symm

/-! ## The invariant -/

/-- As long as no post of the task was heard of, each of its streams still is at its
first; and whatever was heard first breaks the promise. -/
structure Sequencing (cfg : Setup) (id : String) (st : State) (log : List Report) : Prop where
  placed : Placed cfg.streamed st
  dispatched : Unheard id log → ∀ d ∈ st.sidecar.dispatches, d.taskId = id → FirstPost d.stream
  acked : Unheard id log → ∀ k, st.ack = some k → k.taskId = id → FirstPost k.stream
  broken : Unheard id log ∨ ¬ Admitted id log

section step
variable {cfg : Setup} {id : String} {st : State} {log : List Report} {a : Action}

theorem Sequencing.initial {store : Store} (blank : store.Blank) :
    Sequencing cfg id (.initial store) [] := by
  refine ⟨.initial blank, ?_, ?_, .inl ?_⟩
  · intro _ d member; cases member
  · intro _ k current; cases current
  · intro b
    exact ⟨List.not_mem_nil, List.not_mem_nil⟩

theorem Sequencing.posting (h : Sequencing cfg id st log) (unheard : Unheard id log) {lane : Lane}
    {post : Post} (posting : st.posting? lane = some (id, post)) :
    post.event = runningEvent ∧ post.reached = false ∧ 1 ≤ st.store.maxSequence id := by
  have known : ∀ {P}, st.store.Holds id (some cfg.agentId) P → 1 ≤ st.store.maxSequence id := by
    intro P given
    obtain ⟨t, stored, _⟩ := given
    exact one_le_maxSequence h.placed.reachable stored
  cases lane with
  | dispatch taskId =>
      obtain ⟨d, member, own, rfl, sending⟩ := State.posting_dispatch.mp posting
      obtain ⟨running, fresh⟩ := (h.dispatched unheard d member own).current sending
      exact ⟨running, fresh, known (own ▸ h.placed.dispatched d member)⟩
  | ack =>
      obtain ⟨k, current, rfl, sending⟩ := State.posting_ack.mp posting
      obtain ⟨running, fresh⟩ := (h.acked unheard k current rfl).current sending
      exact ⟨running, fresh, known (h.placed.acked k current)⟩

theorem Sequencing.first_heard (h : Sequencing cfg id st log) (unheard : Unheard id log)
    (heard : ¬ Unheard id (cfg.streamed.step st a).2) :
    ¬ Admitted id (log ++ (cfg.streamed.step st a).2) := by
  intro admitted
  apply heard
  intro b
  constructor
  · intro arrived
    have good := admitted.above b (List.mem_append_right _ arrived)
    cases report_cases arrived with
    | arrived lane clk _ post posting _ numbered =>
        obtain ⟨running, _, known⟩ := h.posting unheard posting
        rw [running] at numbered
        have low := (arrival_running numbered).symm.trans good
        rw [decide_eq_true_eq] at low
        omega
  · intro settled
    have good := admitted.reached b (List.mem_append_right _ settled)
    generalize report : Report.settled id b = r at settled
    cases report_cases settled with
    | settled lane taskId post posting =>
        obtain ⟨rfl, rfl⟩ := Report.settled.inj report
        obtain ⟨_, fresh, _⟩ := h.posting unheard posting
        exact absurd (fresh.symm.trans good) (by decide)
    | moved | started | arrived | ended => cases report

theorem Sequencing.step (h : Sequencing cfg id st log) (a : Action) :
    Sequencing cfg id (cfg.streamed.step st a).1 (log ++ (cfg.streamed.step st a).2) := by
  refine ⟨h.placed.step a, ?_, ?_, ?_⟩
  · intro unheard d member own
    obtain ⟨before, out⟩ := Unheard.append.mp unheard
    cases step_dispatch member with
    | kept _ old => exact h.dispatched before d old own
    | fresh => exact firstPost_start
    | answered e old post posting clk served now reports =>
        obtain ⟨running, fresh⟩ := (h.dispatched before e old own).current posting
        refine ⟨_, rfl, running, ?_⟩
        cases above : (cfg.streamed.arrival clk st.store e.taskId post.event).above with
        | none => simp [fresh]
        | some b => exact absurd (reports b above) (own ▸ (out b).1)
    | refused e old post posting | retried e old post posting =>
        obtain ⟨running, fresh⟩ := (h.dispatched before e old own).current posting
        exact ⟨_, rfl, running, fresh⟩
    | settled e old post posting outcome served returned reports =>
        exact absurd reports (own ▸ (out _).2)
    | started e old idle next input signals turn =>
        obtain ⟨_, rfl⟩ := turn_started turn
        exact absurd idle (h.dispatched before e old own).busy
    | awaits e old idle next input signals turn =>
        cases Agent.turn_cases turn with
        | awaits => exact absurd idle (h.dispatched before e old own).busy
    | yields e old idle event next input signals turn =>
        have same : e.taskId = next.task.taskId := congrArg _ (Agent.turn_task turn).symm
        exact absurd idle (h.dispatched before e old (same.trans own)).busy
  · intro unheard k current own
    obtain ⟨before, out⟩ := Unheard.append.mp unheard
    cases step_ack current with
    | kept _ old => exact h.acked before k old own
    | fresh sig queued _ same stream => rw [stream]; exact firstPost_start
    | answered j old post posting code reached reports =>
        obtain ⟨running, fresh⟩ := (h.acked before j old own).current posting
        refine ⟨_, rfl, running, ?_⟩
        cases heard : reached with
        | false => rfl
        | true =>
            rcases reports heard with earlier | ⟨b, report⟩
            · exact absurd (fresh.symm.trans earlier) (by decide)
            · exact absurd report (own ▸ (out b).1)
    | retried j old post posting =>
        obtain ⟨running, fresh⟩ := (h.acked before j old own).current posting
        exact ⟨_, rfl, running, fresh⟩
    | next j old post posting reports => exact absurd reports (own ▸ (out _).2)
  · rcases h.broken with before | broken
    · by_cases out : Unheard id (cfg.streamed.step st a).2
      · exact .inl (Unheard.append.mpr ⟨before, out⟩)
      · exact .inr (h.first_heard before out)
    · exact .inr fun admitted => broken admitted.earlier

end step

/-- The first post of a task that is heard of is numbered one or lost, so the promise
holds of no run in which a post of the task was processed or is over. -/
theorem admitted_iff_unheard (cfg : Setup) {store : Store} (blank : store.Blank)
    (as : List Action) (id : String) :
    Admitted id (cfg.streamed.observe store as).2 ↔ Unheard id (cfg.streamed.observe store as).2 := by
  have kept : Sequencing cfg id (cfg.streamed.observe store as).1
      (cfg.streamed.observe store as).2 :=
    Setup.observe_invariant (.initial blank) (fun _ _ a h _ => h.step a) (Machine.along_true _ as)
  constructor
  · intro admitted
    exact kept.broken.resolve_right fun broken => broken admitted
  · intro unheard
    exact ⟨fun b member => absurd member (unheard b).1, fun b member => absurd member (unheard b).2⟩

theorem admitted_iff_unheard_take :
    Admitted "task-a" (Demo.setup.streamed.observe Api.Demo.store (Demo.create ++ Demo.take)).2 :=
  (admitted_iff_unheard Demo.setup Api.Demo.store_blank (Demo.create ++ Demo.take) "task-a").mpr
    fun b => by cases b <;> decide +kernel

/-- The `running` event of a task that was just created carries the number of its
`created` event: it is refused and the task stays accepted. -/
theorem running_event_refused :
    let run := Demo.setup.streamed.observe Api.Demo.store (Demo.create ++ Demo.take ++ Demo.post 1)
    run.2 = [.arrived "task-a" false, .settled "task-a" true] ∧
      run.1.store.status? "task-a" = some .accepted ∧ ¬ Admitted "task-a" run.2 := by
  intro run
  have log : run.2 = [.arrived "task-a" false, .settled "task-a" true] := by decide +kernel
  refine ⟨log, by decide +kernel, fun admitted => ?_⟩
  have above := admitted.above false (by rw [log]; exact List.mem_cons_self)
  cases above

end Fleet.System
