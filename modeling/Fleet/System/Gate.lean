/- The execution gate: when a handler process is started, and how often. -/
import Fleet.System.Sequences

namespace Fleet.System
open Fleet.Lib Fleet.Api
open Fleet.Agent (Stream Post Dispatch Point runningEvent)

/-- The handler of the task is started at most once, and only after the service
recorded the transition from accepted to running. -/
structure Gated (id : String) (log : List Report) : Prop where
  recorded : Preceded (· = .started id) (· = .moved id .accepted .running) log
  once : log.count (.started id) ≤ 1

/-- The handler has not been started: only the `running` event, or that the command
was not found, is being posted. -/
def NotStarted (d : Dispatch) : Prop :=
  (d.execution.point = .launch ∧ ∀ post, d.stream.posting = some post → post.event = runningEvent) ∨
    ∃ how, d.execution.point = .closing how ∧
      ∀ post, d.stream.posting = some post → post.event.eventType = "failed"

theorem NotStarted.not_live {d : Dispatch} (h : NotStarted d) : d.execution.point.live = false := by
  rcases h with ⟨point, _⟩ | ⟨how, point, _⟩ <;> rw [point] <;> rfl

structure Opening (cfg : Setup) (id : String) (st : State) (log : List Report) : Prop where
  placed : Placed cfg.streamed st
  dispatched : ∀ d ∈ st.sidecar.dispatches, d.taskId = id → .started id ∈ log ∨ NotStarted d
  late : Preceded (· = .moved id .accepted .running) (· = .started id) log

section step
variable {cfg : Setup} {id : String} {st : State} {log : List Report} {a : Action}

theorem Opening.initial {store : Store} (blank : store.Blank) :
    Opening cfg id (.initial store) [] := by
  refine ⟨.initial blank, ?_, .nil⟩
  intro d member; cases member

theorem Opening.dispatched_step (h : Opening cfg id st log) {d : Dispatch}
    (member : d ∈ (cfg.streamed.step st a).1.sidecar.dispatches) (own : d.taskId = id) :
    .started id ∈ log ++ (cfg.streamed.step st a).2 ∨ NotStarted d := by
  have before : ∀ {e f : Dispatch}, e ∈ st.sidecar.dispatches → e.taskId = id →
      (NotStarted e → NotStarted f) → .started id ∈ log ++ (cfg.streamed.step st a).2 ∨ NotStarted f :=
    fun old same keeps => (h.dispatched _ old same).imp (List.mem_append_left _) keeps
  -- the event under way stays what it is until its post is over
  have same_event : ∀ {e : Dispatch} {post post' : Post}, e.stream.posting = some post →
      post'.event = post.event → NotStarted e →
      NotStarted { e with stream := { e.stream with posting := some post' } } := by
    intro e post post' posting same given
    rcases given with ⟨point, first⟩ | ⟨how, point, last⟩
    · refine .inl ⟨point, ?_⟩
      intro _ given
      cases given
      rw [same]
      exact first post posting
    · refine .inr ⟨how, point, ?_⟩
      intro _ given
      cases given
      rw [same]
      exact last post posting
  cases step_dispatch member with
  | kept _ old => exact before old own fun h => h
  | fresh task offered =>
      refine .inr (.inl ⟨rfl, ?_⟩)
      intro _ given
      cases given
      rfl
  | answered e old post posting | refused e old post posting | retried e old post posting =>
      exact before old own (same_event posting rfl)
  | settled e old post posting =>
      refine before old own fun unstarted => ?_
      rcases unstarted with ⟨point, _⟩ | ⟨how, point, _⟩
      · exact .inl ⟨point, nofun⟩
      · exact .inr ⟨how, point, nofun⟩
  | started e old idle next input signals turn reports =>
      obtain ⟨_, rfl⟩ := turn_started turn
      refine .inl (List.mem_append_right _ ?_)
      rw [← own]
      exact reports
  | awaits e old idle next input signals turn =>
      cases Agent.turn_cases turn with
      | awaits live =>
          refine before old own fun unstarted => ?_
          exact absurd (live.symm.trans unstarted.not_live) (by decide)
  | yields e old idle event next input signals turn =>
      have same : e.taskId = next.task.taskId := congrArg _ (Agent.turn_task turn).symm
      refine before old (same.trans own) fun unstarted => ?_
      generalize outcome : Agent.Turn.yields event next = t at turn
      cases Agent.turn_cases turn with
      | speaks live | cancels live =>
          exact absurd (live.symm.trans unstarted.not_live) (by decide)
      | fails error details how =>
          cases outcome
          refine .inr ⟨how, rfl, ?_⟩
          intro _ given
          cases given
          rfl
      | started | awaits | redirects | crashes | exits | closes => cases outcome

/-- A post that starts an accepted task comes from a dispatch whose handler runs. -/
theorem Opening.arrival_starts (h : Opening cfg id st log) {lane : Lane} {clk : Clock}
    {taskId : String} {post : Post} (posting : st.posting? lane = some (taskId, post))
    (before : st.store.status? id = some .accepted)
    (after : (cfg.streamed.arrival clk st.store taskId post.event).store.status? id =
      some .running) : .started id ∈ log := by
  rcases cfg.streamed.arrival_effect clk st.store taskId post.event with
    same | ⟨data, t, t', _, applied⟩
  · rw [same, before] at after
    cases after
  have own : id = taskId := by
    by_contra other
    rw [Store.status?, applied.others id other, ← Store.status?, before] at after
    cases after
  subst own
  have stored : st.store.tasks.find? id = some t := applied.stored
  have now : (cfg.streamed.arrival clk st.store id post.event).store.tasks.find? id = some t' :=
    applied.now
  rw [Store.status?, stored, Option.map_some, Option.some.injEq] at before
  rw [Store.status?, now, Option.map_some, Option.some.injEq] at after
  cases lane with
  | ack =>
      obtain ⟨k, current, rfl, _⟩ := State.posting_ack.mp posting
      obtain ⟨u, same, _, announced⟩ := h.placed.acked k current
      obtain rfl : t = u := Option.some.inj (stored.symm.trans same)
      exact absurd before announced
  | dispatch taskId =>
      obtain ⟨d, member, own, rfl, sending⟩ := State.posting_dispatch.mp posting
      apply (h.dispatched d member own).resolve_right
      intro given
      rcases given with ⟨_, first⟩ | ⟨how, _, last⟩
      · -- numbered one, it is not above the log
        have later : st.store.maxSequence id < post.event.sequence := applied.later
        have known := one_le_maxSequence h.placed.reachable stored
        rw [first post sending] at later
        exact absurd (Int.lt_of_le_of_lt known later) (by decide)
      · -- a `failed` event does not start anything
        have type : (cfg.streamed.request st.store id post.event data).eventType = "failed" :=
          last post sending
        rcases applied.status with same | records
        · rw [same, before] at after
          cases after
        · rw [after] at records
          simp [recordedStatus, sidecarEvent, type] at records

theorem Opening.step (h : Opening cfg id st log) (a : Action) :
    Opening cfg id (cfg.streamed.step st a).1 (log ++ (cfg.streamed.step st a).2) := by
  refine ⟨h.placed.step a, fun d member own => h.dispatched_step member own, ?_⟩
  apply h.late.append
  intro _ moved same
  subst same
  generalize report : Report.moved id .accepted .running = r at moved
  cases report_cases moved with
  | moved id' before after old new differs cause =>
      obtain ⟨rfl, rfl, rfl⟩ := Report.moved.inj report
      refine ⟨_, ?_, rfl⟩
      rcases cause with ⟨op, principal, _, store⟩ | ⟨lane, clk, taskId, post, _, posting, store⟩
      · -- no principal starts a task
        obtain ⟨t, stored, status⟩ := Option.map_eq_some_iff.mp old
        have idle : st.store.Holds id t.executorAgentId (fun b => b ∉ activeStatuses) :=
          ⟨t, stored, rfl, by rw [status]; decide⟩
        obtain ⟨b, now, inactive⟩ := (op.exec_idle cfg.streamed.env principal idle).status
        rw [store, now] at new
        rw [Option.some.inj new] at inactive
        exact absurd (by decide) inactive
      · rw [store] at new
        exact h.arrival_starts posting old new
  | started | arrived | settled | ended => cases report

end step

/-- The gate holds of exactly the runs in which the handler is not started: the
`running` event is never accepted, and the streamer goes on all the same. -/
theorem gated_iff_not_started (cfg : Setup) {store : Store} (blank : store.Blank)
    (as : List Action) (id : String) :
    Gated id (cfg.streamed.observe store as).2 ↔ .started id ∉ (cfg.streamed.observe store as).2 := by
  have kept : Opening cfg id (cfg.streamed.observe store as).1 (cfg.streamed.observe store as).2 :=
    Setup.observe_invariant (.initial blank) (fun _ _ a h _ => h.step a) (Machine.along_true _ as)
  constructor
  · intro gated started
    exact gated.recorded.circular kept.late _ started rfl
  · intro absent
    refine ⟨?_, ?_⟩
    · intro before o after eq same
      subst same
      exact absurd (by rw [eq]; simp) absent
    · rw [List.count_eq_zero_of_not_mem absent]
      exact Nat.zero_le 1

/-! ## A cancelled task is executed, and a task is executed twice -/

namespace Demo

/-- The principal cancels before the handler is started. -/
def cancelled : List Action :=
  create ++ take
    ++ [.operate (.cancelTask (Api.Demo.at' 1) "wf" "task-a" "principal" none) rfl]
    ++ post 2 ++ launch

/-- The handler exits without a result, and the task is offered again. -/
def twice : List Action := create ++ take ++ post 1 ++ launch ++ exit ++ take ++ post 2 ++ launch

end Demo

theorem gated_iff_not_started_take :
    Gated "task-a" (Demo.setup.streamed.observe Api.Demo.store (Demo.create ++ Demo.take)).2 :=
  (gated_iff_not_started Demo.setup Api.Demo.store_blank (Demo.create ++ Demo.take) "task-a").mpr
    (by decide +kernel)

theorem executed_cancelled_and_twice :
    (Demo.setup.streamed.observe Api.Demo.store Demo.cancelled).2 =
        [.moved "task-a" .accepted .cancelled, .arrived "task-a" false, .settled "task-a" true,
          .started "task-a"] ∧
      (Demo.setup.streamed.observe Api.Demo.store Demo.twice).2.count (.started "task-a") = 2 ∧
      ¬ Gated "task-a" (Demo.setup.streamed.observe Api.Demo.store Demo.cancelled).2 ∧
      ¬ Gated "task-a" (Demo.setup.streamed.observe Api.Demo.store Demo.twice).2 := by
  have log : (Demo.setup.streamed.observe Api.Demo.store Demo.cancelled).2 =
      [.moved "task-a" .accepted .cancelled, .arrived "task-a" false, .settled "task-a" true,
        .started "task-a"] := by decide +kernel
  have count : (Demo.setup.streamed.observe Api.Demo.store Demo.twice).2.count (.started "task-a") =
      2 := by decide +kernel
  refine ⟨log, count, fun gated => ?_, fun gated => ?_⟩
  · obtain ⟨x, member, same⟩ := gated.recorded _ _ _ (by rw [log]; rfl :
      _ = [.moved "task-a" .accepted .cancelled, .arrived "task-a" false, .settled "task-a" true]
        ++ Report.started "task-a" :: []) rfl
    subst same
    revert member
    decide
  · have once := gated.once
    rw [count] at once
    exact absurd once (by decide)

end Fleet.System
