/- The signal loop of the composed system runs as it does on its own. -/
import Fleet.Agent.SignalPolling
import Fleet.System.Steps

namespace Fleet.System
open Fleet.Lib Fleet.Api
open Fleet.Agent (PendingTask Sidecar Dispatch Ending Turn SignalState SignalPoller TaskId signalKey)

/-! ## One loop beside the other -/

/-- The loop on its own is where the sidecar is: it remembers the same, has the same
signals left and posts for the same one. -/
structure Polls (st : State) (p : SignalPoller) : Prop where
  signals : p.signals = st.sidecar.signals
  queue : p.queue = st.queue
  handling : p.handling.map signalKey = st.ack.map Ack.key
  plain : ∀ d ∈ st.sidecar.dispatches, ':' ∉ d.taskId.toList

/-- The tasks about to be dispatched have identifiers as the service gives them out. -/
def OffersPlain (st : State) : Action → Prop
  | .startTasks => ∀ task ∈ st.offered, ':' ∉ task.taskId.toList
  | _ => True

theorem Polls.initial (store : Store) : Polls (.initial store) {} :=
  ⟨rfl, rfl, rfl, fun _ member => absurd member List.not_mem_nil⟩

section step
variable {cfg : Setup} {st st' : State} {p : SignalPoller}

theorem Polls.idle (same : Polls st p) : p.handling = none ↔ st.ack = none := by
  rw [← Option.map_eq_none_iff (f := signalKey), same.handling, Option.map_eq_none_iff]

theorem Polls.of_same (same : Polls st p) (signals : st'.sidecar.signals = st.sidecar.signals)
    (queue : st'.queue = st.queue) (ack : st'.ack.map Ack.key = st.ack.map Ack.key)
    (plain : ∀ d ∈ st'.sidecar.dispatches, ':' ∉ d.taskId.toList) : Polls st' p :=
  ⟨same.signals.trans signals.symm, same.queue.trans queue.symm, same.handling.trans ack.symm, plain⟩

/-! ## The loop's own steps -/

theorem Polls.handSignals (same : Polls st p) (signals : List Agent.Signal) :
    Polls (cfg.step st (.handSignals signals)).1 (p.poll (some (cfg.pendingSignals signals st.store))) := by
  have free : (p.queue.isEmpty && p.handling.isNone) = (st.queue.isEmpty && st.ack.isNone) := by
    rw [same.queue, Bool.eq_iff_iff, Bool.and_eq_true_iff, Bool.and_eq_true_iff, Option.isNone_iff_eq_none,
      Option.isNone_iff_eq_none, same.idle]
  simp only [Setup.step, SignalPoller.poll, free]
  split
  · exact ⟨same.signals, rfl, same.handling, same.plain⟩
  · exact same

theorem Polls.nextSignal (same : Polls st p) : Polls st.nextSignal p.visit.1 := by
  unfold State.nextSignal
  split
  · rename_i sig rest idle queue
    have free := same.idle.mpr idle
    have next : p.queue = sig :: rest := same.queue.trans queue
    have waits : none = st.ack.map Ack.key := (congrArg (Option.map Ack.key) idle).symm
    simp only [SignalPoller.visit, free, next, ← same.signals]
    split
    · exact ⟨same.signals, rfl, waits, same.plain⟩
    · cases outcome : Agent.handleSignal p.signals sig with
      | mk signals event =>
          cases event with
          | none => exact ⟨rfl, rfl, waits, same.plain⟩
          | some event => exact ⟨rfl, rfl, rfl, same.plain⟩
  · rename_i busy
    have idles : p.visit.1 = p := by
      unfold SignalPoller.visit
      split
      · rename_i sig rest free next
        exact absurd (same.queue.symm.trans next) (busy sig rest (same.idle.mp free))
      · rfl
    rw [idles]
    exact same

theorem Polls.endAck (same : Polls st p) {k : Ack} (current : st.ack = some k) :
    Polls (st.endAck k) p.acknowledge := by
  have keys := same.handling
  rw [current, Option.map_some, Option.map_eq_some_iff] at keys
  obtain ⟨sig, handling, key⟩ := keys
  simp only [SignalPoller.acknowledge, handling]
  exact ⟨by rw [key, same.signals]; rfl, same.queue, rfl, same.plain⟩

/-! ## The steps around it -/

def Followed (st : State) (p : SignalPoller) : Prop := ∃ bs, Polls st (SignalPoller.machine.run p bs).1

theorem Polls.followed (same : Polls st p) : Followed st p := ⟨[], same⟩

theorem round_registers {maxConcurrent : Nat} {c : Sidecar} {tasks : List PendingTask}
    (same : p.signals = c.signals) (plain : ∀ task ∈ tasks, ':' ∉ task.taskId.toList) :
    ∃ bs, (SignalPoller.machine.run p bs).1 =
      { p with signals := (c.round maxConcurrent tasks).signals } := by
  induction tasks generalizing c p with
  | nil => exact ⟨[], by rw [Sidecar.round, ← same]; rfl⟩
  | cons task rest ih =>
      have later : ∀ t ∈ rest, ':' ∉ t.taskId.toList :=
        fun t member => plain t (List.mem_cons_of_mem _ member)
      rw [Sidecar.round]
      split
      · exact ih same later
      · split
        · exact ⟨[], by rw [← same]; rfl⟩
        · let t : TaskId := ⟨task.taskId, plain task List.mem_cons_self⟩
          have kept : p.signals.registerTask t.val = c.signals.registerTask task.taskId := by rw [same]
          obtain ⟨bs, reached⟩ := ih (p := { p with signals := p.signals.registerTask t.val })
            (c := { dispatches := _, signals := c.signals.registerTask task.taskId }) kept later
          exact ⟨.registers t :: bs, reached⟩

theorem Polls.startTasks (same : Polls st p) (plain : ∀ task ∈ st.offered, ':' ∉ task.taskId.toList) :
    Followed (cfg.step st .startTasks).1 p := by
  obtain ⟨bs, reached⟩ := @round_registers p cfg.maxConcurrent st.sidecar st.offered same.signals plain
  refine ⟨bs, ?_⟩
  rw [reached]
  refine ⟨rfl, same.queue, same.handling, fun d member => ?_⟩
  rcases Sidecar.round_dispatches member with old | ⟨task, offered, rfl⟩
  · exact same.plain d old
  · exact plain task offered

theorem Polls.endDispatch (same : Polls st p) {d : Dispatch} (member : d ∈ st.sidecar.dispatches)
    (how : Ending) : Followed (st.endDispatch d how).1 p := by
  refine ⟨[.unregisters ⟨d.taskId, same.plain d member⟩], ?_, same.queue, same.handling, ?_⟩
  · exact congrArg (SignalState.unregisterTask · d.taskId) same.signals
  · exact fun e left => same.plain e (Table.mem_erase.mp left).1

theorem Polls.setStream (same : Polls st p) (f : Agent.Stream → Agent.Stream) (lane : Lane) :
    Polls (st.setStream f lane) p := by
  refine same.of_same ?_ (State.setStream_frame f lane).queue ?_ fun d member => ?_
  · cases lane with
    | dispatch taskId =>
        simp only [State.setStream]
        split <;> rfl
    | ack => rfl
  · cases lane with
    | dispatch taskId =>
        simp only [State.setStream]
        split <;> rfl
    | ack => simp only [State.setStream, Option.map_map]; rfl
  · rcases State.mem_setStream member with old | ⟨e, old, _, rfl⟩
    · exact same.plain d old
    · exact same.plain e old

theorem Polls.setPost (same : Polls st p) (post : Agent.Post) (lane : Lane) :
    Polls (st.setPost post lane) p :=
  same.setStream _ lane

theorem Polls.nextPost (same : Polls st p) (lane : Lane) : Followed (st.nextPost lane) p := by
  cases lane with
  | dispatch taskId => exact (same.setStream Agent.Stream.settled (.dispatch taskId)).followed
  | ack =>
      simp only [State.nextPost]
      split
      · exact same.followed
      · rename_i k current
        split
        · refine Polls.followed (same.of_same rfl rfl ?_ same.plain)
          rw [current]
          rfl
        · exact ⟨[.acknowledges], same.endAck current⟩

theorem Polls.abandon (same : Polls st p) (lane : Lane) : Followed (st.abandon lane).1 p := by
  cases lane <;> simp only [State.abandon] <;> split
  · exact same.followed
  · exact same.endDispatch (Table.find?_eq_some.mp ‹_›).1 .raised
  · exact same.followed
  · exact ⟨[.acknowledges], same.endAck ‹_›⟩

theorem Polls.proceed (same : Polls st p) {d : Dispatch} (member : d ∈ st.sidecar.dispatches) {t : Turn}
    (own : ∀ next, t.next? = some next → next.task = d.execution.task) : Followed (st.proceed d t).1 p := by
  have put : ∀ d' : Dispatch, d'.taskId = d.taskId →
      ∀ e ∈ st.sidecar.dispatches.put d', ':' ∉ e.taskId.toList := by
    intro d' named e left
    rcases Table.mem_put left with rfl | ⟨old, _⟩
    · rw [named]
      exact same.plain d member
    · exact same.plain e old
  cases t with
  | started next | awaits next | yields event next =>
      refine Polls.followed (same.of_same rfl rfl rfl (put _ ?_))
      exact congrArg PendingTask.taskId (own next rfl)
  | ends how => exact same.endDispatch member how

theorem Polls.advance (same : Polls st p) {d : Dispatch} (member : d ∈ st.sidecar.dispatches)
    {signals : SignalState} {input : Agent.Input} {t : Turn}
    (turn : d.turn st.sidecar.signals input = some (t, signals)) :
    Followed ((st.withSignals signals).proceed d t).1 p := by
  have own : ∀ next, t.next? = some next → next.task = d.execution.task := by
    intro next goes
    rcases Agent.Dispatch.turn_cases turn with taken | ⟨rfl, _⟩
    · exact Agent.turn_next_task taken goes
    · cases goes
  have taken : signals = st.sidecar.signals ∨ signals = (st.sidecar.signals.popContext d.taskId).2 := by
    rcases Agent.Dispatch.turn_cases turn with taken | ⟨_, same⟩
    · exact Agent.turn_signals taken
    · exact .inl same
  rcases taken with rfl | rfl
  · exact same.proceed member own
  · have popped : Polls (st.withSignals (st.sidecar.signals.popContext d.taskId).2)
        (SignalPoller.machine.run p [.pops d.taskId]).1 :=
      ⟨congrArg (fun signals => (SignalState.popContext signals d.taskId).2) same.signals, same.queue,
        same.handling, same.plain⟩
    obtain ⟨bs, reached⟩ := popped.proceed member own
    exact ⟨.pops d.taskId :: bs, reached⟩

/-! ## Every run -/

theorem Polls.step (same : Polls st p) {a : Action} (plain : OffersPlain st a) :
    Followed (cfg.step st a).1 p := by
  cases a with
  | operate | catalog => exact Polls.followed (same.of_same rfl rfl rfl same.plain)
  | handTasks =>
      simp only [Setup.step]
      split
      · exact Polls.followed (same.of_same rfl rfl rfl same.plain)
      · exact same.followed
  | startTasks => exact same.startTasks plain
  | handSignals signals => exact ⟨[.polls _], same.handSignals signals⟩
  | handleSignal => exact ⟨[.visits], same.nextSignal⟩
  | arrive lane clk =>
      rcases @arrive_cases cfg st lane clk with idle | ⟨id, post, _, now⟩
      · rw [idle]
        exact same.followed
      · rw [now]
        have stored : Polls { st with store := (cfg.arrival clk st.store id post.event).store } p :=
          same.of_same rfl rfl rfl same.plain
        exact (stored.setPost _ lane).followed
  | refuse lane code =>
      rcases @refuse_cases cfg st lane code with idle | ⟨id, post, _, now⟩
      · rw [idle]
        exact same.followed
      · rw [now]
        exact (same.setPost _ lane).followed
  | settle lane outcome =>
      rcases @settle_cases cfg st lane outcome with
        idle | ⟨id, post, _, again | ⟨_, returned⟩ | ⟨_, raised⟩⟩
      · rw [idle]
        exact same.followed
      · rw [again]
        exact (same.setPost _ lane).followed
      · rw [returned]
        exact same.nextPost lane
      · rw [raised]
        exact same.abandon lane
  | advance taskId input =>
      rcases @advance_cases cfg st taskId input with idle | ⟨d, member, _, t, signals, turn, now⟩
      · rw [idle]
        exact same.followed
      · rw [now]
        exact same.advance member turn

end step

/-- Whatever the two programs do, the signal loop does what it could do on its own. -/
theorem observe_followed {cfg : Setup} {store : Store} {as : List Action}
    (plain : cfg.machine.Along OffersPlain (.initial store) as) : Followed (cfg.observe store as).1 {} :=
  Machine.run_follows (fun _ _ _ same plain => same.step plain) (.initial store) plain

end Fleet.System
