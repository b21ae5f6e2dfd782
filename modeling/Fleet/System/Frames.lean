/- What each action of the composed system does to its state, and what a step leaves
   of the store. -/
import Fleet.System.Composed

namespace Fleet.System
open Fleet.Lib Fleet.Api
open Fleet.Agent (SignalState Sidecar Dispatch Stream Post Outcome Input Ending Turn)

/-! ## Frames -/

namespace State
variable (st : State)

structure SameFrame (st st' : State) : Prop where
  store : st'.store = st.store
  offered : st'.offered = st.offered
  queue : st'.queue = st.queue
  entries : st'.sidecar.signals.entries = st.sidecar.signals.entries

variable {st}

theorem setStream_frame (f : Stream → Stream) (lane : Lane) : SameFrame st (st.setStream f lane) := by
  cases lane with
  | dispatch taskId =>
      simp only [setStream]
      split <;> exact ⟨rfl, rfl, rfl, rfl⟩
  | ack => exact ⟨rfl, rfl, rfl, rfl⟩

theorem setPost_frame (post : Post) (lane : Lane) : SameFrame st (st.setPost post lane) :=
  setStream_frame _ _

theorem endAck_frame (k : Ack) : SameFrame st (st.endAck k) := ⟨rfl, rfl, rfl, rfl⟩

theorem nextPost_frame (lane : Lane) : SameFrame st (st.nextPost lane) := by
  cases lane with
  | dispatch taskId =>
      simp only [nextPost]
      exact setStream_frame _ _
  | ack =>
      simp only [nextPost]
      split
      · exact ⟨rfl, rfl, rfl, rfl⟩
      · split <;> exact ⟨rfl, rfl, rfl, rfl⟩

theorem mem_setStream {f : Stream → Stream} {lane : Lane} {d : Dispatch}
    (member : d ∈ (st.setStream f lane).sidecar.dispatches) :
    d ∈ st.sidecar.dispatches ∨ ∃ e ∈ st.sidecar.dispatches,
      lane = .dispatch e.taskId ∧ d = { e with stream := f e.stream } := by
  cases lane with
  | dispatch taskId =>
      simp only [setStream] at member
      split at member
      · exact .inl member
      · rename_i e found
        obtain ⟨stored, rfl⟩ := Table.find?_eq_some.mp found
        rcases Table.mem_put member with rfl | ⟨old, _⟩
        · exact .inr ⟨e, stored, rfl, rfl⟩
        · exact .inl old
  | ack => exact .inl member

theorem posting_dispatch {taskId id : String} {post : Post} :
    st.posting? (.dispatch taskId) = some (id, post) ↔
      ∃ d ∈ st.sidecar.dispatches, d.taskId = taskId ∧ id = taskId ∧ d.stream.posting = some post := by
  simp only [posting?]
  cases found : st.sidecar.dispatches.find? taskId with
  | none =>
      simp only [Option.bind_eq_bind, Option.bind_none, reduceCtorEq, false_iff]
      intro given
      obtain ⟨d, member, own, _⟩ := given
      exact Table.find?_eq_none.mp found d member own
  | some d =>
      obtain ⟨member, own⟩ := Table.find?_eq_some.mp found
      cases posting : d.stream.posting with
      | none =>
          simp only [Option.bind_eq_bind, Option.bind_some, posting, Option.bind_none, reduceCtorEq,
            false_iff]
          intro given
          obtain ⟨e, stored, same, _, some⟩ := given
          rw [Table.eq_of_key stored member (same.trans own.symm), posting] at some
          cases some
      | some p =>
          simp only [Option.bind_eq_bind, Option.bind_some, posting, Option.pure_def,
            Option.some.injEq, Prod.mk.injEq]
          constructor
          · intro given
            obtain ⟨rfl, rfl⟩ := given
            exact ⟨d, member, own, rfl, posting⟩
          · intro given
            obtain ⟨e, stored, same, rfl, some⟩ := given
            rw [Table.eq_of_key stored member (same.trans own.symm), posting] at some
            exact ⟨rfl, Option.some.inj some⟩

theorem posting_ack {id : String} {post : Post} :
    st.posting? .ack = some (id, post) ↔
      ∃ a, st.ack = some a ∧ id = a.taskId ∧ a.stream.posting = some post := by
  simp only [posting?]
  cases st.ack with
  | none => simp
  | some a =>
      cases posting : a.stream.posting with
      | none => simp [posting]
      | some p => simp [posting, eq_comm]

theorem posting_own {d : Dispatch} (member : d ∈ st.sidecar.dispatches) {id : String} {post : Post}
    (posting : st.posting? (.dispatch d.taskId) = some (id, post)) :
    id = d.taskId ∧ d.stream.posting = some post := by
  obtain ⟨e, stored, own, same, sending⟩ := posting_dispatch.mp posting
  rw [Table.eq_of_key stored member own] at sending
  exact ⟨same, sending⟩

theorem posting_ack_own {k : Ack} (current : st.ack = some k) {id : String} {post : Post}
    (posting : st.posting? .ack = some (id, post)) :
    id = k.taskId ∧ k.stream.posting = some post := by
  obtain ⟨j, same, own, sending⟩ := posting_ack.mp posting
  obtain rfl : j = k := Option.some.inj (same.symm.trans current)
  exact ⟨own, sending⟩

end State

/-! ## The actions -/

def State.proceed (st : State) (d : Dispatch) : Turn → State × List Report
  | .started next =>
      ({ st with sidecar := st.sidecar.put { d with execution := next } }, [.started d.taskId])
  | .awaits next => ({ st with sidecar := st.sidecar.put { d with execution := next } }, [])
  | .yields event next => ({ st with sidecar := st.sidecar.put (d.yielded event next) }, [])
  | .ends how => st.endDispatch d how

section actions
variable {cfg : Setup} {st : State}

def Arrival.answered (r : Arrival) (post : Post) : Post :=
  { post with answer := some r.code, reached := post.reached || r.above.isSome }

theorem arrive_cases (lane : Lane) (clk : Clock) :
    cfg.step st (.arrive lane clk) = (st, []) ∨ ∃ id post, st.posting? lane = some (id, post) ∧
      let r := cfg.arrival clk st.store id post.event
      cfg.step st (.arrive lane clk) = ({ st with store := r.store }.setPost (r.answered post) lane,
        moves st.store r.store ++ (r.above.map (Report.arrived id)).toList) := by
  simp only [Setup.step, Setup.arrive]
  split
  · exact .inl rfl
  · rename_i id post posting
    split
    · exact .inl rfl
    · exact .inr ⟨id, post, posting, rfl⟩

theorem refuse_cases (lane : Lane) (code : Nat) :
    cfg.step st (.refuse lane code) = (st, []) ∨ ∃ id post, st.posting? lane = some (id, post) ∧
      cfg.step st (.refuse lane code) = (st.setPost { post with answer := some code } lane, []) := by
  simp only [Setup.step, State.refuse]
  split
  · exact .inl rfl
  · rename_i id post posting
    split
    · exact .inl rfl
    · exact .inr ⟨id, post, posting, rfl⟩

theorem settle_cases (lane : Lane) (outcome : Outcome) :
    cfg.step st (.settle lane outcome) = (st, []) ∨ ∃ id post, st.posting? lane = some (id, post) ∧
      (cfg.step st (.settle lane outcome) =
          (st.setPost { post with attempt := post.attempt + 1, answer := none } lane, []) ∨
        (post.settle outcome = some .returned ∧
          cfg.step st (.settle lane outcome) = (st.nextPost lane, [.settled id post.reached])) ∨
        (post.settle outcome = some .raised ∧ cfg.step st (.settle lane outcome) =
          ((st.abandon lane).1, .settled id post.reached :: (st.abandon lane).2))) := by
  simp only [Setup.step, State.settle]
  split
  · exact .inl rfl
  · rename_i id post posting
    split
    · exact .inl rfl
    · rename_i post' again
      rw [Post.settle_again again]
      exact .inr ⟨id, post, posting, .inl rfl⟩
    · exact .inr ⟨id, post, posting, .inr (.inl ⟨‹_›, rfl⟩)⟩
    · exact .inr ⟨id, post, posting, .inr (.inr ⟨‹_›, rfl⟩)⟩

theorem advance_cases (taskId : String) (input : Input) :
    cfg.step st (.advance taskId input) = (st, []) ∨ ∃ d ∈ st.sidecar.dispatches, d.taskId = taskId ∧
      ∃ t signals, d.turn st.sidecar.signals input = some (t, signals) ∧
        cfg.step st (.advance taskId input) = (st.withSignals signals).proceed d t := by
  simp only [Setup.step, State.advance]
  split
  · exact .inl rfl
  · rename_i d found
    obtain ⟨member, own⟩ := Table.find?_eq_some.mp found
    cases turn : d.turn st.sidecar.signals input with
    | none => exact .inl rfl
    | some outcome =>
        obtain ⟨t, signals⟩ := outcome
        refine .inr ⟨d, member, own, t, signals, turn, ?_⟩
        cases t <;> simp only [State.proceed, own]

end actions

/-! ## The store -/

section step
variable {cfg : Setup} {st : State} {a : Action}

theorem Setup.arrival_store (clk : Clock) (s : Store) (taskId : String) (event : Agent.TaskEvent) :
    (cfg.arrival clk s taskId event).store = s ∨
      ∃ b : Api.Step, (cfg.arrival clk s taskId event).store = b.exec cfg.env s := by
  simp only [arrival]
  split
  · exact .inl rfl
  · split
    · exact .inl rfl
    · exact .inr ⟨.op _, rfl⟩

theorem Setup.arrival_holds {P : TaskStatus → Prop} (permanent : Permanent P) {s : Store} {id : String}
    {executor : Option String} (h : s.Holds id executor P) (clk : Clock) (taskId : String)
    (event : Agent.TaskEvent) : (cfg.arrival clk s taskId event).store.Holds id executor P := by
  rcases cfg.arrival_store clk s taskId event with same | ⟨b, now⟩
  · rw [same]
    exact h
  · rw [now]
    exact b.exec_holds cfg.env permanent h

theorem Setup.arrival_effect (clk : Clock) (s : Store) (taskId : String) (event : Agent.TaskEvent) :
    (cfg.arrival clk s taskId event).store = s ∨ ∃ data t t', event.data = some data ∧
      EventApplied clk (cfg.request s taskId event data) s (cfg.arrival clk s taskId event).store t t' := by
  cases shape : event.data with
  | none => exact .inl (by simp only [arrival, shape])
  | some data =>
      simp only [arrival, shape]
      split
      · exact .inl rfl
      · apply (processSidecarEvent_effect cfg.env clk _ s).imp_right
        intro given
        obtain ⟨t, t', applied⟩ := given
        exact ⟨data, t, t', rfl, applied⟩

/-- The store moves by one step of the service; what is offered or queued was in a
list; a stop flag comes from a queued signal. -/
structure StepFrame (cfg : Setup) (st st' : State) : Prop where
  store : st'.store = st.store ∨ ∃ b : Api.Step, st'.store = b.exec cfg.env st.store
  offered : ∀ task ∈ st'.offered, task ∈ st.offered ∨ ∃ taskIds, task ∈ cfg.pendingTasks taskIds st.store
  queue : ∀ sig ∈ st'.queue, sig ∈ st.queue ∨ ∃ signals, sig ∈ cfg.pendingSignals signals st.store
  flags : Agent.FlagsFrom (fun id => ∃ sig ∈ st.queue, id = sig.taskId ∧ sig.signalType.stops = true)
    st.sidecar.signals st'.sidecar.signals

theorem State.SameFrame.stepFrame {st' : State} (h : State.SameFrame st st') : StepFrame cfg st st' where
  store := .inl h.store
  offered := fun task member => .inl (by rw [← h.offered]; exact member)
  queue := fun sig member => .inl (by rw [← h.queue]; exact member)
  flags := .of_entries h.entries

theorem StepFrame.refl : StepFrame cfg st st := (⟨rfl, rfl, rfl, rfl⟩ : State.SameFrame st st).stepFrame

theorem nextSignal_frame : StepFrame cfg st st.nextSignal := by
  simp only [State.nextSignal]
  split
  · rename_i sig rest idle queue
    have first : sig ∈ st.queue := by rw [queue]; exact List.mem_cons_self
    have later : ∀ s ∈ rest, s ∈ st.queue ∨ ∃ signals, s ∈ cfg.pendingSignals signals st.store := by
      intro s member
      rw [queue]
      exact .inl (List.mem_cons_of_mem _ member)
    have flags : Agent.FlagsFrom
        (fun id => ∃ sig ∈ st.queue, id = sig.taskId ∧ sig.signalType.stops = true)
        st.sidecar.signals (Agent.handleSignal st.sidecar.signals sig).1 := by
      intro p member flag
      exact (Agent.handleSignal_flags sig p member flag).imp_right fun cause => ⟨sig, first, cause⟩
    split
    · exact ⟨.inl rfl, fun _ => .inl, later, .of_entries rfl⟩
    · split <;> rename_i handled <;> rw [handled] at flags
      · exact ⟨.inl rfl, fun _ => .inl, later, flags⟩
      · exact ⟨.inl rfl, fun _ => .inl, later, flags⟩
  · exact .refl

theorem endDispatch_frame (d : Dispatch) (how : Ending) :
    StepFrame cfg st (st.endDispatch d how).1 :=
  ⟨.inl rfl, fun _ => .inl, fun _ => .inl, .unregisterTask d.taskId⟩

theorem turn_flags {d : Dispatch} {signals signals' : SignalState} {input : Input} {t : Turn}
    {cause : String → Prop} (turn : d.turn signals input = some (t, signals')) :
    Agent.FlagsFrom cause signals signals' := by
  unfold Agent.Dispatch.turn at turn
  split at turn
  · rcases Agent.turn_signals turn with rfl | rfl
    · exact .of_entries rfl
    · exact .popContext _
  · split at turn
    · split at turn <;> cases turn
      exact .of_entries rfl
    · cases turn

theorem proceed_frame {d : Dispatch} {signals : SignalState} {input : Input} {t : Turn}
    (turn : d.turn st.sidecar.signals input = some (t, signals)) :
    StepFrame cfg st ((st.withSignals signals).proceed d t).1 := by
  cases t with
  | started | awaits | yields =>
      exact ⟨.inl rfl, fun _ => .inl, fun _ => .inl, turn_flags turn⟩
  | ends how =>
      exact ⟨.inl rfl, fun _ => .inl, fun _ => .inl, (turn_flags turn).trans (.unregisterTask _)⟩

theorem abandon_frame (lane : Lane) : StepFrame cfg st (st.abandon lane).1 := by
  cases lane <;> simp only [State.abandon] <;> split
  · exact .refl
  · exact endDispatch_frame _ _
  · exact .refl
  · exact (State.endAck_frame _).stepFrame

theorem step_frame : StepFrame cfg st (cfg.step st a).1 := by
  cases a with
  | operate op principal =>
      exact ⟨.inr ⟨.op op, rfl⟩, fun _ => .inl, fun _ => .inl, .of_entries rfl⟩
  | catalog agents workflows =>
      exact ⟨.inr ⟨.catalog agents workflows, rfl⟩, fun _ => .inl, fun _ => .inl, .of_entries rfl⟩
  | handTasks taskIds =>
      simp only [Setup.step]
      split
      · exact ⟨.inl rfl, fun _ listed => .inr ⟨taskIds, listed⟩, fun _ => .inl, .of_entries rfl⟩
      · exact .refl
  | startTasks => exact ⟨.inl rfl, nofun, fun _ => .inl, Sidecar.round_flags⟩
  | handSignals signals =>
      simp only [Setup.step]
      split
      · exact ⟨.inl rfl, fun _ => .inl, fun _ listed => .inr ⟨signals, listed⟩, .of_entries rfl⟩
      · exact .refl
  | handleSignal => exact nextSignal_frame
  | arrive lane clk =>
      rcases @arrive_cases cfg st lane clk with idle | ⟨id, post, _, now⟩
      · rw [idle]
        exact .refl
      · rw [now]
        obtain ⟨store, offered, queue, entries⟩ := @State.setPost_frame
          { st with store := (cfg.arrival clk st.store id post.event).store }
          ((cfg.arrival clk st.store id post.event).answered post) lane
        refine ⟨?_, fun task member => .inl ?_, fun sig member => .inl ?_, .of_entries entries⟩
        · rw [store]
          exact cfg.arrival_store clk _ _ _
        · rw [offered] at member
          exact member
        · rw [queue] at member
          exact member
  | refuse lane code =>
      rcases @refuse_cases cfg st lane code with idle | ⟨id, post, _, now⟩
      · rw [idle]
        exact .refl
      · rw [now]
        exact (State.setPost_frame _ _).stepFrame
  | settle lane outcome =>
      rcases @settle_cases cfg st lane outcome with
        idle | ⟨id, post, _, again | ⟨_, returned⟩ | ⟨_, raised⟩⟩
      · rw [idle]
        exact .refl
      · rw [again]
        exact (State.setPost_frame _ _).stepFrame
      · rw [returned]
        exact (State.nextPost_frame lane).stepFrame
      · rw [raised]
        exact abandon_frame lane
  | advance taskId input =>
      rcases @advance_cases cfg st taskId input with idle | ⟨d, _, _, t, signals, turn, now⟩
      · rw [idle]
        exact .refl
      · rw [now]
        exact proceed_frame turn

theorem step_reachable (h : Reachable cfg.env st.store) : Reachable cfg.env (cfg.step st a).1.store := by
  rcases (@step_frame cfg st a).store with same | ⟨b, now⟩
  · rw [same]
    exact h
  · rw [now]
    exact h.step b

theorem step_holds {P : TaskStatus → Prop} (permanent : Permanent P) {id : String}
    {executor : Option String} (h : st.store.Holds id executor P) :
    (cfg.step st a).1.store.Holds id executor P := by
  rcases (@step_frame cfg st a).store with same | ⟨b, now⟩
  · rw [same]
    exact h
  · rw [now]
    exact b.exec_holds cfg.env permanent h

end step

end Fleet.System
