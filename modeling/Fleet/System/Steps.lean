/- Where each dispatch and acknowledgement comes from in one step, and what every
   report says about the step that made it. -/
import Fleet.System.Frames

namespace Fleet.System
open Fleet.Lib Fleet.Api
open Fleet.Agent (PendingTask Signal SignalState Sidecar Dispatch Stream Post Outcome Input Ending
  Execution)

/-! ## The dispatches -/

/-- Where a dispatch after the step comes from. -/
inductive DispatchStep (cfg : Setup) (st : State) (a : Action) : Dispatch → Prop
  | kept (d : Dispatch) (member : d ∈ st.sidecar.dispatches) : DispatchStep cfg st a d
  | fresh (task : PendingTask) (offered : task ∈ st.offered) : DispatchStep cfg st a (.start task)
  | answered (d : Dispatch) (member : d ∈ st.sidecar.dispatches) (post : Post)
      (posting : d.stream.posting = some post) (clk : Clock)
      (served : a = .arrive (.dispatch d.taskId) clk)
      (now : (cfg.step st a).1.store = (cfg.arrival clk st.store d.taskId post.event).store)
      (reports : ∀ above, (cfg.arrival clk st.store d.taskId post.event).above = some above →
        .arrived d.taskId above ∈ (cfg.step st a).2) :
      DispatchStep cfg st a { d with stream := { d.stream with posting := some { post with
        answer := some (cfg.arrival clk st.store d.taskId post.event).code
        reached := post.reached || (cfg.arrival clk st.store d.taskId post.event).above.isSome } } }
  | refused (d : Dispatch) (member : d ∈ st.sidecar.dispatches) (post : Post)
      (posting : d.stream.posting = some post) (code : Nat)
      (served : a = .refuse (.dispatch d.taskId) code) :
      DispatchStep cfg st a
        { d with stream := { d.stream with posting := some { post with answer := some code } } }
  | retried (d : Dispatch) (member : d ∈ st.sidecar.dispatches) (post : Post)
      (posting : d.stream.posting = some post) :
      DispatchStep cfg st a { d with stream := { d.stream with posting := some { post with
        attempt := post.attempt + 1
        answer := none } } }
  | settled (d : Dispatch) (member : d ∈ st.sidecar.dispatches) (post : Post)
      (posting : d.stream.posting = some post) (outcome : Outcome)
      (served : a = .settle (.dispatch d.taskId) outcome)
      (returned : post.settle outcome = some .returned)
      (reports : .settled d.taskId post.reached ∈ (cfg.step st a).2) :
      DispatchStep cfg st a { d with stream := d.stream.settled }
  | started (d : Dispatch) (member : d ∈ st.sidecar.dispatches) (idle : d.stream.posting = none)
      (next : Execution) (input : Input) (signals : SignalState)
      (turn : d.execution.turn st.sidecar.signals input = some (.started next, signals))
      (reports : .started d.taskId ∈ (cfg.step st a).2) :
      DispatchStep cfg st a { d with execution := next }
  | awaits (d : Dispatch) (member : d ∈ st.sidecar.dispatches) (idle : d.stream.posting = none)
      (next : Execution) (input : Input) (signals : SignalState)
      (turn : d.execution.turn st.sidecar.signals input = some (.awaits next, signals)) :
      DispatchStep cfg st a { d with execution := next }
  | yields (d : Dispatch) (member : d ∈ st.sidecar.dispatches) (idle : d.stream.posting = none)
      (event : Agent.TaskEvent) (next : Execution) (input : Input) (signals : SignalState)
      (turn : d.execution.turn st.sidecar.signals input = some (.yields event next, signals)) :
      DispatchStep cfg st a (d.yielded event next)

theorem turn_idle {d : Dispatch} {signals : SignalState} {input : Input} {t : Agent.Turn}
    {signals' : SignalState} (h : d.turn signals input = some (t, signals'))
    (goes : ∀ how, t ≠ .ends how) :
    d.stream.posting = none ∧ d.execution.turn signals input = some (t, signals') := by
  unfold Agent.Dispatch.turn at h
  split at h
  · exact ⟨‹_›, h⟩
  · split at h
    · split at h
      · cases h
        exact absurd rfl (goes .raised)
      · cases h
    · cases h

section step
variable {cfg : Setup} {st : State} {a : Action}

theorem nextPost_ack_dispatches : (st.nextPost .ack).sidecar.dispatches = st.sidecar.dispatches := by
  simp only [State.nextPost]
  split
  · rfl
  · split <;> rfl

theorem mem_abandon {lane : Lane} {d : Dispatch}
    (member : d ∈ (st.abandon lane).1.sidecar.dispatches) : d ∈ st.sidecar.dispatches := by
  cases lane <;> simp only [State.abandon] at member <;> split at member
  · exact member
  · exact (Table.mem_erase.mp member).1
  · exact member
  · exact member

theorem handleSignal_dispatch {d : Dispatch}
    (member : d ∈ (cfg.step st .handleSignal).1.sidecar.dispatches) : DispatchStep cfg st .handleSignal d := by
  refine .kept d ?_
  simp only [Setup.step, State.nextSignal] at member
  split at member
  · split at member
    · exact member
    · split at member <;> exact member
  · exact member

theorem arrive_dispatch {lane : Lane} {clk : Clock} {d : Dispatch}
    (member : d ∈ (cfg.step st (.arrive lane clk)).1.sidecar.dispatches) :
    DispatchStep cfg st (.arrive lane clk) d := by
  rcases @arrive_cases cfg st lane clk with idle | ⟨id, post, posting, now⟩
  · rw [idle] at member
    exact .kept d member
  · rw [now] at member
    rcases State.mem_setStream member with old | ⟨e, old, rfl, rfl⟩
    · exact .kept d old
    · obtain ⟨rfl, sending⟩ := State.posting_own old posting
      refine @DispatchStep.answered cfg st _ e old post sending clk rfl ?_ fun above eq => ?_
      · rw [now]
        exact (State.setPost_frame _ _).store
      · rw [now]
        simp [eq]

theorem refuse_dispatch {lane : Lane} {code : Nat} {d : Dispatch}
    (member : d ∈ (cfg.step st (.refuse lane code)).1.sidecar.dispatches) :
    DispatchStep cfg st (.refuse lane code) d := by
  rcases @refuse_cases cfg st lane code with idle | ⟨id, post, posting, now⟩
  · rw [idle] at member
    exact .kept d member
  · rw [now] at member
    rcases State.mem_setStream member with old | ⟨e, old, rfl, rfl⟩
    · exact .kept d old
    · exact .refused e old post (State.posting_own old posting).2 code rfl

theorem settle_dispatch {lane : Lane} {outcome : Outcome} {d : Dispatch}
    (member : d ∈ (cfg.step st (.settle lane outcome)).1.sidecar.dispatches) :
    DispatchStep cfg st (.settle lane outcome) d := by
  rcases @settle_cases cfg st lane outcome with
    idle | ⟨id, post, posting, again | ⟨ended, now⟩ | ⟨_, raised⟩⟩
  · rw [idle] at member
    exact .kept d member
  · rw [again] at member
    rcases State.mem_setStream member with old | ⟨e, old, rfl, rfl⟩
    · exact .kept d old
    · exact .retried e old post (State.posting_own old posting).2
  · rw [now] at member
    cases lane with
    | ack => exact .kept d (nextPost_ack_dispatches ▸ member)
    | dispatch taskId =>
        rcases State.mem_setStream member with old | ⟨e, old, same, rfl⟩
        · exact .kept d old
        · cases same
          obtain ⟨rfl, sending⟩ := State.posting_own old posting
          refine .settled e old post sending outcome rfl ended ?_
          rw [now]
          exact List.mem_singleton_self _
  · rw [raised] at member
    exact .kept d (mem_abandon member)

theorem advance_dispatch {taskId : String} {input : Input} {d : Dispatch}
    (member : d ∈ (cfg.step st (.advance taskId input)).1.sidecar.dispatches) :
    DispatchStep cfg st (.advance taskId input) d := by
  rcases @advance_cases cfg st taskId input with idle | ⟨e, old, rfl, t, signals, turn, now⟩
  · rw [idle] at member
    exact .kept d member
  · rw [now] at member
    cases t with
    | started next =>
        obtain ⟨idle, turn'⟩ := turn_idle turn (by simp)
        rcases Table.mem_put member with rfl | ⟨other, _⟩
        · refine .started e old idle next input signals turn' ?_
          rw [now]
          exact List.mem_singleton_self _
        · exact .kept d other
    | awaits next =>
        obtain ⟨idle, turn'⟩ := turn_idle turn (by simp)
        rcases Table.mem_put member with rfl | ⟨other, _⟩
        · exact .awaits e old idle next input signals turn'
        · exact .kept d other
    | yields event next =>
        obtain ⟨idle, turn'⟩ := turn_idle turn (by simp)
        rcases Table.mem_put member with rfl | ⟨other, _⟩
        · exact .yields e old idle event next input signals turn'
        · exact .kept d other
    | ends how => exact .kept d (Table.mem_erase.mp member).1

theorem step_dispatch {d : Dispatch} (member : d ∈ (cfg.step st a).1.sidecar.dispatches) :
    DispatchStep cfg st a d := by
  cases a with
  | operate | catalog => exact .kept d member
  | handTasks | handSignals =>
      simp only [Setup.step] at member
      split at member <;> exact .kept d member
  | startTasks =>
      rcases Sidecar.round_dispatches member with old | ⟨task, offered, rfl⟩
      · exact .kept d old
      · exact .fresh task offered
  | handleSignal => exact handleSignal_dispatch member
  | arrive => exact arrive_dispatch member
  | refuse => exact refuse_dispatch member
  | settle => exact settle_dispatch member
  | advance => exact advance_dispatch member

/-! ## The acknowledgement under way -/

inductive AckStep (cfg : Setup) (st : State) (a : Action) : Ack → Prop
  | kept (k : Ack) (current : st.ack = some k) : AckStep cfg st a k
  | fresh (sig : Signal) (queued : sig ∈ st.queue) (k : Ack) (own : k.taskId = sig.taskId)
      (stream : k.stream = Stream.start) : AckStep cfg st a k
  | answered (k : Ack) (current : st.ack = some k) (post : Post)
      (posting : k.stream.posting = some post) (code : Nat) (reached : Bool)
      (reports : reached = true → post.reached = true ∨
        ∃ above, .arrived k.taskId above ∈ (cfg.step st a).2) :
      AckStep cfg st a { k with stream := { k.stream with posting := some { post with
        answer := some code, reached } } }
  | retried (k : Ack) (current : st.ack = some k) (post : Post)
      (posting : k.stream.posting = some post) :
      AckStep cfg st a { k with stream := { k.stream with posting := some { post with
        attempt := post.attempt + 1
        answer := none } } }
  | next (k : Ack) (current : st.ack = some k) (post : Post)
      (posting : k.stream.posting = some post)
      (reports : .settled k.taskId post.reached ∈ (cfg.step st a).2) (event : Agent.TaskEvent) :
      AckStep cfg st a { k with event := none, stream := k.stream.post event }

theorem ack_setStream {f : Stream → Stream} {lane : Lane} {k : Ack}
    (now : (st.setStream f lane).ack = some k) :
    st.ack = some k ∨ ∃ j, lane = .ack ∧ st.ack = some j ∧ k = { j with stream := f j.stream } := by
  cases lane with
  | dispatch taskId =>
      refine .inl ?_
      simp only [State.setStream] at now
      split at now <;> exact now
  | ack =>
      obtain ⟨j, current, rfl⟩ := Option.map_eq_some_iff.mp now
      exact .inr ⟨j, rfl, current, rfl⟩

theorem handleSignal_ack {k : Ack} (now : (cfg.step st .handleSignal).1.ack = some k) :
    AckStep cfg st .handleSignal k := by
  simp only [Setup.step, State.nextSignal] at now
  split at now
  · rename_i sig rest idle queue
    split at now
    · exact .kept k now
    · split at now
      · exact .kept k now
      · cases now
        exact .fresh sig (by rw [queue]; exact List.mem_cons_self) _ rfl rfl
  · exact .kept k now

theorem arrive_ack {lane : Lane} {clk : Clock} {k : Ack}
    (now : (cfg.step st (.arrive lane clk)).1.ack = some k) :
    AckStep cfg st (.arrive lane clk) k := by
  rcases @arrive_cases cfg st lane clk with idle | ⟨id, post, posting, moved⟩
  · rw [idle] at now
    exact .kept k now
  · rw [moved] at now
    rcases ack_setStream now with old | ⟨j, rfl, old, rfl⟩
    · exact .kept k old
    · obtain ⟨rfl, sending⟩ := State.posting_ack_own old posting
      refine @AckStep.answered cfg st _ j old post sending _ _ fun reached => ?_
      refine ((Bool.or_eq_true _ _).mp reached).imp_right fun processed => ?_
      obtain ⟨above, eq⟩ := Option.isSome_iff_exists.mp processed
      refine ⟨above, ?_⟩
      rw [moved]
      simp [eq]

theorem refuse_ack {lane : Lane} {code : Nat} {k : Ack}
    (now : (cfg.step st (.refuse lane code)).1.ack = some k) :
    AckStep cfg st (.refuse lane code) k := by
  rcases @refuse_cases cfg st lane code with idle | ⟨id, post, posting, moved⟩
  · rw [idle] at now
    exact .kept k now
  · rw [moved] at now
    rcases ack_setStream now with old | ⟨j, rfl, old, rfl⟩
    · exact .kept k old
    · exact .answered j old post (State.posting_ack_own old posting).2 _ _ .inl

theorem settle_ack {lane : Lane} {outcome : Outcome} {k : Ack}
    (now : (cfg.step st (.settle lane outcome)).1.ack = some k) :
    AckStep cfg st (.settle lane outcome) k := by
  rcases @settle_cases cfg st lane outcome with
    idle | ⟨id, post, posting, again | ⟨_, moved⟩ | ⟨_, raised⟩⟩
  · rw [idle] at now
    exact .kept k now
  · rw [again] at now
    rcases ack_setStream now with old | ⟨j, rfl, old, rfl⟩
    · exact .kept k old
    · exact .retried j old post (State.posting_ack_own old posting).2
  · rw [moved] at now
    cases lane with
    | dispatch taskId =>
        rcases ack_setStream now with old | ⟨j, lane, _⟩
        · exact .kept k old
        · cases lane
    | ack =>
        obtain ⟨j, same, rfl, sending⟩ := State.posting_ack.mp posting
        simp only [State.nextPost, same] at now
        split at now
        · rename_i event more
          cases now
          refine .next j same post sending ?_ event
          rw [moved]
          exact List.mem_singleton_self _
        · cases now
  · rw [raised] at now
    refine .kept k ?_
    cases lane <;> simp only [State.abandon] at now <;> split at now
    · exact now
    · exact now
    · exact now
    · cases now

theorem advance_ack {taskId : String} {input : Input} {k : Ack}
    (now : (cfg.step st (.advance taskId input)).1.ack = some k) :
    AckStep cfg st (.advance taskId input) k := by
  rcases @advance_cases cfg st taskId input with idle | ⟨e, _, _, t, signals, _, moved⟩
  · rw [idle] at now
    exact .kept k now
  · rw [moved] at now
    cases t <;> exact .kept k now

theorem step_ack {k : Ack} (now : (cfg.step st a).1.ack = some k) : AckStep cfg st a k := by
  cases a with
  | operate | catalog | startTasks => exact .kept k now
  | handTasks | handSignals =>
      simp only [Setup.step] at now
      split at now <;> exact .kept k now
  | handleSignal => exact handleSignal_ack now
  | arrive => exact arrive_ack now
  | refuse => exact refuse_ack now
  | settle => exact settle_ack now
  | advance => exact advance_ack now

/-! ## The reports -/

inductive ReportStep (cfg : Setup) (st : State) (a : Action) : Report → Prop
  | moved (id : String) (before after : TaskStatus) (old : st.store.status? id = some before)
      (new : (cfg.step st a).1.store.status? id = some after) (differs : before ≠ after)
      (cause : (∃ op principal, a = .operate op principal ∧
          (cfg.step st a).1.store = (op.exec cfg.env st.store).2) ∨
        ∃ lane clk taskId post, a = .arrive lane clk ∧ st.posting? lane = some (taskId, post) ∧
          (cfg.step st a).1.store = (cfg.arrival clk st.store taskId post.event).store) :
      ReportStep cfg st a (.moved id before after)
  | started (d : Dispatch) (member : d ∈ st.sidecar.dispatches) (idle : d.stream.posting = none)
      (launch : d.execution.point = .launch) : ReportStep cfg st a (.started d.taskId)
  | arrived (lane : Lane) (clk : Clock) (taskId : String) (post : Post)
      (posting : st.posting? lane = some (taskId, post)) (above : Bool)
      (numbered : (cfg.arrival clk st.store taskId post.event).above = some above) :
      ReportStep cfg st a (.arrived taskId above)
  | settled (lane : Lane) (taskId : String) (post : Post)
      (posting : st.posting? lane = some (taskId, post)) :
      ReportStep cfg st a (.settled taskId post.reached)
  | ended (d : Dispatch) (member : d ∈ st.sidecar.dispatches) (how : Ending)
      (cause : (∃ input signals, a = .advance d.taskId input ∧
          d.turn st.sidecar.signals input = some (.ends how, signals)) ∨
        ∃ post outcome, a = .settle (.dispatch d.taskId) outcome ∧
          d.stream.posting = some post ∧ post.settle outcome = some .raised) :
      ReportStep cfg st a
        (.ended d.taskId (st.store.status? d.taskId) (d.reported || how ≠ .returned))

theorem mem_moves {s s' : Store} {r : Report} (member : r ∈ moves s s') :
    ∃ id before after, r = .moved id before after ∧ s.status? id = some before ∧
      s'.status? id = some after ∧ before ≠ after := by
  obtain ⟨t, stored, eq⟩ := List.mem_filterMap.mp member
  split at eq
  · rename_i before old
    split at eq
    · cases eq
    · rename_i differs
      cases eq
      refine ⟨t.id, before, t.status, rfl, old, ?_, differs⟩
      rw [Store.status?, Table.find?_mem stored, Option.map_some]
  · cases eq

theorem turn_started {x next : Execution} {signals signals' : SignalState} {input : Input}
    (h : x.turn signals input = some (.started next, signals')) :
    x.point = .launch ∧ next = x.moveTo .feed := by
  cases Agent.turn_cases h with
  | started launch => exact ⟨launch, rfl⟩

theorem mem_abandon_reports {lane : Lane} {r : Report} (member : r ∈ (st.abandon lane).2) :
    ∃ d ∈ st.sidecar.dispatches, lane = .dispatch d.taskId ∧
      r = .ended d.taskId (st.store.status? d.taskId) (d.reported || Ending.raised ≠ .returned) := by
  cases lane with
  | ack =>
      simp only [State.abandon] at member
      split at member <;> cases member
  | dispatch taskId =>
      simp only [State.abandon] at member
      split at member
      · cases member
      · rename_i d found
        obtain ⟨stored, rfl⟩ := Table.find?_eq_some.mp found
        exact ⟨d, stored, rfl, List.mem_singleton.mp member⟩

theorem arrive_report {lane : Lane} {clk : Clock} {r : Report}
    (member : r ∈ (cfg.step st (.arrive lane clk)).2) :
    ReportStep cfg st (.arrive lane clk) r := by
  rcases @arrive_cases cfg st lane clk with idle | ⟨id, post, posting, now⟩
  · rw [idle] at member
    cases member
  · have store : (cfg.step st (.arrive lane clk)).1.store =
        (cfg.arrival clk st.store id post.event).store := by
      rw [now]
      exact (State.setPost_frame _ _).store
    rw [now] at member
    rcases List.mem_append.mp member with moved | arrived
    · obtain ⟨id', before, after, rfl, old, new, differs⟩ := mem_moves moved
      exact .moved id' before after old (by rw [store]; exact new) differs
        (.inr ⟨lane, clk, id, post, rfl, posting, store⟩)
    · obtain ⟨above, numbered, rfl⟩ := Option.map_eq_some_iff.mp (Option.mem_toList.mp arrived)
      exact .arrived lane clk id post posting above numbered

theorem settle_report {lane : Lane} {outcome : Outcome} {r : Report}
    (member : r ∈ (cfg.step st (.settle lane outcome)).2) :
    ReportStep cfg st (.settle lane outcome) r := by
  rcases @settle_cases cfg st lane outcome with
    idle | ⟨id, post, posting, again | ⟨_, now⟩ | ⟨raised, now⟩⟩
  · rw [idle] at member
    cases member
  · rw [again] at member
    cases member
  · rw [now] at member
    rw [List.mem_singleton.mp member]
    exact .settled lane id post posting
  · rw [now] at member
    rcases List.mem_cons.mp member with rfl | ended
    · exact .settled lane id post posting
    · obtain ⟨d, stored, rfl, same⟩ := mem_abandon_reports ended
      rw [same]
      obtain ⟨_, sending⟩ := State.posting_own stored posting
      exact .ended d stored .raised (.inr ⟨post, outcome, rfl, sending, raised⟩)

theorem advance_report {taskId : String} {input : Input} {r : Report}
    (member : r ∈ (cfg.step st (.advance taskId input)).2) :
    ReportStep cfg st (.advance taskId input) r := by
  rcases @advance_cases cfg st taskId input with idle | ⟨d, stored, rfl, t, signals, turn, now⟩
  · rw [idle] at member
    cases member
  · rw [now] at member
    cases t with
    | started next =>
        obtain ⟨idle, turn⟩ := turn_idle turn (by simp)
        rw [List.mem_singleton.mp member]
        exact .started d stored idle (turn_started turn).1
    | awaits | yields => cases member
    | ends how =>
        rw [List.mem_singleton.mp member]
        exact .ended d stored how (.inl ⟨input, signals, rfl, turn⟩)

theorem report_cases {r : Report} (member : r ∈ (cfg.step st a).2) : ReportStep cfg st a r := by
  cases a with
  | operate op principal =>
      obtain ⟨id, before, after, rfl, old, new, differs⟩ := mem_moves member
      exact .moved id before after old new differs (.inl ⟨op, principal, rfl, rfl⟩)
  | catalog | startTasks | handleSignal => cases member
  | handTasks | handSignals =>
      simp only [Setup.step] at member
      split at member <;> cases member
  | arrive => exact arrive_report member
  | refuse lane code =>
      rcases @refuse_cases cfg st lane code with idle | ⟨id, post, posting, now⟩
      · rw [idle] at member
        cases member
      · rw [now] at member
        cases member
  | settle => exact settle_report member
  | advance => exact advance_report member

end step
end Fleet.System
