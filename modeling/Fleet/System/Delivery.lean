/- One call of the streamer against the service: whatever becomes of each attempt, the
   events are recorded in order and at most once. -/
import Fleet.Api.Outcomes
import Fleet.System.Sequences

namespace Fleet.System
open Fleet.Lib Fleet.Api
open Fleet.Agent (Stream Post Settled Outcome runningEvent)

/-! ## The stream and its attempts -/

/-- `EventStreamer.stream` between its steps: the store it posts to, the post under
way, and the events still to come. -/
structure Delivery where
  store : Store
  stream : Stream := .start
  pending : List Agent.TaskEvent

/-- What becomes of one attempt to post. A processed attempt may be answered by the
service, answered otherwise on the way (a 5xx of a proxy), or have its answer lost. -/
inductive Attempt where
  | undelivered
  | refused (code : Nat)
  | answered (clk : Clock)
  | masked (clk : Clock) (code : Nat)
  | answerLost (clk : Clock)
  | broken (processed : Option Clock)

namespace Attempt

def processed : Attempt → Option Clock
  | .answered clk | .masked clk _ | .answerLost clk => some clk
  | .broken processed => processed
  | .undelivered | .refused _ => none

def answer (own : Option Nat) : Attempt → Option Nat
  | .answered _ => own
  | .refused code | .masked _ code => some code
  | .undelivered | .answerLost _ | .broken _ => none

def outcome : Attempt → Outcome
  | .answered _ | .refused _ | .masked _ _ => .response
  | .undelivered | .answerLost _ => .connectError
  | .broken _ => .raised

end Attempt

namespace Delivery

/-- The iterator gives its next event; the post under way is attempted; the service
serves another request. -/
inductive Action where
  | next
  | attempt (a : Attempt)
  | other (a : Api.Step)

inductive Report where
  | moved (before after : TaskStatus)
  deriving DecidableEq

def moves (id : String) (s s' : Store) : List Report :=
  match s.status? id, s'.status? id with
  | some a, some b => if a = b then [] else [.moved a b]
  | _, _ => []

section step
variable (cfg : Setup) (id : String) (d : Delivery)

/-- The store an attempt leaves, and the code the service answers with. -/
def served (event : Agent.TaskEvent) : Option Clock → Option Nat × Store
  | none => (none, d.store)
  | some clk =>
      let arrival := cfg.streamed.arrival clk d.store id event
      (some arrival.code, arrival.store)

/-- After an exception the stream is over. -/
def settle (store : Store) : Settled → Delivery
  | .again post => { d with store, stream := { d.stream with posting := some post } }
  | .returned => { d with store, stream := d.stream.settled }
  | .raised => { store, stream := d.stream.settled, pending := [] }

def attempt (a : Attempt) : Delivery :=
  match d.stream.posting with
  | none => d
  | some post =>
      let (own, store) := d.served cfg id post.event a.processed
      match { post with answer := a.answer own }.settle a.outcome with
      | none => { d with store }
      | some settled => d.settle store settled

def next : Delivery :=
  match d.stream.posting, d.pending with
  | none, event :: rest => { d with stream := d.stream.post event, pending := rest }
  | _, _ => d

def advance : Action → Delivery
  | .next => d.next
  | .attempt a => d.attempt cfg id a
  | .other a => { d with store := a.exec cfg.env d.store }

end step

def machine (cfg : Setup) (id : String) : Machine Delivery Action Report where
  step d a := (d.advance cfg id a, moves id d.store (d.advance cfg id a).store)

/-- Another request does not write to the log of the task. -/
def Alone (cfg : Setup) (id : String) (d : Delivery) : Action → Prop
  | .other a => (a.exec cfg.env d.store).eventsOf id = d.store.eventsOf id
  | .next | .attempt _ => True

instance (cfg : Setup) (id : String) (d : Delivery) (a : Action) : Decidable (Alone cfg id d a) := by
  unfold Alone
  split <;> infer_instance

/-! ## What is streamed -/

def numbered (n : Int) : List Agent.TaskEvent → List Agent.TaskEvent
  | [] => []
  | e :: rest => { e with sequence := n + 1 } :: numbered (n + 1) rest

/-- Everything one call streams, as it is posted. -/
def streamed (events : List Agent.TaskEvent) : List Agent.TaskEvent := runningEvent :: numbered 1 events

theorem numbered_above {n : Int} {events : List Agent.TaskEvent} :
    ∀ e ∈ numbered n events, n < e.sequence := by
  induction events generalizing n with
  | nil =>
      intro e member
      cases member
  | cons e rest ih =>
      intro x member
      rcases List.mem_cons.mp member with rfl | later
      · exact Int.lt_succ n
      · exact Int.lt_trans (Int.lt_succ n) (ih x later)

theorem numbered_increasing (n : Int) (events : List Agent.TaskEvent) :
    (numbered n events).Pairwise fun a b => a.sequence < b.sequence := by
  induction events generalizing n with
  | nil => exact .nil
  | cons e rest ih => exact .cons (fun x member => numbered_above x member) (ih (n + 1))

theorem streamed_increasing (events : List Agent.TaskEvent) :
    (streamed events).Pairwise fun a b => a.sequence < b.sequence :=
  .cons (fun x member => numbered_above x member) (numbered_increasing 1 events)

/-- The stored event as it was streamed. -/
def sent (e : Api.TaskEvent) : Agent.TaskEvent where
  eventType := e.eventType
  data := e.data
  sequence := e.sequence

/-! ## What an attempt records -/

theorem processSidecarEvent_log (env : Env) (clk : Clock) (req : EventRequest) (s : Store) :
    ((Op.processSidecarEvent clk req).exec env s).2 = s ∨
      (s.maxSequence req.taskId < req.sequence ∧
        ((Op.processSidecarEvent clk req).exec env s).2.eventsOf req.taskId =
          s.eventsOf req.taskId ++ [sidecarEvent clk req]) := by
  generalize eq : (Op.processSidecarEvent clk req).exec env s = r
  obtain ⟨answer, s'⟩ := r
  have outcome := Op.exec_outcome env (.processSidecarEvent clk req) s
  rw [eq] at outcome
  cases outcome with
  | refused e ordinary => exact .inl rfl
  | recorded _ _ task task' _ known stored executor later applied committed =>
      have own : task.id = req.taskId := (Table.find?_eq_some.mp stored).2
      have origin := applyEvent_origin known applied
      have events := (Store.flush_effect committed (dirty_current (own ▸ stored) origin)).2.2
      refine .inr ⟨later, ?_⟩
      rw [eventsOf_append events]
      simp [sidecarEvent]

theorem arrival_log (cfg : Setup) (clk : Clock) (s : Store) (id : String) (event : Agent.TaskEvent) :
    (cfg.streamed.arrival clk s id event).store = s ∨
      ∃ e, sent e = event ∧ s.maxSequence id < e.sequence ∧
        (cfg.streamed.arrival clk s id event).store.eventsOf id = s.eventsOf id ++ [e] := by
  cases shape : event.data with
  | none => exact .inl (by simp only [Setup.arrival, shape])
  | some data =>
      simp only [Setup.arrival, shape]
      split
      · exact .inl rfl
      · refine (processSidecarEvent_log cfg.env clk (cfg.streamed.request s id event data) s).imp_right ?_
        rintro ⟨later, grown⟩
        refine ⟨sidecarEvent clk (cfg.streamed.request s id event data), ?_, later, grown⟩
        cases event
        cases shape
        rfl

/-! ## The log -/

/-- Of the events streamed so far, in their order, the log has taken over some. -/
structure Ordered (id : String) (base : Store) (events : List Agent.TaskEvent) (d : Delivery) : Prop where
  log : ∃ recorded done, d.store.eventsOf id = base.eventsOf id ++ recorded ∧
    (recorded.map sent).Sublist done ∧
    done ++ numbered d.stream.sequence d.pending <+: streamed events ∧
    ∀ post, d.stream.posting = some post → ∃ before, done = before ++ [post.event]

section ordered
variable {cfg : Setup} {id : String} {base : Store} {events : List Agent.TaskEvent} {d : Delivery}

theorem sublist_of_concat {α : Type} {l before : List α} {x : α} (sub : l.Sublist (before ++ [x]))
    (absent : x ∉ l) : l.Sublist before := by
  obtain ⟨first, last, rfl, taken, rest⟩ := List.sublist_append_iff.mp sub
  rcases List.sublist_singleton.mp rest with rfl | rfl
  · rw [List.append_nil]
    exact taken
  · exact absurd (List.mem_append_right _ (List.mem_singleton.mpr rfl)) absent

theorem Ordered.start (base : Store) (events : List Agent.TaskEvent) :
    Ordered id base events { store := base, pending := events } := by
  refine ⟨[], [runningEvent], by rw [List.append_nil], List.nil_sublist _, List.prefix_rfl, ?_⟩
  intro post posting
  cases posting
  exact ⟨[], rfl⟩

theorem Ordered.next (h : Ordered id base events d) : Ordered id base events d.next := by
  unfold Delivery.next
  split
  · rename_i event rest _ pending
    obtain ⟨recorded, done, log, sub, planned, -⟩ := h.log
    rw [pending, numbered] at planned
    refine ⟨recorded, done ++ [{ event with sequence := d.stream.sequence + 1 }], log,
      sub.trans (List.sublist_append_left _ _), ?_, fun post posting => ?_⟩
    · rw [List.append_assoc, List.singleton_append]
      exact planned
    · cases posting
      exact ⟨done, rfl⟩
  · exact h

/-- The event being posted joins the log at most once: once it is there, the log is
not below its number. -/
theorem Ordered.served (h : Ordered id base events d) (cfg : Setup) {post : Post}
    (posting : d.stream.posting = some post) (clk : Option Clock) :
    Ordered id base events { d with store := (d.served cfg id post.event clk).2 } := by
  cases clk with
  | none => exact h
  | some clk =>
      simp only [Delivery.served]
      rcases arrival_log cfg clk d.store id post.event with same | ⟨e, own, later, grown⟩
      · rw [same]
        exact h
      · obtain ⟨recorded, done, log, sub, planned, current⟩ := h.log
        obtain ⟨before, rfl⟩ := current post posting
        have fresh : post.event ∉ recorded.map sent := by
          intro again
          obtain ⟨x, member, same⟩ := List.mem_map.mp again
          have stored : x ∈ d.store.eventsOf id := by
            rw [log]
            exact List.mem_append_right _ member
          obtain ⟨known, rfl⟩ := Store.mem_eventsOf.mp stored
          have bound := Store.le_maxSequence known
          have number : x.sequence = e.sequence := congrArg Agent.TaskEvent.sequence (same.trans own.symm)
          omega
        refine ⟨recorded ++ [e], before ++ [post.event], ?_, ?_, planned, current⟩
        · rw [grown, log, List.append_assoc]
        · rw [List.map_append, List.map_singleton, own]
          exact (sublist_of_concat sub fresh).append (List.Sublist.refl _)

theorem Ordered.settle {store : Store} (h : Ordered id base events { d with store }) {post : Post}
    (posting : d.stream.posting = some post) {settled : Settled}
    (same : ∀ again, settled = .again again → again.event = post.event) :
    Ordered id base events (d.settle store settled) := by
  obtain ⟨recorded, done, log, sub, planned, current⟩ := h.log
  cases settled with
  | again next =>
      refine ⟨recorded, done, log, sub, planned, fun other posting' => ?_⟩
      cases posting'
      rw [same next rfl]
      exact current post posting
  | returned => exact ⟨recorded, done, log, sub, planned, nofun⟩
  | raised =>
      refine ⟨recorded, done, log, sub, ?_, nofun⟩
      rw [Delivery.settle, numbered, List.append_nil]
      exact (List.prefix_append _ _).trans planned

theorem Ordered.attempt (h : Ordered id base events d) (a : Attempt) :
    Ordered id base events (d.attempt cfg id a) := by
  unfold Delivery.attempt
  split
  · exact h
  · rename_i post posting
    have served := h.served cfg posting a.processed
    dsimp only
    split
    · exact served
    · rename_i settled outcome
      refine Ordered.settle served posting fun again eq => ?_
      rw [eq] at outcome
      rw [Post.settle_again outcome]

theorem Ordered.step (h : Ordered id base events d) {a : Action} (alone : Alone cfg id d a) :
    Ordered id base events (d.advance cfg id a) := by
  cases a with
  | next => exact h.next
  | attempt a => exact h.attempt a
  | other a =>
      obtain ⟨recorded, done, log, rest⟩ := h.log
      exact ⟨recorded, done, alone.trans log, rest⟩

end ordered

/-! ## The end of the task -/

def entering (p : TaskStatus → Bool) : Report → Bool
  | .moved before after => !p before && p after

theorem moves_entering {p : TaskStatus → Bool} {s s' : Store} {id : String}
    (kept : (s.status? id).any p = true → (s'.status? id).any p = true) :
    (moves id s s').countP (entering p) + ((s.status? id).any p).toNat ≤ ((s'.status? id).any p).toNat := by
  unfold moves
  cases before : s.status? id with
  | none => simp
  | some a =>
      rw [before] at kept
      cases after : s'.status? id with
      | none =>
          rw [after] at kept
          cases old : p a <;> simp_all
      | some b =>
          rw [after] at kept
          by_cases same : a = b
          · simp [same]
          · cases old : p a <;> cases new : p b <;> simp_all [entering]

theorem attempt_store (cfg : Setup) (id : String) (d : Delivery) (a : Attempt) :
    (d.attempt cfg id a).store = d.store ∨ ∃ clk event,
      (d.attempt cfg id a).store = (cfg.streamed.arrival clk d.store id event).store := by
  unfold Delivery.attempt
  split
  · exact .inl rfl
  · rename_i post posting
    have left : ∀ settled : Settled,
        (d.settle (d.served cfg id post.event a.processed).2 settled).store =
          (d.served cfg id post.event a.processed).2 := by
      intro settled
      cases settled <;> rfl
    have served : (d.served cfg id post.event a.processed).2 = d.store ∨ ∃ clk event,
        (d.served cfg id post.event a.processed).2 = (cfg.streamed.arrival clk d.store id event).store := by
      cases a.processed with
      | none => exact .inl rfl
      | some clk => exact .inr ⟨clk, post.event, rfl⟩
    dsimp only
    split
    · exact served
    · rw [left]
      exact served

theorem advance_keeps {cfg : Setup} {id : String} {d : Delivery} {p : TaskStatus → Bool}
    (permanent : Permanent fun a => p a = true) (a : Action) (holds : (d.store.status? id).any p = true) :
    ((d.advance cfg id a).store.status? id).any p = true := by
  obtain ⟨status, found, good⟩ := (Option.any_eq_true _ _).mp holds
  obtain ⟨t, stored, rfl⟩ := Option.map_eq_some_iff.mp found
  have before : d.store.Holds id t.executorAgentId (fun a => p a = true) := ⟨t, stored, rfl, good⟩
  have after : (d.advance cfg id a).store.Holds id t.executorAgentId (fun a => p a = true) := by
    cases a with
    | next =>
        simp only [advance, Delivery.next]
        split <;> exact before
    | attempt a =>
        rcases attempt_store cfg id d a with same | ⟨clk, event, now⟩
        · rw [advance, same]
          exact before
        · rw [advance, now]
          exact Setup.arrival_holds permanent before clk id event
    | other a => exact a.exec_holds cfg.env permanent before
  obtain ⟨status, now, good⟩ := after.status
  exact (Option.any_eq_true _ _).mpr ⟨status, now, good⟩

theorem entered_once (cfg : Setup) (id : String) (d : Delivery) {p : TaskStatus → Bool}
    (permanent : Permanent fun a => p a = true) (as : List Action) :
    ((machine cfg id).run d as).2.countP (entering p) ≤ 1 := by
  have bound : ((machine cfg id).run d as).2.countP (entering p) ≤
      ((((machine cfg id).run d as).1.store.status? id).any p).toNat := by
    refine Machine.run_establishes (M := machine cfg id) (P := fun _ _ => True)
      (I := fun d log => log.countP (entering p) ≤ ((d.store.status? id).any p).toNat)
      (fun d log a old _ => ?_) (Nat.zero_le _) (Machine.along_true d as)
    rw [List.countP_append]
    have now : (moves id d.store (d.advance cfg id a).store).countP (entering p) +
        ((d.store.status? id).any p).toNat ≤ (((d.advance cfg id a).store.status? id).any p).toNat :=
      moves_entering (advance_keeps permanent a)
    exact (Nat.add_comm _ _ ▸ Nat.add_le_add_left old _).trans now
  exact bound.trans (Bool.toNat_le _)

/-! ## At most once, in order -/

/-- The recorded events are streamed ones in their order, each once, and the task
ends at most once. -/
structure Delivered (id : String) (base : Store) (events : List Agent.TaskEvent) (d : Delivery)
    (log : List Report) : Prop where
  recorded : ∃ recorded, d.store.eventsOf id = base.eventsOf id ++ recorded ∧
    (recorded.map sent).Sublist (streamed events) ∧
    (recorded.map Api.TaskEvent.sequence).Pairwise (· < ·)
  ended : log.countP (entering isTerminal) ≤ 1

/-- Whatever becomes of the attempts of one stream, if no other request writes to the
log of its task. -/
theorem events_delivered_once (cfg : Setup) (id : String) (base : Store) (events : List Agent.TaskEvent)
    (as : List Action) (alone : (machine cfg id).Along (Alone cfg id) { store := base, pending := events } as) :
    Delivered id base events ((machine cfg id).run { store := base, pending := events } as).1
      ((machine cfg id).run { store := base, pending := events } as).2 := by
  have ordered : Ordered id base events ((machine cfg id).run { store := base, pending := events } as).1 :=
    Machine.run_establishes (M := machine cfg id) (I := fun d _ => Ordered id base events d)
      (fun _ _ _ old alone => old.step alone) (.start base events) alone
  obtain ⟨recorded, done, log, sub, planned, -⟩ := ordered.log
  have taken : (recorded.map sent).Sublist (streamed events) :=
    sub.trans (((List.prefix_append _ _).trans planned).sublist)
  refine ⟨⟨recorded, log, taken, ?_⟩, entered_once cfg id _ permanent_terminal as⟩
  rw [List.pairwise_map]
  exact (List.pairwise_map (f := sent)).mp ((streamed_increasing events).sublist taken)

namespace Demo

def base : Store := (Op.exec Api.Demo.env (Api.Demo.create 0 "a") Api.Demo.store).2

def events : List Agent.TaskEvent :=
  [{ eventType := "status", data := some [("status", .str "running")], sequence := 1 },
    { eventType := "log", data := some [("line", .str "lost")], sequence := 2 },
    { eventType := "completed", data := some [("result", .null)], sequence := 3 }]

/-- The announcement is refused for its number. Of the next two posts one is
processed twice, as its first answer was lost; the third is dropped on the way, and
the last is processed under a server error. Another task is created meanwhile. -/
def lossy : List Action :=
  [.attempt (.answered (Api.Demo.at' 1)), .next, .attempt (.answerLost (Api.Demo.at' 2)),
    .attempt (.answered (Api.Demo.at' 3)), .other (.op (Api.Demo.create 4 "b")), .next,
    .attempt (.refused 403), .next, .attempt (.masked (Api.Demo.at' 5) 503),
    .attempt (.answered (Api.Demo.at' 6))]

theorem lossy_alone : (machine Demo.setup "task-a").Along (Alone Demo.setup "task-a")
    { store := base, pending := events } lossy := by
  decide +kernel

end Demo

theorem events_delivered_once_lossy :
    Delivered "task-a" Demo.base Demo.events
      ((machine Demo.setup "task-a").run { store := Demo.base, pending := Demo.events } Demo.lossy).1
      ((machine Demo.setup "task-a").run { store := Demo.base, pending := Demo.events } Demo.lossy).2 :=
  events_delivered_once Demo.setup "task-a" Demo.base Demo.events Demo.lossy Demo.lossy_alone

/-- Two of the four streamed events are recorded, each once. -/
example : (((machine Demo.setup "task-a").run { store := Demo.base, pending := Demo.events }
    Demo.lossy).1.store.eventsOf "task-a").map (fun e => (e.eventType, e.sequence)) =
      [("created", 1), ("status", 2), ("completed", 4)] := by
  decide +kernel

end Delivery
end Fleet.System
