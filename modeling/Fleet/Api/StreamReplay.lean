/- Reconnecting to the event stream of a task: nothing is lost, nothing is repeated. -/
import Fleet.Api.Sse

namespace Fleet.Api
open Fleet.Lib
open Feed (Consecutive Increasing beyond entries reached)

/-! ## One connection -/

theorem fetchEventsAfter_eq {s : Store} {taskId : String}
    (increasing : Increasing TaskEvent.sequence (s.eventsOf taskId)) (last : Int) :
    fetchEventsAfter s taskId last = beyond TaskEvent.sequence (s.eventsOf taskId) last := by
  have sorted : Increasing TaskEvent.sequence (beyond TaskEvent.sequence (s.eventsOf taskId) last) :=
    increasing.sublist List.filter_sublist
  exact List.Pairwise.insertionSort_eq ((List.pairwise_map.mp sorted).imp Int.le_of_lt)

/-- How a connection that began with the number `first` stands to the log: what it has
sent, and what it holds to send. -/
structure Follows (log : List TaskEvent) (taskId : String) (first : Int) (g : EventStream)
    (frames : List Frame) : Prop where
  own : g.taskId = taskId
  sent : Consecutive TaskEvent.sequence log first frames
  last : g.lastSent = reached TaskEvent.sequence first frames
  batch : ∀ rest polled, g.phase = .sending rest polled →
    rest <+: beyond TaskEvent.sequence log g.lastSent
  unended : (entries frames).Pairwise (fun e _ => endsStream e = false)
  stopped : ∀ e ∈ entries frames, endsStream e = true → g.phase.stopped

namespace Follows
variable {log log' : List TaskEvent} {workflowId taskId : String} {first : Int} {g : EventStream}
  {frames : List Frame} {s : Store}

theorem start (log : List TaskEvent) (workflowId taskId : String) (header : Option Int)
    (held : Bool) :
    Follows log taskId (header.getD 0) (streamTaskEvents workflowId taskId header held) [] where
  own := rfl
  sent := .stop _
  last := rfl
  batch := fun _ _ phase => by cases phase
  unended := List.Pairwise.nil
  stopped := fun _ member => by cases member

theorem step (h : Follows log taskId first g frames) (interval : Int)
    (increasing : Increasing TaskEvent.sequence log) (shown : s.eventsOf taskId <+: log) :
    Follows log taskId first (g.step interval s).1 (frames ++ (g.step interval s).2) := by
  have advance := EventStream.advance interval s g
  generalize g.step interval s = result at advance ⊢
  cases advance with
  | silent g' own same stopped _ batch =>
      rw [List.append_nil]
      refine ⟨own.trans h.own, h.sent, same.trans h.last, fun rest polled phase => ?_, h.unended,
        fun e member ends => ?_⟩
      · rw [batch rest polled phase, same, h.own, fetchEventsAfter_eq (increasing.sublist shown.sublist)]
        exact Feed.beyond_grow shown g.lastSent
      · have before := h.stopped e member ends
        rw [stopped before]
        exact before
  | event e rest polled batch =>
      obtain ⟨more, next⟩ := h.batch _ _ batch
      rw [List.cons_append] at next
      have going : ∀ x ∈ entries frames, endsStream x = false := by
        intro x member
        apply Bool.eq_false_iff.mpr
        intro ends
        have stopped := h.stopped x member ends
        rw [batch] at stopped
        exact stopped
      refine ⟨h.own, h.sent.append ?_, ?_, fun rest' polled' phase => ?_, ?_, fun x member ends => ?_⟩
      · rw [← h.last]
        exact .entry next.symm (.stop _)
      · rw [Feed.reached_append]
        rfl
      · change EventStream.phaseAfter e (.sending rest polled) = .sending rest' polled' at phase
        have goes : endsStream e = false := by
          apply Bool.eq_false_iff.mpr
          intro ends
          have stopped := EventStream.phaseAfter_stopped e (.sending rest polled) ends
          rw [phase] at stopped
          exact stopped
        rw [EventStream.phaseAfter_next e _ goes] at phase
        cases phase
        rw [Feed.beyond_next increasing next.symm]
        exact List.prefix_append rest more
      · rw [Feed.entries_append, List.pairwise_append]
        exact ⟨h.unended, List.pairwise_singleton _ _, fun x member _ _ => going x member⟩
      · rw [Feed.entries_append] at member
        rcases List.mem_append.mp member with old | new
        · rw [going x old] at ends
          cases ends
        · rw [List.mem_singleton.mp new] at ends
          exact EventStream.phaseAfter_stopped e _ ends
  | keepalive idle =>
      have silent : entries (frames ++ [Item.mark g.lastSent]) = entries frames := by
        simp [entries, Feed.entry?]
      refine ⟨h.own, h.sent.append ?_, ?_, fun _ _ phase => ?_, ?_, fun x member ends => ?_⟩
      · rw [← h.last]
        exact .mark (.stop _)
      · rw [Feed.reached_append]
        rfl
      · cases phase
      · rw [silent]
        exact h.unended
      · rw [silent] at member
        have stopped := h.stopped x member ends
        rw [idle] at stopped
        exact stopped.elim

theorem run (h : Follows log taskId first g []) (interval : Int)
    (increasing : Increasing TaskEvent.sequence log) {reads : List Store}
    (shown : ∀ s ∈ reads, s.eventsOf taskId <+: log) :
    Follows log taskId first ((eventStream interval).run g reads).1
      ((eventStream interval).run g reads).2 := by
  have kept := Machine.run_invariant (M := eventStream interval) (I := Follows log taskId first)
    (P := fun _ s => s.eventsOf taskId <+: log)
    (fun _ _ _ h shown => h.step interval increasing shown) h
    (Machine.along_of_forall (fun s member _ => shown s member) g)
  rwa [List.nil_append] at kept

end Follows

/-! ## A series of connections -/

/-- The stores a connection meets, and how many of its frames reach the client. -/
structure Connection where
  held : Bool
  reads : List Store
  received : Nat

/-- What the client has received when the connection is gone. -/
def Connection.frames (c : Connection) (interval : Int) (workflowId taskId : String)
    (header : Option Int) : List Frame :=
  ((eventStream interval).run (streamTaskEvents workflowId taskId header c.held) c.reads).2.take
    c.received

/-- The `Last-Event-Id` of the next connection: the number of the last frame received, a
keepalive's too. -/
def lastEventId (header : Option Int) (frames : List Frame) : Option Int :=
  (frames.getLast?.map (Feed.numberOf TaskEvent.sequence)).or header

/-- What the client receives in all, each connection resuming where the last one was
cut. -/
def reconnecting (interval : Int) (workflowId taskId : String) :
    Option Int → List Connection → List Frame
  | _, [] => []
  | header, c :: cs =>
      let frames := c.frames interval workflowId taskId header
      frames ++ reconnecting interval workflowId taskId (lastEventId header frames) cs

theorem lastEventId_getD (header : Option Int) (frames : List Frame) :
    (lastEventId header frames).getD 0 = reached TaskEvent.sequence (header.getD 0) frames := by
  rw [Feed.reached_eq_getLast, lastEventId]
  cases frames.getLast? <;> rfl

theorem lastEventId_append (header : Option Int) (xs ys : List Frame) :
    lastEventId header (xs ++ ys) = lastEventId (lastEventId header xs) ys := by
  simp only [lastEventId, List.getLast?_append]
  cases ys.getLast? <;> rfl

section series
variable (interval : Int) (workflowId : String) {taskId : String} {log : List TaskEvent}
  {header : Option Int} {c : Connection} {cs : List Connection}

theorem reconnecting_snoc (header : Option Int) (cs : List Connection) (c : Connection) :
    reconnecting interval workflowId taskId header (cs ++ [c]) =
      reconnecting interval workflowId taskId header cs ++ c.frames interval workflowId taskId
        (lastEventId header (reconnecting interval workflowId taskId header cs)) := by
  induction cs generalizing header with
  | nil => simp [reconnecting, lastEventId]
  | cons d cs ih =>
      simp only [List.cons_append, reconnecting]
      rw [ih, lastEventId_append, List.append_assoc]

theorem Connection.consecutive (increasing : Increasing TaskEvent.sequence log)
    (shown : ∀ s ∈ c.reads, s.eventsOf taskId <+: log) (header : Option Int) :
    Consecutive TaskEvent.sequence log (header.getD 0) (c.frames interval workflowId taskId header) :=
  ((Follows.start log workflowId taskId header c.held).run interval increasing shown).sent.take _

theorem Connection.unended (increasing : Increasing TaskEvent.sequence log)
    (shown : ∀ s ∈ c.reads, s.eventsOf taskId <+: log) (header : Option Int) :
    (entries (c.frames interval workflowId taskId header)).Pairwise
      (fun e _ => endsStream e = false) := by
  have whole := ((Follows.start log workflowId taskId header c.held).run interval increasing
    shown).unended
  exact whole.sublist ((List.take_sublist _ _).filterMap _)

theorem reconnecting_consecutive (increasing : Increasing TaskEvent.sequence log)
    (shown : ∀ c ∈ cs, ∀ s ∈ c.reads, s.eventsOf taskId <+: log) (header : Option Int) :
    Consecutive TaskEvent.sequence log (header.getD 0)
      (reconnecting interval workflowId taskId header cs) := by
  induction cs generalizing header with
  | nil => exact .stop _
  | cons c cs ih =>
      have first := c.consecutive interval workflowId increasing (shown c List.mem_cons_self) header
      have rest := ih (fun d member => shown d (List.mem_cons_of_mem c member))
        (lastEventId header (c.frames interval workflowId taskId header))
      rw [lastEventId_getD] at rest
      exact first.append rest

theorem reconnecting_unended (increasing : Increasing TaskEvent.sequence log)
    (shown : ∀ s ∈ c.reads, s.eventsOf taskId <+: log)
    (open' : ∀ e ∈ entries (reconnecting interval workflowId taskId header cs), endsStream e = false) :
    (entries (reconnecting interval workflowId taskId header (cs ++ [c]))).Pairwise
      (fun e _ => endsStream e = false) := by
  rw [reconnecting_snoc, Feed.entries_append, List.pairwise_append]
  refine ⟨List.pairwise_of_forall_mem_list fun e member _ _ => open' e member,
    c.unended interval workflowId increasing shown _, fun e member _ _ => open' e member⟩

/-! ## One uninterrupted connection -/

theorem sends_batch (interval : Int) {s : Store} {polled : Bool} {es more : List TaskEvent}
    {g : EventStream}
    (unended : es.Pairwise (fun e _ => endsStream e = false))
    (batch : g.phase = .sending (es ++ more) polled) :
    ((eventStream interval).run g (List.replicate es.length s)).2 = es.map Item.entry := by
  induction es generalizing g with
  | nil => rfl
  | cons e es ih =>
      obtain ⟨first, later⟩ := List.pairwise_cons.mp unended
      have step : (eventStream interval).step g s =
          ({ g with
              phase := EventStream.phaseAfter e (.sending (es ++ more) polled)
              lastSent := e.sequence }, [.entry e]) := by
        simp [eventStream, EventStream.step, batch]
      rw [List.length_cons, List.replicate_succ, Machine.run, step]
      simp only [List.map_cons, List.cons_append, List.nil_append, List.cons.injEq, true_and]
      cases es with
      | nil => rfl
      | cons x es =>
          have goes := first x List.mem_cons_self
          exact ih later (EventStream.phaseAfter_next e _ goes)

theorem Connection.whole {s : Store} {workflow : Workflow} {task : Task} {es more : List TaskEvent}
    (held : Bool) (known : s.workflows.find? workflowId = some workflow)
    (stored : s.tasks.find? taskId = some task) (inside : task.workflowId = workflowId)
    (batch : fetchEventsAfter s taskId (header.getD 0) = es ++ more)
    (unended : es.Pairwise (fun e _ => endsStream e = false)) :
    entries ((Connection.mk held (List.replicate (es.length + 3) s) es.length).frames interval
      workflowId taskId header) = es := by
  have frames := sends_batch interval (s := s)
    (g := { streamTaskEvents workflowId taskId header held with
      phase := .sending (es ++ more) false
      cached := if held then some task.status else none }) unended rfl
  have all : ((eventStream interval).run (streamTaskEvents workflowId taskId header held)
      (List.replicate (es.length + 3) s)).2 = es.map Item.entry := by
    rw [← frames]
    simp [List.replicate_succ, Machine.run, eventStream, EventStream.step, streamTaskEvents, known,
      stored, inside, batch, Option.filter]
  rw [Connection.frames, all, List.take_of_length_le (by simp), entries, List.filterMap_map]
  exact List.filterMap_some

/-- What a series of connections delivers: the log after the number the client began
with, in order and without a gap, the same as one connection does. -/
structure Uninterrupted (interval : Int) (workflowId taskId : String) (log : List TaskEvent)
    (header : Option Int) (delivered : List TaskEvent) : Prop where
  inOrder : delivered <+: beyond TaskEvent.sequence log (header.getD 0)
  fromStart : (∀ e ∈ log, header.getD 0 < e.sequence) → delivered <+: log
  /-- Any one connection, cut anywhere, has delivered a part of it or goes on from it. -/
  comparable : ∀ single : Connection, (∀ s ∈ single.reads, s.eventsOf taskId <+: log) →
    delivered <+: entries (single.frames interval workflowId taskId header) ∨
      entries (single.frames interval workflowId taskId header) <+: delivered
  /-- A connection opened once these events are stored delivers exactly them, up to the
  same point. -/
  equal : ∀ (held : Bool) (s : Store) (workflow : Workflow) (task : Task),
    s.workflows.find? workflowId = some workflow → s.tasks.find? taskId = some task →
    task.workflowId = workflowId → s.eventsOf taskId <+: log →
    (∀ e ∈ delivered, e ∈ s.eventsOf taskId) →
    entries ((Connection.mk held (List.replicate (delivered.length + 3) s) delivered.length).frames
      interval workflowId taskId header) = delivered

theorem reconnection_uninterrupted (interval : Int) (workflowId taskId : String)
    {log : List TaskEvent} (increasing : Increasing TaskEvent.sequence log) (header : Option Int)
    (cs : List Connection) (c : Connection)
    (shown : ∀ d ∈ cs ++ [c], ∀ s ∈ d.reads, s.eventsOf taskId <+: log)
    (open' : ∀ e ∈ entries (reconnecting interval workflowId taskId header cs), endsStream e = false) :
    Uninterrupted interval workflowId taskId log header
      (entries (reconnecting interval workflowId taskId header (cs ++ [c]))) := by
  have sent := reconnecting_consecutive interval workflowId increasing shown header
  have unended := reconnecting_unended interval workflowId increasing
    (shown c (List.mem_append_right cs List.mem_cons_self)) open'
  have inOrder := sent.entries_prefix increasing
  refine ⟨inOrder, fun positive => ?_, fun single parts => ?_, ?_⟩
  · have all : beyond TaskEvent.sequence log (header.getD 0) = log :=
      List.filter_eq_self.mpr fun e member => decide_eq_true (positive e member)
    rwa [all] at inOrder
  · exact sent.comparable (single.consecutive interval workflowId increasing parts header) increasing
  · intro held s workflow task known stored inside part has
    have sorted := increasing.sublist part.sublist
    have fetched := fetchEventsAfter_eq sorted (header.getD 0)
    have distinct : (entries (reconnecting interval workflowId taskId header (cs ++ [c]))).Nodup := by
      have ordered := increasing.sublist (inOrder.sublist.trans List.filter_sublist)
      exact List.Nodup.of_map TaskEvent.sequence (ordered.imp fun less => Int.ne_of_lt less)
    have size := (List.subperm_of_subset distinct fun e member =>
      Feed.mem_beyond.mpr ⟨has e member, (Feed.mem_beyond.mp (inOrder.subset member)).2⟩).length_le
    obtain ⟨more, rest⟩ := List.prefix_of_prefix_length_le inOrder
      (Feed.beyond_grow part (header.getD 0)) size
    rw [← rest] at fetched
    exact Connection.whole interval workflowId held known stored inside fetched unended

end series

namespace Demo

def progressed : List Step :=
  running ++ [.op (post 2 "task-a" "progress" [("progress", .num 50)] 3)]

def finished : List Step := progressed ++ [.op (post 3 "task-a" "completed" [] 4)]

def after (steps : List Step) : Store := runSteps env steps store

/-- Cut after the first of two events. -/
def cut : Connection := ⟨true, List.replicate 5 (after running), 1⟩

/-- Sends the second event, then a keepalive, and loses the third event under way. -/
def idle : Connection :=
  ⟨false, List.replicate 9 (after running) ++ List.replicate 4 (after progressed), 2⟩

def last : Connection := ⟨true, List.replicate 5 (after finished), 2⟩

end Demo

theorem reconnection_uninterrupted_cut :
    Uninterrupted 1 "wf" "task-a" ((Demo.after Demo.finished).eventsOf "task-a") none
        (entries (reconnecting 1 "wf" "task-a" none ([Demo.cut, Demo.idle] ++ [Demo.last]))) ∧
      (reconnecting 1 "wf" "task-a" none [Demo.cut, Demo.idle, Demo.last]).map
        (Feed.numberOf TaskEvent.sequence) = [1, 2, 2, 3, 4] :=
  ⟨reconnection_uninterrupted 1 "wf" "task-a" (by unfold Increasing; decide +kernel) none
    [Demo.cut, Demo.idle] Demo.last (by decide +kernel) (by decide +kernel), by decide +kernel⟩

end Fleet.Api
