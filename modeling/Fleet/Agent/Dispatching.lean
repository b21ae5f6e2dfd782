/- The dispatch discipline of the task poller: what is in flight, what runs and what is
   registered for signals, over every order of polls and endings. -/
import Mathlib.Data.Finset.Card
import Mathlib.Data.Finset.Dedup
import Fleet.Lib.Machine
import Fleet.Agent.Poller

namespace Fleet.Agent
open Fleet.Lib

/-! ## The task poller -/

/-- `TaskPoller` with the dispatches it created that are not over, one after the
other. `signals` is missing where no signal poller is given. -/
structure TaskPoller where
  maxConcurrent : Int
  inFlight : Finset String := ∅
  live : List Dispatch := []
  signals : Option SignalState

namespace TaskPoller

inductive Report where
  | dispatched (taskId : String)
  | ended (taskId : String) (how : Ending)
  deriving DecidableEq

/-- What may happen next on the event loop: a poll answers (`none` is a poll that
fails), a dispatch goes on or ends, its executor takes the queued contexts, and the
signal poller handles a signal or marks one as processed. -/
inductive Action where
  | polled (result : Option (List PendingTask))
  | goesOn (i : Nat) (next : Dispatch)
  | ends (i : Nat) (how : Ending)
  | popsContext (taskId : String)
  | handles (sig : Signal)
  | marks (key : String)

def fresh (maxConcurrent : Int) (signalPoller : Bool) : TaskPoller where
  maxConcurrent := maxConcurrent
  signals := if signalPoller then some {} else none

section step
variable (p : TaskPoller)

def ids : List String := p.live.map Dispatch.taskId

def dispatch (task : PendingTask) : TaskPoller :=
  { p with
    inFlight := insert task.taskId p.inFlight
    live := p.live ++ [.start task]
    signals := p.signals.map fun st => st.registerTask task.taskId }

/-- One round over the polled tasks: it skips what is in flight and stops at the
limit, which may be any number. -/
def round (p : TaskPoller) : List PendingTask → TaskPoller × List Report
  | [] => (p, [])
  | task :: rest =>
      if task.taskId ∈ p.inFlight then round p rest
      else if p.maxConcurrent ≤ p.inFlight.card then (p, [])
      else
        let (last, later) := round (p.dispatch task) rest
        (last, .dispatched task.taskId :: later)

/-- The `finally` of `_dispatch`. -/
def finish (i : Nat) (taskId : String) : TaskPoller :=
  { p with
    inFlight := p.inFlight.erase taskId
    live := p.live.eraseIdx i
    signals := p.signals.map fun st => st.unregisterTask taskId }

/-- A dispatch may do anything but change its task. -/
def goesOn (i : Nat) (next : Dispatch) : TaskPoller :=
  match p.live[i]? with
  | none => p
  | some d => if next.taskId = d.taskId then { p with live := p.live.set i next } else p

def withSignals (f : SignalState → SignalState) : TaskPoller := { p with signals := p.signals.map f }

def step : Action → TaskPoller × List Report
  | .polled result => p.round (result.getD [])
  | .goesOn i next => (p.goesOn i next, [])
  | .ends i how =>
      match p.live[i]? with
      | none => (p, [])
      | some d => (p.finish i d.taskId, [.ended d.taskId how])
  | .popsContext taskId => (p.withSignals fun st => (st.popContext taskId).2, [])
  | .handles sig => (p.withSignals fun st => (handleSignal st sig).1, [])
  | .marks key => (p.withSignals fun st => st.markSignalProcessed key, [])

end step

def machine : Machine TaskPoller Action Report where
  step := step

/-! ## The discipline -/

/-- What is in flight, what is live and what is registered are the same tasks, each
with one dispatch. A limit below one lets nothing run. -/
structure Disciplined (p : TaskPoller) : Prop where
  flight : p.inFlight = p.ids.toFinset
  single : p.ids.Nodup
  limited : p.live = [] ∨ (p.live.length : Int) ≤ p.maxConcurrent
  registered : ∀ st, p.signals = some st → ∀ id, st.hasTask id = true ↔ id ∈ p.ids

structure Idle (p : TaskPoller) (id : String) : Prop where
  landed : id ∉ p.inFlight
  unregistered : ∀ st, p.signals = some st → st.hasTask id = false

section discipline
variable {p : TaskPoller}

theorem Disciplined.fresh (maxConcurrent : Int) (signalPoller : Bool) :
    (fresh maxConcurrent signalPoller).Disciplined := by
  refine ⟨rfl, List.nodup_nil, .inl rfl, fun st given id => ?_⟩
  cases signalPoller with
  | false => cases given
  | true => cases given; simp [SignalState.hasTask, SignalState.entry?, ids, TaskPoller.fresh]

theorem Disciplined.mem_inFlight (h : p.Disciplined) {id : String} : id ∈ p.inFlight ↔ id ∈ p.ids := by
  rw [h.flight, List.mem_toFinset]

theorem Disciplined.card (h : p.Disciplined) : p.inFlight.card = p.live.length := by
  rw [h.flight, List.toFinset_card_of_nodup h.single, ids, List.length_map]

theorem Disciplined.idle (h : p.Disciplined) {id : String} (absent : id ∉ p.ids) : p.Idle id := by
  refine ⟨fun flies => absent (h.mem_inFlight.mp flies), fun st given => ?_⟩
  rw [← Bool.not_eq_true, h.registered st given id]
  exact absent

theorem ids_dispatch (task : PendingTask) : (p.dispatch task).ids = p.ids ++ [task.taskId] :=
  List.map_append

theorem Disciplined.dispatch (h : p.Disciplined) {task : PendingTask} (absent : task.taskId ∉ p.inFlight)
    (room : ¬ p.maxConcurrent ≤ p.inFlight.card) : (p.dispatch task).Disciplined where
  flight := by
    ext id
    rw [ids_dispatch, List.mem_toFinset, List.mem_append, List.mem_singleton, TaskPoller.dispatch,
      Finset.mem_insert, h.mem_inFlight, or_comm]
  single := by
    rw [ids_dispatch]
    refine h.single.append (List.nodup_singleton _) ?_
    rw [List.disjoint_singleton, ← h.mem_inFlight]
    exact absent
  limited := by
    refine .inr ?_
    rw [h.card] at room
    simp only [TaskPoller.dispatch, List.length_append, List.length_singleton]
    omega
  registered := by
    intro st given id
    obtain ⟨old, before, rfl⟩ := Option.map_eq_some_iff.mp given
    rw [SignalState.hasTask_registerTask, h.registered old before, ids_dispatch, List.mem_append,
      List.mem_singleton, or_comm]

theorem Disciplined.round (h : p.Disciplined) (tasks : List PendingTask) : (p.round tasks).1.Disciplined := by
  induction tasks generalizing p with
  | nil => exact h
  | cons task rest ih =>
      rw [TaskPoller.round]
      split_ifs with flies full
      · exact ih h
      · exact h
      · exact ih (h.dispatch flies full)

theorem ids_finish (h : p.Disciplined) {i : Nat} {d : Dispatch} (found : p.live[i]? = some d) :
    (p.finish i d.taskId).ids = p.ids.erase d.taskId := by
  obtain ⟨inside, rfl⟩ := List.getElem?_eq_some_iff.mp found
  have bound : i < p.ids.length := by rw [ids, List.length_map]; exact inside
  have own : p.ids[i] = p.live[i].taskId := List.getElem_map _
  rw [← own, h.single.erase_getElem i bound]
  exact (List.eraseIdx_map _ _ _).symm

theorem step_ends {i : Nat} {d : Dispatch} (found : p.live[i]? = some d) (how : Ending) :
    p.step (.ends i how) = (p.finish i d.taskId, [.ended d.taskId how]) := by
  rw [step, found]

theorem Disciplined.finish (h : p.Disciplined) {i : Nat} {d : Dispatch} (found : p.live[i]? = some d) :
    (p.finish i d.taskId).Disciplined where
  flight := by
    ext id
    rw [ids_finish h found, List.mem_toFinset, h.single.mem_erase_iff, TaskPoller.finish,
      Finset.mem_erase, h.mem_inFlight]
  single := by
    rw [ids_finish h found]
    exact h.single.erase _
  limited := by
    rcases h.limited with empty | few
    · rw [empty] at found
      cases found
    · have shorter := List.length_eraseIdx_le p.live i
      exact .inr (by simp only [TaskPoller.finish]; omega)
  registered := by
    intro st given id
    obtain ⟨old, before, rfl⟩ := Option.map_eq_some_iff.mp given
    rw [SignalState.hasTask_unregisterTask, h.registered old before, ids_finish h found,
      h.single.mem_erase_iff]

theorem ids_goesOn (i : Nat) (next : Dispatch) : (p.goesOn i next).ids = p.ids := by
  unfold goesOn
  split
  · rfl
  · rename_i d found
    split
    · rename_i same
      rw [ids, List.map_set, same, ← ids]
      obtain ⟨inside, rfl⟩ := List.getElem?_eq_some_iff.mp found
      have bound : i < p.ids.length := by rw [ids, List.length_map]; exact inside
      have own : p.ids[i] = p.live[i].taskId := List.getElem_map _
      rw [← own, List.set_getElem_self]
    · rfl

theorem Disciplined.of_same {q : TaskPoller} (h : p.Disciplined) (limit : q.maxConcurrent = p.maxConcurrent)
    (flight : q.inFlight = p.inFlight) (ids : q.ids = p.ids)
    (registered : ∀ st, q.signals = some st → ∃ old, p.signals = some old ∧
      ∀ id, st.hasTask id = old.hasTask id) : q.Disciplined where
  flight := by rw [flight, ids, h.flight]
  single := by rw [ids]; exact h.single
  limited := by
    have long : q.live.length = p.live.length := by
      rw [← List.length_map Dispatch.taskId, ← List.length_map Dispatch.taskId]
      exact congrArg List.length ids
    rw [← List.length_eq_zero_iff, long, List.length_eq_zero_iff, limit]
    exact h.limited
  registered := by
    intro st given id
    obtain ⟨old, before, same⟩ := registered st given
    rw [same, h.registered old before, ids]

theorem Disciplined.goesOn (h : p.Disciplined) (i : Nat) (next : Dispatch) :
    (p.goesOn i next).Disciplined := by
  have rest : (p.goesOn i next).maxConcurrent = p.maxConcurrent ∧
      (p.goesOn i next).inFlight = p.inFlight ∧ (p.goesOn i next).signals = p.signals := by
    unfold TaskPoller.goesOn
    split
    · exact ⟨rfl, rfl, rfl⟩
    · split <;> exact ⟨rfl, rfl, rfl⟩
  refine h.of_same rest.1 rest.2.1 (ids_goesOn i next) fun st given => ?_
  exact ⟨st, rest.2.2 ▸ given, fun _ => rfl⟩

theorem Disciplined.withSignals (h : p.Disciplined) {f : SignalState → SignalState}
    (keeps : ∀ st id, (f st).hasTask id = st.hasTask id) : (p.withSignals f).Disciplined := by
  refine h.of_same rfl rfl rfl fun st given => ?_
  obtain ⟨old, before, rfl⟩ := Option.map_eq_some_iff.mp given
  exact ⟨old, before, keeps old⟩

theorem Disciplined.step (h : p.Disciplined) (a : Action) : (p.step a).1.Disciplined := by
  cases a with
  | polled result => exact h.round _
  | goesOn i next => exact h.goesOn i next
  | ends i how =>
      simp only [TaskPoller.step]
      split
      · exact h
      · exact h.finish ‹_›
  | popsContext taskId => exact h.withSignals fun st id => st.hasTask_update taskId id _
  | handles sig => exact h.withSignals fun st id => hasTask_handleSignal st sig id
  | marks key => exact h.withSignals fun _ _ => rfl

/-! ## Tasks that are not dispatched again -/

theorem round_absent {tasks : List PendingTask} {id : String} (absent : id ∉ p.ids)
    (again : .dispatched id ∉ (p.round tasks).2) : id ∉ (p.round tasks).1.ids := by
  induction tasks generalizing p with
  | nil => exact absent
  | cons task rest ih =>
      rw [TaskPoller.round] at again ⊢
      split_ifs at again ⊢ with flies full
      · exact ih absent again
      · exact absent
      · obtain ⟨other, later⟩ := not_or.mp (fun either => again (List.mem_cons.mpr either))
        refine ih (fun member => ?_) later
        rw [ids_dispatch, List.mem_append, List.mem_singleton] at member
        rcases member with old | rfl
        · exact absent old
        · exact other rfl

theorem step_absent {a : Action} {id : String} (h : p.Disciplined) (absent : id ∉ p.ids)
    (again : .dispatched id ∉ (p.step a).2) : id ∉ (p.step a).1.ids := by
  cases a with
  | polled result => exact round_absent absent again
  | goesOn i next => rw [TaskPoller.step, ids_goesOn]; exact absent
  | ends i how =>
      simp only [TaskPoller.step]
      split
      · exact absent
      · rw [ids_finish h ‹_›]
        exact fun member => absent (List.mem_of_mem_erase member)
  | popsContext taskId | handles sig | marks key => exact absent

end discipline

theorem run_disciplined {p : TaskPoller} (h : p.Disciplined) (as : List Action) :
    (machine.run p as).1.Disciplined :=
  Machine.run_keeps (fun _ a old => old.step a) h as

theorem run_idle {p : TaskPoller} (h : p.Disciplined) {id : String} (absent : id ∉ p.ids)
    {as : List Action} (again : .dispatched id ∉ (machine.run p as).2) :
    (machine.run p as).1.Idle id := by
  have kept : (machine.run p as).1.Disciplined ∧
      (.dispatched id ∉ (machine.run p as).2 → id ∉ (machine.run p as).1.ids) := by
    refine Machine.run_establishes (I := fun p log => p.Disciplined ∧ (.dispatched id ∉ log → id ∉ p.ids))
      (fun p log a old _ => ⟨old.1.step a, fun quiet => ?_⟩) ⟨h, fun _ => absent⟩ (machine.along_true p as)
    obtain ⟨before, now⟩ := not_or.mp fun either => quiet (List.mem_append.mpr either)
    exact step_absent old.1 (old.2 before) now
  exact kept.1.idle (kept.2 again)

/-- Every run from the start is disciplined, and a task whose dispatch ended stays
idle until it is dispatched again. -/
theorem dispatch_discipline (maxConcurrent : Int) (signalPoller : Bool) (as : List Action) :
    (machine.run (fresh maxConcurrent signalPoller) as).1.Disciplined ∧
      ∀ i how d, (machine.run (fresh maxConcurrent signalPoller) as).1.live[i]? = some d →
        ∀ later : List Action,
          .dispatched d.taskId ∉
            (machine.run (machine.run (fresh maxConcurrent signalPoller) (as ++ [.ends i how])).1 later).2 →
          (machine.run (fresh maxConcurrent signalPoller) (as ++ .ends i how :: later)).1.Idle d.taskId := by
  have disciplined := run_disciplined (.fresh maxConcurrent signalPoller) as
  refine ⟨disciplined, fun i how d found later again => ?_⟩
  rw [← List.singleton_append, ← List.append_assoc, Machine.run_append]
  refine run_idle (run_disciplined (.fresh maxConcurrent signalPoller) _) ?_ again
  rw [Machine.run_snoc]
  change d.taskId ∉ (step _ _).1.ids
  rw [step_ends found, ids_finish disciplined found, disciplined.single.mem_erase_iff]
  exact fun member => member.1 rfl

/-! ## The sidecar of the whole system -/

/-- The sidecar keeps its live dispatches in a table: one for each task in flight. -/
structure Runs (p : TaskPoller) (c : Sidecar) : Prop where
  live : p.live = c.dispatches.rows
  signals : p.signals = some c.signals

section sidecar
variable {p : TaskPoller} {c : Sidecar}

theorem Runs.dispatch (same : p.Runs c) {task : PendingTask}
    {dispatches : Table String Dispatch Dispatch.taskId}
    (inserted : c.dispatches.insert? (.start task) = some dispatches) :
    (p.dispatch task).Runs { dispatches, signals := c.signals.registerTask task.taskId } where
  live := by rw [(Table.insert?_eq_some.mp inserted).2, TaskPoller.dispatch, same.live]
  signals := by simp only [TaskPoller.dispatch, same.signals, Option.map_some]

theorem Runs.round (h : p.Disciplined) (same : p.Runs c) (tasks : List PendingTask) :
    (p.round tasks).1.Runs (c.round p.maxConcurrent.toNat tasks) := by
  induction tasks generalizing p c with
  | nil => exact same
  | cons task rest ih =>
      have taken : c.dispatches.insert? (.start task) = none ↔ task.taskId ∈ p.inFlight := by
        rw [Table.insert?_eq_none, h.mem_inFlight, ids, same.live]
        rfl
      have full : p.maxConcurrent ≤ p.inFlight.card ↔
          p.maxConcurrent.toNat ≤ c.dispatches.rows.length := by
        rw [h.card, same.live, Int.toNat_le]
      rw [TaskPoller.round, Sidecar.round]
      by_cases flies : task.taskId ∈ p.inFlight
      · rw [if_pos flies, taken.mpr flies]
        exact ih h same
      · obtain ⟨dispatches, inserted⟩ := Option.ne_none_iff_exists'.mp (mt taken.mp flies)
        rw [if_neg flies, inserted]
        by_cases limit : p.maxConcurrent ≤ p.inFlight.card
        · simp only [if_pos limit, if_pos (full.mp limit)]
          exact same
        · simp only [if_neg limit, if_neg (mt full.mpr limit)]
          exact ih (h.dispatch flies limit) (same.dispatch inserted)

theorem Runs.finish (same : p.Runs c) {i : Nat} {d : Dispatch} (found : p.live[i]? = some d) :
    (p.finish i d.taskId).Runs (c.finish d.taskId) where
  live := by
    rw [same.live] at found
    simp only [TaskPoller.finish, Sidecar.finish, Table.erase_rows found, same.live]
  signals := by simp only [TaskPoller.finish, Sidecar.finish, same.signals, Option.map_some]

theorem Runs.put (same : p.Runs c) {i : Nat} {d next : Dispatch} (found : p.live[i]? = some d)
    (own : next.taskId = d.taskId) : (p.goesOn i next).Runs (c.put next) := by
  have moved : p.goesOn i next = { p with live := p.live.set i next } := by
    simp only [TaskPoller.goesOn, found, own, if_true]
  rw [moved]
  rw [same.live] at found
  exact ⟨by simp only [Sidecar.put, Table.put_rows found own, same.live], same.signals⟩

end sidecar

end TaskPoller
end Fleet.Agent
