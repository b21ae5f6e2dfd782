/- The event log replays to the status of its task. -/
import Fleet.Lib.History
import Fleet.Api.Effects

namespace Fleet.Api
open Fleet.Lib

def eventLog : Reading TaskEvent TaskStatus where
  report := recordedStatus
  number := TaskEvent.sequence
  first := .accepted
  step := fun a b => b ∈ validTransitions a

theorem eventsOf_append {s s' : Store} {es : List TaskEvent}
    (h : s'.events.rows = s.events.rows ++ es) (id : String) :
    s'.eventsOf id = s.eventsOf id ++ es.filter (fun e => e.taskId = id) := by
  rw [Store.eventsOf, h, List.filter_append]
  rfl

/-- Every event belongs to a stored task, and every task's log is the history of
its status. -/
structure Logged (s : Store) : Prop where
  owned : ∀ e ∈ s.events, ∃ t, s.tasks.find? e.taskId = some t
  history : ∀ id t, s.tasks.find? id = some t → eventLog.History (s.eventsOf id) t.status

namespace Logged
variable {s s' : Store}

theorem of_blank (blank : s.Blank) : Logged s := by
  refine ⟨fun e member => ?_, fun id t found => ?_⟩
  · rw [← Table.mem_rows, blank.2] at member
    cases member
  · rw [blank.find?_none] at found
    cases found

theorem eventsOf_absent (h : Logged s) {id : String} (absent : s.tasks.find? id = none) :
    s.eventsOf id = [] := by
  rw [List.eq_nil_iff_forall_not_mem]
  intro e member
  obtain ⟨stored, rfl⟩ := Store.mem_eventsOf.mp member
  obtain ⟨t, found⟩ := h.owned e stored
  rw [absent] at found
  cases found

theorem one_le_maxSequence (h : Logged s) {id : String} {t : Task}
    (stored : s.tasks.find? id = some t) : 1 ≤ s.maxSequence id := by
  obtain ⟨e, rest, shape, one⟩ := (h.history id t stored).head
  have own : e ∈ s.eventsOf id := by simp [shape]
  obtain ⟨member, same⟩ := Store.mem_eventsOf.mp own
  have bound := Store.le_maxSequence member
  rw [same] at bound
  have first : e.sequence = 1 := one
  omega

theorem next_fits (h : Logged s) {id : String} {t : Task} (stored : s.tasks.find? id = some t)
    (room : s.maxSequence id < 2147483647) : fitsInteger (s.maxSequence id + 1) = true := by
  have positive := h.one_le_maxSequence stored
  exact decide_eq_true ⟨by omega, by omega⟩

theorem later {e : TaskEvent} {id : String} (above : s.maxSequence id < e.sequence) :
    ∀ x ∈ s.eventsOf id, eventLog.number x < eventLog.number e := by
  intro x member
  obtain ⟨stored, rfl⟩ := Store.mem_eventsOf.mp member
  exact Int.lt_of_le_of_lt (Store.le_maxSequence stored) above

theorem created_history (id caller : String) (origin : Dict) (now : Time) :
    eventLog.History [createdEvent id caller origin now] .accepted :=
  .start _ rfl rfl

/-- What is left to show of a commit: each new event has its task, and the log of
each changed task still is its history. -/
theorem of_effect (h : Logged s) {changed : List Task} {added : List TaskEvent}
    (tasks : ∀ id, s'.tasks.find? id = (changed.find? (fun t => t.id = id)).or (s.tasks.find? id))
    (events : s'.events.rows = s.events.rows ++ added)
    (about : ∀ e ∈ added, ∃ t ∈ changed, t.id = e.taskId)
    (logs : ∀ t ∈ changed,
      eventLog.History (s.eventsOf t.id ++ added.filter (fun e => e.taskId = t.id)) t.status) :
    Logged s' := by
  have kept : ∀ id t, s.tasks.find? id = some t → ∃ t', s'.tasks.find? id = some t' := by
    intro id t found
    rw [tasks id]
    cases changed.find? (fun t => t.id = id) with
    | none => exact ⟨t, found⟩
    | some t' => exact ⟨t', rfl⟩
  refine ⟨fun e member => ?_, fun id t found => ?_⟩
  · rw [← Table.mem_rows, events, List.mem_append] at member
    rcases member with old | new
    · obtain ⟨t, found⟩ := h.owned e old
      exact kept _ t found
    · obtain ⟨t, member, same⟩ := about e new
      rw [tasks e.taskId]
      cases found : changed.find? (fun t => t.id = e.taskId) with
      | none => simpa [same] using List.find?_eq_none.mp found t member
      | some t' => exact ⟨t', rfl⟩
  · rw [eventsOf_append events]
    rw [tasks id] at found
    cases hit : changed.find? (fun t => t.id = id) with
    | some t' =>
        rw [hit] at found
        cases found
        have same : t.id = id := by simpa using List.find?_some hit
        rw [← same]
        exact logs t (List.mem_of_find?_eq_some hit)
    | none =>
        rw [hit] at found
        have silent : added.filter (fun e => e.taskId = id) = [] := by
          rw [List.filter_eq_nil_iff]
          intro e member own
          obtain ⟨t', changed', same⟩ := about e member
          have missed := List.find?_eq_none.mp hit t' changed'
          simp_all
        rw [silent, List.append_nil]
        exact h.history id t found

/-- The same for one task and one event about it. -/
theorem of_one (h : Logged s) {task : Task} {e : TaskEvent}
    (tasks : ∀ id, s'.tasks.find? id = ([task].find? (fun t => t.id = id)).or (s.tasks.find? id))
    (events : s'.events.rows = s.events.rows ++ [e]) (own : e.taskId = task.id)
    (log : eventLog.History (s.eventsOf task.id ++ [e]) task.status) : Logged s' := by
  apply h.of_effect tasks events
  · intro x member
    rw [List.mem_singleton.mp member]
    exact ⟨task, List.mem_singleton_self task, own.symm⟩
  · intro t member
    obtain rfl := List.mem_singleton.mp member
    simpa [own] using log

theorem of_touched (h : Logged s) {task task' : Task} {e : TaskEvent} (touched : Touched Eq s task task' e)
    (tasks : ∀ id, s'.tasks.find? id = ([task'].find? (fun t => t.id = id)).or (s.tasks.find? id))
    (events : s'.events.rows = s.events.rows ++ [e])
    (log : eventLog.History (s.eventsOf task.id ++ [e]) task'.status) : Logged s' :=
  h.of_one tasks events (touched.own.trans touched.origin.id.symm) (touched.origin.id ▸ log)

/-- A task that goes on in its successor: the one log takes the event, the other begins. -/
theorem of_succession (h : Logged s) {task task' next : Task} {e created : TaskEvent}
    (touched : Touched Eq s task task' e) (absent : s.tasks.find? next.id = none)
    (tasks : ∀ id, s'.tasks.find? id = ([task', next].find? (fun t => t.id = id)).or (s.tasks.find? id))
    (events : s'.events.rows = s.events.rows ++ [e, created]) (about : created.taskId = next.id)
    (log : eventLog.History (s.eventsOf task.id ++ [e]) task'.status)
    (start : eventLog.History [created] next.status) : Logged s' := by
  have apart : next.id ≠ task.id := by
    intro same
    rw [same, seen_eq.mp touched.stored] at absent
    cases absent
  apply h.of_effect tasks events
  · intro x member
    rcases List.mem_pair.mp member with rfl | rfl
    · exact ⟨task', List.mem_cons_self, touched.origin.id.trans touched.own.symm⟩
    · exact ⟨next, List.mem_cons_of_mem _ List.mem_cons_self, about.symm⟩
  · intro t member
    rcases List.mem_pair.mp member with rfl | rfl
    · simpa [touched.own, touched.origin.id, about, apart] using log
    · simpa [touched.own, about, apart.symm, h.eventsOf_absent absent] using start

theorem commit (h : Logged s) {env : Env} {quiet : TaskEvent → Prop} {w : Work}
    (change : Change env Eq quiet s w) (committed : Store.flush w s = .ok s') : Logged s' := by
  obtain ⟨absent, tasks, events⟩ := Store.flush_effect committed change.current
  cases change with
  | create task caller now fresh =>
      refine h.of_one tasks events rfl ?_
      rw [h.eventsOf_absent (absent task rfl), fresh.accepted]
      exact created_history task.id caller [] now
  | move task task' e touched valid records =>
      have old := h.history task.id task (seen_eq.mp touched.stored)
      exact h.of_touched touched tasks events (old.moved e (later (seen_eq.mp touched.later)) records valid)
  | note task task' e touched same silent allowed =>
      have old := h.history task.id task (seen_eq.mp touched.stored)
      refine h.of_touched touched tasks events ?_
      rw [same]
      exact old.noted e (later (seen_eq.mp touched.later)) silent
  | inject task e touched silent allowed =>
      have stored := seen_eq.mp touched.stored
      have old := h.history task.id task stored
      -- The row stays as it was loaded, so it may count as changed.
      have same : ∀ id, s'.tasks.find? id =
          ([task].find? (fun t => t.id = id)).or (s.tasks.find? id) := by
        intro id
        rw [tasks id]
        by_cases own : task.id = id
        · subst own
          simp [Work.changed, stored]
        · simp [Work.changed, own]
      exact h.of_touched touched same events (old.noted e (later (seen_eq.mp touched.later)) silent)
  | succeed task task' e touched valid superseded records room hex input priority now key metadata
      caller link =>
      have old := h.history task.id task (seen_eq.mp touched.stored)
      exact h.of_succession touched (absent _ rfl) tasks events rfl
        (old.moved e (later (seen_eq.mp touched.later)) records valid)
        (created_history (newTaskId hex) caller link now)

end Logged

theorem Reachable.logged {env : Env} {s : Store} (h : Reachable env s) : Logged s :=
  h.invariant (fun _ blank => .of_blank blank) (fun _ _ _ old => ⟨old.owned, old.history⟩)
    fun _ _ _ _ old change committed => old.commit change committed

/-- The stored events of a task, in the order they were stored, are numbered
strictly upwards from one, replay to its status, and change it only as the
transition table permits. -/
structure FaithfulLog (s : Store) (t : Task) : Prop where
  increasing : ((s.eventsOf t.id).map TaskEvent.sequence).Pairwise (· < ·)
  first : ((s.eventsOf t.id).map TaskEvent.sequence).head? = some 1
  replayed : eventLog.replay (s.eventsOf t.id) = some t.status
  changes : eventLog.Changes (s.eventsOf t.id)

theorem log_is_history (env : Env) {s : Store} (start : s.Blank) (steps : List Step) :
    ∀ t ∈ (runSteps env steps s).tasks, FaithfulLog (runSteps env steps s) t := by
  intro t member
  have logged := ((Reachable.start start).runSteps steps : Reachable env _).logged
  have history := logged.history t.id t (Table.find?_mem member)
  obtain ⟨e, rest, shape, one⟩ := history.head
  refine ⟨history.increasing, ?_, history.replay, history.changes⟩
  rw [shape]
  exact congrArg some one

theorem log_is_history_paused :
    eventLog.replay ((runSteps Demo.env Demo.paused Demo.store).eventsOf "task-a") =
      some .paused := by
  obtain ⟨t, member, id, status⟩ : ∃ t ∈ (runSteps Demo.env Demo.paused Demo.store).tasks.rows,
      t.id = "task-a" ∧ t.status = .paused := by decide +kernel
  have replayed := (log_is_history Demo.env Demo.store_blank Demo.paused t member).replayed
  rw [id, status] at replayed
  exact replayed

end Fleet.Api
