/- What the event stream of a task has sent and knows, while other requests commit. -/
import Fleet.Api.EventLog
import Fleet.Api.Sse

namespace Fleet.Api
open Fleet.Lib
open Feed (Increasing)

/-! ## What the log tells of the status -/

def reported (es : List TaskEvent) : List TaskStatus := es.filterMap recordedStatus

/-- The event reports a terminal status. -/
def reportsEnd (e : TaskEvent) : Bool := (recordedStatus e).any isTerminal

theorem signalsTerminal_reports {e : TaskEvent} (ends : signalsTerminal e = .ok true) :
    reportsEnd e = true := by
  unfold signalsTerminal at ends
  split_ifs at ends with typed status
  · rcases typed with completed | failed
    · simp [reportsEnd, recordedStatus, completed, isTerminal, terminalStates]
    · simp [reportsEnd, recordedStatus, failed, isTerminal, terminalStates]
  · cases named : e.dataD.get? "status" with
    | none =>
        have unnamed : inTerminalStatusValues (.str "") = .ok false := rfl
        rw [named, Option.getD_none, unnamed] at ends
        cases ends
    | some value =>
        rw [named, Option.getD_some] at ends
        cases value with
        | str v =>
            simp only [inTerminalStatusValues, Except.ok.injEq, decide_eq_true_eq, List.mem_map] at ends
            obtain ⟨terminal, member, rfl⟩ := ends
            simp [reportsEnd, recordedStatus, status, named, Json.str?, isTerminal, member]
        | null | bool b | num n | real m x | arr xs | obj d => cases ends
  · cases ends

/-- The event that recorded the first terminal status of a task. -/
def Store.endingEvent? (s : Store) (id : String) : Option TaskEvent :=
  (s.eventsOf id).find? reportsEnd

def Store.ended (s : Store) (id : String) : Bool := (s.status? id).any isTerminal

def Work.eventsOf (w : Work) (id : String) : List TaskEvent :=
  w.newEvents.filter (fun e => e.taskId = id)

section commit
variable {env : Env} {G : Store → Store → Prop} {quiet : TaskEvent → Prop} {s s' : Store} {w : Work}
  {id : String}

theorem Change.reported_eq (h : Change env G quiet s w)
    (apart : ∀ t ∈ w.newTask, ∀ c ∈ w.dirty, t.id ≠ c.1.id) (id : String) :
    reported (w.eventsOf id) = w.statusWrites id := by
  cases h with
  | create task caller now fresh =>
      by_cases own : task.id = id
      · simp [reported, Work.eventsOf, Work.statusWrites, own, Option.filter, fresh.accepted]
      · simp [reported, Work.eventsOf, Work.statusWrites, own, Option.filter]
  | move task task' e touched valid records =>
      have differs := moved_ne valid
      by_cases own : task.id = id
      · simp [reported, Work.eventsOf, Work.statusWrites, touched.own, own, records, differs,
          Option.filter]
      · simp [reported, Work.eventsOf, Work.statusWrites, touched.own, own, Option.filter]
  | note task task' e touched same silent =>
      by_cases own : task.id = id
      · simp [reported, Work.eventsOf, Work.statusWrites, touched.own, own, silent, same,
          Option.filter]
      · simp [reported, Work.eventsOf, Work.statusWrites, touched.own, own, Option.filter]
  | inject task e touched silent =>
      by_cases own : task.id = id
      · simp [reported, Work.eventsOf, Work.statusWrites, touched.own, own, silent, Option.filter]
      · simp [reported, Work.eventsOf, Work.statusWrites, touched.own, own, Option.filter]
  | succeed task task' e touched valid superseded records room hex input priority now key metadata
      caller link =>
      have other : newTaskId hex ≠ task.id := apart _ rfl _ rfl
      have differs := moved_ne valid
      by_cases own : task.id = id
      · subst own
        simp [reported, Work.eventsOf, Work.statusWrites, touched.own, records, differs, other,
          successor, Option.filter]
      · by_cases new : newTaskId hex = id
        · simp [reported, Work.eventsOf, Work.statusWrites, touched.own, own, new, successor,
            Option.filter]
        · simp [reported, Work.eventsOf, Work.statusWrites, touched.own, own, new, successor,
            Option.filter]

theorem Change.apart (h : Change env Persists quiet s w) (committed : Store.flush w s = .ok s') :
    ∀ t ∈ w.newTask, ∀ c ∈ w.dirty, t.id ≠ c.1.id := by
  intro t new c dirty same
  obtain ⟨before, member, own⟩ := h.dirty_stored c dirty
  obtain ⟨mid, inserted, _⟩ := Store.flush_ok committed
  have present : w.newTask = some t := new
  rw [present] at inserted
  have absent := (Store.insertTask_mem inserted).1
  rw [same, ← own, Table.find?_mem member] at absent
  cases absent

theorem Change.eventsOf_short (h : Change env G quiet s w)
    (apart : ∀ t ∈ w.newTask, ∀ c ∈ w.dirty, t.id ≠ c.1.id) (id : String) :
    (w.eventsOf id).length ≤ 1 := by
  cases h with
  | create | move | note | inject => exact List.length_filter_le _ _
  | succeed task task' e touched valid superseded records room hex input priority now key metadata
      caller link =>
      have other : newTaskId hex ≠ task.id := apart _ rfl _ rfl
      by_cases own : task.id = id
      · subst own
        simp [Work.eventsOf, touched.own, other]
      · rw [Work.eventsOf, List.filter_cons_of_neg (by simpa [touched.own] using own)]
        exact List.length_filter_le _ _

theorem eventsOf_flush (committed : Store.flush w s = .ok s') (id : String) :
    s'.eventsOf id = s.eventsOf id ++ w.eventsOf id := by
  obtain ⟨_, _, _, _, _, events⟩ := Store.flush_ok committed
  exact eventsOf_append events id

theorem endingEvent?_flush (committed : Store.flush w s = .ok s') (id : String) :
    s'.endingEvent? id = (s.endingEvent? id).or ((w.eventsOf id).find? reportsEnd) := by
  rw [Store.endingEvent?, eventsOf_flush committed, List.find?_append]
  rfl

theorem reported_append (es new : List TaskEvent) :
    reported (es ++ new) = reported es ++ reported new := List.filterMap_append

theorem endingEvent?_kept (committed : Store.flush w s = .ok s') {e : TaskEvent}
    (found : s.endingEvent? id = some e) : s'.endingEvent? id = some e := by
  rw [endingEvent?_flush committed, found]
  rfl

end commit

/-! ## What is asked of the other requests -/

/-- The batch still to be sent before the generator looks at the status. -/
def Phase.awaiting : Phase → Option (List TaskEvent)
  | .sending rest false => some rest
  | .statusCheck _ => some []
  | _ => none

theorem Phase.awaiting_stopped {p : Phase} (stopped : p.stopped) : p.awaiting = none := by
  cases p with
  | closed | raised e => rfl
  | _ => exact stopped.elim

/-- The generator has made its fetch and has yet to read a status it has not cached. -/
def EventStream.between (g : EventStream) : Bool := g.cached.isNone && g.phase.awaiting.isSome

/-- The generator has sent or fetched a number from this one on: no later fetch finds it. -/
def EventStream.Passed (g : EventStream) (n : Int) : Prop :=
  n ≤ g.lastSent ∨ ∃ b ∈ g.phase.batch, n ≤ b.sequence

instance (g : EventStream) (n : Int) : Decidable (g.Passed n) := by
  unfold EventStream.Passed
  infer_instance

/-- What is asked of a commit by another request. -/
structure Timely (first : Int) (g : EventStream) (s : Store) (w : Work) : Prop where
  /-- It puts no other status over a terminal one. -/
  lasting : s.ended g.taskId = true → ∀ status ∈ w.statusWrites g.taskId, isTerminal status = true
  /-- It stores no event that the generator has passed by, unless the end came before. -/
  ahead : ∀ x ∈ w.eventsOf g.taskId, first < x.sequence → g.Passed x.sequence →
    ∃ e ∈ s.endingEvent? g.taskId, e.sequence < x.sequence
  /-- It puts no event that closes the stream before the one that recorded the end. -/
  closing : ∀ x ∈ w.eventsOf g.taskId, first < x.sequence → signalsTerminal x = .ok true →
    ∀ e ∈ s.endingEvent? g.taskId, e.sequence < x.sequence
  /-- It does not end the task for the first time between the two reads. -/
  outside : g.between = true → s.endingEvent? g.taskId = none →
    ∀ x ∈ w.eventsOf g.taskId, reportsEnd x = true → x.sequence ≤ first

instance (first : Int) (g : EventStream) (s : Store) (w : Work) : Decidable (Timely first g s w) :=
  decidable_of_iff
    ((s.ended g.taskId = true → ∀ status ∈ w.statusWrites g.taskId, isTerminal status = true) ∧
      (∀ x ∈ w.eventsOf g.taskId, first < x.sequence → g.Passed x.sequence →
        ∃ e ∈ s.endingEvent? g.taskId, e.sequence < x.sequence) ∧
      (∀ x ∈ w.eventsOf g.taskId, first < x.sequence → signalsTerminal x = .ok true →
        ∀ e ∈ s.endingEvent? g.taskId, e.sequence < x.sequence) ∧
      (g.between = true → s.endingEvent? g.taskId = none →
        ∀ x ∈ w.eventsOf g.taskId, reportsEnd x = true → x.sequence ≤ first))
    ⟨fun h => ⟨h.1, h.2.1, h.2.2.1, h.2.2.2⟩, fun h => ⟨h.lasting, h.ahead, h.closing, h.outside⟩⟩

/-! ## The log and the status -/

/-- The last report of the log is the stored status, a task that has ended stays ended,
and no event that closes a stream lies before the one that recorded the end. -/
structure Recorded (first : Int) (id : String) (s : Store) : Prop where
  current : s.status? id = (reported (s.eventsOf id)).getLast?
  lasting : (s.endingEvent? id).isSome = true → s.ended id = true
  foremost : ∀ x ∈ s.eventsOf id, first < x.sequence → signalsTerminal x = .ok true →
    ∀ e ∈ s.endingEvent? id, e.sequence ≤ x.sequence

namespace Recorded
variable {env : Env} {quiet : TaskEvent → Prop} {first : Int} {s s' : Store} {w : Work}
  {g : EventStream} {id : String}

theorem of_blank (blank : s.Blank) (first : Int) (id : String) : Recorded first id s := by
  have empty := blank.eventsOf id
  have absent : s.status? id = none := by
    rw [Store.status?, blank.find?_none]
    rfl
  refine ⟨?_, fun some => ?_, fun x member => ?_⟩
  · rw [empty, absent]
    rfl
  · rw [Store.endingEvent?, empty] at some
    cases some
  · rw [empty] at member
    cases member

theorem ending (h : Recorded first id s) (ended : s.ended id = true) :
    (s.endingEvent? id).isSome = true := by
  obtain ⟨status, now, terminal⟩ := (Option.any_eq_true _ _).mp ended
  rw [h.current] at now
  obtain ⟨e, member, reports⟩ := List.mem_filterMap.mp (List.mem_of_getLast? now)
  rw [Store.endingEvent?, List.find?_isSome]
  exact ⟨e, member, by simp [reportsEnd, reports, terminal]⟩

/-- A commit writes one event of the task at most, and with it the status it reports. -/
theorem commit (h : Recorded first g.taskId s) (change : Change env Persists quiet s w)
    (timely : Timely first g s w) (committed : Store.flush w s = .ok s') :
    Recorded first g.taskId s' := by
  have apart := change.apart committed
  have writes := change.reported_eq apart g.taskId
  have log := eventsOf_flush committed g.taskId
  have status := Store.flush_status committed change.dirty_stored g.taskId
  have only : ∀ x ∈ w.eventsOf g.taskId, w.eventsOf g.taskId = [x] := by
    intro x member
    have short := change.eventsOf_short apart g.taskId
    cases all : w.eventsOf g.taskId with
    | nil =>
        rw [all] at member
        cases member
    | cons a more =>
        rw [all, List.length_cons] at short
        have single : more = [] := List.eq_nil_of_length_eq_zero (by omega)
        rw [all, single] at member
        rw [single, List.mem_singleton.mp member]
  refine ⟨?_, fun some => ?_, fun x member later closes e ending => ?_⟩
  · have single : (w.statusWrites g.taskId).head? = (w.statusWrites g.taskId).getLast? := by
      rw [← writes]
      cases all : w.eventsOf g.taskId with
      | nil => rfl
      | cons a more =>
          rw [← all, only a (all ▸ List.mem_cons_self), reported]
          cases report : recordedStatus a <;> simp [report]
    rw [log, reported_append, List.getLast?_append, writes, status, h.current, single]
  · obtain ⟨e, found⟩ := Option.isSome_iff_exists.mp some
    rw [Store.ended, status]
    cases before : s.endingEvent? g.taskId with
    | some e₀ =>
        have ended := h.lasting (by rw [before]; rfl)
        cases written : (w.statusWrites g.taskId).head? with
        | none => exact ended
        | some a => exact timely.lasting ended a (List.mem_of_mem_head? written)
    | none =>
        rw [endingEvent?_flush committed, before, Option.none_or] at found
        have reports : reportsEnd e = true := List.find?_some found
        obtain ⟨a, report, terminal⟩ := (Option.any_eq_true _ _).mp reports
        rw [← writes, only e (List.mem_of_find?_eq_some found), reported,
          List.filterMap_cons_some report]
        exact terminal
  · rw [log, List.mem_append] at member
    cases before : s.endingEvent? g.taskId with
    | some e₀ =>
        rw [endingEvent?_kept committed before] at ending
        cases ending
        rcases member with old | new
        · exact h.foremost x old later closes e before
        · exact Int.le_of_lt (timely.closing x new later closes e before)
    | none =>
        rw [endingEvent?_flush committed, before, Option.none_or] at ending
        rcases member with old | new
        · exact absurd (signalsTerminal_reports closes) (List.find?_eq_none.mp before x old)
        · have found := List.mem_of_find?_eq_some ending
          rw [only x new] at found
          rw [List.mem_singleton.mp found]

end Recorded

/-! ## What the client has been sent -/

/-- The client is owed the event: it lies beyond the number the client came with, and not
beyond the event that recorded the end. -/
def Owed (first : Int) (id : String) (s : Store) (x : TaskEvent) : Prop :=
  first < x.sequence ∧ ∀ e ∈ s.endingEvent? id, x.sequence ≤ e.sequence

/-- Of the owed events, all that the generator has passed are sent or wait in its batch. -/
structure Accounts (first : Int) (owed : TaskEvent → Prop) (s : Store) (g : EventStream)
    (frames : List Frame) : Prop where
  came : first ≤ g.lastSent
  stored : ∀ b ∈ g.phase.batch, b ∈ s.eventsOf g.taskId
  above : ∀ b ∈ g.phase.batch, g.lastSent < b.sequence
  increasing : Increasing TaskEvent.sequence g.phase.batch
  sent : ∀ x ∈ s.eventsOf g.taskId, owed x → g.Passed x.sequence →
    .entry x ∈ frames ∨ x ∈ g.phase.batch

theorem EventStream.phaseAfter_batch (e : TaskEvent) (next : Phase) :
    (EventStream.phaseAfter e next).batch = next.batch ∨
      (EventStream.phaseAfter e next).batch = [] := by
  unfold EventStream.phaseAfter
  split
  · exact .inr rfl
  · exact .inr rfl
  · exact .inl rfl

theorem EventStream.phaseAfter_kept {e b : TaskEvent} {rest : List TaskEvent} {polled : Bool}
    (member : b ∈ (EventStream.phaseAfter e (.sending rest polled)).batch) : b ∈ rest := by
  rcases EventStream.phaseAfter_batch e (.sending rest polled) with same | none
  · rwa [same] at member
  · rw [none] at member
    cases member

namespace Accounts
variable {first : Int} {owed : TaskEvent → Prop} {s s' : Store} {w : Work} {g : EventStream}
  {frames : List Frame}

theorem start (s : Store) (workflowId taskId : String) (header : Option Int) (held : Bool)
    (later : ∀ x, owed x → header.getD 0 < x.sequence) :
    Accounts (header.getD 0) owed s (streamTaskEvents workflowId taskId header held) [] where
  came := Int.le_refl _
  stored := fun _ member => by cases member
  above := fun _ member => by cases member
  increasing := List.Pairwise.nil
  sent := by
    intro x _ due passed
    rcases passed with sent | ⟨_, member, _⟩
    · exact absurd (later x due) (Int.not_lt.mpr sent)
    · cases member

theorem commit (h : Accounts first owed s g frames) (committed : Store.flush w s = .ok s')
    {owed' : TaskEvent → Prop} (fewer : ∀ x, owed' x → owed x)
    (ahead : ∀ x ∈ w.eventsOf g.taskId, owed' x → ¬ g.Passed x.sequence) :
    Accounts first owed' s' g frames := by
  have log := eventsOf_flush committed g.taskId
  refine ⟨h.came, fun b member => ?_, h.above, h.increasing, fun x member due passed => ?_⟩
  · rw [log]
    exact List.mem_append_left _ (h.stored b member)
  · rw [log, List.mem_append] at member
    rcases member with old | new
    · exact h.sent x old (fewer x due) passed
    · exact absurd passed (ahead x new due)

theorem send (h : Accounts first owed s g frames) {e : TaskEvent} {rest : List TaskEvent}
    {polled : Bool} (batch : g.phase = .sending (e :: rest) polled) :
    Accounts first owed s
      { g with
        phase := EventStream.phaseAfter e (.sending rest polled)
        lastSent := e.sequence } (frames ++ [.entry e]) := by
  have held : g.phase.batch = e :: rest := by rw [batch]; rfl
  have increasing := h.increasing
  rw [held] at increasing
  obtain ⟨later, sorted⟩ := List.pairwise_cons.mp increasing
  have beyond : ∀ b ∈ rest, e.sequence < b.sequence :=
    fun b member => later b.sequence (List.mem_map_of_mem member)
  have left : (EventStream.phaseAfter e (.sending rest polled)).batch = rest ∨
      (EventStream.phaseAfter e (.sending rest polled)).batch = [] :=
    EventStream.phaseAfter_batch e (.sending rest polled)
  have kept : ∀ b ∈ (EventStream.phaseAfter e (.sending rest polled)).batch, b ∈ rest :=
    fun _ member => EventStream.phaseAfter_kept member
  refine ⟨Int.le_trans h.came (Int.le_of_lt (h.above e (held ▸ List.mem_cons_self))),
    fun b member => h.stored b (held ▸ List.mem_cons_of_mem e (kept b member)),
    fun b member => beyond b (kept b member), ?_, fun x member due passed => ?_⟩
  · change Increasing TaskEvent.sequence (EventStream.phaseAfter e (.sending rest polled)).batch
    rcases left with same | none
    · rw [same]
      exact sorted
    · rw [none]
      exact List.Pairwise.nil
  · have prior : .entry x ∈ frames ∨ x ∈ e :: rest := by
      rw [← held]
      apply h.sent x member due
      rcases passed with sent | ⟨b, waits, upTo⟩
      · exact .inr ⟨e, held ▸ List.mem_cons_self, sent⟩
      · exact .inr ⟨b, held ▸ List.mem_cons_of_mem e (kept b waits), upTo⟩
    rcases prior with sent | waits
    · exact .inl (List.mem_append_left _ sent)
    rcases List.mem_cons.mp waits with rfl | waits
    · exact .inl (List.mem_append_right _ List.mem_cons_self)
    -- it is passed and waits in the batch, so the generator has not stopped here
    rcases left with same | none
    · refine .inr ?_
      change x ∈ (EventStream.phaseAfter e (.sending rest polled)).batch
      rwa [same]
    · rcases passed with sent | ⟨b, held', _⟩
      · exact absurd sent (Int.not_le.mpr (beyond x waits))
      · exact absurd held' (none ▸ List.not_mem_nil)

theorem step (h : Accounts first owed s g frames) (interval : Int) :
    Accounts first owed s (g.step interval s).1 (frames ++ (g.step interval s).2) := by
  have advance := EventStream.advance interval s g
  generalize g.step interval s = result at advance ⊢
  cases advance with
  | event e rest polled batch => exact h.send batch
  | silent g' own same stopped spent batch =>
      have fresh : g'.phase.batch = [] ∨
          g'.phase.batch = fetchEventsAfter s g.taskId g.lastSent := by
        cases phase : g'.phase with
        | sending rest polled => exact .inr (batch rest polled phase)
        | _ => exact .inl rfl
      have fetched : ∀ b ∈ g'.phase.batch, b ∈ s.eventsOf g.taskId ∧ g.lastSent < b.sequence := by
        intro b member
        rcases fresh with none | all
        · rw [none] at member
          cases member
        · exact mem_fetchEventsAfter.mp (all ▸ member)
      rw [List.append_nil]
      refine ⟨same ▸ h.came, fun b member => own ▸ (fetched b member).1,
        fun b member => same ▸ (fetched b member).2, ?_, fun x member due passed => ?_⟩
      · rcases fresh with none | all
        · rw [none]
          exact List.Pairwise.nil
        · rw [all]
          exact fetchEventsAfter_increasing s g.taskId g.lastSent
      · rw [own] at member
        -- passed before, or found by the fetch
        by_cases before : x.sequence ≤ g.lastSent
        · have prior := h.sent x member due (.inl before)
          rw [spent] at prior
          exact .inl (prior.resolve_right List.not_mem_nil)
        · rcases passed with sent | ⟨b, held, _⟩
          · exact absurd (same ▸ sent) before
          · rcases fresh with none | all
            · rw [none] at held
              cases held
            · rw [all]
              exact .inr (mem_fetchEventsAfter.mpr ⟨member, Int.not_le.mp before⟩)
  | keepalive idle =>
      have spent : g.phase.batch = [] := by rw [idle]; rfl
      refine ⟨h.came, fun _ member => (by cases member), fun _ member => (by cases member),
        List.Pairwise.nil, fun x member due passed => ?_⟩
      rcases passed with sent | ⟨_, held, _⟩
      · have prior := h.sent x member due (.inl sent)
        rw [spent] at prior
        exact .inl (List.mem_append_left _ (prior.resolve_right List.not_mem_nil))
      · cases held

/-- A generator that holds no batch has sent all that is owed up to its last number. -/
theorem covers (h : Accounts first owed s g frames) (spent : g.phase.batch = []) {x : TaskEvent}
    (member : x ∈ s.eventsOf g.taskId) (due : owed x) (upTo : x.sequence ≤ g.lastSent) :
    .entry x ∈ frames := by
  have prior := h.sent x member due (.inl upTo)
  rw [spent] at prior
  exact prior.resolve_right List.not_mem_nil

end Accounts

/-- Of what the client is owed, all that the generator has passed is sent or waits in its
batch. -/
structure Complete (first : Int) (s : Store) (g : EventStream) (frames : List Frame) : Prop where
  came : first ≤ g.lastSent
  stored : ∀ b ∈ g.phase.batch, b ∈ s.eventsOf g.taskId
  above : ∀ b ∈ g.phase.batch, g.lastSent < b.sequence
  increasing : Increasing TaskEvent.sequence g.phase.batch
  sent : ∀ x ∈ s.eventsOf g.taskId, Owed first g.taskId s x → g.Passed x.sequence →
    .entry x ∈ frames ∨ x ∈ g.phase.batch

namespace Complete
variable {first : Int} {s s' : Store} {w : Work} {g : EventStream} {frames : List Frame}

theorem accounts : Complete first s g frames ↔
    Accounts first (Owed first g.taskId s) s g frames :=
  ⟨fun h => ⟨h.came, h.stored, h.above, h.increasing, h.sent⟩,
    fun h => ⟨h.came, h.stored, h.above, h.increasing, h.sent⟩⟩

theorem start (s : Store) (workflowId taskId : String) (header : Option Int) (held : Bool) :
    Complete (header.getD 0) s (streamTaskEvents workflowId taskId header held) [] :=
  accounts.mpr (.start s workflowId taskId header held fun _ owed => owed.1)

theorem commit (h : Complete first s g frames) (timely : Timely first g s w)
    (committed : Store.flush w s = .ok s') : Complete first s' g frames := by
  have before : ∀ x, Owed first g.taskId s' x → ∀ e ∈ s.endingEvent? g.taskId, x.sequence ≤ e.sequence :=
    fun x owed e ending => owed.2 e (endingEvent?_kept committed ending)
  refine accounts.mpr ((accounts.mp h).commit committed (fun x owed => ⟨owed.1, before x owed⟩) ?_)
  intro x new owed passed
  obtain ⟨e, ending, below⟩ := timely.ahead x new owed.1 passed
  exact absurd below (Int.not_lt.mpr (before x owed e ending))

theorem step (h : Complete first s g frames) (interval : Int) :
    Complete first s (g.step interval s).1 (frames ++ (g.step interval s).2) := by
  rw [accounts, EventStream.step_taskId]
  exact (accounts.mp h).step interval

theorem covers (h : Complete first s g frames) (spent : g.phase.batch = []) {x : TaskEvent}
    (member : x ∈ s.eventsOf g.taskId) (owed : Owed first g.taskId s x)
    (upTo : x.sequence ≤ g.lastSent) : .entry x ∈ frames :=
  (accounts.mp h).covers spent member owed upTo

end Complete

/-! ## What the generator knows of the end -/

/-- A cached terminal status has its event stored; before the status is looked at, that
event has been sent or is in the batch. -/
structure Aware (first : Int) (s : Store) (g : EventStream) : Prop where
  cached : g.cached.any isTerminal = true → (s.endingEvent? g.taskId).isSome = true
  ahead : ∀ rest, g.phase.awaiting = some rest → g.cached.all isTerminal = true →
    ∀ e, s.endingEvent? g.taskId = some e → first < e.sequence → e.sequence ≤ g.lastSent ∨ e ∈ rest

namespace Aware
variable {first : Int} {s s' : Store} {w : Work} {g g' : EventStream} {frames : List Frame}

theorem quiet (h : Aware first s g) (own : g'.taskId = g.taskId)
    (cache : g'.cached = g.cached ∨ g'.cached = none) (idle : g'.phase.awaiting = none) :
    Aware first s g' := by
  refine ⟨fun terminal => ?_, fun rest waits => ?_⟩
  · rw [own]
    rcases cache with same | none
    · exact h.cached (same ▸ terminal)
    · rw [none] at terminal
      cases terminal
  · rw [idle] at waits
    cases waits

theorem commit (h : Aware first s g) (timely : Timely first g s w)
    (committed : Store.flush w s = .ok s') : Aware first s' g := by
  refine ⟨fun terminal => ?_, fun rest waits terminal e found after => ?_⟩
  · obtain ⟨e, before⟩ := Option.isSome_iff_exists.mp (h.cached terminal)
    rw [endingEvent?_kept committed before]
    rfl
  · cases before : s.endingEvent? g.taskId with
    | some x =>
        rw [endingEvent?_kept committed before] at found
        cases found
        exact h.ahead rest waits terminal e before after
    | none =>
        rw [endingEvent?_flush committed, before, Option.none_or] at found
        cases cache : g.cached with
        | none =>
            have between : g.between = true := by simp [EventStream.between, cache, waits]
            have heard := timely.outside between before e (List.mem_of_find?_eq_some found)
              (List.find?_some found)
            exact absurd after (Int.not_lt.mpr heard)
        | some status =>
            have known := h.cached (by simpa [cache] using terminal)
            rw [before] at known
            cases known

/-- The event that recorded the end has been passed, or a fetch finds it. -/
theorem fetched {e : TaskEvent} (ending : s.endingEvent? g.taskId = some e) :
    e.sequence ≤ g.lastSent ∨ e ∈ fetchEventsAfter s g.taskId g.lastSent := by
  by_cases sent : e.sequence ≤ g.lastSent
  · exact .inl sent
  · exact .inr (mem_fetchEventsAfter.mpr ⟨List.mem_of_find?_eq_some ending, Int.not_le.mp sent⟩)

/-- The next event of the batch is sent. In a replay it may be the one that recorded the end;
otherwise that event waits behind it or was sent before. -/
theorem send (h : Aware first s g) (complete : Complete first s g frames) {x : TaskEvent}
    {batch : List TaskEvent} {polled : Bool} (phase : g.phase = .sending (x :: batch) polled) :
    Aware first s
      { g with
        phase := EventStream.phaseAfter x (.sending batch polled)
        lastSent := x.sequence } := by
  cases ends : endsStream x with
  | true =>
      refine h.quiet rfl (.inl rfl) ?_
      exact Phase.awaiting_stopped (EventStream.phaseAfter_stopped x (.sending batch polled) ends)
  | false =>
      rw [EventStream.phaseAfter_next x _ ends]
      cases polled with
      | true => exact h.quiet rfl (.inl rfl) rfl
      | false =>
          refine ⟨h.cached, fun rest waits terminal e ending after => ?_⟩
          cases waits
          have above : g.lastSent < x.sequence :=
            complete.above x (by rw [phase]; exact List.mem_cons_self)
          have prior := h.ahead (x :: batch) (by rw [phase]; rfl) terminal e ending after
          rcases prior with sent | waiting
          · exact .inl (Int.le_of_lt (Int.lt_of_le_of_lt sent above))
          · rcases List.mem_cons.mp waiting with rfl | later
            · exact .inl (Int.le_refl _)
            · exact .inr later

theorem step (h : Aware first s g) (interval : Int) (recorded : Recorded first g.taskId s)
    (complete : Complete first s g frames) : Aware first s (g.step interval s).1 := by
  unfold EventStream.step
  cases phase : g.phase with
  | workflowCheck =>
      dsimp only
      split <;> exact h.quiet rfl (.inl rfl) rfl
  | taskCheck =>
      dsimp only
      split
      · rename_i task found
        refine ⟨fun terminal => ?_, fun rest waits => by cases waits⟩
        have stored := (Option.filter_eq_some_iff.mp found).1
        apply recorded.ending
        cases held : g.held with
        | true => simpa [Store.ended, Store.status?, stored, held] using terminal
        | false => simp [held] at terminal
      · exact h.quiet rfl (.inl rfl) rfl
  | replay =>
      refine ⟨h.cached, fun rest waits _ e ending _ => ?_⟩
      cases waits
      exact fetched ending
  | sending batch polled =>
      cases batch with
      | nil =>
          cases polled with
          | true => exact h.quiet rfl (.inl rfl) rfl
          | false =>
              refine ⟨h.cached, fun rest waits => ?_⟩
              cases waits
              exact h.ahead [] (by rw [phase]; rfl)
      | cons x batch =>
          exact h.send complete phase
  | statusCheck polled =>
      dsimp only
      split
      · exact h.quiet rfl (.inl rfl) rfl
      · split
        · exact h.quiet rfl (.inl rfl) rfl
        · cases polled <;> exact h.quiet rfl (.inl rfl) rfl
  | sleep => exact h.quiet rfl (.inr rfl) rfl
  | fetch =>
      dsimp only
      split
      · rename_i none
        refine ⟨h.cached, fun rest waits _ e ending _ => ?_⟩
        cases waits
        rw [← none]
        exact fetched ending
      · exact h.quiet rfl (.inl rfl) rfl
  | heartbeat =>
      dsimp only
      split <;> exact h.quiet rfl (.inl rfl) rfl
  | closed | raised e => exact h

end Aware

end Fleet.Api
