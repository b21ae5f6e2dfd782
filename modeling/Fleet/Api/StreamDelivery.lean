/- Which committed events reach an open stream: commit order against the numbers of the
   events. -/
import Fleet.Lib.Fairness
import Fleet.Api.StreamClosing

namespace Fleet.Api
open Fleet.Lib

/-- Every event of the task in the write set is numbered above the stored ones. -/
def InSequence (id : String) (s : Store) (w : Work) : Prop :=
  ∀ e ∈ w.eventsOf id, ∀ d ∈ s.eventsOf id, d.sequence < e.sequence

instance (id : String) (s : Store) (w : Work) : Decidable (InSequence id s w) := by
  unfold InSequence
  infer_instance

/-- What is asked of the step. -/
def World.Ordered (env : Env) (taskId : String) (w : World) : Act → Prop
  | .other move => ∀ c ∈ w.pool.committed Store.flush (move.turn env),
      InSequence taskId w.pool.store c.1
  | .resume => True

instance (env : Env) (taskId : String) (w : World) : (a : Act) → Decidable (w.Ordered env taskId a)
  | .other move => Option.decidableForallMem (w.pool.committed Store.flush (move.turn env))
  | .resume => instDecidableTrue

/-! ## What a stream keeps while the commits are in order -/

structure Live (first : Int) (s : Store) (g : EventStream) (frames : List Frame) : Prop where
  accounts : Accounts first (fun x => first < x.sequence) s g frames
  reach : g.lastSent = first ∨ ∃ d ∈ s.eventsOf g.taskId, d.sequence = g.lastSent
  known : ∀ d, .entry d ∈ frames → d ∈ s.eventsOf g.taskId

namespace Live
variable {first : Int} {s s' : Store} {w : Work} {g : EventStream} {frames : List Frame}

theorem start (s : Store) (workflowId taskId : String) (header : Option Int) (held : Bool) :
    Live (header.getD 0) s (streamTaskEvents workflowId taskId header held) [] where
  accounts := .start s workflowId taskId header held fun _ later => later
  reach := .inl rfl
  known := fun _ member => by cases member

/-- A commit in order lies ahead of whatever the generator has passed. -/
theorem ahead (h : Live first s g frames) (ordered : InSequence g.taskId s w) {x : TaskEvent}
    (new : x ∈ w.eventsOf g.taskId) (later : first < x.sequence) : ¬ g.Passed x.sequence := by
  rintro (sent | ⟨b, waits, upTo⟩)
  · rcases h.reach with same | ⟨d, stored, same⟩
    · omega
    · have above := ordered x new d stored
      omega
  · have above := ordered x new b (h.accounts.stored b waits)
    omega

theorem commit (h : Live first s g frames) (ordered : InSequence g.taskId s w)
    (committed : Store.flush w s = .ok s') : Live first s' g frames := by
  have grown : ∀ d ∈ s.eventsOf g.taskId, d ∈ s'.eventsOf g.taskId := by
    intro d stored
    rw [eventsOf_flush committed]
    exact List.mem_append_left _ stored
  refine ⟨h.accounts.commit committed (fun _ later => later) fun x new later => h.ahead ordered new later,
    ?_, fun d sent => grown d (h.known d sent)⟩
  rcases h.reach with same | ⟨d, stored, same⟩
  · exact .inl same
  · exact .inr ⟨d, grown d stored, same⟩

theorem step (h : Live first s g frames) (interval : Int) :
    Live first s (g.step interval s).1 (frames ++ (g.step interval s).2) := by
  have accounts := h.accounts.step interval
  have advance := EventStream.advance interval s g
  generalize g.step interval s = result at advance accounts ⊢
  refine ⟨accounts, ?_, ?_⟩
  · cases advance with
    | silent g' own same => rw [own, same]; exact h.reach
    | event e rest polled batch =>
        exact .inr ⟨e, h.accounts.stored e (by rw [batch]; exact List.mem_cons_self), rfl⟩
    | keepalive idle => exact h.reach
  · intro d sent
    cases advance with
    | silent g' own =>
        rw [List.append_nil] at sent
        rw [own]
        exact h.known d sent
    | event e rest polled batch =>
        rcases List.mem_append.mp sent with old | new
        · exact h.known d old
        · cases List.mem_singleton.mp new
          exact h.accounts.stored d (by rw [batch]; exact List.mem_cons_self)
    | keepalive idle =>
        rcases List.mem_append.mp sent with old | new
        · exact h.known d old
        · cases List.mem_singleton.mp new

/-- A stored event that is neither sent nor held lies beyond all that was passed. -/
theorem pending (h : Live first s g frames) {x : TaskEvent} (stored : x ∈ s.eventsOf g.taskId)
    (later : first < x.sequence) (unsent : .entry x ∉ frames) (apart : x ∉ g.phase.batch) :
    g.lastSent < x.sequence := by
  by_contra reached
  rcases h.accounts.sent x stored later (.inl (Int.not_lt.mp reached)) with sent | held
  · exact unsent sent
  · exact apart held

theorem stopped (h : Live first s g frames) (stopped : g.phase.stopped) {x : TaskEvent}
    (stored : x ∈ s.eventsOf g.taskId) (later : first < x.sequence) (unsent : .entry x ∉ frames) :
    g.phase.stopped ∧ g.lastSent < x.sequence := by
  refine ⟨stopped, h.pending stored later unsent ?_⟩
  cases phase : g.phase with
  | closed | raised e => exact List.not_mem_nil
  | _ => rw [phase] at stopped; exact stopped.elim

end Live

/-! ## How far a stored event is from the client -/

/-- The steps up to the next fetch. -/
def Phase.toFetch : Phase → Nat
  | .replay | .fetch | .closed | .raised _ => 0
  | .taskCheck | .sleep => 1
  | .workflowCheck | .heartbeat => 2
  | .statusCheck _ => 3
  | .sending rest _ => rest.length + 4

/-- In the batch, how much of the batch is left; else how far the next fetch is. -/
def EventStream.distance (x : TaskEvent) (g : EventStream) : Nat × Nat :=
  if x ∈ g.phase.batch then (0, g.phase.batch.length) else (1, g.phase.toFetch)

theorem EventStream.distance_held {x : TaskEvent} {g : EventStream} (held : x ∈ g.phase.batch) :
    g.distance x = (0, g.phase.batch.length) := if_pos held

theorem EventStream.distance_apart {x : TaskEvent} {g : EventStream} (apart : x ∉ g.phase.batch) :
    g.distance x = (1, g.phase.toFetch) := if_neg apart

abbrev Nearer : Nat × Nat → Nat × Nat → Prop := Prod.Lex (· < ·) (· < ·)

theorem nearer_wf : WellFounded Nearer := WellFounded.prod_lex Nat.lt_wfRel.wf Nat.lt_wfRel.wf

namespace Live
variable {first interval : Int} {s : Store} {g g' : EventStream} {frames : List Frame} {x : TaskEvent}

theorem nearer_batch (apart : x ∉ g.phase.batch) (held : x ∈ g'.phase.batch) :
    Nearer (g'.distance x) (g.distance x) := by
  rw [EventStream.distance_held held, EventStream.distance_apart apart]
  exact .left _ _ Nat.zero_lt_one

theorem nearer_fetch {p p' : Phase} (phase : g.phase = p) (next : g'.phase = p') (idle : p.batch = [])
    (less : p'.toFetch < p.toFetch) : Nearer (g'.distance x) (g.distance x) := by
  have apart : x ∉ g.phase.batch := by
    rw [phase, idle]
    exact List.not_mem_nil
  by_cases held : x ∈ g'.phase.batch
  · exact nearer_batch apart held
  · rw [EventStream.distance_apart held, EventStream.distance_apart apart, phase, next]
    exact .right _ less

theorem nearer_send {e : TaskEvent} {rest : List TaskEvent} {polled : Bool} (other : x ≠ e)
    (batch : g.phase = .sending (e :: rest) polled) (next : g'.phase = .sending rest polled) :
    Nearer (g'.distance x) (g.distance x) := by
  have before : g.phase.batch = e :: rest := congrArg Phase.batch batch
  have after : g'.phase.batch = rest := congrArg Phase.batch next
  by_cases held : x ∈ rest
  · rw [EventStream.distance_held (after ▸ held),
      EventStream.distance_held (before ▸ List.mem_cons_of_mem e held), before, after]
    exact .right _ (Nat.lt_succ_self _)
  · have apart : x ∉ g.phase.batch := by
      rw [before]
      exact List.not_mem_cons_of_ne_of_not_mem other held
    rw [EventStream.distance_apart (after ▸ held), EventStream.distance_apart apart, batch, next]
    exact .right _ (Nat.lt_succ_self _)

/-- Each step of the generator sends the event, ends the stream or comes nearer to it. -/
theorem approaches (h : Live first s g frames) (interval : Int) (stored : x ∈ s.eventsOf g.taskId)
    (later : first < x.sequence) (unsent : .entry x ∉ frames) (going : ¬ g.phase.stopped) :
    .entry x ∈ frames ++ (g.step interval s).2 ∨ (g.step interval s).1.phase.stopped ∨
      Nearer ((g.step interval s).1.distance x) (g.distance x) := by
  have found : x ∉ g.phase.batch → x ∈ fetchEventsAfter s g.taskId g.lastSent := fun apart =>
    mem_fetchEventsAfter.mpr ⟨stored, h.pending stored later unsent apart⟩
  unfold EventStream.step
  cases phase : g.phase with
  | workflowCheck | taskCheck =>
      dsimp only
      split
      · exact .inr (.inr (nearer_fetch phase rfl rfl (by simp [Phase.toFetch])))
      · exact .inr (.inl trivial)
  | replay =>
      have apart : x ∉ g.phase.batch := by rw [phase]; exact List.not_mem_nil
      exact .inr (.inr (nearer_batch apart (found apart)))
  | sending batch polled =>
      cases batch with
      | nil =>
          cases polled with
          | false => exact .inr (.inr (nearer_fetch phase rfl rfl (by simp [Phase.toFetch])))
          | true => exact .inr (.inr (nearer_fetch phase rfl rfl (by simp [Phase.toFetch])))
      | cons e rest =>
          dsimp only
          cases ends : endsStream e with
          | true => exact .inr (.inl (EventStream.phaseAfter_stopped e _ ends))
          | false =>
              rw [EventStream.phaseAfter_next e _ ends]
              by_cases next : x = e
              · exact .inl (next ▸ List.mem_append_right _ List.mem_cons_self)
              · exact .inr (.inr (nearer_send next phase rfl))
  | statusCheck polled =>
      dsimp only
      split
      · exact .inr (.inl trivial)
      · split
        · exact .inr (.inl trivial)
        · refine .inr (.inr (nearer_fetch phase rfl rfl ?_))
          cases polled <;> simp [Phase.toFetch]
  | sleep => exact .inr (.inr (nearer_fetch phase rfl rfl (by simp [Phase.toFetch])))
  | fetch =>
      have apart : x ∉ g.phase.batch := by rw [phase]; exact List.not_mem_nil
      have member := found apart
      dsimp only
      split
      · rename_i none
        rw [none] at member
        cases member
      · rename_i e rest all
        exact .inr (.inr (nearer_batch apart (all ▸ member)))
  | heartbeat =>
      dsimp only
      split
      · exact .inr (.inr (nearer_fetch phase rfl rfl (by simp [Phase.toFetch])))
      · exact .inr (.inr (nearer_fetch phase rfl rfl (by simp [Phase.toFetch])))
  | closed | raised e =>
      rw [phase] at going
      exact absurd trivial going

end Live

/-! ## Runs without end -/

section runs
variable (env : Env) (interval : Int) (workflowId taskId : String) (header : Option Int) (held : Bool)
  (s : Store)

def upTo (acts : Nat → Act) (n : Nat) : List Act := (List.range n).map acts

def streamAt (acts : Nat → Act) (n : Nat) : World × List Frame :=
  streamRun env interval workflowId taskId header held s (upTo acts n)

theorem streamAt_succ (acts : Nat → Act) (n : Nat) :
    streamAt env interval workflowId taskId header held s acts (n + 1) =
      (((streamAt env interval workflowId taskId header held s acts n).1.act env interval (acts n)).1,
        (streamAt env interval workflowId taskId header held s acts n).2 ++
          ((streamAt env interval workflowId taskId header held s acts n).1.act env interval (acts n)).2) := by
  rw [streamAt, upTo, List.range_succ, List.map_append, streamRun, List.map_singleton, Machine.run_snoc]
  rfl

/-- Every commit of the schedule is in order for the task. -/
def OrderedAlong (acts : Nat → Act) : Prop :=
  ∀ n, (streamAt env interval workflowId taskId header held s acts n).1.Ordered env taskId (acts n)

/-- What a stream that is resumed again and again does for its client. -/
structure Delivers (acts : Nat → Act) : Prop where
  /-- No event is committed below one that was delivered. -/
  ahead : ∀ n move c, acts n = .other move →
    (streamAt env interval workflowId taskId header held s acts n).1.pool.committed Store.flush
      (move.turn env) = some c →
    ∀ e ∈ c.1.eventsOf taskId, ∀ d,
      .entry d ∈ (streamAt env interval workflowId taskId header held s acts n).2 →
      d.sequence < e.sequence
  /-- A stored event is sent, or the stream has ended before it got there. -/
  delivered : ∀ n x,
    x ∈ (streamAt env interval workflowId taskId header held s acts n).1.pool.store.eventsOf taskId →
    header.getD 0 < x.sequence → ∃ m, n ≤ m ∧
      (.entry x ∈ (streamAt env interval workflowId taskId header held s acts m).2 ∨
        ((streamAt env interval workflowId taskId header held s acts m).1.stream.phase.stopped ∧
          (streamAt env interval workflowId taskId header held s acts m).1.stream.lastSent < x.sequence))

end runs

/-- The invariant of a run whose commits are in order. -/
structure World.Follows (taskId : String) (first : Int) (w : World) (frames : List Frame) : Prop where
  own : w.stream.taskId = taskId
  live : Live first w.pool.store w.stream frames

namespace World.Follows
variable {taskId : String} {first : Int} {w : World} {frames : List Frame} {x : TaskEvent}

theorem known (h : w.Follows taskId first frames) (sent : .entry x ∈ frames) :
    x ∈ w.pool.store.eventsOf taskId := by
  obtain rfl := h.own
  exact h.live.known x sent

theorem stopped (h : w.Follows taskId first frames) (stopped : w.stream.phase.stopped)
    (stored : x ∈ w.pool.store.eventsOf taskId) (later : first < x.sequence)
    (unsent : .entry x ∉ frames) : w.stream.phase.stopped ∧ w.stream.lastSent < x.sequence := by
  obtain rfl := h.own
  exact h.live.stopped stopped stored later unsent

theorem approaches (h : w.Follows taskId first frames) (env : Env) (interval : Int)
    (stored : x ∈ w.pool.store.eventsOf taskId) (later : first < x.sequence)
    (unsent : .entry x ∉ frames) (going : ¬ w.stream.phase.stopped) :
    .entry x ∈ frames ++ (w.act env interval .resume).2 ∨
      (w.act env interval .resume).1.stream.phase.stopped ∨
      Nearer ((w.act env interval .resume).1.stream.distance x) (w.stream.distance x) := by
  obtain rfl := h.own
  exact h.live.approaches interval stored later unsent going

theorem act {env : Env} (h : w.Follows taskId first frames) (interval : Int) (a : Act)
    (ordered : w.Ordered env taskId a) :
    (w.act env interval a).1.Follows taskId first (frames ++ (w.act env interval a).2) := by
  cases a with
  | resume => exact ⟨(EventStream.step_taskId interval w.pool.store w.stream).trans h.own, h.live.step interval⟩
  | other move =>
      rw [show (w.act env interval (.other move)).2 = [] from rfl, List.append_nil]
      rcases @Pool.turn_store _ _ _ _ Store.flush w.pool (move.turn env) with
        ⟨_, same⟩ | ⟨work, s', commit, now⟩
      · exact ⟨h.own, show Live first (w.pool.turn Store.flush (move.turn env)).store w.stream frames from
          same ▸ h.live⟩
      · obtain ⟨_, _, _, _, committed⟩ := Pool.committed_eq_some.mp commit
        refine ⟨h.own, ?_⟩
        change Live first (w.pool.turn Store.flush (move.turn env)).store w.stream frames
        rw [now]
        exact h.live.commit (h.own ▸ ordered (work, s') commit) committed

end World.Follows

section runs
variable {env : Env} {interval : Int} {workflowId taskId : String} {header : Option Int} {held : Bool}
  {s : Store} {acts : Nat → Act}

theorem streamAt_follows (ordered : OrderedAlong env interval workflowId taskId header held s acts) (n : Nat) :
    (streamAt env interval workflowId taskId header held s acts n).1.Follows taskId (header.getD 0)
      (streamAt env interval workflowId taskId header held s acts n).2 := by
  induction n with
  | zero => exact ⟨rfl, .start s workflowId taskId header held⟩
  | succ n ih =>
      rw [streamAt_succ]
      exact ih.act interval (acts n) (ordered n)

theorem streamAt_stored {n : Nat} {x : TaskEvent}
    (stored : x ∈ (streamAt env interval workflowId taskId header held s acts n).1.pool.store.eventsOf taskId)
    (m : Nat) (later : n ≤ m) :
    x ∈ (streamAt env interval workflowId taskId header held s acts m).1.pool.store.eventsOf taskId := by
  induction m, later using Nat.le_induction with
  | base => exact stored
  | succ m later ih =>
      rw [streamAt_succ]
      cases acts m with
      | resume => exact ih
      | other move =>
          change x ∈ (Pool.turn Store.flush _ (move.turn env)).store.eventsOf taskId
          rcases @Pool.turn_store _ _ _ _ Store.flush
            (streamAt env interval workflowId taskId header held s acts m).1.pool (move.turn env) with
            ⟨_, same⟩ | ⟨work, s', commit, now⟩
          · rw [same]
            exact ih
          · obtain ⟨_, _, _, _, committed⟩ := Pool.committed_eq_some.mp commit
            rw [now, eventsOf_flush committed]
            exact List.mem_append_left _ ih

/-- Where commits are in order and the generator is resumed again and again, nothing is
passed by and every stored event gets its turn. -/
theorem ordered_delivers (often : InfinitelyOften fun n => acts n = .resume)
    (ordered : OrderedAlong env interval workflowId taskId header held s acts) :
    Delivers env interval workflowId taskId header held s acts where
  ahead n move c other commit e new d sent := by
    have follows := streamAt_follows ordered n
    have here := ordered n
    rw [other] at here
    exact here c commit e new d (follows.known sent)
  delivered n x stored later := by
    refine Fairness.eventually
      (fun m => (streamAt env interval workflowId taskId header held s acts m).1.stream.distance x) n
      nearer_wf often ?_ ?_ (Nat.le_refl n)
    · intro m _ quiet _
      rw [streamAt_succ]
      cases act : acts m with
      | resume => exact absurd act quiet
      | other move => rfl
    · intro m after resumed unfinished
      have follows := streamAt_follows ordered m
      have next := streamAt_follows ordered (m + 1)
      have here := streamAt_stored stored m after
      have there := streamAt_stored stored (m + 1) (Nat.le_succ_of_le after)
      rw [not_or] at unfinished
      by_cases sent : .entry x ∈ (streamAt env interval workflowId taskId header held s acts (m + 1)).2
      · exact .inl (.inl sent)
      have going : ¬ (streamAt env interval workflowId taskId header held s acts m).1.stream.phase.stopped :=
        fun stopped => unfinished.2 (follows.stopped stopped here later unfinished.1)
      have step := follows.approaches env interval here later unfinished.1 going
      rw [streamAt_succ, resumed] at sent next there ⊢
      rcases step with now | stopped | nearer
      · exact absurd now sent
      · exact .inl (.inr (next.stopped stopped there later sent))
      · exact .inr nearer

end runs

/-! ## A commit out of order -/

/-- The foreign keys of events and tasks hold. -/
structure Referential (s : Store) : Prop where
  owned : ∀ e ∈ s.events, ∃ t, s.tasks.find? e.taskId = some t
  placed : ∀ t ∈ s.tasks, ∃ w, s.workflows.find? t.workflowId = some w

theorem Store.insertEvents_owned {es : List TaskEvent} {s s' : Store}
    (inserted : insertEvents es s = .ok s') : ∀ e ∈ es, ∃ t, s.tasks.find? e.taskId = some t := by
  induction es generalizing s with
  | nil => intro e member; cases member
  | cons x es ih =>
      simp only [insertEvents] at inserted
      split at inserted
      · rename_i mid first
        obtain ⟨_, known, events, _, rfl⟩ := insertEvent_ok first
        intro e member
        rcases List.mem_cons.mp member with rfl | later
        · exact known
        · exact ih inserted e later
      · cases inserted

namespace Referential
variable {s s' : Store} {w : Work}

theorem of_blank (blank : s.Blank) : Referential s where
  owned e member := by
    rw [← Table.mem_rows, blank.2] at member
    cases member
  placed t member := absurd member (blank.not_mem t)

theorem flush (h : Referential s) (committed : Store.flush w s = .ok s') : Referential s' := by
  have persists := Persists.flush committed
  obtain ⟨mid, inserted, _, workflows, tasks, rows⟩ := Store.flush_ok committed
  have placed : ∀ t ∈ mid.tasks, ∃ w, s.workflows.find? t.workflowId = some w := by
    split at inserted
    · rename_i new _
      intro t member
      rcases ((Store.insertTask_mem inserted).2 t).mp member with old | rfl
      · exact h.placed t old
      · have references := (Store.insertTask_ok inserted).2.1
        simp only [Store.references, Bool.and_eq_true, Option.isSome_iff_exists] at references
        exact references.1.1.1.1
    · cases inserted
      exact h.placed
  constructor
  · intro e member
    rw [← Table.mem_rows, rows] at member
    rcases List.mem_append.mp member with old | new
    · obtain ⟨t, stored⟩ := h.owned e old
      obtain ⟨t', kept, _⟩ := persists _ t stored
      exact ⟨t', kept⟩
    · unfold Store.flush at committed
      rw [inserted] at committed
      obtain ⟨_, _, same, _⟩ := Store.insertEvents_frame committed
      rw [same]
      exact Store.insertEvents_owned committed e new
  · intro t member
    rw [workflows]
    rw [tasks] at member
    split at member
    · obtain ⟨u, old, rfl⟩ := Store.updateTask_mem.mp member
      split
      · rw [(Task.writeBack_origin _ _ u).workflowId]
        exact placed u old
      · exact placed u old
    · exact placed t member

theorem interleave (env : Env) (blank : s.Blank) (moves : List Move) :
    Referential (interleave env s moves).store :=
  Pool.turns_invariant (.of_blank blank) _ fun _ _ _ before committed => before.flush committed

end Referential

theorem new_unstored {s s' : Store} {w : Work} (committed : Store.flush w s = .ok s') {id : String}
    {e : TaskEvent} (new : e ∈ w.eventsOf id) : e ∉ s.eventsOf id := by
  intro old
  obtain ⟨_, _, _, _, _, rows⟩ := Store.flush_ok committed
  have distinct := s'.events.nodup
  rw [rows, List.map_append] at distinct
  exact List.disjoint_of_nodup_append distinct
    (List.mem_map_of_mem (Store.mem_eventsOf.mp old).1) (List.mem_map_of_mem (List.mem_filter.mp new).1)

/-- The generator has passed the event by. -/
structure Unseen (e : TaskEvent) (w : World) (frames : List Frame) : Prop where
  passed : e.sequence ≤ w.stream.lastSent
  apart : ∀ b ∈ w.stream.phase.batch, b ≠ e ∧ e.sequence ≤ b.sequence
  unsent : .entry e ∉ frames

theorem Unseen.act {e : TaskEvent} {w : World} {frames : List Frame} (h : Unseen e w frames) (env : Env)
    (interval : Int) (a : Act) :
    Unseen e (w.act env interval a).1 (frames ++ (w.act env interval a).2) := by
  cases a with
  | other move =>
      rw [show (w.act env interval (.other move)).2 = [] from rfl, List.append_nil]
      exact ⟨h.passed, h.apart, h.unsent⟩
  | resume =>
      have advance := EventStream.advance interval w.pool.store w.stream
      change Unseen e { w with stream := (w.stream.step interval w.pool.store).1 }
        (frames ++ (w.stream.step interval w.pool.store).2)
      generalize w.stream.step interval w.pool.store = result at advance ⊢
      cases advance with
      | silent g' own same stopped spent batch =>
          rw [List.append_nil]
          refine ⟨le_of_le_of_eq h.passed same.symm, ?_, h.unsent⟩
          intro b member
          cases phase : g'.phase with
          | sending rest polled =>
              rw [phase, batch rest polled phase] at member
              have later := (mem_fetchEventsAfter.mp member).2
              have passed := h.passed
              refine ⟨?_, by omega⟩
              rintro rfl
              omega
          | _ =>
              rw [phase] at member
              cases member
      | event x rest polled batch =>
          have held : w.stream.phase.batch = x :: rest := congrArg Phase.batch batch
          have first := h.apart x (held ▸ List.mem_cons_self)
          refine ⟨first.2, ?_, ?_⟩
          · intro b member
            exact h.apart b (held ▸ List.mem_cons_of_mem x (EventStream.phaseAfter_kept member))
          · intro sent
            rcases List.mem_append.mp sent with old | new
            · exact h.unsent old
            · cases List.mem_singleton.mp new
              exact first.1 rfl
      | keepalive idle =>
          refine ⟨h.passed, fun b member => (by cases member), fun sent => ?_⟩
          rcases List.mem_append.mp sent with old | new
          · exact h.unsent old
          · cases List.mem_singleton.mp new

section late
variable (env : Env) (interval : Int)

theorem Unseen.forever {e : TaskEvent} {w : World} {frames : List Frame} (h : Unseen e w frames)
    (acts : List Act) : .entry e ∉ frames ++ ((watching env interval).run w acts).2 := by
  have kept := Machine.run_invariant (M := watching env interval) (I := Unseen e) (P := fun _ _ => True)
    (fun _ _ a before _ => before.act env interval a) h (Machine.along_true w acts)
  exact kept.unsent

theorem run_others (moves : List Move) (c : Pool Store Work Failure Answer) (g : EventStream) :
    (watching env interval).run ⟨c, g⟩ (moves.map .other) =
      (⟨c.turns Store.flush (moves.map (Move.turn env)), g⟩, []) := by
  induction moves generalizing c with
  | nil => rfl
  | cons move moves ih =>
      rw [List.map_cons, Machine.run]
      simp only [watching, World.act] at ih ⊢
      rw [ih]
      rfl

theorem opened_sends {c : Pool Store Work Failure Answer} {workflow : Workflow} {task : Task}
    {taskId : String} {header : Int} {d : TaskEvent} {rest : List TaskEvent}
    (known : c.store.workflows.find? task.workflowId = some workflow)
    (stored : c.store.tasks.find? taskId = some task)
    (batch : fetchEventsAfter c.store taskId header = d :: rest) :
    (watching env interval).run ⟨c, streamTaskEvents task.workflowId taskId (some header) false⟩
        (List.replicate 4 .resume) =
      (⟨c, { streamTaskEvents task.workflowId taskId (some header) false with
          phase := EventStream.phaseAfter d (.sending rest false)
          lastSent := d.sequence }⟩, [.entry d]) := by
  have found : (c.store.tasks.find? taskId).filter (fun t => t.workflowId = task.workflowId) = some task :=
    Option.filter_eq_some_iff.mpr ⟨stored, by simp⟩
  simp [List.replicate, Machine.run, watching, World.act, EventStream.step, streamTaskEvents, known, found,
    batch]

/-- An event committed below a stored one of its task stays unseen by some stream, for
ever. -/
theorem overtaken_unseen {s : Store} (blank : s.Blank) {taskId : String} {moves : List Move} {move : Move}
    {w : Work} {s' : Store}
    (commit : (interleave env s moves).committed Store.flush (move.turn env) = some (w, s'))
    (late : ¬ InSequence taskId (interleave env s moves).store w) :
    ∃ workflowId header held, ∃ e ∈ w.eventsOf taskId, header < e.sequence ∧ ∀ acts : List Act,
      .entry e ∉ (streamRun env interval workflowId taskId (some header) held s
        (moves.map .other ++ List.replicate 4 .resume ++ .other move :: acts)).2 := by
  simp only [InSequence, not_forall, Int.not_lt] at late
  obtain ⟨e, new, d, stored, overtaken⟩ := late
  obtain ⟨_, _, _, _, committed⟩ := Pool.committed_eq_some.mp commit
  have unstored := new_unstored committed new
  have referential := Referential.interleave env blank moves
  obtain ⟨member, own⟩ := Store.mem_eventsOf.mp stored
  obtain ⟨task, loaded⟩ := referential.owned d member
  obtain ⟨workflow, known⟩ := referential.placed task (Table.find?_eq_some.mp loaded).1
  rw [own] at loaded
  have fetched : d ∈ fetchEventsAfter (interleave env s moves).store taskId (e.sequence - 1) :=
    mem_fetchEventsAfter.mpr ⟨stored, by omega⟩
  refine ⟨task.workflowId, e.sequence - 1, false, e, new, by omega, fun acts => ?_⟩
  cases batch : fetchEventsAfter (interleave env s moves).store taskId (e.sequence - 1) with
  | nil =>
      rw [batch] at fetched
      cases fetched
  | cons first rest =>
      have above : ∀ b ∈ first :: rest, b ≠ e ∧ e.sequence ≤ b.sequence := by
        intro b waits
        obtain ⟨present, later⟩ := mem_fetchEventsAfter.mp (batch ▸ waits)
        refine ⟨?_, by omega⟩
        rintro rfl
        exact unstored present
      have opened := opened_sends env interval known loaded batch
      have passed : Unseen e ⟨interleave env s moves,
          { streamTaskEvents task.workflowId taskId (some (e.sequence - 1)) false with
            phase := EventStream.phaseAfter first (.sending rest false)
            lastSent := first.sequence }⟩ [.entry first] := by
        refine ⟨(above first List.mem_cons_self).2, fun b waits => ?_, fun sent => ?_⟩
        · exact above b (List.mem_cons_of_mem first (EventStream.phaseAfter_kept waits))
        · cases List.mem_singleton.mp sent
          exact (above _ List.mem_cons_self).1 rfl
      have forever := passed.forever env interval (.other move :: acts)
      have others : (watching env interval).run (World.opened s task.workflowId taskId
            (some (e.sequence - 1)) false) (moves.map .other) =
          (⟨interleave env s moves, streamTaskEvents task.workflowId taskId (some (e.sequence - 1)) false⟩,
            []) := run_others env interval moves ⟨s, []⟩ _
      rw [streamRun, Machine.run_append, Machine.run_append, others, opened, List.nil_append]
      exact forever

end late

/-- Commits in order reach every stream that goes on; a commit out of order has a stream
that never sees it. -/
theorem stream_delivers (env : Env) (interval : Int) {s : Store} (blank : s.Blank) (taskId : String) :
    (∀ workflowId header held (acts : Nat → Act), InfinitelyOften (fun n => acts n = .resume) →
      OrderedAlong env interval workflowId taskId header held s acts →
      Delivers env interval workflowId taskId header held s acts) ∧
    ∀ (moves : List Move) (move : Move) (w : Work) (s' : Store),
      (interleave env s moves).committed Store.flush (move.turn env) = some (w, s') →
      ¬ InSequence taskId (interleave env s moves).store w →
      ∃ workflowId header held, ∃ e ∈ w.eventsOf taskId, header < e.sequence ∧ ∀ acts : List Act,
        .entry e ∉ (streamRun env interval workflowId taskId (some header) held s
          (moves.map .other ++ List.replicate 4 .resume ++ .other move :: acts)).2 :=
  ⟨fun _ _ _ _ often ordered => ordered_delivers often ordered,
    fun _ _ _ _ commit late => overtaken_unseen env interval blank commit late⟩

namespace Demo

/-- The acts, then the generator alone for ever. -/
def forever (acts : List Act) (n : Nat) : Act := acts[n]?.getD .resume

theorem forever_often (acts : List Act) : InfinitelyOften fun n => forever acts n = .resume := by
  intro n
  refine ⟨max n acts.length, Nat.le_max_left _ _, ?_⟩
  simp [forever]

theorem upTo_forever {acts : List Act} {n : Nat} (within : n ≤ acts.length) :
    upTo (forever acts) n = acts.take n := by
  apply List.ext_getElem
  · simp [upTo, within]
  · intro i short _
    have inside : i < acts.length := by
      simp only [upTo, List.length_map, List.length_range] at short
      omega
    simp [upTo, forever, inside]

theorem forever_ordered {env : Env} {interval : Int} {workflowId taskId : String} {header : Option Int}
    {held : Bool} {s : Store} {acts : List Act}
    (along : (watching env interval).Along (World.Ordered env taskId)
      (World.opened s workflowId taskId header held) acts) :
    OrderedAlong env interval workflowId taskId header held s (forever acts) := by
  intro n
  by_cases within : n < acts.length
  · have split : acts = acts.take n ++ acts[n] :: acts.drop (n + 1) := by simp
    rw [split, Machine.along_append] at along
    have first := along.2.1
    simpa [streamAt, streamRun, upTo_forever (Nat.le_of_lt within), forever, within] using first
  · have past : acts[n]? = none := List.getElem?_eq_none (Nat.not_lt.mp within)
    simp [forever, past, World.Ordered]

/-- A log entry numbered three waits to commit while number ten is stored and sent. -/
def overtaking : List Act :=
  asleep ++ [.other (.arrive (post 2 "task-a" "log" [] 3)), .other (.advance 2), .other (.advance 2)]
    ++ (serve 3 (post 3 "task-a" "progress" [("progress", .num 50)] 10)).map .other ++ resumes 4

def overtaken : World × List Frame :=
  streamRun env 15 "wf" "task-a" none true store (overtaking ++ [.other (.advance 2)])

def following : List Act :=
  asleep ++ (serve 2 (post 2 "task-a" "log" [] 3)).map .other
    ++ (serve 3 (post 3 "task-a" "progress" [("progress", .num 50)] 10)).map .other

end Demo

theorem stream_delivers_following :
    Delivers Demo.env 15 "wf" "task-a" none true Demo.store (Demo.forever Demo.following) :=
  (stream_delivers Demo.env 15 Demo.store_blank "task-a").1 "wf" none true (Demo.forever Demo.following)
    (Demo.forever_often _) (Demo.forever_ordered (by decide +kernel))

/-- Number three commits after number ten was sent, and is not sent for ever. -/
theorem stream_overtaken :
    (streamRun Demo.env 15 "wf" "task-a" none true Demo.store Demo.overtaking).2.map
        (Feed.numberOf TaskEvent.sequence) = [1, 2, 10] ∧
      ∃ e ∈ Demo.overtaken.1.pool.store.eventsOf "task-a", e.sequence = 3 ∧ ∀ acts : List Act,
        .entry e ∉ (streamRun Demo.env 15 "wf" "task-a" none true Demo.store
          (Demo.overtaking ++ [.other (.advance 2)] ++ acts)).2 := by
  have frames : Demo.overtaken.2.map (Feed.numberOf TaskEvent.sequence) = [1, 2, 10] := by
    decide +kernel
  obtain ⟨e, stored, number⟩ : ∃ e ∈ Demo.overtaken.1.pool.store.eventsOf "task-a", e.sequence = 3 := by
    decide +kernel
  have reached : Demo.overtaken.1.stream.lastSent = 10 ∧ Demo.overtaken.1.stream.phase.batch = [] := by
    decide +kernel
  refine ⟨by decide +kernel, e, stored, number, fun acts => ?_⟩
  have unseen : Unseen e Demo.overtaken.1 Demo.overtaken.2 := by
    refine ⟨?_, fun b member => ?_, fun sent => ?_⟩
    · omega
    · rw [reached.2] at member
      cases member
    · have listed := List.mem_map_of_mem (f := Feed.numberOf TaskEvent.sequence) sent
      rw [frames] at listed
      simp [Feed.numberOf, number] at listed
  rw [streamRun, Machine.run_append]
  exact unseen.forever Demo.env 15 acts

end Fleet.Api
