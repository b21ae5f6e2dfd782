/- Logs and lineages of requests interleaved statement by statement, late commits included. -/
import Fleet.Api.Concurrency
import Fleet.Api.Lineage
import Fleet.Api.StreamDelivery

namespace Fleet.Api
open Fleet.Lib

theorem program_grows (env : Env) (op : Op) (s : Store) :
    (op.program env).wp Store.flush Grows (Change env Grows (fun _ => True)) (fun _ _ => True) s := by
  refine Prog.wp_mono (op.program_wp (Q := fun _ _ => True) Grows.refl Grows.trans ?_ ?_ ?_)
    (fun _ _ change => change.mono (fun _ _ h => h) fun _ _ => trivial) fun _ _ h => h
  all_goals intros; trivial

theorem commits_grow (env : Env) (s : Store) (moves : List Move) :
    ∀ c ∈ commits env s moves, Change env Grows (fun _ => True) c.1 c.2 := by
  refine Pool.Sound.history Grows.refl Grows.trans
    (fun _ _ _ _ committed => Grows.flush _ _ _ committed) ?_ _ ?_
  · intro p member
    cases member
  · intro t member
    obtain ⟨move, _, rfl⟩ := List.mem_map.mp member
    cases move with
    | arrive op => exact fun s => program_grows env op s
    | advance i => trivial

/-! ## The journal of a task -/

/-- Every task's log begins with the one event that says it was created. -/
structure Journaled (s : Store) : Prop where
  positive : ∀ e ∈ s.events, 1 ≤ e.sequence
  first : ∀ t ∈ s.tasks, ∃ e ∈ s.events, e.taskId = t.id ∧ e.eventType = "created" ∧ e.sequence = 1
  created : ∀ e ∈ s.events, e.eventType = "created" → e.sequence = 1

/-- An event that reports another status than that of a new task does not create one. -/
theorem created_reports {e : TaskEvent} (created : e.eventType = "created") :
    recordedStatus e = some .accepted := by
  simp [recordedStatus, created]

namespace Journaled
variable {env : Env} {quiet : TaskEvent → Prop} {s s' : Store} {w : Work}

theorem of_blank (blank : s.Blank) : Journaled s := by
  have empty : ∀ e, e ∉ s.events := by
    intro e member
    rw [← Table.mem_rows, blank.2] at member
    cases member
  exact ⟨fun e member => absurd member (empty e), fun t member => absurd member (blank.not_mem t),
    fun e member => absurd member (empty e)⟩

theorem numbered (h : Journaled s) {task task' : Task} {e : TaskEvent}
    (touched : Touched Grows s task task' e) : 1 ≤ e.sequence := by
  obtain ⟨s₁, grown, later⟩ := touched.later
  suffices 0 ≤ s₁.maxSequence task.id by omega
  unfold Store.maxSequence
  cases top : ((s₁.eventsOf task.id).map TaskEvent.sequence).max? with
  | none => exact Int.le_refl 0
  | some m =>
      obtain ⟨x, own, rfl⟩ := List.mem_map.mp (List.max?_eq_some_iff.mp top).1
      have := h.positive x (grown.event (Store.mem_eventsOf.mp own).1)
      simp only [Option.getD_some]
      omega

theorem added (h : Journaled s) (change : Change env Grows quiet s w) :
    (∀ e ∈ w.newEvents, 1 ≤ e.sequence ∧ (e.eventType = "created" → e.sequence = 1)) ∧
      ∀ t, w.newTask = some t → ∃ e ∈ w.newEvents, e.taskId = t.id ∧ e.eventType = "created" ∧
        e.sequence = 1 := by
  have moves : ∀ {task task' : Task} {e : TaskEvent}, Touched Grows s task task' e →
      task'.status ∈ validTransitions task.status → recordedStatus e = some task'.status →
        1 ≤ e.sequence ∧ (e.eventType = "created" → e.sequence = 1) := by
    intro task task' e touched valid records
    refine ⟨h.numbered touched, fun created => ?_⟩
    rw [created_reports created, Option.some.injEq] at records
    rw [← records] at valid
    exact absurd valid (accepted_not_reentered task.status)
  have notes : ∀ {task task' : Task} {e : TaskEvent}, Touched Grows s task task' e →
      recordedStatus e = none → 1 ≤ e.sequence ∧ (e.eventType = "created" → e.sequence = 1) := by
    intro task task' e touched silent
    refine ⟨h.numbered touched, fun created => ?_⟩
    rw [created_reports created] at silent
    cases silent
  have opening : ∀ {id caller : String} {origin : Dict} {now : Time},
      1 ≤ (createdEvent id caller origin now).sequence ∧
        ((createdEvent id caller origin now).eventType = "created" →
          (createdEvent id caller origin now).sequence = 1) := ⟨Int.le_refl 1, fun _ => rfl⟩
  cases change with
  | create task caller now fresh =>
      refine ⟨fun e member => ?_, ?_⟩
      · cases List.mem_singleton.mp member
        exact opening
      · rintro t ⟨⟩
        exact ⟨_, List.mem_singleton_self _, rfl, rfl, rfl⟩
  | move task task' e touched valid records =>
      refine ⟨fun x member => ?_, fun _ new => (by cases new)⟩
      cases List.mem_singleton.mp member
      exact moves touched valid records
  | succeed task task' e touched valid superseded records =>
      refine ⟨fun x member => ?_, ?_⟩
      · rcases List.mem_cons.mp member with rfl | last
        · exact moves touched valid records
        · cases List.mem_singleton.mp last
          exact opening
      · rintro t ⟨⟩
        exact ⟨_, List.mem_cons_of_mem _ (List.mem_singleton_self _), rfl, rfl, rfl⟩
  | note task task' e touched same silent =>
      refine ⟨fun x member => ?_, fun _ new => (by cases new)⟩
      cases List.mem_singleton.mp member
      exact notes touched silent
  | inject task e touched silent =>
      refine ⟨fun x member => ?_, fun _ new => (by cases new)⟩
      cases List.mem_singleton.mp member
      exact notes touched silent

theorem commit (h : Journaled s) (change : Change env Grows quiet s w)
    (committed : Store.flush w s = .ok s') : Journaled s' := by
  obtain ⟨numbers, opens⟩ := h.added change
  obtain ⟨_, _, _, _, _, log⟩ := Store.flush_ok committed
  have split : ∀ {e}, e ∈ s'.events ↔ e ∈ s.events ∨ e ∈ w.newEvents := by
    intro e
    rw [← Table.mem_rows, log, List.mem_append, Table.mem_rows]
  refine ⟨fun e member => ?_, fun t' member => ?_, fun e member => ?_⟩
  · exact (split.mp member).elim (h.positive e) fun new => (numbers e new).1
  · obtain ⟨t, before, origin⟩ := Store.flush_back committed member
    rw [origin.id]
    rcases before with old | new
    · obtain ⟨e, stored, rest⟩ := h.first t old
      exact ⟨e, split.mpr (.inl stored), rest⟩
    · obtain ⟨e, stored, rest⟩ := opens t new
      exact ⟨e, split.mpr (.inr stored), rest⟩
  · exact (split.mp member).elim (h.created e) fun new => (numbers e new).2

theorem interleave (env : Env) (blank : s.Blank) (moves : List Move) :
    Journaled (interleave env s moves).store :=
  Pool.turns_invariant (.of_blank blank) _ fun e member _ before committed =>
    before.commit (commits_grow env s moves e member) committed

end Journaled

/-- However requests interleave, rows keep the columns set at their creation and the log is
only appended to; every event belongs to a stored task, and the log of every stored task
has exactly one event numbered 1, the one that says the task was created. -/
theorem shared_log_sound (env : Env) (s : Store) (blank : s.Blank) (moves more : List Move) :
    Grows (interleave env s moves).store (interleave env s (moves ++ more)).store ∧
    (∀ e ∈ (interleave env s moves).store.events,
      ∃ t ∈ (interleave env s moves).store.tasks, t.id = e.taskId) ∧
    ∀ t ∈ (interleave env s moves).store.tasks,
      ∃ first ∈ (interleave env s moves).store.eventsOf t.id,
        first.sequence = 1 ∧ first.eventType = "created" ∧
        ∀ e ∈ (interleave env s moves).store.eventsOf t.id,
          e ≠ first → 1 < e.sequence ∧ e.eventType ≠ "created" := by
  have journal := Journaled.interleave env blank moves
  refine ⟨interleave_grows env s moves more, fun e member => ?_, fun t member => ?_⟩
  · obtain ⟨t, found⟩ := (Referential.interleave env blank moves).owned e member
    exact ⟨t, Table.find?_eq_some.mp found⟩
  · obtain ⟨first, stored, own, type, one⟩ := journal.first t member
    refine ⟨first, Store.mem_eventsOf.mpr ⟨stored, own⟩, one, type, fun e mine other => ?_⟩
    obtain ⟨logged, same⟩ := Store.mem_eventsOf.mp mine
    have later : 1 < e.sequence := by
      have least := journal.positive e logged
      by_contra reached
      -- the slot of the first event is taken
      apply other
      apply Table.eq_of_key logged stored
      rw [TaskEvent.slot, TaskEvent.slot, same, own, one]
      congr 1
      omega
    refine ⟨later, fun created => ?_⟩
    rw [journal.created e logged created] at later
    exact Int.lt_irrefl 1 later

/-! ## The lineage of a task -/

/-- The links of all stored tasks; several tasks may continue one parent. -/
structure Branched (env : Env) (s : Store) : Prop where
  named : ∀ t ∈ s.tasks, t.id ≠ "" ∧ t.rootTaskId ≠ some ""
  top : ∀ t ∈ s.tasks, t.parentTaskId = none → t.lineageDepth = 0 ∧ t.rootTaskId = none
  child : ∀ t ∈ s.tasks, ∀ p, t.parentTaskId = some p → ∃ parent ∈ s.tasks, parent.id = p ∧
    Continues parent t
  bound : ∀ t ∈ s.tasks, t.lineageDepth ≤ env.settings.fleetLineageMaxDepth

namespace Branched
variable {env : Env} {quiet : TaskEvent → Prop} {s s' : Store} {w : Work}

theorem of_blank (blank : s.Blank) : Branched env s := by
  refine ⟨?_, ?_, ?_, ?_⟩ <;> intro t member <;> exact absurd member (blank.not_mem t)

/-- A new task starts a lineage, or continues a stored task with room below it. -/
theorem added (h : Branched env s) (change : Change env Grows quiet s w) {t : Task}
    (new : w.newTask = some t) :
    t.Fresh ∨ ∃ parent ∈ s.tasks, Continues parent t ∧ t.id ≠ "" ∧ t.rootTaskId ≠ some "" ∧
      t.lineageDepth ≤ env.settings.fleetLineageMaxDepth := by
  cases change with
  | move | note | inject => cases new
  | create task caller now fresh =>
      cases new
      exact .inl fresh
  | succeed task task' e touched valid superseded records room hex input priority now key metadata =>
      cases new
      obtain ⟨s₁, grown, found⟩ := touched.stored
      obtain ⟨parent, member, origin⟩ := grown.row (Table.find?_eq_some.mp found).1
      have names := h.named parent member
      rw [origin.id, origin.root] at names
      have root := orElse_eq_getD (b := task.id) names.2
      refine .inr ⟨parent, member, ?_, newTaskId_ne_empty hex, ?_, room⟩
      · exact {
          link := congrArg some origin.id.symm
          workflow := origin.workflowId.symm
          principal := origin.principal.symm
          executor := origin.executor.symm
          depth := congrArg (· + 1) origin.depth.symm
          root := by rw [origin.root, origin.id]; exact congrArg some root }
      · simp only [successor, root]
        cases r : task.rootTaskId with
        | none => exact fun empty => names.1 (Option.some.inj empty)
        | some v => exact fun empty => names.2 (by rw [r]; exact empty)

theorem commit (h : Branched env s) (change : Change env Grows quiet s w)
    (committed : Store.flush w s = .ok s') : Branched env s' := by
  have grown := Grows.flush w s s' committed
  refine ⟨fun t' member => ?_, fun t' member lone => ?_, fun t' member p link => ?_,
    fun t' member => ?_⟩
  all_goals obtain ⟨t, before, origin⟩ := Store.flush_back committed member
  · rw [origin.id, origin.root]
    rcases before with old | new
    · exact h.named t old
    · rcases h.added change new with fresh | ⟨_, _, _, named, rooted, _⟩
      · exact ⟨fresh.named, by simp [fresh.root]⟩
      · exact ⟨named, rooted⟩
  · rw [origin.depth, origin.root]
    rw [origin.parent] at lone
    rcases before with old | new
    · exact h.top t old lone
    · rcases h.added change new with fresh | ⟨_, _, continues, _⟩
      · exact ⟨fresh.depth, fresh.root⟩
      · rw [continues.link] at lone
        cases lone
  · rw [origin.parent] at link
    have above : ∃ parent ∈ s.tasks, parent.id = p ∧ Continues parent t := by
      rcases before with old | new
      · exact h.child t old p link
      · rcases h.added change new with fresh | ⟨parent, stored, continues, _⟩
        · rw [fresh.parent] at link
          cases link
        · refine ⟨parent, stored, ?_, continues⟩
          exact Option.some.inj (continues.link.symm.trans link)
    obtain ⟨parent, stored, rfl, continues⟩ := above
    obtain ⟨parent', stored', origin'⟩ := grown.row stored
    exact ⟨parent', stored', origin'.id, continues.transport origin' origin⟩
  · rw [origin.depth]
    rcases before with old | new
    · exact h.bound t old
    · rcases h.added change new with fresh | ⟨_, _, _, _, _, bound⟩
      · rw [fresh.depth]
        exact Nat.zero_le _
      · exact bound

theorem interleave (env : Env) (blank : s.Blank) (moves : List Move) :
    Branched env (interleave env s moves).store :=
  Pool.turns_invariant (.of_blank blank) _ fun e member _ before committed =>
    before.commit (commits_grow env s moves e member) committed

/-- Climbing the parents ends at the task that the root of the lineage names. -/
theorem rooted (h : Branched env s) {t : Task} (member : t ∈ s.tasks) (child : t.parentTaskId ≠ none) :
    ∃ r ∈ s.tasks, AncestorOf s r t ∧ r.parentTaskId = none ∧ t.rootTaskId = some r.id := by
  generalize depth : t.lineageDepth = n
  induction n generalizing t with
  | zero =>
      obtain ⟨p, link⟩ := Option.ne_none_iff_exists'.mp child
      obtain ⟨parent, _, _, continues⟩ := h.child t member p link
      have := continues.depth
      omega
  | succ n ih =>
      obtain ⟨p, link⟩ := Option.ne_none_iff_exists'.mp child
      obtain ⟨parent, stored, _, continues⟩ := h.child t member p link
      have up : ParentOf s parent t := ⟨stored, continues.link⟩
      by_cases lone : parent.parentTaskId = none
      · refine ⟨parent, stored, .single up, lone, ?_⟩
        rw [continues.root, (h.top parent stored lone).2]
        rfl
      · have shallower : parent.lineageDepth = n := by
          have := continues.depth
          omega
        obtain ⟨r, top, far, lone', root⟩ := ih stored lone shallower
        refine ⟨r, top, .tail far up, lone', ?_⟩
        rw [continues.root, root]
        rfl

end Branched

/-- However requests interleave, also where two of them continue one task, every stored
task has the parent it names, one level above it and of the same workflow, principal and
executor; the root it names is where its parents end, within the bound on depths. -/
theorem shared_lineage_sound (env : Env) (s : Store) (blank : s.Blank) (moves : List Move) :
    ∀ t ∈ (interleave env s moves).store.tasks,
      (t.parentTaskId = none → t.lineageDepth = 0 ∧ t.rootTaskId = none) ∧
      (∀ p, t.parentTaskId = some p → ∃ parent ∈ (interleave env s moves).store.tasks,
        parent.id = p ∧ Continues parent t) ∧
      (t.parentTaskId ≠ none → ∃ r ∈ (interleave env s moves).store.tasks,
        AncestorOf (interleave env s moves).store r t ∧ r.parentTaskId = none ∧
          t.rootTaskId = some r.id) ∧
      t.lineageDepth ≤ env.settings.fleetLineageMaxDepth := by
  have branched := Branched.interleave env blank moves
  intro t member
  exact ⟨branched.top t member, branched.child t member, branched.rooted member, branched.bound t member⟩

/-! ### Two retasks of one task -/

theorem shared_log_sound_double : Grows (interleave Demo.env Demo.store Demo.started).store
    (interleave Demo.env Demo.store (Demo.started ++ Demo.doubleRetask)).store :=
  (shared_log_sound Demo.env Demo.store Demo.store_blank Demo.started Demo.doubleRetask).1

theorem shared_lineage_sound_double :
    ∃ t ∈ (interleave Demo.env Demo.store Demo.doubleRetask).store.tasks,
      ∃ u ∈ (interleave Demo.env Demo.store Demo.doubleRetask).store.tasks, t.id ≠ u.id ∧
        t.parentTaskId = some "task-a" ∧ u.parentTaskId = some "task-a" ∧
        t.lineageDepth ≤ 10 ∧ u.lineageDepth ≤ 10 := by
  have sound := shared_lineage_sound Demo.env Demo.store Demo.store_blank Demo.doubleRetask
  obtain ⟨t, member, u, member', other, link, link'⟩ :
      ∃ t ∈ (interleave Demo.env Demo.store Demo.doubleRetask).store.tasks.rows,
        ∃ u ∈ (interleave Demo.env Demo.store Demo.doubleRetask).store.tasks.rows, t.id ≠ u.id ∧
          t.parentTaskId = some "task-a" ∧ u.parentTaskId = some "task-a" := by decide +kernel
  exact ⟨t, member, u, member', other, link, link', (sound t member).2.2.2, (sound u member').2.2.2⟩

end Fleet.Api
