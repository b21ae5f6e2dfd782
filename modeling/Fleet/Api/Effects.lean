/- What a commit leaves behind when the request still sees the stored rows. -/
import Fleet.Api.Operations

namespace Fleet.Api
open Fleet.Lib

@[simp] theorem seen_eq {s : Store} {P : Store → Prop} : Seen Eq s P ↔ P s := by
  constructor
  · intro given
    obtain ⟨_, rfl, h⟩ := given
    exact h
  · intro h
    exact ⟨s, rfl, h⟩

/-- The tasks a write set changes or creates, as they stand afterwards. -/
def Work.changed (w : Work) : List Task := (w.dirty.map Prod.snd).toList ++ w.newTask.toList

/-- The task a request changed is the one stored. -/
def Work.Current (w : Work) (s : Store) : Prop :=
  ∀ loaded current, w.dirty = some (loaded, current) →
    s.tasks.find? loaded.id = some loaded ∧ Task.SameOrigin loaded current

namespace Store
variable {s s' : Store} {loaded current : Task}

theorem updateTask_rows (stored : s.tasks.find? loaded.id = some loaded)
    (origin : Task.SameOrigin loaded current) :
    (s.updateTask loaded current).tasks.rows =
      s.tasks.rows.map (fun t => if t.id = loaded.id then current else t) := by
  simp only [updateTask, Table.modify]
  apply List.map_congr_left
  intro t member
  split
  · rename_i same
    have : t = loaded := Table.eq_of_key member (Table.find?_eq_some.mp stored).1 same
    rw [this, Task.writeBack_loaded origin]
  · rfl

theorem updateTask_find? (stored : s.tasks.find? loaded.id = some loaded)
    (origin : Task.SameOrigin loaded current) (id : String) :
    (s.updateTask loaded current).tasks.find? id =
      if current.id = id then some current else s.tasks.find? id := by
  simp only [updateTask, Table.find?_modify, origin.id, eq_comm (a := loaded.id)]
  split
  · rename_i same
    subst same
    rw [stored, Option.map_some, Task.writeBack_loaded origin]
  · rfl

/-- A commit by a request that sees the stored rows: the tasks it changed are
replaced, the one it created was absent, its events follow the old ones. -/
theorem flush_effect {w : Work} (committed : flush w s = .ok s') (fresh : w.Current s) :
    (∀ t, w.newTask = some t → s.tasks.find? t.id = none) ∧
      (∀ id, s'.tasks.find? id =
        (w.changed.find? (fun t => t.id = id)).or (s.tasks.find? id)) ∧
      s'.events.rows = s.events.rows ++ w.newEvents := by
  obtain ⟨mid, inserted, _, _, tasks, events⟩ := flush_ok committed
  have created : (∀ t, w.newTask = some t → s.tasks.find? t.id = none) ∧
      ∀ id, mid.tasks.find? id = (w.newTask.toList.find? (fun t => t.id = id)).or (s.tasks.find? id) := by
    cases new : w.newTask with
    | none =>
        rw [new] at inserted
        cases inserted
        simp
    | some t =>
        rw [new] at inserted
        obtain ⟨_, _, _, table, put, rfl⟩ := insertTask_ok inserted
        refine ⟨?_, fun id => ?_⟩
        · intro _ given
          cases given
          exact (Table.insert?_eq_some.mp put).1
        · rw [Table.find?_insert? put]
          by_cases same : t.id = id <;> simp [same]
  refine ⟨created.1, fun id => ?_, events⟩
  cases dirty : w.dirty with
  | none =>
      rw [dirty] at tasks
      simp only [tasks, created.2, Work.changed, dirty, Option.map_none, Option.toList_none,
        List.nil_append]
  | some pair =>
      obtain ⟨loaded, current⟩ := pair
      obtain ⟨stored, origin⟩ := fresh loaded current dirty
      have other : w.newTask.toList.find? (fun t => t.id = loaded.id) = none := by
        cases new : w.newTask with
        | none => rfl
        | some t =>
            have absent := created.1 t new
            have : t.id ≠ loaded.id := by
              intro same
              rw [same, stored] at absent
              cases absent
            simp [this]
      have held : mid.tasks.find? loaded.id = some loaded := by rw [created.2, other, stored]; rfl
      rw [dirty] at tasks
      simp only [tasks, updateTask_find? held origin, created.2, Work.changed, dirty,
        Option.map_some, Option.toList_some, List.cons_append, List.nil_append, List.find?_cons]
      by_cases same : current.id = id <;> simp [same]

end Store

theorem Change.touched {env : Env} {G : Store → Store → Prop} {quiet : TaskEvent → Prop} {s : Store}
    {w : Work} (h : Change env G quiet s w) {loaded current : Task}
    (dirty : w.dirty = some (loaded, current)) : ∃ e, Touched G s loaded current e := by
  cases h with
  | create => cases dirty
  | inject => cases dirty
  | move task task' e touched | succeed task task' e touched | note task task' e touched =>
      cases dirty
      exact ⟨e, touched⟩

theorem Change.current {env : Env} {quiet : TaskEvent → Prop} {s : Store} {w : Work}
    (h : Change env Eq quiet s w) : w.Current s := by
  intro loaded current dirty
  obtain ⟨e, touched⟩ := h.touched dirty
  exact ⟨seen_eq.mp touched.stored, touched.origin⟩

/-! ## Commits that may come late -/

/-- Rows are never deleted and keep the columns set at their creation. -/
def Persists (s s' : Store) : Prop :=
  ∀ id t, s.tasks.find? id = some t → ∃ t', s'.tasks.find? id = some t' ∧ Task.SameOrigin t t'

theorem Persists.refl (s : Store) : Persists s s := fun _ t found => ⟨t, found, .refl t⟩

theorem Persists.trans (a b c : Store) (h : Persists a b) (k : Persists b c) : Persists a c := by
  intro id t found
  obtain ⟨t', found', origin⟩ := h id t found
  obtain ⟨t'', found'', origin'⟩ := k id t' found'
  exact ⟨t'', found'', origin.trans origin'⟩

theorem Store.insertTask_mem {s s' : Store} {t : Task} (h : s.insertTask t = .ok s') :
    s.tasks.find? t.id = none ∧ ∀ x, x ∈ s'.tasks ↔ x ∈ s.tasks ∨ x = t := by
  obtain ⟨_, _, _, table, put, rfl⟩ := Store.insertTask_ok h
  exact ⟨(Table.insert?_eq_some.mp put).1, fun x => Table.mem_insert? put⟩

theorem Store.updateTask_mem {s : Store} {loaded current x : Task} :
    x ∈ (s.updateTask loaded current).tasks ↔
      ∃ t ∈ s.tasks, x = if t.id = loaded.id then Task.writeBack loaded current t else t := by
  simp only [Store.updateTask]
  exact Table.mem_modify

theorem Store.updateTask_own {s : Store} {loaded t : Task} (current : Task) (member : t ∈ s.tasks)
    (own : t.id = loaded.id) :
    Task.writeBack loaded current t ∈ (s.updateTask loaded current).tasks :=
  Store.updateTask_mem.mpr ⟨t, member, (if_pos own).symm⟩

theorem Store.updateTask_other {s : Store} {loaded t : Task} (current : Task) (member : t ∈ s.tasks)
    (other : t.id ≠ loaded.id) : t ∈ (s.updateTask loaded current).tasks :=
  Store.updateTask_mem.mpr ⟨t, member, (if_neg other).symm⟩

theorem Persists.insertTask {s s' : Store} {t : Task} (h : s.insertTask t = .ok s') :
    Persists s s' := by
  intro id x found
  obtain ⟨member, rfl⟩ := Table.find?_eq_some.mp found
  have kept := ((Store.insertTask_mem h).2 x).mpr (.inl member)
  exact ⟨x, Table.find?_mem kept, .refl x⟩

theorem Persists.updateTask (s : Store) (loaded current : Task) :
    Persists s (s.updateTask loaded current) := by
  intro id x found
  obtain ⟨member, rfl⟩ := Table.find?_eq_some.mp found
  by_cases own : x.id = loaded.id
  · have written := Table.find?_mem (Store.updateTask_own current member own)
    exact ⟨_, written, Task.writeBack_origin loaded current x⟩
  · exact ⟨x, Table.find?_mem (Store.updateTask_other current member own), .refl x⟩

theorem Persists.flush {w : Work} {s s' : Store} (h : Store.flush w s = .ok s') :
    Persists s s' := by
  obtain ⟨mid, inserted, _, _, tasks, _⟩ := Store.flush_ok h
  have first : Persists s mid := by
    split at inserted
    · exact .insertTask inserted
    · cases inserted
      exact .refl s
  apply Persists.trans s mid s' first
  intro id t found
  rw [tasks]
  split
  · exact Persists.updateTask mid _ _ id t found
  · exact ⟨t, found, .refl t⟩

/-- The status in which a task is stored. -/
def Store.status? (s : Store) (id : String) : Option TaskStatus :=
  (s.tasks.find? id).map Task.status

/-- The status of the changed task is still the one the request read, unless the
request does not write the status. -/
def Work.StatusFresh (w : Work) (s : Store) : Prop :=
  ∀ change ∈ w.dirty, change.2.status = change.1.status ∨
    s.status? change.1.id = some change.1.status

instance (w : Work) (s : Store) : Decidable (w.StatusFresh s) := by
  unfold Work.StatusFresh
  infer_instance

/-- The statuses a write set stores for one task: that of the new task, and that
of the changed task if the request changed it. -/
def Work.statusWrites (w : Work) (id : String) : List TaskStatus :=
  (w.newTask.filter (fun t => t.id = id)).toList.map Task.status ++
    (w.dirty.filter (fun c => c.1.id = id ∧ c.2.status ≠ c.1.status)).toList.map (fun c => c.2.status)

theorem Work.statusWrites_moved {w : Work} {loaded current : Task}
    (dirty : w.dirty = some (loaded, current)) (differs : current.status ≠ loaded.status)
    (apart : ∀ t, w.newTask = some t → t.id ≠ loaded.id) :
    w.statusWrites loaded.id = [current.status] := by
  have other : w.newTask.filter (fun t => t.id = loaded.id) = none := by
    rw [Option.filter_eq_none_iff]
    intro t new clash
    exact apart t new (of_decide_eq_true clash)
  rw [Work.statusWrites, other, dirty]
  simp [Option.filter, differs]

/-- The status of every task after a commit. -/
theorem Store.flush_status {w : Work} {s s' : Store} (committed : Store.flush w s = .ok s')
    (known : ∀ c ∈ w.dirty, ∃ t ∈ s.tasks, t.id = c.1.id) (id : String) :
    s'.status? id = (w.statusWrites id).head?.or (s.status? id) := by
  obtain ⟨mid, inserted, _, _, tasks, _⟩ := Store.flush_ok committed
  have created : (∀ t, w.newTask = some t → s.tasks.find? t.id = none) ∧
      mid.status? id = ((w.newTask.filter (fun t => t.id = id)).map Task.status).or (s.status? id) := by
    split at inserted
    · rename_i t new
      obtain ⟨_, _, _, table, put, rfl⟩ := Store.insertTask_ok inserted
      refine ⟨fun u same => ?_, ?_⟩
      · rw [new] at same
        cases same
        exact (Table.insert?_eq_some.mp put).1
      · simp only [Store.status?, Table.find?_insert? put, new]
        by_cases own : t.id = id <;> simp [own, Option.filter]
    · rename_i none
      cases inserted
      simp [none]
  cases dirty : w.dirty with
  | none =>
      rw [dirty] at tasks
      simp only at tasks
      have same : s'.status? id = mid.status? id := by rw [Store.status?, tasks, Store.status?]
      rw [same, created.2, Work.statusWrites, dirty]
      cases w.newTask.filter (fun t => t.id = id) <;> rfl
  | some change =>
      obtain ⟨loaded, current⟩ := change
      rw [dirty] at tasks
      simp only at tasks
      have found : s'.tasks.find? id = if id = loaded.id
          then (mid.tasks.find? id).map (Task.writeBack loaded current) else mid.tasks.find? id := by
        rw [tasks, Store.updateTask, Table.find?_modify]
      by_cases own : loaded.id = id
      · obtain ⟨t, member, same⟩ := known _ dirty
        have stored : s.tasks.find? id = some t := by
          rw [← own, ← same]
          exact Table.find?_mem member
        have other : w.newTask.filter (fun t => t.id = id) = none := by
          rw [Option.filter_eq_none_iff]
          intro u new
          have absent := created.1 u new
          intro clash
          rw [of_decide_eq_true clash, stored] at absent
          cases absent
        have held : (mid.tasks.find? id).map Task.status = some t.status := by
          have := created.2
          rw [other, Store.status?, Store.status?, stored] at this
          simpa using this
        obtain ⟨t', found', status⟩ := Option.map_eq_some_iff.mp held
        rw [Store.status?, found, if_pos own.symm, found']
        simp only [Option.map_some, Task.writeBack, Task.column, Work.statusWrites, other, dirty,
          Store.status?, stored]
        by_cases changed : current.status = loaded.status <;> simp [own, changed, status, Option.filter]
      · have same : s'.status? id = mid.status? id := by
          rw [Store.status?, found, if_neg (fun h => own h.symm), Store.status?]
        rw [same, created.2, Work.statusWrites, dirty]
        cases w.newTask.filter (fun t => t.id = id) <;> simp [own, Option.filter]

theorem Work.Current.statusFresh {w : Work} {s : Store} (h : w.Current s) : w.StatusFresh s := by
  intro pair dirty
  obtain ⟨loaded, current⟩ := pair
  rw [Store.status?, (h loaded current dirty).1]
  exact .inr rfl

theorem Seen.mono {G G' : Store → Store → Prop} {s : Store} {P : Store → Prop}
    (sub : ∀ a b, G a b → G' a b) (h : Seen G s P) : Seen G' s P := by
  obtain ⟨s₁, r, holds⟩ := h
  exact ⟨s₁, sub _ _ r, holds⟩

theorem Touched.mono {G G' : Store → Store → Prop} {s : Store} {task task' : Task} {e : TaskEvent}
    (sub : ∀ a b, G a b → G' a b) (h : Touched G s task task' e) : Touched G' s task task' e :=
  ⟨h.stored.mono sub, h.origin, h.own, h.later.mono sub⟩

theorem Change.mono {env : Env} {G G' : Store → Store → Prop} {quiet quiet' : TaskEvent → Prop}
    {s : Store} {w : Work} (sub : ∀ a b, G a b → G' a b) (more : ∀ e, quiet e → quiet' e)
    (h : Change env G quiet s w) : Change env G' quiet' s w := by
  cases h with
  | create task caller now fresh => exact .create task caller now fresh
  | move task task' e touched valid records starts =>
      exact .move task task' e (touched.mono sub) valid records
        fun accepted running => more e (starts accepted running)
  | note task task' e touched same silent allowed =>
      exact .note task task' e (touched.mono sub) same silent (more e allowed)
  | inject task e touched silent allowed =>
      exact .inject task e (touched.mono sub) silent (more e allowed)
  | succeed task task' e touched valid superseded records room hex input priority now key metadata
      caller link =>
      exact .succeed task task' e (touched.mono sub) valid superseded records room hex input
        priority now key metadata caller link

theorem Seen.stored {s : Store} {task : Task}
    (h : Seen Persists s (fun s₁ => s₁.tasks.find? task.id = some task)) :
    ∃ t ∈ s.tasks, Task.SameOrigin task t := by
  obtain ⟨s₁, persists, found⟩ := h
  obtain ⟨t, found', origin⟩ := persists _ _ found
  exact ⟨t, (Table.find?_eq_some.mp found').1, origin⟩

/-- A change replaces each stored task by one of the same origin whose status
stays or moves as permitted, and adds at most the new task. -/
structure Carries (s s' : Store) (new : Option Task) : Prop where
  forth : ∀ t ∈ s.tasks, ∃ t' ∈ s'.tasks, Task.SameOrigin t t' ∧
    (t'.status = t.status ∨ t'.status ∈ validTransitions t.status)
  back : ∀ t' ∈ s'.tasks, new = some t' ∨ ∃ t ∈ s.tasks, Task.SameOrigin t t'
  absent : ∀ t, new = some t → s.tasks.find? t.id = none
  added : ∀ t, new = some t → t ∈ s'.tasks

/-- The status a task is left with by a request that wants to move it. -/
theorem writeBack_status {loaded current stored : Task}
    (fresh : current.status = loaded.status ∨ stored.status = loaded.status)
    (moves : current.status = loaded.status ∨ current.status ∈ validTransitions loaded.status) :
    (Task.writeBack loaded current stored).status = stored.status ∨
      (Task.writeBack loaded current stored).status ∈ validTransitions stored.status := by
  simp only [Task.writeBack, Task.column]
  split
  · exact .inl rfl
  · rename_i differs
    rw [fresh.resolve_left differs]
    exact .inr (moves.resolve_left differs)

variable {env : Env} {quiet : TaskEvent → Prop} {s s' : Store} {w : Work}

theorem Change.moves {G : Store → Store → Prop} (h : Change env G quiet s w) :
    ∀ change ∈ w.dirty, change.2.status = change.1.status ∨
      change.2.status ∈ validTransitions change.1.status := by
  intro pair dirty
  obtain ⟨loaded, current⟩ := pair
  cases h with
  | create => cases dirty
  | inject => cases dirty
  | move task task' e touched valid | succeed task task' e touched valid =>
      cases dirty
      exact .inr valid
  | note task task' e touched same =>
      cases dirty
      exact .inl same

theorem Change.dirty_stored (h : Change env Persists quiet s w) :
    ∀ change ∈ w.dirty, ∃ t ∈ s.tasks, t.id = change.1.id := by
  intro change dirty
  obtain ⟨e, touched⟩ := h.touched dirty
  obtain ⟨t, member, origin⟩ := touched.stored.stored
  exact ⟨t, member, origin.id⟩

/-- The store after the insertion of the new task, if there is one. -/
structure Inserted (s mid : Store) (new : Option Task) : Prop where
  absent : ∀ t, new = some t → s.tasks.find? t.id = none
  mem : ∀ x, x ∈ mid.tasks ↔ x ∈ s.tasks ∨ new = some x

theorem Store.flush_inserted (committed : Store.flush w s = .ok s') :
    ∃ mid, Inserted s mid w.newTask ∧ (w.dirty = none → s'.tasks = mid.tasks) ∧
      ∀ loaded current, w.dirty = some (loaded, current) →
        s'.tasks = (mid.updateTask loaded current).tasks := by
  obtain ⟨mid, inserted, _, _, tasks, _⟩ := Store.flush_ok committed
  refine ⟨mid, ?_, fun dirty => ?_, fun loaded current dirty => ?_⟩
  · split at inserted
    · rename_i t new
      obtain ⟨absent, mem⟩ := Store.insertTask_mem inserted
      rw [new]
      refine ⟨fun u same => ?_, fun x => (mem x).trans (or_congr_right ?_)⟩
      · cases same
        exact absent
      · rw [Option.some.injEq, eq_comm]
    · rename_i none
      cases inserted
      exact ⟨by simp [none], by simp [none]⟩
  · rw [tasks, dirty]
  · rw [tasks, dirty]

namespace Inserted
variable {mid : Store} {new : Option Task}

theorem clean (h : Inserted s mid new) (tasks : s'.tasks = mid.tasks) : Carries s s' new where
  forth t member := ⟨t, tasks ▸ (h.mem t).mpr (.inl member), .refl t, .inl rfl⟩
  back t member := ((h.mem t).mp (tasks ▸ member)).symm.imp_right fun old => ⟨t, old, .refl t⟩
  absent := h.absent
  added t same := tasks ▸ (h.mem t).mpr (.inr same)

theorem apart (h : Inserted s mid new) {id : String} (known : ∃ t ∈ s.tasks, t.id = id) {t : Task}
    (same : new = some t) : t.id ≠ id := by
  rintro rfl
  obtain ⟨stored, member, own⟩ := known
  have absent := h.absent t same
  rw [← own, Table.find?_mem member] at absent
  cases absent

/-- The update writes back the row of one task that is not the new one. -/
theorem dirty (h : Inserted s mid new) {loaded current : Task}
    (known : ∃ t ∈ s.tasks, t.id = loaded.id)
    (moves : current.status = loaded.status ∨ current.status ∈ validTransitions loaded.status)
    (read : ∀ t ∈ s.tasks, t.id = loaded.id →
      current.status = loaded.status ∨ t.status = loaded.status)
    (tasks : s'.tasks = (mid.updateTask loaded current).tasks) : Carries s s' new := by
  refine ⟨fun t stored => ?_, fun t' after => ?_, h.absent, fun t same => ?_⟩
  · have old := (h.mem t).mpr (.inl stored)
    rw [tasks]
    by_cases own : t.id = loaded.id
    · exact ⟨Task.writeBack loaded current t, Store.updateTask_own current old own,
        Task.writeBack_origin _ _ _, writeBack_status (read t stored own) moves⟩
    · exact ⟨t, Store.updateTask_other current old own, .refl t, .inl rfl⟩
  · rw [tasks] at after
    obtain ⟨t, before, rfl⟩ := Store.updateTask_mem.mp after
    rcases (h.mem t).mp before with old | same
    · refine .inr ⟨t, old, ?_⟩
      split
      · exact Task.writeBack_origin _ _ _
      · exact .refl t
    · rw [if_neg (h.apart known same)]
      exact .inl same
  · rw [tasks]
    exact Store.updateTask_other current ((h.mem t).mpr (.inr same)) (h.apart known same)

end Inserted

theorem Change.carries (h : Change env Persists quiet s w) (fresh : w.StatusFresh s)
    (committed : Store.flush w s = .ok s') : Carries s s' w.newTask := by
  obtain ⟨mid, inserted, clean, updated⟩ := Store.flush_inserted committed
  cases dirty : w.dirty with
  | none => exact inserted.clean (clean dirty)
  | some change =>
      obtain ⟨loaded, current⟩ := change
      refine inserted.dirty (h.dirty_stored _ dirty) (h.moves _ dirty) (fun t stored own => ?_)
        (updated loaded current dirty)
      refine (fresh _ dirty).imp_right fun seen => ?_
      have found := Table.find?_mem stored
      rw [own] at found
      simpa [Store.status?, found] using seen

theorem Change.alone (h : Change env Eq quiet s w) :
    Change env Persists quiet s w ∧ w.StatusFresh s :=
  have sub : ∀ a b, a = b → Persists a b := by
    intro a _ same
    subst same
    exact .refl a
  ⟨h.mono sub fun _ allowed => allowed, h.current.statusFresh⟩

end Fleet.Api
