/- Following the cursors of a listing gives each matching row once. -/
import Fleet.Api.Listing
import Fleet.Api.Operations

namespace Fleet.Api
open Fleet.Lib Fleet.Lib.Paging

/-! ## What the filters select -/

/-- The task has what the filters ask for; a bound is an instant that its text stands for. -/
structure TaskQuery.Selects (backend : Backend) (q : TaskQuery) (t : Task) : Prop where
  status : ∀ v, q.status = some v → t.status.value = v
  priority : ∀ v, q.priority = some v → t.priority.value = v
  caller : ∀ v, q.caller = some v → t.principalAgentId = v
  since : ∀ v, q.since = some v → ∃ d bound, DateTime.fromisoformat v = some d ∧
    instantOf backend.processZone d = .ok bound ∧ bound ≤ t.createdAt
  until' : ∀ v, q.until' = some v → ∃ d bound, DateTime.fromisoformat v = some d ∧
    instantOf backend.processZone d = .ok bound ∧ t.createdAt ≤ bound

structure WorkflowQuery.Selects (q : WorkflowQuery) (w : Workflow) : Prop where
  status : w.status.value = q.status.getD "active"
  owner : ∀ v, q.owner = some v → w.ownerAgentId = v
  tag : ∀ v, q.tag = some v → ∃ tags, w.tags = some tags ∧ v ∈ tags

theorem TaskStatus.ofValue?_eq_some {v : String} {st : TaskStatus} :
    TaskStatus.ofValue? v = some st ↔ st.value = v := by
  constructor
  · intro found
    simpa using List.find?_some found
  · rintro rfl
    exact TaskStatus.ofValue?_value st

theorem TaskPriority.ofValue?_eq_some {v : String} {p : TaskPriority} :
    TaskPriority.ofValue? v = some p ↔ p.value = v := by
  constructor
  · intro found
    simpa using List.find?_some found
  · rintro rfl
    cases p <;> decide

theorem WorkflowStatus.ofValue?_eq_some {v : String} {st : WorkflowStatus} :
    WorkflowStatus.ofValue? v = some st ↔ st.value = v := by
  constructor
  · intro found
    simpa using List.find?_some found
  · rintro rfl
    cases st <;> decide

theorem readFilter_ok {α : Type} {read : String → Except Failure α} {given : Option String} {r : Option α} :
    readFilter read given = .ok r ↔
      (given = none ∧ r = none) ∨ ∃ text a, given = some text ∧ read text = .ok a ∧ r = some a := by
  cases given with
  | none => simp [readFilter, eq_comm]
  | some text => cases eq : read text <;> simp [readFilter, eq, Except.map, eq_comm]

theorem bind_eq_ok {α β : Type} {x : Except Failure α} {f : α → Except Failure β} {r : β} :
    (x >>= f) = .ok r ↔ ∃ a, x = .ok a ∧ f a = .ok r := by
  cases x with
  | error e => simp [bind, Except.bind]
  | ok a => simp [bind, Except.bind]

theorem bindOptional_ok {text : Option String} {u : Unit} :
    bindOptional text = .ok u ↔ ∀ v, text = some v → Sql.storable v = true := by
  cases text with
  | none => simp [bindOptional]
  | some v => by_cases held : Sql.storable v = true <;> simp [bindOptional, bindText, held]

theorem readFilter_all {α : Type} {read : String → Except Failure α} {given : Option String}
    {r : Option α} (parsed : readFilter read given = .ok r) (test : α → Bool) (means : String → Prop)
    (reads : ∀ text a, read text = .ok a → (test a = true ↔ means text)) :
    r.all test = true ↔ ∀ v, given = some v → means v := by
  rcases readFilter_ok.mp parsed with ⟨rfl, rfl⟩ | ⟨text, a, rfl, ok, rfl⟩
  · simp
  · simp [reads text a ok]

theorem bound_all {backend : Backend} {name sample : String} {given : Option String}
    {d : Option DateTime.Stamp} {bound : Option Time}
    (parsed : readFilter (parseTimestampFilter name sample) given = .ok d)
    (bounded : boundOf backend d = .ok bound) (test : Time → Bool) :
    bound.all test = true ↔ ∀ v, given = some v → ∃ d b, DateTime.fromisoformat v = some d ∧
      instantOf backend.processZone d = .ok b ∧ test b = true := by
  rcases readFilter_ok.mp parsed with ⟨rfl, rfl⟩ | ⟨text, stamp, rfl, ok, rfl⟩
  · cases bounded
    simp
  · unfold parseTimestampFilter at ok
    split at ok
    · rename_i stamp' read
      cases ok
      change (instantOf backend.processZone stamp).map some = .ok bound at bounded
      cases instant : instantOf backend.processZone stamp with
      | error e =>
          rw [instant] at bounded
          cases bounded
      | ok b =>
          rw [instant] at bounded
          cases bounded
          simp [read, instant]
    · cases ok

theorem bound_reads {backend : Backend} (name sample : String) {given : Option String} {test : Time → Prop}
    (selects : ∀ v, given = some v → ∃ d bound, DateTime.fromisoformat v = some d ∧
      instantOf backend.processZone d = .ok bound ∧ test bound) :
    ∃ d bound, readFilter (parseTimestampFilter name sample) given = .ok d ∧ boundOf backend d = .ok bound := by
  cases given with
  | none => exact ⟨none, none, rfl, rfl⟩
  | some v =>
      obtain ⟨d, bound, read, instant, _⟩ := selects v rfl
      refine ⟨some d, some bound, ?_, ?_⟩
      · simp [readFilter, parseTimestampFilter, read, Except.map]
      · simp [boundOf, instant, Except.map]

theorem admits_iff {backend : Backend} {q : TaskQuery} {f : TaskFilter} {bounds : Option Time × Option Time}
    (parsed : q.parse = .ok f) (bounded : f.bounds backend = .ok bounds) (t : Task) :
    f.admits bounds t = true ↔ q.Selects backend t := by
  obtain ⟨status, statusRead, parsed⟩ := bind_eq_ok.mp parsed
  obtain ⟨priority, priorityRead, parsed⟩ := bind_eq_ok.mp parsed
  obtain ⟨since, sinceRead, parsed⟩ := bind_eq_ok.mp parsed
  obtain ⟨until', untilRead, parsed⟩ := bind_eq_ok.mp parsed
  cases parsed
  obtain ⟨lower, lowerBound, bounded⟩ := bind_eq_ok.mp bounded
  obtain ⟨upper, upperBound, bounded⟩ := bind_eq_ok.mp bounded
  obtain ⟨_, _, bounded⟩ := bind_eq_ok.mp bounded
  cases bounded
  have byStatus := readFilter_all statusRead (fun st => t.status = st)
    (fun v => t.status.value = v) (by
      intro text st read
      unfold parseStatusFilter at read
      split at read
      · rename_i st' found
        cases read
        rw [decide_eq_true_eq, ← TaskStatus.ofValue?_eq_some, found]
        simp [eq_comm]
      · cases read)
  have byPriority := readFilter_all priorityRead (fun p => t.priority = p)
    (fun v => t.priority.value = v) (by
      intro text p read
      unfold parsePriorityFilter at read
      split at read
      · rename_i p' found
        cases read
        rw [decide_eq_true_eq, ← TaskPriority.ofValue?_eq_some, found]
        simp [eq_comm]
      · cases read)
  have bySince := bound_all sinceRead lowerBound (fun since => since ≤ t.createdAt)
  have byUntil := bound_all untilRead upperBound (fun until' => t.createdAt ≤ until')
  simp only [decide_eq_true_eq] at bySince byUntil
  have byCaller : q.caller.all (fun caller => t.principalAgentId = caller) = true ↔
      ∀ v, q.caller = some v → t.principalAgentId = v := by
    cases q.caller <;> simp
  unfold TaskFilter.admits
  simp only [Bool.and_eq_true, byStatus, byPriority, byCaller, bySince, byUntil]
  constructor
  · rintro ⟨⟨⟨⟨status, priority⟩, caller⟩, since⟩, until'⟩
    exact ⟨status, priority, caller, since, until'⟩
  · rintro ⟨status, priority, caller, since, until'⟩
    exact ⟨⟨⟨⟨status, priority⟩, caller⟩, since⟩, until'⟩

theorem parseStatus_ok {q : WorkflowQuery} {status : WorkflowStatus} :
    q.parseStatus = .ok status ↔ status.value = q.status.getD "active" := by
  unfold WorkflowQuery.parseStatus parseWorkflowStatus
  cases q.status with
  | none => cases status <;> decide
  | some text =>
      rw [Option.getD_some, ← WorkflowStatus.ofValue?_eq_some]
      dsimp only
      cases WorkflowStatus.ofValue? text with
      | none => simp
      | some st => simp

theorem workflow_admits_iff {q : WorkflowQuery} {status : WorkflowStatus} (parsed : q.parseStatus = .ok status)
    (untagged : q.tag = none) (w : Workflow) : q.admits status w = true ↔ q.Selects w := by
  have named := parseStatus_ok.mp parsed
  have byStatus : w.status = status ↔ w.status.value = q.status.getD "active" := by
    rw [← named, ← WorkflowStatus.ofValue?_eq_some, WorkflowStatus.ofValue?_eq_some.mpr rfl,
      Option.some.injEq]
    exact eq_comm
  have byOwner : q.owner.all (fun owner => w.ownerAgentId = owner) = true ↔
      ∀ v, q.owner = some v → w.ownerAgentId = v := by
    cases q.owner <;> simp
  unfold WorkflowQuery.admits
  simp only [Bool.and_eq_true, decide_eq_true_eq, byStatus, byOwner]
  constructor
  · rintro ⟨status, owner⟩
    exact ⟨status, owner, by simp [untagged]⟩
  · rintro ⟨status, owner, _⟩
    exact ⟨status, owner⟩

/-- A text is no `jsonb`: the conditions are resolved where no tag is asked for. -/
theorem resolves_conditions (q : WorkflowQuery) : Sql.resolves q.conditions = q.tag.isNone := by
  unfold WorkflowQuery.conditions
  cases q.owner <;> cases q.tag <;> rfl

/-! ## Pages of a store -/

/-- A store as the database holds it: the times of creation are those of a `datetime`, the
texts are storable, and a task is one of a workflow. -/
structure Snapshot where
  store : Store
  dated : ∀ t ∈ store.tasks, DateTime.Representable t.createdAt
  taskTexts : ∀ t ∈ store.tasks, Sql.storable t.id = true ∧ Sql.storable t.principalAgentId = true
  workflowTexts : ∀ w ∈ store.workflows, Sql.storable w.id = true ∧ Sql.storable w.ownerAgentId = true
  foreign : ∀ t ∈ store.tasks, ∃ w ∈ store.workflows, w.id = t.workflowId

/-- The cursor a client asks for next: it stops where there is no more. -/
def nextPage {ρ : Type} (p : Page ρ String) : Option (Option String) :=
  if p.hasMore then some p.nextCursor else none

def tasksPage (backend : Backend) (workflowId : String) (query : TaskQuery) (limit : Nat) (s : Snapshot)
    (cursor : Option String) : Except Failure (Page Task String) :=
  ((listTasks backend workflowId query cursor limit).run Store.flush s.store).1

def workflowsPage (backend : Backend) (query : WorkflowQuery) (limit : Nat) (s : Snapshot)
    (cursor : Option String) : Except Failure (Page (Workflow × Option String) String) :=
  ((listWorkflows backend query cursor limit).run Store.flush s.store).1

section serves
variable {ρ κ : Type} [LinearOrder κ] {selected : Store → List ρ} {key : ρ → κ}
  (position : Option String → Except Failure (Option κ)) {encode : ρ → String} {limit : Nat}
  {ask : Snapshot → Option String → Except Failure (Page ρ String)} {Placed : ρ → Prop}

omit [LinearOrder κ] in
theorem nextPage_eq (positive : 1 ≤ limit) (rows : List ρ) (totalCount : Nat) :
    nextPage ⟨rows.take limit, (lastShown limit rows).map encode, limit < rows.length, totalCount⟩ =
      (lastShown limit rows).map fun x => some (encode x) := by
  unfold nextPage
  cases shown : lastShown limit rows with
  | none =>
      have few := (lastShown_eq_none positive).mp shown
      simp [few]
  | some x =>
      have left : limit < rows.length := by
        by_contra few
        rw [(lastShown_eq_none positive).mpr (not_lt.mp few)] at shown
        cases shown
      simp [left]

/-- A listing that answers with the pages of `listPage`, or refuses every cursor, and whose
cursors are read as the positions of their rows. -/
theorem listPage_serves (positive : 1 ≤ limit) (distinct : ∀ s : Snapshot, ((selected s.store).map key).Nodup)
    (placed : ∀ s : Snapshot, ∀ x ∈ selected s.store, Placed x) (first : position none = .ok none)
    (later : ∀ x, Placed x → position (some (encode x)) = .ok (some (key x)))
    (answers : ∀ s, (∃ e, ∀ cursor, ask s cursor = .error e) ∨ ∀ cursor, ask s cursor =
      ((listPage selected key (position cursor) encode limit).run Store.flush s.store).1) :
    Serves limit ask (fun o => o.map encode) nextPage Page.items key
      (fun s => ordered key (selected s.store)) Placed where
  rising s := ordered_rising (distinct s)
  placed s x member := placed s x (mem_ordered.mp member)
  shows s o p start answer := by
    rcases answers s with ⟨e, refused⟩ | served
    · cases answer.symm.trans (refused _)
    · have at' : position (o.map encode) = .ok (o.map key) := by
        cases o with
        | none => exact first
        | some x => exact later x (start x rfl)
      have rows : ordered key (afterCursor key (o.map key) (selected s.store)) =
          following key o (ordered key (selected s.store)) := by
        cases o with
        | none => rfl
        | some x => exact ordered_past (distinct s) (key x)
      rw [served, listPage_run, at', Except.map, rows] at answer
      cases answer
      exact ⟨(List.map_id _).symm, nextPage_eq positive _ _⟩
  answers s p answer x placed := by
    rcases answers s with ⟨e, refused⟩ | served
    · cases answer.symm.trans (refused _)
    · rw [served, listPage_run, Option.map_some, later x placed]
      exact ⟨_, rfl⟩

theorem mem_afterCursor {position : Option κ} {rows : List ρ} {x : ρ}
    (member : x ∈ afterCursor key position rows) : x ∈ rows := by
  cases position with
  | none => exact member
  | some k => exact (mem_past.mp member).1

theorem listPage_cursor (positive : 1 ≤ limit) {s : Store} {at' : Except Failure (Option κ)}
    {page : Page ρ String}
    (answer : ((listPage selected key at' encode limit).run Store.flush s).1 = .ok page)
    (more : page.hasMore = true) :
    ∃ last ∈ selected s, page.items.getLast? = some last ∧ page.nextCursor = some (encode last) := by
  rw [listPage_run] at answer
  cases at' with
  | error e => cases answer
  | ok position =>
      cases answer
      have left := of_decide_eq_true more
      cases shown : lastShown limit (ordered key (afterCursor key position (selected s))) with
      | none => exact absurd ((lastShown_eq_none positive).mp shown) (not_le_of_gt left)
      | some x =>
          obtain ⟨front, rest, shape, page⟩ := lastShown_eq_some shown
          have member : x ∈ ordered key (afterCursor key position (selected s)) := by
            rw [shape]
            simp
          refine ⟨x, mem_afterCursor (mem_ordered.mp member), ?_, ?_⟩
          · dsimp only
            rw [page]
            simp
          · dsimp only
            rw [shown]
            rfl

end serves

/-! ### The task list -/

section tasks
variable {backend : Backend} {workflowId : String} {query : TaskQuery} {cursor : Option String} {limit : Nat}

/-- The filters as a condition on tasks. -/
def TaskQuery.condition (backend : Backend) (q : TaskQuery) : Except Failure (Task → Bool) := do
  let filter ← q.parse
  let bounds ← filter.bounds backend
  return filter.admits bounds

theorem condition_iff {admits : Task → Bool} (read : query.condition backend = .ok admits) (t : Task) :
    admits t = true ↔ query.Selects backend t := by
  obtain ⟨filter, parsed, read⟩ := bind_eq_ok.mp read
  obtain ⟨bounds, bounded, read⟩ := bind_eq_ok.mp read
  cases read
  exact admits_iff parsed bounded t

theorem TaskQuery.Selects.condition {t : Task} (selects : query.Selects backend t)
    (storable : Sql.storable t.principalAgentId = true) : ∃ admits, query.condition backend = .ok admits := by
  have status : ∃ st, readFilter parseStatusFilter query.status = .ok st := by
    cases given : query.status with
    | none => exact ⟨_, rfl⟩
    | some v =>
        obtain rfl := selects.status v given
        simp [readFilter, parseStatusFilter, TaskStatus.ofValue?_value, Except.map]
  have priority : ∃ p, readFilter parsePriorityFilter query.priority = .ok p := by
    cases given : query.priority with
    | none => exact ⟨_, rfl⟩
    | some v =>
        have found := TaskPriority.ofValue?_eq_some.mpr (selects.priority v given)
        simp [readFilter, parsePriorityFilter, found, Except.map]
  obtain ⟨since, lower, sinceRead, sinceBound⟩ := bound_reads "since" "2026-03-07T00:00:00Z" selects.since
  obtain ⟨until', upper, untilRead, untilBound⟩ := bound_reads "until" "2026-03-07T23:59:59Z" selects.until'
  have caller : bindOptional query.caller = .ok () := by
    refine bindOptional_ok.mpr fun v given => ?_
    rw [← selects.caller v given]
    exact storable
  obtain ⟨status, statusRead⟩ := status
  obtain ⟨priority, priorityRead⟩ := priority
  simp only [TaskQuery.condition, TaskQuery.parse, TaskFilter.bounds, parseSince, parseUntil, statusRead,
    priorityRead, sinceRead, untilRead, sinceBound, untilBound, caller, bind, Except.bind, pure, Except.pure]
  exact ⟨_, rfl⟩

theorem listTasks_run (s : Store) :
    (listTasks backend workflowId query cursor limit).run Store.flush s =
      match (getWorkflowOr404 workflowId).run Store.flush s, query.condition backend with
      | (.error e, s'), _ => (.error e, s')
      | (.ok _, s'), .error e => (.error e, s')
      | (.ok _, s'), .ok admits =>
          (listPage (selectTasks workflowId admits) (fun t => taskKey backend t.createdAt t.id)
            (taskPosition backend cursor) (fun t => encodeTaskCursor t.id t.createdAt) limit).run
              Store.flush s' := by
  unfold listTasks TaskQuery.condition
  rw [Prog.run_bind]
  rcases (getWorkflowOr404 workflowId).run Store.flush s with ⟨found, s'⟩
  cases found with
  | error e => rfl
  | ok w =>
      dsimp only
      rw [Prog.run_bind]
      cases query.parse with
      | error e => rfl
      | ok filter =>
          simp only [Db.ofExcept, Prog.run, bind, Except.bind]
          cases filter.bounds backend with
          | error e => rfl
          | ok bounds => rfl

theorem getWorkflowOr404_run (workflowId : String) (s : Store) :
    (∃ w, s.workflows.find? workflowId = some w ∧
        (getWorkflowOr404 workflowId).run Store.flush s = (.ok w, s)) ∨
      s.workflows.find? workflowId = none ∧
        ∃ e, (getWorkflowOr404 workflowId).run Store.flush s = (.error e, s) := by
  unfold getWorkflowOr404 Db.fetch
  simp only [Prog.run]
  cases found : s.workflows.find? workflowId with
  | none => exact .inr ⟨rfl, _, rfl⟩
  | some w => exact .inl ⟨w, rfl, rfl⟩

theorem selectTasks_distinct (admits : Task → Bool) (s : Snapshot) :
    ((selectTasks workflowId admits s.store).map fun t => taskKey backend t.createdAt t.id).Nodup := by
  have ids : ((selectTasks workflowId admits s.store).map Task.id).Nodup :=
    s.store.tasks.nodup.sublist (List.filter_sublist.map Task.id)
  rw [List.nodup_map_iff_inj_on (List.Nodup.of_map _ ids)]
  intro a ha b hb same
  have keys : backend.collation.key a.id = backend.collation.key b.id :=
    congrArg (fun k => (ofLex (OrderDual.ofDual k)).2) same
  exact List.inj_on_of_nodup_map ids ha hb (backend.collation.injective keys)

theorem taskPosition_encode {t : Task} (dated : DateTime.Representable t.createdAt)
    (storable : Sql.storable t.id = true) : taskPosition backend (some (encodeTaskCursor t.id t.createdAt)) =
      .ok (some (taskKey backend t.createdAt t.id)) := by
  have instant : instantOf backend.sessionZone ⟨t.createdAt, some 0⟩ = .ok t.createdAt := by
    unfold instantOf
    dsimp only
    rw [Int.sub_zero, if_pos dated]
  simp only [taskPosition, decodeTaskCursor_encode backend t.id dated, bind, Except.bind, instant, bindText,
    storable, if_true, pure, Except.pure]

variable (limit) in
theorem tasksPage_answers (s : Snapshot) :
    ((s.store.workflows.find? workflowId = none ∨ ∃ e, query.condition backend = .error e) ∧
        ∃ e, ∀ cursor, tasksPage backend workflowId query limit s cursor = .error e) ∨
      ∃ admits, query.condition backend = .ok admits ∧ ∀ cursor,
        tasksPage backend workflowId query limit s cursor =
          ((listPage (selectTasks workflowId admits) (fun t => taskKey backend t.createdAt t.id)
            (taskPosition backend cursor) (fun t => encodeTaskCursor t.id t.createdAt) limit).run
              Store.flush s.store).1 := by
  rcases getWorkflowOr404_run workflowId s.store with ⟨w, _, found⟩ | ⟨unknown, e, missing⟩
  · cases read : query.condition backend with
    | error e =>
        exact .inl ⟨.inr ⟨e, rfl⟩, e, fun cursor => by rw [tasksPage, listTasks_run, found, read]⟩
    | ok admits => exact .inr ⟨admits, rfl, fun cursor => by rw [tasksPage, listTasks_run, found, read]⟩
  · exact .inl ⟨.inl unknown, e, fun cursor => by rw [tasksPage, listTasks_run, missing]⟩

theorem tasksPage_exact (positive : 1 ≤ limit) :
    Exact (tasksPage backend workflowId query limit) none nextPage Page.items
      (fun t => taskKey backend t.createdAt t.id)
      (fun s t => t ∈ s.store.tasks ∧ t.workflowId = workflowId ∧ query.Selects backend t) := by
  cases read : query.condition backend with
  | error e =>
      apply Exact.of_error
      intro s
      rcases tasksPage_answers limit s with ⟨_, e', refused⟩ | ⟨admits, read', _⟩
      · exact ⟨e', refused none⟩
      · cases read.symm.trans read'
  | ok admits =>
      have serves : Serves limit (tasksPage backend workflowId query limit)
          (fun o => o.map fun t => encodeTaskCursor t.id t.createdAt) nextPage Page.items
          (fun t => taskKey backend t.createdAt t.id)
          (fun s => ordered (fun t => taskKey backend t.createdAt t.id) (selectTasks workflowId admits s.store))
          (fun t => DateTime.Representable t.createdAt ∧ Sql.storable t.id = true) := by
        apply listPage_serves (taskPosition backend) positive
        · exact selectTasks_distinct admits
        · intro s t member
          have stored : t ∈ s.store.tasks := List.mem_of_mem_filter member
          exact ⟨s.dated t stored, (s.taskTexts t stored).1⟩
        · rfl
        · rintro t ⟨dated, storable⟩
          exact taskPosition_encode dated storable
        · intro s
          rcases tasksPage_answers limit s with ⟨_, refused⟩ | ⟨admits', read', served⟩
          · exact .inl refused
          · cases read.symm.trans read'
            exact .inr served
      apply (serves.toExact positive).congr
      intro s t
      rw [mem_ordered, selectTasks, List.mem_filter, Bool.and_eq_true, decide_eq_true_eq,
        condition_iff read, Table.mem_rows]

variable (limit) in
theorem tasksPage_answered {s : Snapshot} {t : Task} (stored : t ∈ s.store.tasks)
    (inside : t.workflowId = workflowId) (selects : query.Selects backend t) :
    ∃ page, tasksPage backend workflowId query limit s none = .ok page := by
  obtain ⟨w, member, named⟩ := s.foreign t stored
  rcases tasksPage_answers limit s with ⟨unknown | ⟨e, unread⟩, _⟩ | ⟨admits, _, served⟩
  · exact absurd (named.trans inside) (Table.find?_eq_none.mp unknown w member)
  · obtain ⟨admits, read⟩ := selects.condition (s.taskTexts t stored).2
    cases unread.symm.trans read
  · rw [served, listPage_run]
    exact ⟨_, rfl⟩

theorem tasksPage_cursor {s : Snapshot} {page : Page Task String} (positive : 1 ≤ limit)
    (answer : tasksPage backend workflowId query limit s cursor = .ok page) (more : page.hasMore = true) :
    ∃ last c, page.items.getLast? = some last ∧ page.nextCursor = some c ∧
      decodeTaskCursor backend c = .ok (last.id, ⟨last.createdAt, some 0⟩) := by
  rcases tasksPage_answers limit s with ⟨_, e, refused⟩ | ⟨admits, _, served⟩
  · cases answer.symm.trans (refused cursor)
  · obtain ⟨last, member, shown, next⟩ := listPage_cursor positive ((served cursor).symm.trans answer) more
    exact ⟨last, _, shown, next,
      decodeTaskCursor_encode backend _ (s.dated last (List.mem_of_mem_filter member))⟩

end tasks

/-! ### The workflow list -/

section workflows
variable {backend : Backend} {query : WorkflowQuery} {cursor : Option String} {limit : Nat}

/-- The filters as a condition on workflows: where a tag is asked for, the statement raises. -/
def WorkflowQuery.condition (q : WorkflowQuery) : Except Failure (Workflow → Bool) := do
  let status ← q.parseStatus
  if q.tag.isNone then
    bindOptional q.owner
    return q.admits status
  else .error (.db .undefinedOperator)

theorem workflow_condition_ok {admits : Workflow → Bool} :
    query.condition = .ok admits ↔ ∃ status, query.parseStatus = .ok status ∧ query.tag = none ∧
      bindOptional query.owner = .ok () ∧ admits = query.admits status := by
  unfold WorkflowQuery.condition
  rw [bind_eq_ok]
  apply exists_congr
  intro status
  cases query.tag with
  | some tag => simp
  | none => cases bindOptional query.owner <;> simp [bind, Except.bind, pure, Except.pure, eq_comm]

theorem workflow_condition_iff {admits : Workflow → Bool} (read : query.condition = .ok admits) (w : Workflow) :
    admits w = true ↔ query.Selects w := by
  obtain ⟨status, parsed, untagged, _, rfl⟩ := workflow_condition_ok.mp read
  exact workflow_admits_iff parsed untagged w

theorem WorkflowQuery.Selects.condition {w : Workflow} (selects : query.Selects w) (untagged : query.tag = none)
    (storable : Sql.storable w.ownerAgentId = true) : ∃ admits, query.condition = .ok admits := by
  refine ⟨_, workflow_condition_ok.mpr ⟨_, parseStatus_ok.mpr selects.status, untagged, ?_, rfl⟩⟩
  refine bindOptional_ok.mpr fun v given => ?_
  rw [← selects.owner v given]
  exact storable

theorem listWorkflows_run (s : Store) :
    (listWorkflows backend query cursor limit).run Store.flush s =
      match query.condition with
      | .error e => (.error e, s)
      | .ok admits =>
          (listPage (selectWorkflows admits) (fun row => backend.collation.key row.1.id)
            (workflowPosition backend cursor) (fun row => encodeCursor row.1.id) limit).run Store.flush s := by
  unfold listWorkflows WorkflowQuery.condition
  rw [Prog.run_bind]
  cases query.parseStatus with
  | error e => rfl
  | ok status =>
      simp only [Db.ofExcept, Prog.run, Db.under, resolves_conditions, bind, Except.bind]
      split
      · cases bindOptional query.owner with
        | error e => rfl
        | ok u => rfl
      · rfl

theorem selectWorkflows_distinct (admits : Workflow → Bool) (s : Store) :
    ((selectWorkflows admits s).map fun row => backend.collation.key row.1.id).Nodup := by
  have ids : ((s.workflows.rows.filter admits).map Workflow.id).Nodup :=
    s.workflows.nodup.sublist (List.filter_sublist.map Workflow.id)
  have keys := ids.map backend.collation.injective
  rw [List.map_map] at keys
  rw [selectWorkflows, List.map_map]
  exact keys

theorem workflowPosition_encode {workflowId : String} (storable : Sql.storable workflowId = true) :
    workflowPosition backend (some (encodeCursor workflowId)) = .ok (some (backend.collation.key workflowId)) := by
  simp only [workflowPosition, decodeCursor_encode, bind, Except.bind, bindText, storable, if_true, pure,
    Except.pure]

theorem mem_selectWorkflows {admits : Workflow → Bool} {s : Store} {row : Workflow × Option String} :
    row ∈ selectWorkflows admits s ↔
      row.1 ∈ s.workflows ∧ admits row.1 = true ∧ row = withOwnerStatus s row.1 := by
  rw [selectWorkflows, List.mem_map]
  constructor
  · rintro ⟨w, member, rfl⟩
    obtain ⟨inside, admitted⟩ := List.mem_filter.mp member
    exact ⟨inside, admitted, rfl⟩
  · rintro ⟨inside, admitted, same⟩
    exact ⟨row.1, List.mem_filter.mpr ⟨inside, admitted⟩, same.symm⟩

theorem workflowsPage_exact (positive : 1 ≤ limit) :
    Exact (workflowsPage backend query limit) none nextPage Page.items
      (fun row => backend.collation.key row.1.id)
      (fun s row => row.1 ∈ s.store.workflows ∧ query.Selects row.1 ∧ row = withOwnerStatus s.store row.1) := by
  cases read : query.condition with
  | error e =>
      apply Exact.of_error
      intro s
      exact ⟨e, by rw [workflowsPage, listWorkflows_run, read]⟩
  | ok admits =>
      have serves : Serves limit (workflowsPage backend query limit)
          (fun o => o.map fun row => encodeCursor row.1.id) nextPage Page.items
          (fun row => backend.collation.key row.1.id)
          (fun s => ordered (fun row => backend.collation.key row.1.id) (selectWorkflows admits s.store))
          (fun row => Sql.storable row.1.id = true) := by
        apply listPage_serves (workflowPosition backend) positive
        · exact fun s => selectWorkflows_distinct _ s.store
        · intro s row member
          exact (s.workflowTexts row.1 (mem_selectWorkflows.mp member).1).1
        · rfl
        · exact fun row storable => workflowPosition_encode storable
        · intro s
          exact .inr fun cursor => by rw [workflowsPage, listWorkflows_run, read]
      apply (serves.toExact positive).congr
      intro s row
      rw [mem_ordered, mem_selectWorkflows, workflow_condition_iff read]

variable (backend limit) in
theorem workflowsPage_answered {s : Snapshot} {w : Workflow} (stored : w ∈ s.store.workflows)
    (selects : query.Selects w) (untagged : query.tag = none) :
    ∃ page, workflowsPage backend query limit s none = .ok page := by
  obtain ⟨admits, read⟩ := selects.condition untagged (s.workflowTexts w stored).2
  rw [workflowsPage, listWorkflows_run, read]
  dsimp only
  rw [listPage_run]
  exact ⟨_, rfl⟩

theorem workflowsPage_cursor {s : Snapshot} {page : Page (Workflow × Option String) String}
    (positive : 1 ≤ limit) (answer : workflowsPage backend query limit s cursor = .ok page)
    (more : page.hasMore = true) :
    ∃ last c, page.items.getLast? = some last ∧ page.nextCursor = some c ∧
      decodeCursor backend c = .ok last.1.id := by
  rw [workflowsPage, listWorkflows_run] at answer
  cases read : query.condition with
  | error e =>
      rw [read] at answer
      cases answer
  | ok admits =>
      rw [read] at answer
      obtain ⟨last, _, shown, next⟩ := listPage_cursor positive answer more
      exact ⟨last, _, shown, next, decodeCursor_encode backend _⟩

end workflows

/-! ## Exact pagination -/

/-- A walk along the cursors gives each listed row once and in order, also while rows are
added; it starts wherever there is a listed row; and a cursor is read as the position it was
made from. -/
structure Paginates {ρ κ : Type} [LinearOrder κ] (ask : Snapshot → Option String → Except Failure (Page ρ String))
    (key : ρ → κ) (Lists : Snapshot → ρ → Prop) (Reads : String → ρ → Prop) : Prop where
  walks : Exact ask none nextPage Page.items key Lists
  starts : ∀ s r, Lists s r → ∃ page, ask s none = .ok page
  cursors : ∀ s cursor page, ask s cursor = .ok page → page.hasMore = true →
    ∃ last c, page.items.getLast? = some last ∧ page.nextCursor = some c ∧ Reads c last

def TasksPaginate (backend : Backend) (limit : Nat) (workflowId : String) (query : TaskQuery) : Prop :=
  Paginates (tasksPage backend workflowId query limit) (fun t => taskKey backend t.createdAt t.id)
    (fun s t => t ∈ s.store.tasks ∧ t.workflowId = workflowId ∧ query.Selects backend t)
    (fun c last => decodeTaskCursor backend c = .ok (last.id, ⟨last.createdAt, some 0⟩))

def WorkflowsPaginate (backend : Backend) (limit : Nat) (query : WorkflowQuery) : Prop :=
  Paginates (workflowsPage backend query limit) (fun row => backend.collation.key row.1.id)
    (fun s row => row.1 ∈ s.store.workflows ∧ query.Selects row.1 ∧ row = withOwnerStatus s.store row.1)
    (fun c last => decodeCursor backend c = .ok last.1.id)

/-- The other filters leave nothing to list: the status is none, or no owner has such a name. -/
def WorkflowQuery.selectsNone (q : WorkflowQuery) : Bool :=
  !q.parseStatus.toOption.isSome || q.owner.any fun owner => !Sql.storable owner

theorem Selects.not_selectsNone {query : WorkflowQuery} {w : Workflow} (selects : query.Selects w)
    (storable : Sql.storable w.ownerAgentId = true) : query.selectsNone = false := by
  rw [WorkflowQuery.selectsNone, parseStatus_ok.mpr selects.status]
  cases given : query.owner with
  | none => rfl
  | some owner => simp [Except.toOption, ← selects.owner owner given, storable]

theorem condition_of_listed {query : WorkflowQuery} {status : WorkflowStatus}
    (parsed : query.parseStatus = .ok status) (listed : query.selectsNone = false) : query.condition =
      if query.tag.isNone then .ok (query.admits status) else .error (.db .undefinedOperator) := by
  have bound : bindOptional query.owner = .ok () := by
    refine bindOptional_ok.mpr fun owner given => ?_
    simpa [WorkflowQuery.selectsNone, parsed, given, Except.toOption] using listed
  simp only [WorkflowQuery.condition, parsed, bound, bind, Except.bind, pure, Except.pure]

def selectedBy (query : WorkflowQuery) (status : WorkflowStatus) : Workflow where
  id := "wf"
  name := ""
  ownerAgentId := query.owner.getD ""
  description := none
  inputSchema := none
  outputSchema := none
  estimatedDurationSeconds := none
  timeoutSeconds := none
  resultRetentionDays := 30
  status := status
  tags := some query.tag.toList
  createdAt := 0
  updatedAt := none

theorem selectedBy_selects {query : WorkflowQuery} {status : WorkflowStatus}
    (parsed : query.parseStatus = .ok status) : query.Selects (selectedBy query status) where
  status := parseStatus_ok.mp parsed
  owner v given := by simp [selectedBy, given]
  tag v given := ⟨_, rfl, by simp [given]⟩

def Snapshot.ofWorkflow (w : Workflow) (storable : Sql.storable w.id = true ∧ Sql.storable w.ownerAgentId = true) :
    Snapshot where
  store := {
    agents := .empty
    workflows := ⟨[w], List.nodup_singleton _⟩
    tasks := .empty
    events := .empty }
  dated _ member := absurd member List.not_mem_nil
  taskTexts _ member := absurd member List.not_mem_nil
  workflowTexts _ member := List.mem_singleton.mp member ▸ storable
  foreign _ member := absurd member List.not_mem_nil

theorem untagged_of_starts {backend : Backend} {limit : Nat} {query : WorkflowQuery}
    (paginates : WorkflowsPaginate backend limit query) (listed : query.selectsNone = false) :
    query.tag = none := by
  cases parsed : query.parseStatus with
  | error e => simp [WorkflowQuery.selectsNone, parsed, Except.toOption] at listed
  | ok status =>
      have storable : Sql.storable (query.owner.getD "") = true := by
        cases given : query.owner with
        | none => rfl
        | some owner => simpa [WorkflowQuery.selectsNone, parsed, given, Except.toOption] using listed
      have named : Sql.storable "wf" = true := by decide
      let s := Snapshot.ofWorkflow (selectedBy query status) ⟨named, storable⟩
      obtain ⟨page, answer⟩ := paginates.starts s (withOwnerStatus s.store (selectedBy query status))
        ⟨List.mem_singleton_self _, selectedBy_selects parsed, rfl⟩
      rw [workflowsPage, listWorkflows_run, condition_of_listed parsed listed] at answer
      cases tag : query.tag with
      | none => rfl
      | some tag' =>
          rw [tag] at answer
          cases answer

/-- The task list paginates for all filters, and the workflow list for those without a tag. -/
theorem listings_exact (backend : Backend) (limit : Nat) (positive : 1 ≤ limit) :
    (∀ workflowId query, TasksPaginate backend limit workflowId query) ∧
      ∀ query, WorkflowsPaginate backend limit query ↔ query.tag = none ∨ query.selectsNone = true := by
  refine ⟨fun workflowId query => ⟨tasksPage_exact positive, ?_, fun s cursor page answer more => ?_⟩,
    fun query => ⟨fun paginates => ?_, fun condition => ⟨workflowsPage_exact positive, ?_,
      fun s cursor page answer more => ?_⟩⟩⟩
  · rintro s t ⟨stored, inside, selects⟩
    exact tasksPage_answered limit stored inside selects
  · exact tasksPage_cursor positive answer more
  · cases none : query.selectsNone with
    | true => exact .inr rfl
    | false => exact .inl (untagged_of_starts paginates none)
  · rintro s row ⟨stored, selects, _⟩
    rcases condition with untagged | none
    · exact workflowsPage_answered backend limit stored selects untagged
    · rw [Selects.not_selectsNone selects (s.workflowTexts row.1 stored).2] at none
      cases none
  · exact workflowsPage_cursor positive answer more

/-! ### Three tasks of one instant -/

namespace Demo

def backend : Backend where
  collation := ⟨String, inferInstance, id, fun _ _ same => same⟩
  processZone wall := some wall
  sessionZone wall := some wall
  repr _ := ""

def row (id : String) (status : TaskStatus) : Task where
  id := id
  workflowId := "wf"
  principalAgentId := "principal"
  executorAgentId := some "executor"
  status := status
  input := []
  result := .null
  priority := .normal
  timeoutSeconds := none
  parentTaskId := none
  rootTaskId := none
  lineageDepth := 0
  delegationDepth := 0
  callbackUrl := none
  idempotencyKey := none
  createdAt := 0
  startedAt := none
  completedAt := none
  pausedAt := none
  metadata := none

def listed : Snapshot where
  store := { store with
    tasks := ⟨[row "task-a" .running, row "task-b" .accepted, row "task-c" .running], by decide⟩ }
  dated := by decide
  taskTexts := by decide
  workflowTexts := by decide
  foreign := by decide

def tagged : Snapshot := .ofWorkflow { workflow with tags := some ["simulation"] } (by decide)

end Demo

theorem listings_exact_three :
    ∃ pages, Walk (fun _ => tasksPage Demo.backend "wf" {} 2 Demo.listed) nextPage 0 none pages ∧
      ∀ t, t ∈ pages.flatMap Page.items ↔
        t ∈ Demo.listed.store.tasks ∧ t.workflowId = "wf" ∧ TaskQuery.Selects Demo.backend {} t := by
  have tasks := ((listings_exact Demo.backend 2 (by decide)).1 "wf" {}).walks
  obtain ⟨pages, walk, _, all⟩ := tasks.whole Demo.listed _ rfl
  exact ⟨pages, walk, all⟩

/-- The workflow has the tag, and the list of those that have it raises. -/
theorem tagged_not_listed :
    workflowsPage Demo.backend { tag := some "simulation" } 20 Demo.tagged none =
        .error (.db .undefinedOperator) ∧
      ¬ WorkflowsPaginate Demo.backend 20 { tag := some "simulation" } := by
  refine ⟨rfl, fun paginates => ?_⟩
  obtain ⟨page, answer⟩ := paginates.starts Demo.tagged
    (withOwnerStatus Demo.tagged.store { Demo.workflow with tags := some ["simulation"] })
    ⟨List.mem_singleton_self _, ⟨rfl, by simp, fun v given => ⟨_, rfl, by simpa using given.symm⟩⟩, rfl⟩
  cases answer

end Fleet.Api
