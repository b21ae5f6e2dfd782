/- What a client gets that follows the `next` links of a filtered listing. -/
import Fleet.Api.ListLinks

namespace Fleet.Api
open Fleet.Lib Fleet.Lib.Paging

/-- Requesting the first page and then each next link ends, and the rows of all responses
are those that `Lists` says, each once. -/
def Enumerates (fw : Framework) (env : Env) (backend : Backend) (s : Store) (first : ListCall)
    (Lists : Json → Prop) : Prop :=
  ∃ responses, Walk (fun _ => answer env backend s) (nextCall fw) 0 (some first) responses ∧
    (responses.flatMap entries).Nodup ∧ ∀ e, e ∈ responses.flatMap entries ↔ Lists e

theorem Enumerates.congr {fw : Framework} {env : Env} {backend : Backend} {s : Store} {first : ListCall}
    {Lists Lists' : Json → Prop} (same : ∀ e, Lists e ↔ Lists' e) :
    Enumerates fw env backend s first Lists ↔ Enumerates fw env backend s first Lists' := by
  have equal : Lists = Lists' := by
    ext e
    exact same e
  rw [equal]

/-! ## Responses -/

section links
variable {fw : Framework} {env : Env} {limit : PageLimit} {ρ : Type}

theorem nextHref?_page {response : Dict} (links : Dict) {base : String} {page : Page ρ String}
    (shown : Dict.get? response "_links" = some (.obj (links ++ nextLink base page limit)))
    (others : Dict.get? links "next" = none) : nextHref? response = nextTarget base page limit := by
  have next : Dict.get? (links ++ nextLink base page limit) "next" =
      (nextTarget base page limit).map hrefTo := by
    rw [Dict.get?_append, others, Option.none_or, nextLink]
    cases nextTarget base page limit with
    | none => rfl
    | some target => rfl
  unfold nextHref?
  rw [shown]
  change (Dict.get? (links ++ nextLink base page limit) "next").bind (fun next =>
    (field? "href" next).bind Json.str?) = _
  rw [next]
  cases nextTarget base page limit with
  | none => rfl
  | some target => rfl

theorem nextCall_taskList (workflowId : String) (query : TaskQuery) (page : Page Task String) :
    nextCall fw (taskListResponse env workflowId query limit page) =
      (nextTarget (tasksPath workflowId) page limit).map fun href => listCall? fw (follow fw href) := by
  have href : nextHref? (taskListResponse env workflowId query limit page) =
      nextTarget (tasksPath workflowId) page limit :=
    nextHref?_page [("self", hrefTo (selfHref (tasksPath workflowId) query limit)),
      ("workflow", hrefTo ("/workflows/" ++ workflowId))] rfl rfl
  rw [nextCall, href]

theorem nextCall_workflowList (page : Page (Workflow × Option String) String) :
    nextCall fw (workflowListResponse env limit page) =
      (nextTarget "/workflows" page limit).map fun href => listCall? fw (follow fw href) := by
  have href : nextHref? (workflowListResponse env limit page) = nextTarget "/workflows" page limit :=
    nextHref?_page workflowLinks rfl rfl
  rw [nextCall, href]

theorem nextTarget_page {base : String} {encode : ρ → String} {rows : List ρ} {more : Bool} {total : Nat}
    {call : ρ → ListCall} (shown : ∀ x ∈ rows, encode x ≠ "")
    (followed : ∀ x ∈ rows, listCall? fw (follow fw (linkTo base (encode x) limit)) = some (call x)) :
    (nextTarget base ⟨rows.take limit.size, (lastShown limit.size rows).map encode, more, total⟩ limit).map
        (fun href => listCall? fw (follow fw href)) =
      (lastShown limit.size rows).map fun x => some (call x) := by
  cases last : lastShown limit.size rows with
  | none => rfl
  | some x =>
      obtain ⟨front, rest, shape, _⟩ := lastShown_eq_some last
      have member : x ∈ rows := by
        rw [shape]
        simp
      unfold nextTarget
      simp only [Option.map_some, Option.filter_some, shown x member, ne_eq, not_false_eq_true, decide_true,
        if_true, Option.some.injEq]
      exact followed x member

end links

/-! ## The rows of the responses -/

section enumerates
variable {fw : Framework} {env : Env} {backend : Backend} {s : Store} {limit : PageLimit} {ρ κ : Type}
  [LinearOrder κ] {key : ρ → κ} {first : ListCall} {request : ρ → Option ListCall} {render : ρ → Json}
  {filtered listed : List ρ}

variable (request) in
/-- Where the first response shows the filtered rows and the links lead through the listed
ones. -/
theorem enumerates_iff (distinct : (filtered.map key).Nodup) (distinct' : (listed.map key).Nodup)
    (apart : Set.InjOn render {r | r ∈ filtered ++ listed})
    (start : ∃ d, answer env backend s (some first) = .ok d ∧
      Shows limit.size request (nextCall fw) entries render d (ordered key filtered))
    (later : ∀ x ∈ filtered ++ listed, ∃ d, answer env backend s (request x) = .ok d ∧
      Shows limit.size request (nextCall fw) entries render d (ordered key (past key (key x) listed))) :
    Enumerates fw env backend s first (fun e => ∃ r ∈ filtered, e = render r) ↔
      Paging.Continues key limit.size filtered listed := by
  have rising := ordered_rising distinct
  have rising' := ordered_rising distinct'
  have inside : ∀ x ∈ ordered key filtered ++ ordered key listed, x ∈ filtered ++ listed :=
    ((ordered_perm filtered).append (ordered_perm listed)).subset
  obtain ⟨d, answered, shows⟩ := start
  have walked : ∃ responses, Walk (fun _ => answer env backend s) (nextCall fw) 0 (some first) responses ∧
      responses.flatMap entries =
        (enumerated key limit.size (ordered key filtered) (ordered key listed)).map render := by
    apply walk_start limit.least rising' inside answered shows
    intro _ _ x placed
    obtain ⟨d, answered, shows⟩ := later x placed
    rw [ordered_past distinct'] at shows
    exact ⟨d, answered, shows⟩
  obtain ⟨responses, walk, entered⟩ := walked
  have only : Enumerates fw env backend s first (fun e => ∃ r ∈ filtered, e = render r) ↔
      (responses.flatMap entries).Nodup ∧
        ∀ e, e ∈ responses.flatMap entries ↔ ∃ r ∈ filtered, e = render r := by
    constructor
    · rintro ⟨responses', walk', exactly⟩
      exact walk.unique walk' ▸ exactly
    · intro exactly
      exact ⟨responses, walk, exactly⟩
  have shown : ∀ r ∈ enumerated key limit.size (ordered key filtered) (ordered key listed) ++ filtered,
      r ∈ filtered ++ listed := by
    intro r member
    rcases List.mem_append.mp member with walked | wanted
    · exact inside r (mem_enumerated walked)
    · exact List.mem_append_left _ wanted
  have same : Paging.Continues key limit.size (ordered key filtered) (ordered key listed) ↔
      Paging.Continues key limit.size filtered listed :=
    continues_perm (ordered_perm filtered) (ordered_perm listed)
  rw [only, entered, map_exact_iff (apart.mono shown), ← same, ← enumerated_iff limit.least rising rising']
  simp only [mem_ordered]

end enumerates

/-! ### Tasks -/

section tasks
variable {fw : Framework} {env : Env} {backend : Backend} {s : Catalogued} {workflowId : String}
  {limit : PageLimit}

def callAfterTask (workflowId : String) (limit : PageLimit) (t : Task) : Option ListCall :=
  some (.tasks workflowId {} limit (some (encodeTaskCursor t.id t.createdAt)))

def taskEntry (env : Env) (t : Task) : Json := .obj (taskToSummaryResponse env t)

theorem answer_tasks (query : TaskQuery) (cursor : Option String) :
    answer env backend s.store (some (.tasks workflowId query limit cursor)) =
      match tasksPage backend workflowId query limit.size s.toSnapshot cursor with
      | .ok page => .ok (taskListResponse env workflowId query limit page)
      | .error e => .error (some e) := by
  unfold answer ListCall.handler listTasksEndpoint tasksPage
  dsimp only
  rw [Prog.run_bind]
  rcases (listTasks backend workflowId query cursor limit.size).run Store.flush s.store with ⟨r, s'⟩
  cases r with
  | error e => rfl
  | ok page => rfl

theorem tasks_shows {w : Workflow} (known : s.store.workflows.find? workflowId = some w)
    {query : TaskQuery} {admits : Task → Bool} (read : query.condition backend = .ok admits)
    {cursor : Option String} {position : Option (Time ×ₗ backend.collation.Key)ᵒᵈ}
    (at' : taskPosition backend cursor = .ok position) :
    ∃ d, answer env backend s.store (some (.tasks workflowId query limit cursor)) = .ok d ∧
      Shows limit.size (callAfterTask workflowId limit) (nextCall fw) entries (taskEntry env) d
        (ordered (fun t => taskKey backend t.createdAt t.id)
          (afterCursor (fun t => taskKey backend t.createdAt t.id) position
            (selectTasks workflowId admits s.store))) := by
  rcases tasksPage_answers limit.size s.toSnapshot with ⟨refusal, _⟩ | ⟨admits', read', served⟩
  · rcases refusal with unknown | ⟨e, unread⟩
    · cases known.symm.trans unknown
    · cases read.symm.trans unread
  · cases read.symm.trans read'
    obtain ⟨member, rfl⟩ := Table.find?_eq_some.mp known
    have named : PlainId w.id := s.workflowIds w member
    rw [answer_tasks, served, listPage_run, at']
    refine ⟨_, rfl, rfl, ?_⟩
    rw [nextCall_taskList]
    apply nextTarget_page
    · intro t _
      exact Json.encode_record_ne_empty [("id", t.id), ("created_at", DateTime.isoformat t.createdAt)]
    · intro t inside
      have stored := List.mem_of_mem_filter (mem_afterCursor (mem_ordered.mp inside))
      exact listCall?_tasks fw named (encodeTaskCursor_unmarked (s.taskIds t stored) _) limit

theorem taskEntry_injOn (tasks : List Task) (stored : ∀ t ∈ tasks, t ∈ s.store.tasks) :
    Set.InjOn (taskEntry env) {t | t ∈ tasks} := by
  intro a first b second same
  have ids : Dict.get? (taskToSummaryResponse env a) "task_id" =
      Dict.get? (taskToSummaryResponse env b) "task_id" :=
    congrArg (fun d => Dict.get? d "task_id") (Json.obj.inj same)
  simp only [taskToSummaryResponse, List.cons_append, Dict.get?_cons, if_true, Option.some.injEq,
    Json.str.injEq] at ids
  exact Table.eq_of_key (stored a first) (stored b second) ids

/-- Following the links of a filtered task list gives the tasks that the filters select
exactly where all fit on one page, or each task of the workflow that stands behind as many
selected ones as a page takes is itself selected. -/
theorem tasks_enumerated {w : Workflow} (known : s.store.workflows.find? workflowId = some w)
    {query : TaskQuery} {admits : Task → Bool} (read : query.condition backend = .ok admits) :
    Enumerates fw env backend s.store (.tasks workflowId query limit none)
        (fun e => ∃ t ∈ selectTasks workflowId admits s.store, e = taskEntry env t) ↔
      Paging.Continues (fun t => taskKey backend t.createdAt t.id) limit.size
        (selectTasks workflowId admits s.store) (selectTasks workflowId (fun _ => true) s.store) := by
  have stored : ∀ t ∈ selectTasks workflowId admits s.store ++ selectTasks workflowId (fun _ => true) s.store,
      t ∈ s.store.tasks := by
    intro t member
    rcases List.mem_append.mp member with selected | all
    · exact List.mem_of_mem_filter selected
    · exact List.mem_of_mem_filter all
  have unfiltered : TaskQuery.condition backend {} = .ok (fun _ => true) := rfl
  apply enumerates_iff (callAfterTask workflowId limit)
  · exact selectTasks_distinct admits s.toSnapshot
  · exact selectTasks_distinct (fun _ => true) s.toSnapshot
  · exact taskEntry_injOn _ stored
  · exact tasks_shows known read (show taskPosition backend none = .ok none from rfl)
  · intro t member
    have inside := stored t member
    exact tasks_shows known unfiltered (taskPosition_encode (s.dated t inside) (s.taskTexts t inside).1)

theorem tasks_selected {s : Store} {query : TaskQuery} {admits : Task → Bool}
    (read : query.condition backend = .ok admits) {first : ListCall} :
    Enumerates fw env backend s first (fun e => ∃ t ∈ selectTasks workflowId admits s, e = taskEntry env t) ↔
      Enumerates fw env backend s first (fun e => ∃ t ∈ s.tasks, t.workflowId = workflowId ∧
        query.Selects backend t ∧ e = taskEntry env t) := by
  apply Enumerates.congr
  intro e
  apply exists_congr
  intro t
  rw [selectTasks, List.mem_filter, Bool.and_eq_true, decide_eq_true_eq, condition_iff read, Table.mem_rows,
    and_assoc, and_assoc]

end tasks

/-! ### Workflows -/

section workflows
variable {fw : Framework} {env : Env} {backend : Backend} {s : Catalogued} {limit : PageLimit}

def callAfterWorkflow (limit : PageLimit) (row : Workflow × Option String) : Option ListCall :=
  some (.workflows {} limit (some (encodeCursor row.1.id)))

def workflowEntry (env : Env) (row : Workflow × Option String) : Json := .obj (workflowToResponse env row)

theorem answer_workflows (query : WorkflowQuery) (cursor : Option String) :
    answer env backend s.store (some (.workflows query limit cursor)) =
      match workflowsPage backend query limit.size s.toSnapshot cursor with
      | .ok page => .ok (workflowListResponse env limit page)
      | .error e => .error (some e) := by
  unfold answer ListCall.handler listWorkflowsEndpoint workflowsPage
  dsimp only
  rw [Prog.run_bind]
  rcases (listWorkflows backend query cursor limit.size).run Store.flush s.store with ⟨r, s'⟩
  cases r with
  | error e => rfl
  | ok page => rfl

theorem workflows_shows {query : WorkflowQuery} {admits : Workflow → Bool}
    (read : query.condition = .ok admits) {cursor : Option String}
    {position : Option backend.collation.Key} (at' : workflowPosition backend cursor = .ok position) :
    ∃ d, answer env backend s.store (some (.workflows query limit cursor)) = .ok d ∧
      Shows limit.size (callAfterWorkflow limit) (nextCall fw) entries (workflowEntry env) d
        (ordered (fun row => backend.collation.key row.1.id)
          (afterCursor (fun row => backend.collation.key row.1.id) position
            (selectWorkflows admits s.store))) := by
  rw [answer_workflows, workflowsPage, listWorkflows_run, read]
  dsimp only
  rw [listPage_run, at']
  refine ⟨_, rfl, rfl, ?_⟩
  rw [nextCall_workflowList]
  apply nextTarget_page
  · intro row _
    exact Json.encode_record_ne_empty [("id", row.1.id)]
  · intro row inside
    obtain ⟨stored, _⟩ := mem_selectWorkflows.mp (mem_afterCursor (mem_ordered.mp inside))
    exact listCall?_workflows fw (encodeCursor_unmarked (s.workflowIds row.1 stored)) limit

theorem workflowEntry_injOn (rows : List (Workflow × Option String))
    (stored : ∀ row ∈ rows, row.1 ∈ s.store.workflows ∧ row = withOwnerStatus s.store row.1) :
    Set.InjOn (workflowEntry env) {row | row ∈ rows} := by
  intro a first b second same
  have ids : Dict.get? (workflowToResponse env a) "id" = Dict.get? (workflowToResponse env b) "id" :=
    congrArg (fun d => Dict.get? d "id") (Json.obj.inj same)
  simp only [workflowToResponse, Dict.get?_cons, if_true, Option.some.injEq, Json.str.injEq] at ids
  have equal : a.1 = b.1 := Table.eq_of_key (stored a first).1 (stored b second).1 ids
  rw [(stored a first).2, (stored b second).2, equal]

/-- The links of a filtered workflow list lead through all active workflows. -/
theorem workflows_enumerated {query : WorkflowQuery} {admits : Workflow → Bool}
    (read : query.condition = .ok admits) :
    Enumerates fw env backend s.store (.workflows query limit none)
        (fun e => ∃ row ∈ selectWorkflows admits s.store, e = workflowEntry env row) ↔
      Paging.Continues (fun row => backend.collation.key row.1.id) limit.size
        (selectWorkflows admits s.store) (selectWorkflows (WorkflowQuery.admits {} .active) s.store) := by
  have stored : ∀ row ∈ selectWorkflows admits s.store ++
      selectWorkflows (WorkflowQuery.admits {} .active) s.store,
      row.1 ∈ s.store.workflows ∧ row = withOwnerStatus s.store row.1 := by
    intro row member
    rcases List.mem_append.mp member with selected | active
    · obtain ⟨inside, _, same⟩ := mem_selectWorkflows.mp selected
      exact ⟨inside, same⟩
    · obtain ⟨inside, _, same⟩ := mem_selectWorkflows.mp active
      exact ⟨inside, same⟩
  have unfiltered : WorkflowQuery.condition {} = .ok (WorkflowQuery.admits {} .active) := rfl
  apply enumerates_iff (callAfterWorkflow limit)
  · exact selectWorkflows_distinct _ s.store
  · exact selectWorkflows_distinct _ s.store
  · exact workflowEntry_injOn _ stored
  · exact workflows_shows read (show workflowPosition backend none = .ok none from rfl)
  · intro row member
    exact workflows_shows unfiltered (workflowPosition_encode (s.workflowTexts row.1 (stored row member).1).1)

theorem workflows_selected {s : Store} {query : WorkflowQuery} {admits : Workflow → Bool}
    (read : query.condition = .ok admits) {first : ListCall} :
    Enumerates fw env backend s first
        (fun e => ∃ row ∈ selectWorkflows admits s, e = workflowEntry env row) ↔
      Enumerates fw env backend s first (fun e => ∃ w ∈ s.workflows, query.Selects w ∧
        e = workflowEntry env (withOwnerStatus s w)) := by
  apply Enumerates.congr
  intro e
  constructor
  · rintro ⟨row, selected, rfl⟩
    obtain ⟨stored, admitted, same⟩ := mem_selectWorkflows.mp selected
    exact ⟨row.1, stored, (workflow_condition_iff read row.1).mp admitted, congrArg _ same⟩
  · rintro ⟨w, stored, selected, rfl⟩
    exact ⟨withOwnerStatus s w,
      mem_selectWorkflows.mpr ⟨stored, (workflow_condition_iff read w).mpr selected, rfl⟩, rfl⟩

theorem not_enumerates_of_condition {query : WorkflowQuery} {failure : Failure}
    (raises : query.condition = .error failure) (Lists : Json → Prop) :
    ¬ Enumerates fw env backend s.store (.workflows query limit none) Lists := by
  rintro ⟨responses, walk, _⟩
  have refused : answer env backend s.store (some (.workflows query limit none)) = .error (some failure) := by
    rw [answer_workflows, workflowsPage, listWorkflows_run, raises]
  cases walk with
  | last answered => cases answered.symm.trans refused
  | more answered => cases answered.symm.trans refused

end workflows

/-! ## The walk over a filtered listing -/

/-- Following the links of a filtered listing gives the selected rows, each once, exactly
where they fit on one page or the listing without filters, which the links lead through,
has no other rows behind the first page. -/
theorem links_enumerate (fw : Framework) (env : Env) (backend : Backend) (s : Catalogued)
    (limit : PageLimit) :
    (∀ workflowId w query admits, s.store.workflows.find? workflowId = some w →
      query.condition backend = .ok admits →
      (Enumerates fw env backend s.store (.tasks workflowId query limit none)
          (fun e => ∃ t ∈ s.store.tasks, t.workflowId = workflowId ∧ query.Selects backend t ∧
            e = taskEntry env t) ↔
        Paging.Continues (fun t => taskKey backend t.createdAt t.id) limit.size
          (selectTasks workflowId admits s.store) (selectTasks workflowId (fun _ => true) s.store))) ∧
    ∀ query status, query.parseStatus = .ok status → query.selectsNone = false →
      (Enumerates fw env backend s.store (.workflows query limit none)
          (fun e => ∃ w ∈ s.store.workflows, query.Selects w ∧
            e = workflowEntry env (withOwnerStatus s.store w)) ↔
        query.tag = none ∧ Paging.Continues (fun row => backend.collation.key row.1.id) limit.size
          (selectWorkflows (query.admits status) s.store)
          (selectWorkflows (WorkflowQuery.admits {} .active) s.store)) := by
  constructor
  · intro workflowId w query admits known read
    rw [← tasks_selected read]
    exact tasks_enumerated known read
  · intro query status parsed listed
    have read := condition_of_listed parsed listed
    cases tag : query.tag with
    | none =>
        rw [tag, Option.isNone_none, if_pos rfl] at read
        rw [← workflows_selected read, workflows_enumerated read, and_iff_right rfl]
    | some tag' =>
        rw [tag] at read
        refine iff_of_false (not_enumerates_of_condition read _) ?_
        rintro ⟨untagged, _⟩
        cases untagged

/-! ### A filter that the second page drops -/

namespace Demo

def readInt (text : String) : Option Int :=
  if text ≠ "" ∧ text.toList.all Char.isDigit = true then some (Nat.ofDigitChars 10 text.toList 0) else none

theorem readInt_decimal (n : Nat) : readInt (toString n) = some (n : Int) := by
  have digits : (toString n).toList = Nat.toDigits 10 n := Nat.toList_repr
  have all : ∀ c ∈ (toString n).toList, c.isDigit = true := by
    intro c member
    rw [digits] at member
    exact Nat.isDigit_of_mem_toDigits (by decide) (by decide) member
  have named : toString n ≠ "" := by
    intro empty
    have none := digits.symm.trans (congrArg String.toList empty)
    exact Nat.toDigits_ne_nil none
  rw [readInt, if_pos ⟨named, List.all_eq_true.mpr all⟩, digits, Nat.ofDigitChars_ten_toDigits]

def framework : Framework where
  percent := id
  readInt := readInt
  readInt_decimal := readInt_decimal

def catalogued : Catalogued where
  toSnapshot := listed
  taskIds := by decide
  workflowIds := by decide

def one : PageLimit := ⟨1, by decide, by decide⟩

end Demo

theorem links_enumerate_caller :
    Enumerates Demo.framework Demo.env Demo.backend Demo.listed.store
      (.tasks "wf" { caller := some "principal" } Demo.one none)
      (fun e => ∃ t ∈ Demo.listed.store.tasks, t.workflowId = "wf" ∧
        TaskQuery.Selects Demo.backend { caller := some "principal" } t ∧ e = taskEntry Demo.env t) := by
  have links := (links_enumerate Demo.framework Demo.env Demo.backend Demo.catalogued Demo.one).1
  apply (links "wf" Demo.workflow { caller := some "principal" } _ rfl rfl).mpr
  right
  intro t _
  have same : selectTasks "wf" (fun _ => true) Demo.listed.store =
      selectTasks "wf" (fun t => true && true && decide (t.principalAgentId = "principal") && true && true)
        Demo.listed.store := by decide
  exact same ▸ Iff.rfl

theorem running_not_enumerated :
    ¬ Enumerates Demo.framework Demo.env Demo.backend Demo.listed.store
      (.tasks "wf" { status := some "running" } Demo.one none)
      (fun e => ∃ t ∈ Demo.listed.store.tasks, t.workflowId = "wf" ∧
        TaskQuery.Selects Demo.backend { status := some "running" } t ∧ e = taskEntry Demo.env t) := by
  have known : Demo.listed.store.workflows.find? "wf" = some Demo.workflow := rfl
  have read : TaskQuery.condition Demo.backend { status := some "running" } = .ok _ := rfl
  rw [← tasks_selected read]
  intro enumerates
  rcases (tasks_enumerated (s := Demo.catalogued) known read).mp enumerates with fits | continues
  · revert fits
    decide
  · have wrong := (continues (Demo.row "task-b" .accepted) (by decide)).mp (by decide)
    revert wrong
    decide

end Fleet.Api
