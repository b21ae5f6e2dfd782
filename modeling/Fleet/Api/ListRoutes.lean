/- The list endpoints: their query parameters, their responses and their links. -/
import Fleet.Lib.Urllib
import Fleet.Api.Listing
import Fleet.Api.Responses
import Fleet.Api.Routes

namespace Fleet.Api
open Fleet.Lib Fleet.Lib.Urllib

/-! ## Requests -/

/-- What FastAPI does with the query of a request: it decodes percent escapes, and it
reads the decimal text of a number as that number. -/
structure Framework where
  percent : List Char → List Char
  readInt : String → Option Int
  readInt_decimal : ∀ n : Nat, readInt (toString n) = some (n : Int)

/-- `Query(20, ge=1, le=100)`. -/
@[ext] structure PageLimit where
  size : Nat
  least : 1 ≤ size
  most : size ≤ 100

/-- A call of one of the list endpoints. -/
inductive ListCall where
  | tasks (workflowId : String) (query : TaskQuery) (limit : PageLimit) (cursor : Option String)
  | workflows (query : WorkflowQuery) (limit : PageLimit) (cursor : Option String)

/-- The path and the query string of a `GET` request. -/
structure Get where
  path : String
  query : List Char

/-- Of a repeated parameter the last value counts. -/
def param (params : List (String × String)) (name : String) : Option String := params.reverse.lookup name

def readLimit (fw : Framework) (params : List (String × String)) : Option PageLimit :=
  match (param params "limit").map fw.readInt with
  | none => some ⟨20, by decide, by decide⟩
  | some none => none
  | some (some n) => if range : 1 ≤ n ∧ n ≤ 100 then some ⟨n.toNat, by omega, by omega⟩ else none

def workflowIdOf (path : String) : String := String.ofList (((path.toList.splitOn '/')[2]?).getD [])

/-- `none` is an answer without one of these handlers, as 404 or 422. -/
def listCall? (fw : Framework) (get : Get) : Option ListCall :=
  let params := parseQsl fw.percent get.query
  match route? "GET" get.path with
  | some .listTasks => (readLimit fw params).map fun limit => .tasks (workflowIdOf get.path)
      { status := param params "status"
        priority := param params "priority"
        caller := param params "caller"
        since := param params "since"
        until' := param params "until" }
      limit (param params "cursor")
  | some .listWorkflows => (readLimit fw params).map fun limit => .workflows
      { status := param params "status"
        owner := param params "owner"
        tag := param params "tag" }
      limit (param params "cursor")
  | _ => none

/-! ## Responses -/

def hrefTo (target : String) : Json := .obj [("href", .str target)]

def paginationJson {ρ : Type} (page : Page ρ String) (limit : PageLimit) : Json := .obj [
  ("next_cursor", .ofOption page.nextCursor),
  ("has_more", .bool page.hasMore),
  ("total_count", .num page.totalCount),
  ("limit", .num limit.size)]

/-- The link to the next page carries the cursor and the limit, and no filter. -/
def nextTarget {ρ : Type} (base : String) (page : Page ρ String) (limit : PageLimit) : Option String :=
  (page.nextCursor.filter fun cursor => cursor ≠ "").map fun cursor =>
    s!"{base}?cursor={cursor}&limit={limit.size}"

def nextLink {ρ : Type} (base : String) (page : Page ρ String) (limit : PageLimit) : Dict :=
  (nextTarget base page limit).toList.map fun target => ("next", hrefTo target)

def selfHref (base : String) (query : TaskQuery) (limit : PageLimit) : String :=
  let given := [("status", query.status), ("priority", query.priority), ("caller", query.caller),
    ("since", query.since), ("until", query.until')]
  let params := given.filterMap (fun p => p.2.map fun value => p.1 ++ "=" ++ value) ++ [s!"limit={limit.size}"]
  base ++ "?" ++ "&".intercalate params

def taskListResponse (env : Env) (workflowId : String) (query : TaskQuery) (limit : PageLimit)
    (page : Page Task String) : Dict :=
  let base := "/workflows/" ++ workflowId ++ "/tasks"
  [ ("data", .arr (page.items.map fun t => .obj (taskToSummaryResponse env t))),
    ("pagination", paginationJson page limit),
    ("_links", .obj ([("self", hrefTo (selfHref base query limit)),
      ("workflow", hrefTo ("/workflows/" ++ workflowId))] ++ nextLink base page limit)) ]

def listTasksEndpoint (env : Env) (backend : Backend) (workflowId : String) (query : TaskQuery)
    (limit : PageLimit) (cursor : Option String) : Db Dict := do
  let page ← listTasks backend workflowId query cursor limit.size
  return taskListResponse env workflowId query limit page

def workflowToResponse (env : Env) (row : Workflow × Option String) : Dict :=
  let (w, executorStatus) := row
  let self := "/workflows/" ++ w.id
  let jsonOf {α : Type} (json : α → Json) (value : Option α) : Json := (value.map json).getD .null
  [ ("id", .str w.id),
    ("name", .str w.name),
    ("owner", .str w.ownerAgentId),
    ("description", .ofOption w.description),
    ("tags", jsonOf (fun tags => .arr (tags.map .str)) w.tags),
    ("input_schema", jsonOf .obj w.inputSchema),
    ("output_schema", jsonOf .obj w.outputSchema),
    ("timeout_seconds", jsonOf .num w.timeoutSeconds),
    ("result_retention_days", .num w.resultRetentionDays),
    ("status", .str w.status.value),
    ("executor_status", .ofOption executorStatus),
    ("created_at", .str (env.isoformat w.createdAt)),
    ("updated_at", isoOrNull env w.updatedAt),
    ("_links", .obj [
      ("self", hrefTo self),
      ("run", .obj [("href", .str (self ++ "/run")), ("method", .str "POST")]),
      ("tasks", hrefTo (self ++ "/tasks")),
      ("update", .obj [("href", .str self), ("method", .str "PUT")]),
      ("owner", hrefTo ("/agents/" ++ w.ownerAgentId))])]

def workflowLinks : Dict := [
  ("self", hrefTo "/workflows"),
  ("register", .obj [("href", .str "/workflows"), ("method", .str "POST")])]

def workflowListResponse (env : Env) (limit : PageLimit) (page : Page (Workflow × Option String) String) :
    Dict :=
  [ ("data", .arr (page.items.map fun row => .obj (workflowToResponse env row))),
    ("pagination", paginationJson page limit),
    ("_links", .obj (workflowLinks ++ nextLink "/workflows" page limit)) ]

def listWorkflowsEndpoint (env : Env) (backend : Backend) (query : WorkflowQuery) (limit : PageLimit)
    (cursor : Option String) : Db Dict := do
  let page ← listWorkflows backend query cursor limit.size
  return workflowListResponse env limit page

def ListCall.handler (env : Env) (backend : Backend) : ListCall → Db Dict
  | .tasks workflowId query limit cursor => listTasksEndpoint env backend workflowId query limit cursor
  | .workflows query limit cursor => listWorkflowsEndpoint env backend query limit cursor

/-- The answer of a store to a call; a request that is no call is refused. -/
def answer (env : Env) (backend : Backend) (s : Store) : Option ListCall → Except (Option Failure) Dict
  | none => .error none
  | some call =>
      match ((call.handler env backend).run Store.flush s).1 with
      | .ok response => .ok response
      | .error e => .error (some e)

/-! ## The client -/

def follow (fw : Framework) (href : String) : Get :=
  let (path, query) := splitAt '?' href.toList
  { path := String.ofList (if '%' ∈ path then fw.percent path else path), query }

def field? (key : String) : Json → Option Json
  | .obj d => Dict.get? d key
  | _ => none

/-- `response["_links"]["next"]["href"]`, if the response has it. -/
def nextHref? (response : Dict) : Option String := do
  let links ← Dict.get? response "_links"
  let next ← field? "next" links
  let href ← field? "href" next
  href.str?

def entries (response : Dict) : List Json :=
  match Dict.get? response "data" with
  | some (.arr rows) => rows
  | _ => []

def nextCall (fw : Framework) (response : Dict) : Option (Option ListCall) :=
  (nextHref? response).map fun href => listCall? fw (follow fw href)

end Fleet.Api
