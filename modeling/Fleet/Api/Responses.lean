/- Response builders: the links of a task, its detail and its summary. -/
import Fleet.Api.Crud

namespace Fleet.Api
open Fleet.Lib

/-! ## Links -/

/-- The reference table of action links. -/
def statusActionLinks : TaskStatus → List String
  | .accepted => ["cancel"]
  | .running => ["cancel", "pause", "context", "redirect"]
  | .paused => ["resume", "cancel", "context", "redirect"]
  | .completed => ["retask", "rerun"]
  | .failed => ["retask", "rerun"]
  | .cancelled => ["rerun"]
  | .retasked => []
  | .redirected => []

def actionLinkSuffix : List (String × String) :=
  [ ("cancel", "/cancel"), ("pause", "/pause"), ("resume", "/resume"), ("context", "/context"),
    ("redirect", "/redirect"), ("retask", "/retask") ]

/-- `_ACTION_LINK_SUFFIX[action]` never misses: only `rerun`, which has a base of its
own, is not in the table. -/
theorem actionLinkSuffix_total (status : TaskStatus) :
    ∀ action ∈ statusActionLinks status, action = "rerun" ∨ (actionLinkSuffix.lookup action).isSome := by
  cases status <;> decide

def taskPath (workflowId taskId : String) : String := "/workflows/" ++ workflowId ++ "/tasks/" ++ taskId

def actionLink (taskId workflowId action : String) : String × Json :=
  if action = "rerun" then
    ("rerun", .obj [("method", .str "POST"), ("href", .str ("/workflows/" ++ workflowId ++ "/run"))])
  else
    (action, .obj [
      ("method", .str "POST"),
      ("href", .str (taskPath workflowId taskId ++ (actionLinkSuffix.lookup action).getD ""))])

def buildTaskLinks (taskId workflowId : String) (status : TaskStatus) : Dict :=
  [ ("self", .obj [("href", .str (taskPath workflowId taskId))]),
    ("workflow", .obj [("href", .str ("/workflows/" ++ workflowId))]),
    ("stream", .obj [("href", .str (taskPath workflowId taskId ++ "/stream"))]) ]
    ++ (statusActionLinks status).map (actionLink taskId workflowId)

/-! ## Responses -/

def computeDuration (startedAt completedAt : Option Time) : Option Int :=
  match startedAt, completedAt with
  | some started, some completed => some (seconds (completed - started))
  | _, _ => none

def durationJson (task : Task) : Json :=
  match computeDuration task.startedAt task.completedAt with
  | some n => .num n
  | none => .null

def isoOrNull (env : Env) (at' : Option Time) : Json :=
  match at' with
  | some at' => .str (env.isoformat at')
  | none => .null

/-- `metadata.get(key, default) if metadata else default`. -/
def metadataGet (task : Task) (key : String) (default : Json) : Json :=
  ((task.metadata.getD []).get? key).getD default

/-- Quality is taken as good where the metadata does not say otherwise. -/
def defaultQuality : Json :=
  .obj [("input_valid", .bool true), ("execution_clean", .bool true), ("result_complete", .bool true)]

/-- The fields that depend on the status. -/
def detailByStatus (env : Env) (task : Task) : Dict :=
  match task.status with
  | .running =>
      [ ("progress", metadataGet task "progress" (.num 0)),
        ("estimated_completion", metadataGet task "estimated_completion" .null) ]
  | .completed =>
      [ ("result", task.result),
        ("warnings", metadataGet task "warnings" (.arr [])),
        ("quality", metadataGet task "quality" defaultQuality),
        ("completed_at", isoOrNull env task.completedAt),
        ("duration_seconds", durationJson task) ]
  | .failed =>
      [ ("result", task.result),
        ("warnings", metadataGet task "warnings" (.arr [])),
        ("completed_at", isoOrNull env task.completedAt),
        ("duration_seconds", durationJson task) ]
  | .cancelled | .redirected | .retasked =>
      task.completedAt.toList.map fun at' => ("completed_at", .str (env.isoformat at'))
  | .accepted | .paused => []

def taskToDetailResponse (env : Env) (task : Task) : Dict :=
  [ ("task_id", .str task.id),
    ("workflow_id", .str task.workflowId),
    ("status", .str task.status.value),
    ("caller", .str task.principalAgentId),
    ("executor", .ofOption task.executorAgentId),
    ("priority", .str task.priority.value),
    ("input", .obj task.input),
    ("created_at", .str (env.isoformat task.createdAt)) ]
    ++ (task.startedAt.toList.map fun at' => ("started_at", .str (env.isoformat at')))
    ++ detailByStatus env task
    ++ [("_links", .obj (buildTaskLinks task.id task.workflowId task.status))]

def taskToSummaryResponse (env : Env) (task : Task) : Dict :=
  [ ("task_id", .str task.id),
    ("status", .str task.status.value),
    ("caller", .str task.principalAgentId),
    ("created_at", .str (env.isoformat task.createdAt)) ]
    ++ (task.completedAt.toList.map fun at' => ("completed_at", .str (env.isoformat at')))
    ++ (if task.status = .completed then [("duration_seconds", durationJson task)] else [])
    ++ [("_links", .obj [
        ("self", .obj [("href", .str (taskPath task.workflowId task.id))]),
        ("stream", .obj [("href", .str (taskPath task.workflowId task.id ++ "/stream"))])])]

theorem detailByStatus_duration (env : Env) (task : Task) :
    Dict.get? (detailByStatus env task) "duration_seconds" =
      if task.status = .completed ∨ task.status = .failed then some (durationJson task) else none := by
  unfold detailByStatus
  cases status : task.status with
  | cancelled | redirected | retasked =>
      simp only [reduceCtorEq, or_self, if_false]
      exact Dict.get?_optional _ _ (by decide)
  | accepted | running | paused | completed | failed => simp [Dict.get?_cons, Dict.get?_nil]

theorem detail_duration (env : Env) (task : Task) :
    (taskToDetailResponse env task).get? "duration_seconds" =
      if task.status = .completed ∨ task.status = .failed then some (durationJson task) else none := by
  have started := @Dict.get?_optional _ task.startedAt (fun at' => .str (env.isoformat at'))
    "started_at" "duration_seconds" (by decide)
  simp only [taskToDetailResponse, Dict.get?_append, started, detailByStatus_duration]
  split <;> simp [Dict.get?_cons, Dict.get?_nil]

theorem summary_duration (env : Env) (task : Task) :
    (taskToSummaryResponse env task).get? "duration_seconds" =
      if task.status = .completed then some (durationJson task) else none := by
  have completed := @Dict.get?_optional _ task.completedAt (fun at' => .str (env.isoformat at'))
    "completed_at" "duration_seconds" (by decide)
  simp only [taskToSummaryResponse, Dict.get?_append, completed]
  split <;> simp [Dict.get?_cons, Dict.get?_nil]

end Fleet.Api
