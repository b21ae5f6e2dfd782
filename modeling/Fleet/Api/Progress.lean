/- The progress and the quality an executor reports, in the stored metadata of its task. -/
import Fleet.Lib.Machine
import Fleet.Api.Outcomes

namespace Fleet.Api
open Fleet.Lib

/-- The service taking one request after the other, each in a session of its own. -/
def serving (env : Env) : Machine Store Step Empty where
  step s a := (a.exec env s, [])

/-- The stored metadata; an absent task has none. -/
def Store.metadata? (s : Store) (id : String) : Option Dict := (s.tasks.find? id).bind Task.metadata

/-! ## What an event provides -/

/-- The metadata keys for which the event has a value. -/
def EventRequest.provided (req : EventRequest) : Dict :=
  if req.eventType = "progress" then
    [("progress", req.data.get "progress")] ++
      if (req.data.get "message").truthy then [("progress_message", req.data.get "message")] else []
  else if req.eventType = "completed" then
    (["quality", "warnings"].filter (fun k => req.data.get k ≠ .null)).map
      fun k => (k, req.data.get k)
  else []

/-- The provided values replace those of their keys, every other key keeps its own. -/
structure Overwritten (provided : Dict) (before after : Option Dict) : Prop where
  values : ∀ k, (after.getD []).get? k = (provided.get? k).or ((before.getD []).get? k)
  unprovided : provided = [] → after = before

/-- The metadata has every provided value already. -/
def Agrees (provided : Dict) (metadata : Option Dict) : Prop :=
  ∀ k v, provided.get? k = some v → (metadata.getD []).get? k = some v

theorem overwritten_self_iff {provided : Dict} {metadata : Option Dict} :
    Overwritten provided metadata metadata ↔ Agrees provided metadata := by
  constructor
  · intro same k v given
    rw [same.values, given]
    rfl
  · intro agrees
    refine ⟨fun k => ?_, fun _ => rfl⟩
    cases given : provided.get? k with
    | none => rfl
    | some v => rw [agrees k v given]; rfl

theorem overwritten_of_empty {provided : Dict} {before : Option Dict} (given : provided ≠ [])
    (empty : before.getD [] = []) : Overwritten provided before (some provided) := by
  refine ⟨fun k => ?_, fun none => absurd none given⟩
  rw [empty, Dict.get?_nil, Option.or_none]
  rfl

/-- The stored metadata shows the event: it was null, it was empty and the event
completes the task, or it has the provided values already. In any other case the
handler changes the loaded dictionary in place, and the session writes nothing. -/
def EventRequest.Noticed (req : EventRequest) (metadata : Option Dict) : Prop :=
  metadata = none ∨ (req.eventType = "completed" ∧ metadata = some []) ∨
    Agrees req.provided metadata

theorem onProgress_metadata {req : EventRequest} {task task' : Task}
    (progress : req.eventType = "progress") (applied : onProgress req.data task = .ok task') :
    Overwritten req.provided task.metadata task'.metadata ↔ req.Noticed task.metadata := by
  have provided : req.provided ≠ [] ∧ task'.metadata = some (task.metadata.getD req.provided) := by
    rw [EventRequest.provided, if_pos progress]
    unfold onProgress at applied
    split at applied
    · cases applied
    · cases applied
      exact ⟨by simp, rfl⟩
  rw [provided.2]
  cases stored : task.metadata with
  | none => exact iff_of_true (overwritten_of_empty provided.1 rfl) (.inl rfl)
  | some d => simp [overwritten_self_iff, EventRequest.Noticed, progress]

theorem qualityMetadata_overwritten_iff {req : EventRequest} {metadata : Option Dict}
    (completed : req.eventType = "completed") :
    Overwritten req.provided metadata (qualityMetadata req.data metadata) ↔ req.Noticed metadata := by
  have provided : qualityMetadata req.data metadata = if req.provided = [] then metadata
      else if metadata.getD [] = [] then some req.provided else metadata := by
    simp only [EventRequest.provided, completed]
    rfl
  rw [provided]
  split
  · rename_i none
    rw [overwritten_self_iff]
    have agrees : Agrees req.provided metadata := by
      intro k v given
      rw [none] at given
      cases given
    exact iff_of_true agrees (.inr (.inr agrees))
  · rename_i given
    split
    · rename_i empty
      refine iff_of_true (overwritten_of_empty given empty) ?_
      cases metadata with
      | none => exact .inl rfl
      | some d => exact .inr (.inl ⟨completed, congrArg some empty⟩)
    · rename_i populated
      rw [overwritten_self_iff]
      cases metadata with
      | none => exact absurd rfl populated
      | some d =>
          have populated : d ≠ [] := populated
          simp [EventRequest.Noticed, populated]

theorem onCompleted_metadata {clk : Clock} {req : EventRequest} {task task' : Task}
    (completed : req.eventType = "completed") (applied : onCompleted clk req.data task = .ok task') :
    Overwritten req.provided task.metadata task'.metadata ↔ req.Noticed task.metadata := by
  obtain ⟨mid, moved, rfl⟩ := moveTo_bind applied
  have kept : mid.metadata = task.metadata := by
    obtain ⟨_, rfl⟩ := Task.transitionTo_ok.mp (moveTo_ok moved)
    rfl
  dsimp only
  rw [kept]
  exact qualityMetadata_overwritten_iff completed

/-! ## Runs of requests -/

/-- The progress or completed event a request posts. -/
def Step.report? : Step → Option EventRequest
  | .op (.processSidecarEvent _ req) =>
      if req.eventType = "progress" ∨ req.eventType = "completed" then some req else none
  | _ => none

/-- The request is answered without an error. -/
def Step.answers (env : Env) (s : Store) : Step → Bool
  | .op o => (o.exec env s).1.isOk
  | .catalog _ _ => true

/-- The event is accepted, if the request posts one. -/
abbrev Step.Accepted (env : Env) (s : Store) (a : Step) : Prop :=
  a.report?.isSome = true → a.answers env s = true

def Step.Noticed (s : Store) (a : Step) : Prop :=
  ∀ req, a.report? = some req → req.Noticed (s.metadata? req.taskId)

def Step.Persisted (env : Env) (s : Store) (a : Step) : Prop :=
  ∀ req, a.report? = some req → Overwritten req.provided (s.metadata? req.taskId)
    ((a.exec env s).metadata? req.taskId)

theorem Step.report?_eq_some {a : Step} {req : EventRequest} (h : a.report? = some req) :
    ∃ clk, a = .op (.processSidecarEvent clk req) ∧
      (req.eventType = "progress" ∨ req.eventType = "completed") := by
  unfold report? at h
  split at h
  · rename_i clk _
    split at h
    · rename_i type
      cases h
      exact ⟨clk, rfl, type⟩
    · cases h
  · cases h

theorem recorded_rows {env : Env} {s : Store} {clk : Clock} {req : EventRequest}
    (answers : ((Op.processSidecarEvent clk req).exec env s).1.isOk = true) :
    ∃ task task', applyEvent clk req.eventType req.data task = .ok task' ∧
      s.tasks.find? req.taskId = some task ∧
      ((Op.processSidecarEvent clk req).exec env s).2.tasks.find? req.taskId = some task' := by
  generalize eq : (Op.processSidecarEvent clk req).exec env s = r at answers
  obtain ⟨answer, s'⟩ := r
  have outcome := Op.exec_outcome env (.processSidecarEvent clk req) s
  rw [eq] at outcome
  cases outcome with
  | refused e ordinary => cases answers
  | recorded _ _ task task' _ known stored executor later applied committed =>
      have own : task.id = req.taskId := (Table.find?_eq_some.mp stored).2
      have origin := applyEvent_origin known applied
      refine ⟨task, task', applied, stored, ?_⟩
      have effect := (Store.flush_effect committed (dirty_current (own ▸ stored) origin)).2.1
      simp [effect, Work.changed, origin.id, own]

theorem Step.persisted_iff {env : Env} {s : Store} {a : Step} (accepted : a.Accepted env s) :
    a.Persisted env s ↔ a.Noticed s := by
  refine forall_congr' fun req => imp_congr_right fun reports => ?_
  obtain ⟨clk, rfl, type⟩ := report?_eq_some reports
  obtain ⟨task, task', applied, stored, left⟩ := recorded_rows (accepted (by rw [reports]; rfl))
  have before : s.metadata? req.taskId = task.metadata := by rw [Store.metadata?, stored]; rfl
  have after : (Step.exec env (.op (.processSidecarEvent clk req)) s).metadata? req.taskId =
      task'.metadata := by
    rw [Store.metadata?, Step.exec, left]
    rfl
  rw [before, after]
  rcases type with progress | completed
  · simp only [applyEvent, progress] at applied
    exact onProgress_metadata progress applied
  · simp only [applyEvent, completed] at applied
    exact onCompleted_metadata completed applied

/-- Along a run in which every progress and completed event is accepted, the stored
metadata takes over what each of them provides exactly when each is noticed. -/
theorem progress_persisted_iff (env : Env) (s : Store) (steps : List Step)
    (accepted : (serving env).Along (Step.Accepted env) s steps) :
    (serving env).Along (Step.Persisted env) s steps ↔
      (serving env).Along Step.Noticed s steps :=
  Machine.along_congr (fun _ _ => Step.persisted_iff) accepted

namespace Demo

def progress (second amount sequence : Int) : Step :=
  .op (post second "task-a" "progress" [("progress", .num amount)] sequence)

def progressing : List Step := running ++ [progress 2 10 3, progress 3 20 4]

theorem progressing_accepted : (serving env).Along (Step.Accepted env) store progressing := by
  decide

end Demo

theorem progress_persisted_twice :
    (serving Demo.env).Along (Step.Persisted Demo.env) Demo.store Demo.progressing ↔
      (serving Demo.env).Along Step.Noticed Demo.store Demo.progressing :=
  progress_persisted_iff Demo.env Demo.store Demo.progressing Demo.progressing_accepted

/-- The second progress event is accepted and its value does not reach the row. -/
theorem second_progress_lost :
    (serving Demo.env).Along (Step.Accepted Demo.env) Demo.store Demo.progressing ∧
      ¬ (serving Demo.env).Along (Step.Persisted Demo.env) Demo.store Demo.progressing := by
  refine ⟨Demo.progressing_accepted, fun persisted => ?_⟩
  obtain ⟨-, -, -, last, -⟩ := persisted
  have values := (last _ rfl).values "progress"
  revert values
  decide

end Fleet.Api
