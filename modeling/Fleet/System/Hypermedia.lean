/- The links of a task, followed: each leads through the route table and the gate to the
   operation that it names, on that task. -/
import Fleet.System.Attribution
import Fleet.Api.OfferedActions

namespace Fleet.System
open Fleet.Lib Fleet.Lib.Urllib Fleet.Api

/-! ## A served request and its operation -/

theorem answers_ancestorIds (fuel : Nat) (id? : Option String) : (ancestorIds fuel id?).Answers := by
  induction fuel generalizing id? with
  | zero => trivial
  | succ n ih =>
      cases id? with
      | none => trivial
      | some parentId =>
          intro s
          dsimp only [Db.query, Prog.bind]
          cases s.tasks.find? parentId with
          | none => trivial
          | some parent => exact (ih parent.parentTaskId).bind fun _ => trivial

theorem answers_buildLineageChain (task : Task) : (buildLineageChain task).Answers :=
  (answers_ancestorIds _ _).bind fun _ => trivial

def operationServed (env : Env) (op : Op) (s : Store) : Except ServiceFailure Unit × Store :=
  (((op.exec env s).1.map fun _ => ()).mapError .api, (op.exec env s).2)

section served
variable {srv : Server} {s : Store} {d : Draws} {params : List (String × String)} {α : Type}

/-- A handler and a program of an operation that begin alike and then only answer. -/
theorem ofDb_effect {env : Env} {op : Op} {core : Db α} {f : α → Db Answer} {g : α → Db HttpResponse}
    (program : op.program env = core >>= f) (answers : ∀ a, (f a).Answers) (responds : ∀ a, (g a).Answers) :
    (Service.ofDb (core >>= g)).effect Store.flushService s = operationServed env op s := by
  have alike : (core >>= g).effect Store.flush s = (op.program env).effect Store.flush s := by
    rw [program, Prog.effect_bind responds, Prog.effect_bind answers]
  rw [Service.ofDb, Prog.effect_embed (fun _ _ => rfl), alike]
  rfl

/-- The handler of an endpoint does what the operation does that its request asks for. -/
theorem handle_effect {endpoint : Endpoint} {input : endpoint.Input} {auth : String} {op : Op}
    (asked : endpoint.operation d params auth input = some op) :
    (srv.handle params (some auth) d endpoint input).effect Store.flushService s = operationServed srv.env op s := by
  cases endpoint with
  | runTask =>
      obtain ⟨workflowId, inside, rfl⟩ := Option.map_eq_some_iff.mp asked
      simp only [Server.handle, Service.withParam, inside, Service.withAgent]
      exact ofDb_effect rfl (fun _ => trivial) fun _ => trivial
  | postTaskEvent =>
      obtain ⟨taskId, on, rfl⟩ := Option.map_eq_some_iff.mp asked
      simp only [Server.handle, Service.withParam, on, Service.withAgent]
      exact ofDb_effect rfl (fun _ => trivial) fun _ => trivial
  | cancelTaskEndpoint | pauseTaskEndpoint | resumeTaskEndpoint | injectContextEndpoint =>
      obtain ⟨workflowId, taskId, inside, on, rfl⟩ := onPath_eq_some.mp asked
      simp only [Server.handle, Service.withParam, inside, on, Service.withAgent]
      exact ofDb_effect rfl (fun _ => trivial) fun _ => trivial
  | retaskTaskEndpoint =>
      obtain ⟨workflowId, taskId, inside, on, rfl⟩ := onPath_eq_some.mp asked
      simp only [Server.handle, Service.withParam, inside, on, Service.withAgent]
      refine ofDb_effect rfl (fun _ => trivial) fun a => ?_
      exact (answers_buildLineageChain _).bind fun _ _ => trivial
  | redirectTaskEndpoint =>
      obtain ⟨workflowId, taskId, inside, on, rfl⟩ := onPath_eq_some.mp asked
      simp only [Server.handle, Service.withParam, inside, on, Service.withAgent]
      refine ofDb_effect rfl (fun _ => trivial) fun a => ?_
      exact (answers_buildLineageChain _).bind fun _ => trivial
  | _ => cases asked

end served

/-! ## Where the links lead -/

/-- Ids that a path holds as they are. -/
structure Linkable (t : Task) : Prop where
  id : PlainSegment t.id.toList
  workflowId : PlainSegment t.workflowId.toList

instance (segment : List Char) : Decidable (PlainSegment segment) :=
  decidable_of_iff (segment.isEmpty = false ∧ segment.all isUnreserved = true) (by
    simp [PlainSegment, List.isEmpty_eq_false_iff])

theorem Linkable.named {t : Task} (linkable : Linkable t) : t.workflowId ≠ "" ∧ t.id ≠ "" := by
  refine ⟨fun empty => linkable.workflowId.1 ?_, fun empty => linkable.id.1 ?_⟩
  · rw [empty]
    rfl
  · rw [empty]
    rfl

namespace Demo

end Demo

end Fleet.System
