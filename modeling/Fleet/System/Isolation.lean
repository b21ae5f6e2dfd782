/- Groups of workflows do not interfere: whatever others ask of the service meanwhile, what
   happens to a group and what its requests are answered is the same. -/
import Fleet.Api.Reach
import Fleet.System.Attribution

namespace Fleet.System
open Fleet.Lib Fleet.Api

/-! ## The requests of a group and those of others -/

section sides
variable (K : Compartment) (srv : Server) (a : Incoming)

/-- A request within the compartment, or one about the agents, whom all share. -/
def Ours : Prop := a.reach srv = .agents ∨ K.Within (a.reach srv)

/-- A request outside the compartment, or one that reads everything. -/
def Theirs : Prop := a.reach srv = .everything ∨ K.outside.Within (a.reach srv)

end sides

/-- The same move, or the arrival of one or another request of others. -/
inductive SameBut (K : Compartment) (srv : Server) : ServiceMove → ServiceMove → Prop
  | ours {a : Incoming} (own : Ours K srv a) : SameBut K srv (.arrive a) (.arrive a)
  | theirs {a a' : Incoming} (one : Theirs K srv a) (other : Theirs K srv a') :
      SameBut K srv (.arrive a) (.arrive a')
  | advance (i : Nat) : SameBut K srv (.advance i) (.advance i)

/-- What the requests of others see: a store, as it is, that the compartment divides. -/
def Seen (K : Compartment) (s s' : Store) : Prop := s = s' ∧ K.outside.Sound s

section sides
variable {K : Compartment} {srv : Server} {a : Incoming}

theorem ours_confined (own : Ours K srv a) : (srv.serve a).Confined K.Agree K.OwnsOrShares fun _ => True := by
  rcases own with agents | within
  · exact Compartment.serve_shared agents
  · refine (Compartment.serve_within within).narrow (fun _ _ related => related) fun w owns => ?_
    cases w with
    | agents w => trivial
    | tasks w => exact owns
    | workflows w => exact owns

theorem theirs_confined (other : Theirs K srv a) :
    (srv.serve a).Confined (Seen K) K.outside.Owns fun _ => True := by
  rcases other with everything | within
  · exact (Compartment.serve_reads everything).confined fun _ _ seen => seen.1
  · refine (Compartment.serve_within within).narrow ?_ fun _ owns => owns
    rintro s _ ⟨rfl, sound⟩
    exact .refl sound

theorem SameBut.turn {move move' : ServiceMove} (h : SameBut K srv move move') :
    Turn.Beside K.Agree K.OwnsOrShares (Seen K) K.outside.Owns (move.turn srv) (move'.turn srv) := by
  cases h with
  | ours own => exact .start (.inl ⟨rfl, ours_confined own⟩)
  | theirs one other => exact .start (.inr ⟨theirs_confined one, theirs_confined other⟩)
  | advance i => exact .advance i

end sides

/-! ## Two runs -/

/-- Two runs with the same requests of the compartment, in the same order of statements,
beside whatever requests of others: they agree on the compartment at the end, and each of
its requests has come as far and is answered alike. -/
theorem compartment_isolated (srv : Server) (K : Compartment) (s s' : Store) (agree : K.Agree s s')
    (moves moves' : List ServiceMove) (same : List.Forall₂ (SameBut K srv) moves moves') :
    K.Agree (service srv s moves).store (service srv s' moves').store ∧
      ∀ (i : Nat) (a : Incoming), (serviceArrivals moves)[i]? = some a → (serviceArrivals moves')[i]? = some a →
        Ours K srv a → (service srv s moves).requests[i]? = (service srv s' moves').requests[i]? := by
  have beside : List.Forall₂ (Turn.Beside K.Agree K.OwnsOrShares (Seen K) K.outside.Owns)
      (moves.map (ServiceMove.turn srv)) (moves'.map (ServiceMove.turn srv)) :=
    List.forall₂_map_left_iff.mpr (List.forall₂_map_right_iff.mpr (same.imp fun _ _ => SameBut.turn))
  have start : Pool.Beside K.Agree K.OwnsOrShares (Seen K) K.outside.Owns
      (⟨s, []⟩ : Pool Store ServiceWork ServiceFailure (Option HttpResponse)) ⟨s', []⟩ := ⟨agree, .nil⟩
  have symm : ∀ t t', K.Agree t t' → K.Agree t' t := fun _ _ related => related.symm
  have seen : ∀ t t', K.Agree t t' → Seen K t t := fun _ _ related => ⟨rfl, related.sound.outside⟩
  refine ⟨(start.turns Compartment.flushService_mirrored Compartment.flushService_apart symm seen beside).view,
    fun i a arrives arrives' own => ?_⟩
  have position : ∀ ms : List ServiceMove, (serviceArrivals ms)[i]? = some a →
      (Pool.arrivals (ms.map (ServiceMove.turn srv)))[i]? = some (srv.serve a) := fun ms there => by
    rw [arrivals_service, List.getElem?_map, there, Option.map_some]
  have answered := start.arrived_same Compartment.flushService_mirrored Compartment.flushService_apart symm seen
    beside (position moves arrives) (position moves' arrives') (ours_confined own)
  simpa [service] using answered

/-! ### A cancellation beside another workflow's -/

namespace Demo

def compartment : Compartment where
  workflow id := id = "wf"
  task _ := true
  key _ := true

def otherWorkflow : Workflow := { Api.Demo.workflow with id := "other", name := "other" }

def crowdedStore : Store := { cancelStore with
  workflows := ⟨[Api.Demo.workflow, otherWorkflow], by decide⟩ }

/-- An unsigned request to cancel a task of the other workflow. -/
def otherRequest : Request := { cancelRequest with
  path := "/workflows/other/tasks/task-x/cancel"
  authorization := none }

def strayRequest : Request := { cancelRequest with path := "/nowhere" }

def movesBeside (stranger : Request) : List ServiceMove :=
  .arrive (.request stranger ⟨Api.Demo.at' 4, "d", 2⟩) ::
  .arrive (.request cancelRequest ⟨Api.Demo.at' 4, "c", 1⟩) :: List.replicate 9 (.advance 1)

end Demo

theorem compartment_isolated_cancel :
    (service Demo.server Demo.cancelStore (Demo.movesBeside Demo.strayRequest)).requests[1]? =
      (service Demo.server Demo.crowdedStore (Demo.movesBeside Demo.otherRequest)).requests[1]? := by
  have sound : ∀ t ∈ Demo.cancelStore.tasks, Demo.compartment.Divides t := by
    have inside : Demo.cancelStore.tasks.rows.all (fun t => t.workflowId = "wf") = true := by decide +kernel
    intro t member
    exact ⟨List.all_eq_true.mp inside t member, fun _ _ => rfl, fun _ _ => rfl, fun _ _ => rfl⟩
  have agree : Demo.compartment.Agree Demo.cancelStore Demo.crowdedStore := by
    refine ⟨sound, sound, rfl, fun id own => ?_, rfl, rfl⟩
    obtain rfl : id = "wf" := of_decide_eq_true own
    have workflows : Demo.cancelStore.workflows.rows = [Api.Demo.workflow] := by decide +kernel
    rw [Table.find?, workflows]
    rfl
  have ours : Ours Demo.compartment Demo.server (.request Demo.cancelRequest ⟨Api.Demo.at' 4, "c", 1⟩) := by
    have reach : Incoming.reach Demo.server (.request Demo.cancelRequest ⟨Api.Demo.at' 4, "c", 1⟩) =
        .workflow "wf" := by decide +kernel
    refine .inr ?_
    rw [reach]
    rfl
  have same : List.Forall₂ (SameBut Demo.compartment Demo.server) (Demo.movesBeside Demo.strayRequest)
      (Demo.movesBeside Demo.otherRequest) := by
    refine .cons (.theirs (.inr ?_) (.inr ?_)) (.cons (.ours ours) ?_)
    · have reach : Incoming.reach Demo.server (.request Demo.strayRequest ⟨Api.Demo.at' 4, "d", 2⟩) =
          .nothing := by decide +kernel
      rw [reach]
      trivial
    · have reach : Incoming.reach Demo.server (.request Demo.otherRequest ⟨Api.Demo.at' 4, "d", 2⟩) =
          .workflow "other" := by decide +kernel
      rw [reach]
      rfl
    · refine List.forall₂_same.mpr fun move member => ?_
      rw [List.eq_of_mem_replicate member]
      exact .advance 1
  exact (compartment_isolated Demo.server Demo.compartment Demo.cancelStore Demo.crowdedStore agree _ _ same).2 1 _
    rfl rfl ours

end Fleet.System
