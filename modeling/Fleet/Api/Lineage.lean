/- Lineages of retasked and redirected tasks, and the chain the API reports. -/
import Mathlib.Data.List.Chain
import Fleet.Lib.Forest
import Fleet.Api.Succession

namespace Fleet.Api
open Fleet.Lib

/-- `t` continues `parent`. -/
structure Continues (parent t : Task) : Prop where
  link : t.parentTaskId = some parent.id
  workflow : t.workflowId = parent.workflowId
  principal : t.principalAgentId = parent.principalAgentId
  executor : t.executorAgentId = parent.executorAgentId
  depth : t.lineageDepth = parent.lineageDepth + 1
  root : t.rootTaskId = some (parent.rootTaskId.getD parent.id)

structure Linked (env : Env) (s : Store) : Prop extends Succession s where
  named : ∀ t ∈ s.tasks, t.id ≠ "" ∧ t.rootTaskId ≠ some ""
  top : ∀ t ∈ s.tasks, t.parentTaskId = none → t.lineageDepth = 0 ∧ t.rootTaskId = none
  child : ∀ t ∈ s.tasks, ∀ p, t.parentTaskId = some p → ∃ parent ∈ s.tasks, parent.id = p ∧
    Continues parent t
  bound : ∀ t ∈ s.tasks, t.lineageDepth ≤ env.settings.fleetLineageMaxDepth

theorem Continues.transport {parent parent' t t' : Task} (h : Continues parent t)
    (above : Task.SameOrigin parent parent') (below : Task.SameOrigin t t') :
    Continues parent' t' where
  link := by rw [below.parent, above.id, h.link]
  workflow := by rw [below.workflowId, above.workflowId, h.workflow]
  principal := by rw [below.principal, above.principal, h.principal]
  executor := by rw [below.executor, above.executor, h.executor]
  depth := by rw [below.depth, above.depth, h.depth]
  root := by rw [below.root, above.root, above.id, h.root]

theorem orElse_eq_getD {a : Option String} {b : String} (h : a ≠ some "") : orElse a b = a.getD b := by
  cases a with
  | none => rfl
  | some v =>
      have : v ≠ "" := fun empty => h (by rw [empty])
      simp [orElse, this]

namespace Linked
variable {env : Env} {s s' : Store}

theorem of_blank (blank : s.Blank) : Linked env s := by
  refine ⟨.of_blank blank, ?_, ?_, ?_, ?_⟩ <;> intro t member <;>
    exact absurd member (blank.not_mem t)

/-- What is left to show of a commit: the links of the task it adds. -/
theorem of_carries (h : Linked env s) {new : Option Task} (carries : Carries s s' new)
    (succession : Succession s') (named : ∀ t, new = some t → t.id ≠ "" ∧ t.rootTaskId ≠ some "")
    (top : ∀ t, new = some t → t.parentTaskId = none → t.lineageDepth = 0 ∧ t.rootTaskId = none)
    (child : ∀ t, new = some t → ∀ p, t.parentTaskId = some p → ∃ parent ∈ s'.tasks,
      parent.id = p ∧ Continues parent t)
    (bound : ∀ t, new = some t → t.lineageDepth ≤ env.settings.fleetLineageMaxDepth) :
    Linked env s' := by
  refine ⟨succession, fun t member => ?_, fun t member lone => ?_, fun t member p link => ?_,
    fun t member => ?_⟩
  · rcases carries.back t member with added | ⟨old, stored, origin⟩
    · exact named t added
    · rw [origin.id, origin.root]
      exact h.named old stored
  · rcases carries.back t member with added | ⟨old, stored, origin⟩
    · exact top t added lone
    · rw [origin.depth, origin.root]
      exact h.top old stored (origin.parent.symm.trans lone)
  · rcases carries.back t member with added | ⟨old, stored, origin⟩
    · exact child t added p link
    · obtain ⟨parent, above, rfl, continues⟩ := h.child old stored p (origin.parent.symm.trans link)
      obtain ⟨parent', above', origin', _⟩ := carries.forth parent above
      exact ⟨parent', above', origin'.id, continues.transport origin' origin⟩
  · rcases carries.back t member with added | ⟨old, stored, origin⟩
    · exact bound t added
    · rw [origin.depth]
      exact h.bound old stored

theorem commit (h : Linked env s) {quiet : TaskEvent → Prop} {w : Work}
    (change : Change env Persists quiet s w) (fresh : w.StatusFresh s)
    (committed : Store.flush w s = .ok s') : Linked env s' := by
  have carries := change.carries fresh committed
  have succession := h.toSuccession.commit change fresh committed
  cases change with
  | move | note | inject => refine h.of_carries carries succession ?_ ?_ ?_ ?_ <;> rintro t ⟨⟩
  | create task caller now first =>
      apply h.of_carries carries succession
      · intro t new
        cases new
        exact ⟨first.named, by simp [first.root]⟩
      · intro t new _
        cases new
        exact ⟨first.depth, first.root⟩
      · intro t new p link
        cases new
        rw [first.parent] at link
        cases link
      · intro t new
        cases new
        rw [first.depth]
        exact Nat.zero_le _
  | succeed task task' e touched valid superseded records room hex input priority now key metadata
      caller link =>
      obtain ⟨before, member, origin⟩ := touched.stored.stored
      have names : task.id ≠ "" ∧ task.rootTaskId ≠ some "" := by
        rw [← origin.id, ← origin.root]
        exact h.named before member
      have root : (successor task task.workflowId hex input priority now key metadata).rootTaskId =
          some (task.rootTaskId.getD task.id) := congrArg some (orElse_eq_getD names.2)
      apply h.of_carries carries succession
      · intro t new
        cases new
        refine ⟨newTaskId_ne_empty hex, ?_⟩
        rw [root]
        intro empty
        cases r : task.rootTaskId with
        | none => rw [r] at empty; exact names.1 (Option.some.inj empty)
        | some v => rw [r] at empty; exact names.2 (by rw [r]; exact empty)
      · intro t new lone
        cases new
        cases lone
      · rintro t ⟨⟩ p ⟨⟩
        obtain ⟨after, member', origin', _⟩ := carries.forth before member
        have fields := origin.trans origin'
        refine ⟨after, member', fields.id, ?_⟩
        exact {
          link := congrArg some fields.id.symm
          workflow := fields.workflowId.symm
          principal := fields.principal.symm
          executor := fields.executor.symm
          depth := congrArg (· + 1) fields.depth.symm
          root := by rw [root, fields.root, fields.id] }
      · intro t new
        cases new
        exact room

end Linked

theorem Reachable.linked {env : Env} {s : Store} (h : Reachable env s) : Linked env s :=
  h.invariant (fun _ blank => .of_blank blank)
    (fun _ _ _ old =>
      ⟨⟨old.superseded, old.only⟩, old.named, old.top, old.child, old.bound⟩)
    fun _ _ _ _ old change committed => old.commit change.alone.1 change.alone.2 committed

/-! ## The chain -/

def ParentOf (s : Store) (parent t : Task) : Prop :=
  parent ∈ s.tasks ∧ t.parentTaskId = some parent.id

def AncestorOf (s : Store) : Task → Task → Prop := Relation.TransGen (ParentOf s)

theorem AncestorOf.stored {s : Store} {a t : Task} (h : AncestorOf s a t) : a ∈ s.tasks := by
  rw [AncestorOf, Relation.TransGen.head'_iff] at h
  obtain ⟨_, link, _⟩ := h
  exact link.1

def Store.parent? (s : Store) (t : Task) : Option Task := t.parentTaskId.bind s.tasks.find?

theorem parent?_eq_some {s : Store} {parent t : Task} :
    s.parent? t = some parent ↔ ParentOf s parent t := by
  unfold Store.parent? ParentOf
  rw [Option.bind_eq_some_iff]
  constructor
  · intro child
    obtain ⟨p, link, found⟩ := child
    obtain ⟨member, rfl⟩ := Table.find?_eq_some.mp found
    exact ⟨member, link⟩
  · intro child
    obtain ⟨member, link⟩ := child
    exact ⟨parent.id, link, Table.find?_mem member⟩

namespace Linked
variable {env : Env} {s : Store} (h : Linked env s)
include h

theorem parent_none {t : Task} (member : t ∈ s.tasks) :
    s.parent? t = none ↔ t.parentTaskId = none := by
  constructor
  · intro orphan
    cases link : t.parentTaskId with
    | none => rfl
    | some p =>
        obtain ⟨parent, above, rfl, _⟩ := h.child t member p link
        rw [parent?_eq_some.mpr ⟨above, link⟩] at orphan
        cases orphan
  · intro top
    rw [Store.parent?, top]
    rfl

theorem continues {parent t : Task} (member : t ∈ s.tasks) (link : ParentOf s parent t) :
    Continues parent t := by
  obtain ⟨parent', above, same, continues⟩ := h.child t member parent.id link.2
  exact Table.eq_of_key above link.1 same ▸ continues

def forest : Forest Task where
  node := fun t => t ∈ s.tasks
  parent := s.parent?
  depth := Task.lineageDepth
  closed _ _ _ link := (parent?_eq_some.mp link).1
  top t member orphan := (h.top t member ((h.parent_none member).mp orphan)).1
  below _ _ member link := (h.continues member (parent?_eq_some.mp link)).depth

theorem ancestor_iff {a t : Task} : h.forest.Ancestor a t ↔ AncestorOf s a t := by
  have same : (fun b a => h.forest.parent a = some b) = ParentOf s := by
    funext b a
    exact propext parent?_eq_some
  rw [Forest.Ancestor, AncestorOf, same]

theorem root_eq {a t : Task} (member : t ∈ s.tasks) (ancestor : AncestorOf s a t)
    (top : a.parentTaskId = none) : t.rootTaskId = some a.id := by
  induction ancestor with
  | single link =>
      have step := h.continues member link
      rw [step.root, (h.top a link.1 top).2]
      rfl
  | tail _ link ih =>
      have step := h.continues member link
      rw [step.root, ih link.1]
      rfl

theorem ancestorIds_run (fuel : Nat) {t : Task} (member : t ∈ s.tasks) :
    (ancestorIds fuel t.parentTaskId).run Store.flush s =
      (.ok ((h.forest.climb fuel t).map Task.id), s) := by
  induction fuel generalizing t with
  | zero => rfl
  | succ fuel ih =>
      cases link : t.parentTaskId with
      | none =>
          have orphan : h.forest.parent t = none := (h.parent_none member).mpr link
          simp only [ancestorIds, Forest.climb, orphan]
          rfl
      | some p =>
          obtain ⟨parent, above, rfl, _⟩ := h.child t member p link
          have found : h.forest.parent t = some parent := parent?_eq_some.mpr ⟨above, link⟩
          have stored := Table.find?_mem above
          simp only [ancestorIds, Forest.climb, found, Db.query, Prog.run_bind, Prog.run, stored,
            Prog.pure_eq, ih above, List.map_cons]

theorem buildLineageChain_run {t : Task} (member : t ∈ s.tasks) :
    (buildLineageChain t).run Store.flush s =
      (.ok (((h.forest.climb t.lineageDepth t).reverse ++ [t]).map Task.id), s) := by
  simp only [buildLineageChain, Prog.run_bind, h.ancestorIds_run t.lineageDepth member,
    Prog.pure_eq, Prog.run, List.reverse_cons, List.map_append, List.map_reverse, List.map_cons,
    List.map_nil]

end Linked

/-- A stored task and its place in its lineage. -/
structure WellPlaced (env : Env) (s : Store) (t : Task) : Prop where
  top : t.parentTaskId = none → t.lineageDepth = 0 ∧ t.rootTaskId = none
  child : ∀ p, t.parentTaskId = some p → ∃ parent ∈ s.tasks, parent.id = p ∧
    t.workflowId = parent.workflowId ∧ t.principalAgentId = parent.principalAgentId ∧
    t.executorAgentId = parent.executorAgentId ∧ t.lineageDepth = parent.lineageDepth + 1 ∧
    (parent.status = .retasked ∨ parent.status = .redirected) ∧
    ∀ u ∈ s.tasks, u.parentTaskId = some p → u = t
  root : t.parentTaskId ≠ none → ∃ r, (AncestorOf s r t ∧ r.parentTaskId = none) ∧
    (∀ r', AncestorOf s r' t → r'.parentTaskId = none → r' = r) ∧ t.rootTaskId = some r.id
  bound : t.lineageDepth ≤ env.settings.fleetLineageMaxDepth
  chain : ∃ ancestors : List Task,
    (buildLineageChain t).run Store.flush s = (.ok ((ancestors ++ [t]).map Task.id), s) ∧
      (ancestors ++ [t]).IsChain (ParentOf s) ∧ (∀ a, a ∈ ancestors ↔ AncestorOf s a t) ∧
      (ancestors ++ [t]).length = t.lineageDepth + 1 ∧ ((ancestors ++ [t]).map Task.id).Nodup

theorem Linked.wellPlaced {env : Env} {s : Store} (h : Linked env s) {t : Task}
    (member : t ∈ s.tasks) : WellPlaced env s t where
  top := h.top t member
  child p link := by
    obtain ⟨parent, above, same, step⟩ := h.child t member p link
    obtain ⟨parent', above', same', superseded⟩ := h.superseded t member p link
    have : parent' = parent := Table.eq_of_key above' above (same'.trans same.symm)
    refine ⟨parent, above, same, step.workflow, step.principal, step.executor, step.depth,
      this ▸ superseded, fun u other link' => (h.only t member u other ?_ ?_).symm⟩
    · rw [link]
      exact Option.some_ne_none p
    · rw [link, link']
  root child := by
    have linked : h.forest.parent t ≠ none := fun orphan => child ((h.parent_none member).mp orphan)
    obtain ⟨r, ⟨far, top⟩, only⟩ := Forest.exists_unique_top (F := h.forest) member linked
    have far' := h.ancestor_iff.mp far
    have lone := (h.parent_none far'.stored).mp top
    refine ⟨r, ⟨far', lone⟩, fun r' up top' => ?_, h.root_eq member far' lone⟩
    exact only r' (h.ancestor_iff.mpr up) ((h.parent_none up.stored).mpr top')
  bound := h.bound t member
  chain := by
    refine ⟨(h.forest.climb t.lineageDepth t).reverse, h.buildLineageChain_run member, ?_, ?_, ?_, ?_⟩
    · have linked := h.forest.climb_linked t.lineageDepth t
      rw [← List.reverse_cons, List.isChain_reverse]
      exact linked.imp fun a b link => parent?_eq_some.mp link
    · intro a
      rw [List.mem_reverse, ← h.ancestor_iff]
      exact Forest.mem_climb (F := h.forest) member
    · have size : (h.forest.climb t.lineageDepth t).length = t.lineageDepth :=
        Forest.climb_length (F := h.forest) member
      simp [size]
    · have distinct : (t :: h.forest.climb t.lineageDepth t).Nodup :=
        Forest.climb_nodup (F := h.forest) member
      have inside : ∀ a ∈ t :: h.forest.climb t.lineageDepth t, a ∈ s.tasks := by
        intro a listed
        rcases List.mem_cons.mp listed with rfl | up
        · exact member
        · exact AncestorOf.stored (h.ancestor_iff.mp
            ((Forest.mem_climb (F := h.forest) member).mp up))
      rw [← List.reverse_cons, List.map_reverse, List.nodup_reverse]
      exact distinct.map_on fun a ha b hb same => Table.eq_of_key (inside a ha) (inside b hb) same

/-- Every task of every run is well placed in its lineage. -/
theorem lineage_well_formed (env : Env) {s : Store} (start : s.Blank) (steps : List Step) :
    ∀ t ∈ (runSteps env steps s).tasks, WellPlaced env (runSteps env steps s) t :=
  fun _ member => ((Reachable.start start).runSteps steps : Reachable env _).linked.wellPlaced member

theorem lineage_well_formed_retask :
    ∃ t ∈ (runSteps Demo.env Demo.retasked Demo.store).tasks, t.parentTaskId = some "task-a" ∧
      WellPlaced Demo.env (runSteps Demo.env Demo.retasked Demo.store) t := by
  obtain ⟨t, member, link⟩ : ∃ t ∈ (runSteps Demo.env Demo.retasked Demo.store).tasks.rows,
      t.parentTaskId = some "task-a" := by decide +kernel
  exact ⟨t, member, link, lineage_well_formed Demo.env Demo.store_blank Demo.retasked t member⟩

end Fleet.Api
