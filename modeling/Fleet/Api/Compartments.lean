/- Groups of workflows with their tasks and idempotency keys: what two stores have to agree
   on for such a group, and the commits that stay within it. -/
import Fleet.Lib.Isolation
import Fleet.Api.Service

namespace Fleet.Api
open Fleet.Lib

/-- Some workflows, the tasks in them, and the idempotency keys used for these. -/
structure Compartment where
  workflow : String → Bool
  task : String → Bool
  key : String → Bool

namespace Compartment

def outside (K : Compartment) : Compartment where
  workflow id := !K.workflow id
  task id := !K.task id
  key key := !K.key key

section division
variable (K : Compartment)

/-- The task lies with its workflow, its key and the tasks it continues on one side. -/
structure Divides (t : Task) : Prop where
  workflow : K.workflow t.workflowId = K.task t.id
  key : ∀ key, t.idempotencyKey = some key → K.key key = K.task t.id
  parent : ∀ id, t.parentTaskId = some id → K.task id = K.task t.id
  root : ∀ id, t.rootTaskId = some id → K.task id = K.task t.id

def Sound (s : Store) : Prop := ∀ t ∈ s.tasks, K.Divides t

def tasksOf (s : Store) : List Task := s.tasks.part fun t => K.task t.id

def eventsOf (s : Store) : List TaskEvent := s.events.part fun e => K.task e.taskId

/-- The stores show the same to whoever looks at the compartment and at the agents. -/
structure Agree (s s' : Store) : Prop where
  sound : K.Sound s
  sound' : K.Sound s'
  agents : s.agents = s'.agents
  workflows : ∀ id, K.workflow id = true → s.workflows.find? id = s'.workflows.find? id
  tasks : K.tasksOf s = K.tasksOf s'
  events : K.eventsOf s = K.eventsOf s'

end division

variable {K : Compartment}

theorem divides_outside {t : Task} : K.outside.Divides t ↔ K.Divides t := by
  constructor
  · intro h
    exact ⟨Bool.not_inj h.workflow, fun key own => Bool.not_inj (h.key key own),
      fun id own => Bool.not_inj (h.parent id own), fun id own => Bool.not_inj (h.root id own)⟩
  · intro h
    exact ⟨congrArg Bool.not h.workflow, fun key own => congrArg Bool.not (h.key key own),
      fun id own => congrArg Bool.not (h.parent id own), fun id own => congrArg Bool.not (h.root id own)⟩

theorem Divides.of_origin {t t' : Task} (h : K.Divides t) (origin : Task.SameOrigin t t') : K.Divides t' where
  workflow := by rw [origin.workflowId, origin.id, h.workflow]
  key key own := by rw [origin.id, h.key key (origin.key ▸ own)]
  parent id own := by rw [origin.id, h.parent id (origin.parent ▸ own)]
  root id own := by rw [origin.id, h.root id (origin.root ▸ own)]

theorem Sound.outside {s : Store} (h : K.Sound s) : K.outside.Sound s :=
  fun t member => divides_outside.mpr (h t member)

theorem Agree.refl {s : Store} (sound : K.Sound s) : K.Agree s s :=
  ⟨sound, sound, rfl, fun _ _ => rfl, rfl, rfl⟩

theorem Agree.symm {s s' : Store} (h : K.Agree s s') : K.Agree s' s :=
  ⟨h.sound', h.sound, h.agents.symm, fun id own => (h.workflows id own).symm, h.tasks.symm, h.events.symm⟩

/-! ## What they agree on -/

namespace Agree
variable {s s' : Store} (h : K.Agree s s')
include h

theorem findTask {id : String} (own : K.task id = true) : s.tasks.find? id = s'.tasks.find? id := by
  have inside : ∀ s : Store, ∀ t ∈ s.tasks, t.id = id → K.task t.id = true := fun _ t _ same => by rw [same, own]
  rw [Table.find?_of_part (inside s), Table.find?_of_part (inside s')]
  exact congrArg _ h.tasks

theorem eventsOf {id : String} (own : K.task id = true) : s.eventsOf id = s'.eventsOf id := by
  have inside : ∀ s : Store, ∀ e ∈ s.events.rows, decide (e.taskId = id) = true → K.task e.taskId = true :=
    fun _ e _ same => by rw [of_decide_eq_true same, own]
  rw [Store.eventsOf, Store.eventsOf, filter_part (inside s), filter_part (inside s')]
  exact congrArg _ h.events

theorem maxSequence {id : String} (own : K.task id = true) : s.maxSequence id = s'.maxSequence id := by
  rw [Store.maxSequence, h.eventsOf own, Store.maxSequence]

theorem contextEvents {id : String} (own : K.task id = true) :
    contextEvents s id = Fleet.Api.contextEvents s' id := by
  rw [Fleet.Api.contextEvents, h.eventsOf own, Fleet.Api.contextEvents]

theorem byIdempotencyKey? {key : String} (own : K.key key = true) :
    s.byIdempotencyKey? key = s'.byIdempotencyKey? key := by
  have inside : ∀ s : Store, K.Sound s → ∀ t ∈ s.tasks.rows, decide (t.idempotencyKey = some key) = true →
      K.task t.id = true := fun s sound t member same => by
    rw [← (sound t member).key key (of_decide_eq_true same), own]
  rw [Store.byIdempotencyKey?, find?_part (inside s h.sound), Store.byIdempotencyKey?,
    find?_part (inside s' h.sound')]
  exact congrArg _ h.tasks

theorem fetchTask {workflowId taskId : String} (inside : K.workflow workflowId = true) :
    (s.tasks.find? taskId).filter (fun t => t.workflowId = workflowId) =
      (s'.tasks.find? taskId).filter fun t => t.workflowId = workflowId := by
  cases own : K.task taskId with
  | true => rw [h.findTask own]
  | false =>
      have none : ∀ s : Store, K.Sound s →
          (s.tasks.find? taskId).filter (fun t => t.workflowId = workflowId) = none := by
        intro s sound
        refine Option.filter_eq_none_iff.mpr fun t found same => ?_
        obtain ⟨member, rfl⟩ := Table.find?_eq_some.mp found
        have there := (sound t member).workflow
        rw [of_decide_eq_true same, inside, own] at there
        cases there
      rw [none s h.sound, none s' h.sound']

theorem selectTasks {workflowId : String} (inside : K.workflow workflowId = true) (admits : Task → Bool) :
    selectTasks workflowId admits s = Fleet.Api.selectTasks workflowId admits s' := by
  have part : ∀ s : Store, K.Sound s → ∀ t ∈ s.tasks.rows,
      (decide (t.workflowId = workflowId) && admits t) = true → K.task t.id = true := by
    intro s sound t member holds
    have same := of_decide_eq_true (Bool.and_eq_true_iff.mp holds).1
    rw [← (sound t member).workflow, same, inside]
  rw [Fleet.Api.selectTasks, filter_part (part s h.sound), Fleet.Api.selectTasks, filter_part (part s' h.sound')]
  exact congrArg _ h.tasks

end Agree

/-! ## Commits within the compartment -/

variable (K) in
structure Writes (w : Work) : Prop where
  newTask : ∀ t, w.newTask = some t → K.task t.id = true ∧ K.Divides t
  dirty : ∀ loaded current, w.dirty = some (loaded, current) → K.task loaded.id = true
  newEvents : ∀ e ∈ w.newEvents, K.task e.taskId = true

section commits
variable {s s' : Store}

theorem insert?_agree {κ ρ : Type} [DecidableEq κ] {key : ρ → κ} {t t' : Table κ ρ key} {r : ρ}
    (same : t.find? (key r) = t'.find? (key r)) :
    (t.insert? r = none ∧ t'.insert? r = none) ∨ ∃ u u', t.insert? r = some u ∧ t'.insert? r = some u' := by
  cases free : t.find? (key r) with
  | none =>
      obtain ⟨u, inserted⟩ := Table.insert?_isSome.mpr free
      obtain ⟨u', inserted'⟩ := Table.insert?_isSome.mpr (same ▸ free)
      exact .inr ⟨u, u', inserted, inserted'⟩
  | some taken =>
      refine .inl ⟨Option.eq_none_iff_forall_ne_some.mpr fun u inserted => ?_,
        Option.eq_none_iff_forall_ne_some.mpr fun u inserted => ?_⟩
      · rw [(Table.insert?_eq_some.mp inserted).1] at free
        cases free
      · rw [same, (Table.insert?_eq_some.mp inserted).1] at free
        cases free

theorem Agree.insertTask (h : K.Agree s s') {t : Task} (own : K.task t.id = true) (divides : K.Divides t) :
    SameOutcome K.Agree (s.insertTask t) (s'.insertTask t) := by
  have references : s.references t = s'.references t := by
    have parent : ∀ p ∈ t.parentTaskId, (s.tasks.find? p).isSome = (s'.tasks.find? p).isSome := fun p named => by
      rw [h.findTask ((divides.parent p named).trans own)]
    have root : ∀ r ∈ t.rootTaskId, (s.tasks.find? r).isSome = (s'.tasks.find? r).isSome := fun r named => by
      rw [h.findTask ((divides.root r named).trans own)]
    rw [Store.references, h.agents, h.workflows _ (divides.workflow.trans own), Store.references]
    congr 1
    · congr 1
      cases named : t.parentTaskId with
      | none => rfl
      | some p => exact parent p named
    · cases named : t.rootTaskId with
      | none => rfl
      | some r => exact root r named
  have keys : (t.idempotencyKey.any fun key => (s.byIdempotencyKey? key).isSome) =
      t.idempotencyKey.any fun key => (s'.byIdempotencyKey? key).isSome := by
    cases named : t.idempotencyKey with
    | none => rfl
    | some key => exact congrArg Option.isSome (h.byIdempotencyKey? ((divides.key key named).trans own))
  unfold Store.insertTask
  rw [references, keys]
  split_ifs
  · exact .error _
  · exact .error _
  · exact .error _
  rcases insert?_agree (h.findTask own) with ⟨taken, taken'⟩ | ⟨u, u', inserted, inserted'⟩
  · rw [taken, taken']
    exact .error _
  · rw [inserted, inserted']
    refine .ok ⟨?_, ?_, h.agents, h.workflows, ?_, h.events⟩
    · intro x member
      rcases (Table.mem_insert? inserted).mp member with old | rfl
      · exact h.sound x old
      · exact divides
    · intro x member
      rcases (Table.mem_insert? inserted').mp member with old | rfl
      · exact h.sound' x old
      · exact divides
    · exact (Table.part_insert? inserted).trans
        ((congrArg (· ++ _) h.tasks).trans (Table.part_insert? inserted').symm)

theorem Sound.updateTask (h : K.Sound s) (loaded current : Task) : K.Sound (s.updateTask loaded current) := by
  intro x member
  obtain ⟨t, stored, rfl⟩ := Store.updateTask_mem.mp member
  split
  · exact (h t stored).of_origin (Task.writeBack_origin _ _ _)
  · exact h t stored

theorem tasksOf_updateTask (loaded current : Task) : K.tasksOf (s.updateTask loaded current) =
    (K.tasksOf s).map fun t => if t.id = loaded.id then Task.writeBack loaded current t else t := by
  simp only [tasksOf, Store.updateTask]
  exact Table.part_modify fun t => congrArg K.task (Task.writeBack_origin loaded current t).id

theorem Agree.updateTask (h : K.Agree s s') (loaded current : Task) :
    K.Agree (s.updateTask loaded current) (s'.updateTask loaded current) where
  sound := h.sound.updateTask loaded current
  sound' := h.sound'.updateTask loaded current
  agents := h.agents
  workflows := h.workflows
  tasks := by rw [tasksOf_updateTask, tasksOf_updateTask, h.tasks]
  events := h.events

theorem Agree.insertEvent (h : K.Agree s s') {e : TaskEvent} (own : K.task e.taskId = true) :
    SameOutcome K.Agree (s.insertEvent e) (s'.insertEvent e) := by
  have slot : s.events.find? e.slot = s'.events.find? e.slot := by
    have inside : ∀ s : Store, ∀ x ∈ s.events, x.slot = e.slot → K.task x.taskId = true := fun _ x _ same => by
      rw [(Prod.mk.inj same).1, own]
    rw [Table.find?_of_part (inside s), Table.find?_of_part (inside s')]
    exact congrArg _ h.events
  unfold Store.insertEvent
  rw [h.findTask own]
  split_ifs
  · exact .error _
  · exact .error _
  rcases insert?_agree slot with ⟨taken, taken'⟩ | ⟨u, u', inserted, inserted'⟩
  · rw [taken, taken']
    exact .error _
  · rw [inserted, inserted']
    exact .ok ⟨h.sound, h.sound', h.agents, h.workflows, h.tasks, (Table.part_insert? inserted).trans
      ((congrArg (· ++ _) h.events).trans (Table.part_insert? inserted').symm)⟩

theorem Agree.insertEvents (h : K.Agree s s') {es : List TaskEvent} (own : ∀ e ∈ es, K.task e.taskId = true) :
    SameOutcome K.Agree (Store.insertEvents es s) (Store.insertEvents es s') := by
  induction es generalizing s s' with
  | nil => exact .ok h
  | cons e es ih =>
      have first := h.insertEvent (own e List.mem_cons_self)
      unfold Store.insertEvents
      generalize s.insertEvent e = left, s'.insertEvent e = right at first
      cases first with
      | ok related => exact ih related fun x member => own x (List.mem_cons_of_mem _ member)
      | error e => exact .error e

theorem flush_mirrored : Mirrored Store.flush K.Agree K.Writes := by
  intro w s s' writes h
  have log : ∀ {t t' : Store}, K.Agree t t' → SameOutcome K.Agree (Store.insertEvents w.newEvents t)
      (Store.insertEvents w.newEvents t') := fun related => related.insertEvents writes.newEvents
  unfold Store.flush
  cases new : w.newTask with
  | none =>
      cases w.dirty with
      | none => exact log h
      | some pair => exact log (h.updateTask pair.1 pair.2)
  | some t =>
      have inserted := h.insertTask (writes.newTask t new).1 (writes.newTask t new).2
      dsimp only
      generalize s.insertTask t = left, s'.insertTask t = right at inserted
      cases inserted with
      | error e => exact .error e
      | ok related =>
          cases w.dirty with
          | none => exact log related
          | some pair => exact log (related.updateTask pair.1 pair.2)

theorem flush_apart : Apart Store.flush K.Agree K.outside.Writes := by
  intro w s s' t writes h committed
  obtain ⟨mid, inserted, agents, workflows, tasks, events⟩ := Store.flush_ok committed
  have first : K.Sound mid ∧ K.tasksOf mid = K.tasksOf s := by
    cases new : w.newTask with
    | none =>
        rw [new] at inserted
        cases inserted
        exact ⟨h.sound, rfl⟩
    | some x =>
        rw [new] at inserted
        obtain ⟨-, -, -, u, into, rfl⟩ := Store.insertTask_ok inserted
        obtain ⟨foreign, divides⟩ := writes.newTask x new
        refine ⟨fun y member => ?_, ?_⟩
        · rcases (Table.mem_insert? into).mp member with old | rfl
          · exact h.sound y old
          · exact divides_outside.mp divides
        · refine (Table.part_insert? into).trans ?_
          rw [if_neg (by simpa [outside] using foreign), List.append_nil]
          rfl
  have second : K.Sound t ∧ K.tasksOf t = K.tasksOf mid := by
    cases dirty : w.dirty with
    | none =>
        rw [dirty] at tasks
        dsimp only at tasks
        exact ⟨fun y member => first.1 y (tasks ▸ member), congrArg (Table.part _) tasks⟩
    | some pair =>
        obtain ⟨loaded, current⟩ := pair
        rw [dirty] at tasks
        dsimp only at tasks
        have foreign : K.task loaded.id = false := by simpa [outside] using writes.dirty loaded current dirty
        refine ⟨fun y member => first.1.updateTask loaded current y (tasks ▸ member), ?_⟩
        refine (congrArg (Table.part _) tasks).trans ((tasksOf_updateTask loaded current).trans ?_)
        refine (List.map_congr_left fun y member => if_neg fun same => ?_).trans (List.map_id _)
        have own := (List.mem_filter.mp member).2
        rw [same, foreign] at own
        cases own
  have log : K.eventsOf t = K.eventsOf s := by
    have none : w.newEvents.filter (fun e => K.task e.taskId) = [] :=
      List.filter_eq_nil_iff.mpr fun e member => by simpa [outside] using writes.newEvents e member
    rw [eventsOf, Table.part, events, List.filter_append, none, List.append_nil]
    rfl
  exact ⟨second.1, h.sound', agents.trans h.agents, fun id own => by rw [workflows, h.workflows id own],
    second.2.trans (first.2.trans h.tasks), log.trans h.events⟩

/-! ## The commits of the service -/

variable (K) in
/-- A commit to the tasks or the workflows of the compartment. -/
def Owns : ServiceWork → Prop
  | .tasks w => K.Writes w
  | .workflows (.insert workflow) => K.workflow workflow.id = true
  | .workflows (.update loaded _ _) => K.workflow loaded.id = true
  | .agents _ => False

variable (K) in
/-- The agents belong to nobody alone. -/
def OwnsOrShares : ServiceWork → Prop
  | .agents _ => True
  | w => K.Owns w

theorem Agree.withWorkflows (h : K.Agree s s') {u u' : Table String Workflow Workflow.id}
    (same : ∀ id, K.workflow id = true → u.find? id = u'.find? id) :
    K.Agree { s with workflows := u } { s' with workflows := u' } :=
  ⟨h.sound, h.sound', h.agents, same, h.tasks, h.events⟩

theorem Agree.withAgents (h : K.Agree s s') {u u' : Table String Agent Agent.id} (same : u = u') :
    K.Agree { s with agents := u } { s' with agents := u' } :=
  ⟨h.sound, h.sound', same, h.workflows, h.tasks, h.events⟩

theorem flushWorkflow_agree (h : K.Agree s s') {w : WorkflowWork} (own : K.Owns (.workflows w)) :
    SameOutcome K.Agree (s.flushWorkflow w) (s'.flushWorkflow w) := by
  cases w with
  | insert workflow =>
      simp only [Store.flushWorkflow, h.agents]
      split_ifs
      · exact .error _
      · exact .error _
      rcases insert?_agree (h.workflows workflow.id own) with ⟨taken, taken'⟩ | ⟨u, u', inserted, inserted'⟩
      · rw [taken, taken']
        exact .error _
      · rw [inserted, inserted']
        refine .ok ⟨h.sound, h.sound', rfl, fun id inside => ?_, h.tasks, h.events⟩
        rw [Table.find?_insert? inserted, Table.find?_insert? inserted', h.workflows id inside]
  | update loaded current dbNow =>
      simp only [Store.flushWorkflow, h.workflows loaded.id own]
      cases s'.workflows.find? loaded.id with
      | none => exact .error _
      | some stored =>
          dsimp only
          split_ifs
          · exact .error _
          · refine .ok (h.withWorkflows fun id inside => ?_)
            rw [Table.find?_modify, Table.find?_modify, h.workflows id inside]

theorem flushAgent_agree (h : K.Agree s s') (w : AgentWork) :
    SameOutcome K.Agree (s.flushAgent w) (s'.flushAgent w) := by
  cases w with
  | insert agent =>
      simp only [Store.flushAgent, h.agents]
      split_ifs
      · exact .error _
      cases s'.agents.insert? agent with
      | none => exact .error _
      | some u => exact .ok (h.withAgents rfl)
  | heartbeat loaded now =>
      simp only [Store.flushAgent, commitHeartbeat, h.agents]
      cases s'.agents.find? loaded.id with
      | none => exact .error _
      | some stored => exact .ok (h.withAgents rfl)
  | mark staleIds =>
      simp only [Store.flushAgent, markUnreachable, markable, h.agents]
      exact .ok (h.withAgents rfl)

theorem flushService_mirrored : Mirrored Store.flushService K.Agree K.OwnsOrShares := by
  intro w s s' own h
  cases w with
  | tasks w => exact (flush_mirrored w s s' own h).mapError
  | workflows w => exact (flushWorkflow_agree h (by cases w <;> exact own)).mapError
  | agents w => exact (flushAgent_agree h w).mapError

theorem flushService_apart : Apart Store.flushService K.Agree K.outside.Owns := by
  intro w s s' t writes h committed
  cases w with
  | tasks w => exact flush_apart w s s' t writes h (mapError_ok committed)
  | agents w => exact writes.elim
  | workflows w =>
      have done := mapError_ok committed
      cases w with
      | insert workflow =>
          have foreign : K.workflow workflow.id = false := by simpa [outside, Owns] using writes
          simp only [Store.flushWorkflow] at done
          split_ifs at done
          split at done
          · rename_i u inserted
            cases done
            refine ⟨h.sound, h.sound', h.agents, fun id own => ?_, h.tasks, h.events⟩
            rw [Table.find?_insert? inserted, if_neg fun same => ?_]
            · exact h.workflows id own
            · rw [same, own] at foreign
              cases foreign
          · cases done
      | update loaded current dbNow =>
          have foreign : K.workflow loaded.id = false := by simpa [outside, Owns] using writes
          simp only [Store.flushWorkflow] at done
          split at done
          · cases done
          · split_ifs at done
            cases done
            refine ⟨h.sound, h.sound', h.agents, fun id own => ?_, h.tasks, h.events⟩
            rw [Table.find?_modify, if_neg fun same => ?_]
            · exact h.workflows id own
            · rw [← same, own] at foreign
              cases foreign

end commits
end Compartment
end Fleet.Api
