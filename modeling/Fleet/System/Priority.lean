/- The order of the pending query and the tasks that a round of the poller starts. -/
import Fleet.Agent.Dispatching
import Fleet.System.Composed
import Fleet.Api.PendingQuery

namespace Fleet.Agent.TaskPoller

/-! ## One round -/

/-- The polled tasks that are not in flight, up to the places that are free. -/
def startable (p : TaskPoller) (items : List PendingTask) : List PendingTask :=
  (items.filter fun t => t.taskId ∉ p.inFlight).take (p.maxConcurrent - p.inFlight.card).toNat

/-- A round starts them and no others, in the order of the poll. -/
theorem round_starts (p : TaskPoller) {items : List PendingTask}
    (distinct : (items.map PendingTask.taskId).Nodup) :
    (p.round items).2 = (p.startable items).map fun t => .dispatched t.taskId := by
  unfold startable
  induction items generalizing p with
  | nil => simp [round]
  | cons task rest ih =>
      obtain ⟨apart, later⟩ := List.nodup_cons.mp distinct
      rw [round]
      split_ifs with flies full
      · rw [ih p later, List.filter_cons_of_neg (by simpa using flies)]
      · have none : (p.maxConcurrent - p.inFlight.card).toNat = 0 := by omega
        rw [none, List.take_zero, List.map_nil]
      · -- the started task is not in the rest, so it hides none of them
        have same : (rest.filter fun t => t.taskId ∉ (p.dispatch task).inFlight) =
            rest.filter fun t => t.taskId ∉ p.inFlight := by
          refine List.filter_congr fun t member => ?_
          have other : t.taskId ≠ task.taskId := fun eq =>
            apart (eq ▸ List.mem_map_of_mem member)
          simp [dispatch, other]
        have places : (p.maxConcurrent - p.inFlight.card).toNat =
            ((p.dispatch task).maxConcurrent - (p.dispatch task).inFlight.card).toNat + 1 := by
          have grown : (p.dispatch task).inFlight.card = p.inFlight.card + 1 := by
            simp [dispatch, Finset.card_insert_of_notMem flies]
          have limit : (p.dispatch task).maxConcurrent = p.maxConcurrent := rfl
          omega
        have next := ih (p.dispatch task) later
        rw [same] at next
        rw [List.filter_cons_of_pos (by simpa using flies), places, List.take_succ_cons, List.map_cons]
        dsimp only
        rw [next]

end Fleet.Agent.TaskPoller

namespace Fleet.System
open Fleet.Lib Fleet.Api
open Fleet.Agent (TaskPoller PendingTask)

/-! ## What the listing should be -/

/-- The more urgent task, or the older one of two that are equally urgent. -/
def Urgent (a b : Task) : Prop :=
  priorityOrder b.priority < priorityOrder a.priority ∨
    (priorityOrder a.priority = priorityOrder b.priority ∧ a.createdAt ≤ b.createdAt)

instance (a b : Task) : Decidable (Urgent a b) := instDecidableOr

/-- The accepted tasks of the agent, each once, the most urgent first. -/
structure Listing (s : Store) (agentId : String) (tasks : List Task) : Prop where
  exact : tasks.Perm (acceptedTasks s agentId)
  ordered : tasks.Pairwise Urgent

theorem Urgent.total (a b : Task) : Urgent a b ∨ Urgent b a := by
  rcases lt_trichotomy (priorityOrder a.priority) (priorityOrder b.priority) with less | same | more
  · exact .inr (.inl less)
  · rcases le_total a.createdAt b.createdAt with older | younger
    · exact .inl (.inr ⟨same, older⟩)
    · exact .inr (.inr ⟨same.symm, younger⟩)
  · exact .inl (.inl more)

theorem Urgent.trans {a b c : Task} (first : Urgent a b) (second : Urgent b c) : Urgent a c := by
  rcases first with more | ⟨same, older⟩ <;> rcases second with more' | ⟨same', older'⟩
  · exact .inl (more'.trans more)
  · exact .inl (same' ▸ more)
  · exact .inl (same ▸ more')
  · exact .inr ⟨same.trans same', older.trans older'⟩

theorem selectPending_listing (s : Store) (agentId : String) {weight : Task → Int}
    (weighs : ∀ t, weight t = priorityOrder t.priority) :
    Listing s agentId (selectPending weight s agentId) := by
  have total : Std.Total Urgent := ⟨Urgent.total⟩
  have trans : IsTrans Task Urgent := ⟨fun _ _ _ => Urgent.trans⟩
  have same : selectPending weight s agentId = (acceptedTasks s agentId).insertionSort Urgent := by
    unfold selectPending Urgent
    simp only [weighs, Int.ofNat_lt, Int.natCast_inj]
  rw [same]
  exact ⟨List.perm_insertionSort _ _, List.pairwise_insertionSort _ _⟩

theorem pendingTasks_listing (s : Store) (agentId : String) : Listing s agentId (pendingTasks s agentId) := by
  have same : pendingTasks s agentId = selectPending (fun t => priorityOrder t.priority) s agentId := by
    unfold pendingTasks selectPending acceptedTasks
    simp only [Int.ofNat_lt, Int.natCast_inj]
  rw [same]
  exact selectPending_listing s agentId fun _ => rfl

theorem Listing.distinct {s : Store} {agentId : String} {tasks : List Task}
    (h : Listing s agentId tasks) : (tasks.map Task.id).Nodup :=
  (h.exact.map Task.id).nodup_iff.mpr (s.tasks.nodup.sublist (List.filter_sublist.map Task.id))

/-! ## A poll and its round -/

/-- The tasks a round starts are the first that are not in flight, as far as there are
places, and none is started while a more urgent one waits. -/
structure Prioritised (env : Env) (p : TaskPoller) (tasks : List Task) : Prop where
  starts : (p.round (tasks.map (pendingItem env))).2 =
    ((tasks.filter fun t => t.id ∉ p.inFlight).take (p.maxConcurrent - p.inFlight.card).toNat).map
      fun t => .dispatched t.id
  urgent : ∀ a ∈ tasks, ∀ b ∈ tasks,
    .dispatched a.id ∈ (p.round (tasks.map (pendingItem env))).2 → b.id ∉ p.inFlight →
    .dispatched b.id ∉ (p.round (tasks.map (pendingItem env))).2 → Urgent a b

theorem Listing.prioritised {s : Store} {agentId : String} {tasks : List Task}
    (h : Listing s agentId tasks) (env : Env) (p : TaskPoller) : Prioritised env p tasks := by
  have ids : (tasks.map (pendingItem env)).map PendingTask.taskId = tasks.map Task.id := by
    rw [List.map_map]
    rfl
  have starts := p.round_starts (ids ▸ h.distinct)
  have free : ((tasks.map (pendingItem env)).filter fun t => t.taskId ∉ p.inFlight) =
      (tasks.filter fun t => t.id ∉ p.inFlight).map (pendingItem env) := by
    rw [List.filter_map]
    rfl
  rw [TaskPoller.startable, free, ← List.map_take, List.map_map] at starts
  generalize places : (p.maxConcurrent - p.inFlight.card).toNat = k at starts
  refine ⟨by rw [places]; exact starts, fun a known b member started idle waiting => ?_⟩
  have split := List.take_append_drop k (tasks.filter fun t => t.id ∉ p.inFlight)
  have ordered := h.ordered.sublist (List.filter_sublist (p := fun t => t.id ∉ p.inFlight))
  rw [← split, List.pairwise_append] at ordered
  rw [starts] at started waiting
  obtain ⟨a', first, same⟩ := List.mem_map.mp started
  have own : a' = a := by
    have inside := List.mem_of_mem_filter (List.mem_of_mem_take first)
    exact List.inj_on_of_nodup_map h.distinct inside known (TaskPoller.Report.dispatched.inj same)
  have free : b ∈ tasks.filter fun t => t.id ∉ p.inFlight := List.mem_filter.mpr ⟨member, by simpa using idle⟩
  rw [← split, List.mem_append] at free
  rcases free with chosen | left
  · exact absurd (List.mem_map.mpr ⟨b, chosen, rfl⟩) waiting
  · exact ordered.2.2 a (own ▸ first) b left

/-! ## The call that is made -/

/-- No store and no agent gets the listing; whatever listing a poll were given, the round
over it would be as it should. -/
theorem pending_listing_never (value : SqlCall → Task → Int) (env : Env) (s : Store) (agentId : String) :
    (¬ ∃ tasks, (getPendingTasks value agentId).run Store.flush s = (.ok tasks, s) ∧
        Listing s agentId tasks) ∧
      ∀ tasks, Listing s agentId tasks → ∀ p : TaskPoller, Prioritised env p tasks := by
  refine ⟨?_, fun tasks listing p => listing.prioritised env p⟩
  rintro ⟨tasks, answers, -⟩
  rw [getPendingTasks_raises] at answers
  cases answers

namespace Demo

def urgentRequest : Op := .createTask (Api.Demo.at' 1) "b"
  { workflowId := "wf", callerAgentId := "principal", input := [], priority := "critical" }

/-- A normal task and then a critical one, both accepted. -/
def waiting : Store :=
  runSteps Api.Demo.env [.op (Api.Demo.create 0 "a"), .op urgentRequest] Api.Demo.store

def poller : TaskPoller := { maxConcurrent := 1, signals := none }

end Demo

theorem pending_listing_waiting : Prioritised Api.Demo.env Demo.poller
    (pendingTasks Demo.waiting "executor") :=
  (pending_listing_never (fun _ t => priorityOrder t.priority) Api.Demo.env Demo.waiting "executor").2 _
    (pendingTasks_listing Demo.waiting "executor") Demo.poller

/-- Two tasks wait for the agent, the critical one to be listed first, and the call raises. -/
theorem waiting_never_listed :
    (pendingTasks Demo.waiting "executor").map Task.id = ["task-b", "task-a"] ∧
      ((getPendingTasks (fun _ t => priorityOrder t.priority) "executor").run Store.flush Demo.waiting).1 =
        .error (unexpectedKeyword "else_") := by
  refine ⟨by decide +kernel, ?_⟩
  rw [getPendingTasks_raises]

end Fleet.System
