/- The operations on the tasks of a compartment see and write nothing outside it. -/
import Fleet.Api.Compartments

namespace Fleet.Api
open Fleet.Lib

namespace Compartment
variable {K : Compartment}

/-! ## Statements -/

section statements
variable {V : Store → Store → Prop} {R : Work → Prop} {α : Type} {Q : α → Prop}

theorem confined_query {q : Store → α} (alike : ∀ s s', V s s' → q s = q s' ∧ Q (q s)) :
    (Db.query q).Confined V R Q :=
  Prog.confined_select alike

theorem confined_fetch {q : Store → Option α} {e : FleetAPIError}
    (alike : ∀ s s', V s s' → q s = q s' ∧ ∀ a, q s = some a → Q a) : (Db.fetch q e).Confined V R Q := by
  intro s s' related
  obtain ⟨same, post⟩ := alike s s' related
  dsimp only
  rw [← same]
  refine ⟨rfl, ?_⟩
  cases found : q s with
  | none => trivial
  | some a => exact post a found

theorem confined_ensure {c : Prop} [Decidable c] {e : FleetAPIError} :
    (Db.ensure c e).Confined V R fun _ => c := by
  unfold Db.ensure
  split
  · assumption
  · trivial

theorem confined_ofExcept {r : Except Failure α} : (Db.ofExcept r).Confined V R fun a => r = .ok a := by
  cases r with
  | ok a => exact rfl
  | error e => trivial

theorem confined_commit {w : Work} (promised : R w) : (Db.commit w).Confined V R fun _ => True :=
  ⟨promised, trivial⟩

end statements

/-! ## Tasks of the compartment -/

variable (K) in
/-- The task is one of the compartment, with its key and its lineage. -/
structure Has (t : Task) : Prop where
  own : K.task t.id = true
  divides : K.Divides t

theorem Has.of_origin {t t' : Task} (h : K.Has t) (origin : Task.SameOrigin t t') : K.Has t' :=
  ⟨by rw [origin.id, h.own], h.divides.of_origin origin⟩

theorem Has.transitionTo {t t' : Task} {nowUtc : Time} {status : TaskStatus} (h : K.Has t)
    (moved : t.transitionTo nowUtc status = .ok t') : K.Has t' :=
  h.of_origin (Task.transitionTo_origin moved)

theorem Has.writes {t t' : Task} {es : List TaskEvent} (h : K.Has t) (own : ∀ e ∈ es, e.taskId = t.id) :
    K.Writes { dirty := some (t, t'), newEvents := es } where
  newTask _ new := by cases new
  dirty _ _ same := by
    cases same
    exact h.own
  newEvents e member := by rw [own e member, h.own]

section tasks
variable {R : Work → Prop}

theorem confined_refresh {t : Task} (h : K.Has t) : (Db.refresh t).Confined K.Agree R K.Has := by
  refine confined_query fun s s' related => ?_
  rw [related.findTask h.own]
  refine ⟨rfl, ?_⟩
  cases found : s'.tasks.find? t.id with
  | none => exact h
  | some t' =>
      obtain ⟨member, same⟩ := Table.find?_eq_some.mp found
      exact ⟨(congrArg K.task same).trans h.own, related.sound' t' member⟩

theorem confined_maxSequence {t : Task} (h : K.Has t) :
    (Db.query fun s => s.maxSequence t.id).Confined K.Agree R fun _ => True :=
  confined_query fun _ _ related => ⟨related.maxSequence h.own, trivial⟩

variable {workflowId taskId agent verb : String} (inside : K.workflow workflowId = true)
include inside

theorem confined_fetchTask :
    (fetchTask workflowId taskId).Confined K.Agree R fun t => K.Has t ∧ t.id = taskId := by
  refine confined_fetch fun s s' related => ⟨related.fetchTask inside, fun t found => ?_⟩
  obtain ⟨found, there⟩ := Option.filter_eq_some_iff.mp found
  obtain ⟨member, same⟩ := Table.find?_eq_some.mp found
  have divides := related.sound t member
  refine ⟨⟨?_, divides⟩, same⟩
  rw [← divides.workflow, of_decide_eq_true there, inside]

theorem confined_authorized :
    (authorized workflowId taskId agent verb).Confined K.Agree R fun t => K.Has t ∧ t.id = taskId := by
  have workflow : (fetchWorkflow workflowId).Confined K.Agree R fun _ => True :=
    confined_fetch fun s s' related => ⟨related.workflows workflowId inside, fun _ _ => trivial⟩
  refine workflow.bind fun w _ => (confined_fetchTask inside).bind fun t has => ?_
  exact confined_ensure.bind fun _ _ => has

end tasks

/-! ## Operations on one task -/

section operations
variable {env : Env} {clk : Clock} {hex workflowId taskId agent : String} (inside : K.workflow workflowId = true)
include inside

theorem confined_cancelTask {reason : Option String} :
    (cancelTask clk workflowId taskId agent reason).Confined K.Agree K.Writes fun _ => True := by
  refine (confined_authorized inside).bind fun t has => ?_
  cases moved : t.transitionTo clk.nowUtc .cancelled with
  | error e => trivial
  | ok t' =>
      refine (confined_maxSequence has.1).bind fun last _ => ?_
      refine (confined_commit (has.1.writes fun e member => ?_)).bind fun _ _ => ?_
      · rw [List.mem_singleton.mp member]
      · exact (confined_refresh (has.1.transitionTo moved)).mono fun _ _ => trivial

theorem confined_pauseTask {reason : Option String} :
    (pauseTask env clk workflowId taskId agent reason).Confined K.Agree K.Writes fun _ => True := by
  refine (confined_authorized inside).bind fun t has => confined_ensure.bind fun _ _ => ?_
  cases moved : t.transitionTo clk.nowUtc .paused with
  | error e => trivial
  | ok t' =>
      have paused : Task.SameOrigin t' { t' with pausedAt := some clk.now } := rfl
      refine (confined_maxSequence has.1).bind fun last _ => ?_
      refine (confined_commit (has.1.writes fun e member => ?_)).bind fun _ _ => ?_
      · rw [List.mem_singleton.mp member]
      · exact (confined_refresh ((has.1.transitionTo moved).of_origin paused)).bind fun _ _ => trivial

omit inside in
theorem confined_expirePause {t : Task} (has : K.Has t) {elapsed : Int} :
    (expirePause env clk t elapsed).Confined K.Agree K.Writes fun _ => True := by
  have rest : ∀ t', K.Has t' → ∀ last, (show Db (Task × TaskEvent) from do
      Db.commit { dirty := some (t, t'), newEvents := [expiryEvent clk t elapsed last] }
      let _ ← Db.refresh t'
      Db.raise (pauseTimeout env t elapsed)).Confined K.Agree K.Writes fun _ => True := by
    intro t' has' last
    refine (confined_commit (has.writes fun e member => ?_)).bind fun _ _ => ?_
    · rw [List.mem_singleton.mp member]
      rfl
    · exact (confined_refresh has').bind fun _ _ => trivial
  unfold expirePause
  cases moved : t.transitionTo clk.nowUtc .cancelled with
  | ok t' => exact (confined_maxSequence has).bind fun last _ => rest t' (has.transitionTo moved) last
  | error e => exact (confined_maxSequence has).bind fun last _ => rest t has last

theorem confined_resumeTask {priority : Option String} :
    (resumeTask env clk workflowId taskId agent priority).Confined K.Agree K.Writes fun _ => True := by
  refine (confined_authorized inside).bind fun t has => confined_ensure.bind fun _ _ => ?_
  split
  · exact confined_expirePause has.1
  cases moved : t.transitionTo clk.nowUtc .running with
  | error e => trivial
  | ok t' =>
      refine confined_ofExcept.bind fun priority _ => ?_
      have resumed : Task.SameOrigin t' { t' with pausedAt := none, priority := priority } := rfl
      refine (confined_maxSequence has.1).bind fun last _ => ?_
      refine (confined_commit (has.1.writes fun e member => ?_)).bind fun _ _ => ?_
      · rw [List.mem_singleton.mp member]
      · exact (confined_refresh ((has.1.transitionTo moved).of_origin resumed)).bind fun _ _ => trivial

end operations

section requests
variable {env : Env} {clk : Clock} {hex : String}

theorem confined_getMaxContextSequence {taskId : String} (own : K.task taskId = true) :
    (getMaxContextSequence taskId).Confined K.Agree K.Writes fun _ => True := by
  refine (confined_query fun s s' related => ⟨?_, trivial⟩).bind fun row (_ : True) => ?_
  · rw [related.contextEvents own]
  · cases row.bind TaskEvent.data with
    | none => trivial
    | some data => exact confined_ofExcept.mono fun _ _ => trivial

theorem confined_injectContext {req : ContextRequest} (inside : K.workflow req.workflowId = true) :
    (injectContext env clk hex req).Confined K.Agree K.Writes fun _ => True := by
  refine (confined_authorized inside).bind fun t has => confined_ensure.bind fun _ _ => ?_
  have own : K.task req.taskId = true := has.2 ▸ has.1.own
  refine (confined_getMaxContextSequence own).bind fun lastContext _ => confined_ensure.bind fun _ _ => ?_
  refine (confined_maxSequence has.1).bind fun last _ => ?_
  refine (confined_commit ⟨fun _ new => (by cases new), fun _ _ same => (by cases same), fun e member => ?_⟩).bind
    fun _ _ => trivial
  rw [List.mem_singleton.mp member]
  exact has.1.own

/-! ## Creation -/

variable (K) in
/-- The key, if there is one, is one of the compartment. -/
def Uses (key : Option String) : Prop := ∀ k, key = some k → K.key k = true

theorem confined_replayOf {key : Option String} {input : Dict} (uses : K.Uses key) :
    (replayOf env key input).Confined K.Agree K.Writes fun found => ∀ t, found = some t → K.Has t := by
  cases key with
  | none => exact fun t same => by cases same
  | some k =>
      refine Prog.Confined.bind (confined_query (Q := fun found => ∀ t, found = some t → K.Has t)
        fun s s' related => ⟨related.byIdempotencyKey? (uses k rfl), fun t found => ?_⟩) fun found has => ?_
      · have divides := related.sound t (List.mem_of_find?_eq_some found)
        have named : t.idempotencyKey = some k := by simpa using List.find?_some found
        exact ⟨(divides.key k named).symm.trans (uses k rfl), divides⟩
      · cases found with
        | none => exact fun t same => by cases same
        | some existing =>
            exact confined_ensure.bind fun _ _ t same => has t same

theorem confined_getWorkflowOr404 {workflowId : String} (inside : K.workflow workflowId = true) :
    (getWorkflowOr404 workflowId).Confined K.Agree K.Writes fun _ => True :=
  confined_fetch fun _ _ related => ⟨related.workflows workflowId inside, fun _ _ => trivial⟩

theorem Has.of_root {t : Task} (own : K.task t.id = true) (inside : K.workflow t.workflowId = true)
    (uses : K.Uses t.idempotencyKey) (parent : t.parentTaskId = none) (root : t.rootTaskId = none) : K.Has t where
  own := own
  divides := {
    workflow := inside.trans own.symm
    key := fun k named => (uses k named).trans own.symm
    parent := fun id named => by
      rw [parent] at named
      cases named
    root := fun id named => by
      rw [root] at named
      cases named }

theorem confined_createTask {req : CreateRequest} (inside : K.workflow req.workflowId = true)
    (uses : K.Uses req.idempotencyKey) (draws : K.task (newTaskId hex) = true) :
    (createTask env clk hex req).Confined K.Agree K.Writes fun _ => True := by
  refine (confined_replayOf uses).bind fun found has => ?_
  cases found with
  | some existing => exact (confined_getWorkflowOr404 inside).bind fun _ _ => trivial
  | none =>
      refine (confined_getWorkflowOr404 inside).bind fun workflow _ => ?_
      have free : (checkAgentNotSuspended (orElse req.executorAgentId workflow.ownerAgentId)).Confined K.Agree
          K.Writes fun _ => True :=
        (confined_query (Q := fun _ => True) fun s s' related => ⟨by rw [related.agents], trivial⟩).bind
          fun _ _ => confined_ensure.mono fun _ _ => trivial
      refine free.bind fun _ _ => confined_ofExcept.bind fun _ _ => confined_ofExcept.bind fun priority _ => ?_
      refine Prog.Confined.bind (confined_commit ⟨fun t new => ?_, fun _ _ same => (by cases same),
        fun e member => ?_⟩) fun _ _ => Prog.Confined.bind (confined_refresh ?_) fun _ _ => trivial
      · cases new
        exact ⟨draws, (Has.of_root draws inside uses rfl rfl).divides⟩
      · rw [List.mem_singleton.mp member]
        exact draws
      · exact Has.of_root draws inside uses rfl rfl

theorem Has.successor {t : Task} (has : K.Has t) {workflowId : String} (inside : K.workflow workflowId = true)
    {key : Option String} (uses : K.Uses key) (draws : K.task (newTaskId hex) = true) {input : Dict}
    {priority : TaskPriority} {now : Time} {metadata : Dict} :
    K.Has (successor t workflowId hex input priority now key metadata) where
  own := draws
  divides := {
    workflow := inside.trans draws.symm
    key := fun k named => (uses k named).trans draws.symm
    parent := fun id named => by
      cases named
      exact has.own.trans draws.symm
    root := fun id named => by
      cases named
      refine Eq.trans ?_ draws.symm
      unfold orElse
      split
      · rename_i r root
        split
        · exact has.own
        · exact (has.divides.root r root).trans has.own
      · exact has.own }

theorem Has.succeeds {t t' next : Task} (has : K.Has t) (after : K.Has next) {es : List TaskEvent}
    (own : ∀ e ∈ es, e.taskId = t.id ∨ e.taskId = next.id) :
    K.Writes { newTask := some next, dirty := some (t, t'), newEvents := es } where
  newTask _ new := by
    cases new
    exact ⟨after.own, after.divides⟩
  dirty _ _ same := by
    cases same
    exact has.own
  newEvents e member := by
    rcases own e member with same | same
    · rw [same, has.own]
    · rw [same, after.own]

theorem confined_succession {t t' next : Task} (has : K.Has t) (after : K.Has next) (moved : K.Has t')
    {es : List TaskEvent} (own : ∀ e ∈ es, e.taskId = t.id ∨ e.taskId = next.id) :
    (show Db (Task × Task × Bool) from do
      Db.commit { newTask := some next, dirty := some (t, t'), newEvents := es }
      let next ← Db.refresh next
      let t' ← Db.refresh t'
      return (next, t', false)).Confined K.Agree K.Writes fun a => K.Has a.1 ∧ K.Has a.2.1 :=
  Prog.Confined.bind (confined_commit (has.succeeds after own)) fun _ _ =>
    (confined_refresh after).bind fun _ next => (confined_refresh moved).bind fun _ old => ⟨next, old⟩

theorem confined_retaskTask {req : RetaskRequest} (inside : K.workflow req.workflowId = true)
    (uses : K.Uses req.idempotencyKey) (draws : K.task (newTaskId hex) = true) :
    (retaskTask env clk hex req).Confined K.Agree K.Writes fun a => K.Has a.1 ∧ K.Has a.2.1 := by
  refine (confined_authorized inside).bind fun t has => confined_ensure.bind fun _ _ =>
    confined_ensure.bind fun _ _ => (confined_replayOf uses).bind fun found replays => ?_
  cases found with
  | some existing => exact ⟨replays existing rfl, has.1⟩
  | none =>
      dsimp only
      cases moved : t.transitionTo clk.nowUtc .retasked with
      | error e => trivial
      | ok t' =>
          refine confined_ofExcept.bind fun priority _ => (confined_maxSequence has.1).bind fun last _ => ?_
          refine confined_succession has.1 (has.1.successor inside uses draws) (has.1.transitionTo moved)
            fun e member => ?_
          rcases List.mem_cons.mp member with rfl | second
          · exact .inl rfl
          · rw [List.mem_singleton.mp second]
            exact .inr rfl

theorem confined_redirectTask {req : RedirectRequest} (inside : K.workflow req.workflowId = true)
    (uses : K.Uses req.idempotencyKey) (draws : K.task (newTaskId hex) = true) :
    (redirectTask env clk hex req).Confined K.Agree K.Writes fun a => K.Has a.1 ∧ K.Has a.2.1 := by
  refine (confined_authorized inside).bind fun t has => confined_ensure.bind fun _ _ =>
    confined_ensure.bind fun _ _ => (confined_replayOf uses).bind fun found replays => ?_
  cases found with
  | some existing => exact ⟨replays existing rfl, has.1⟩
  | none =>
      dsimp only
      cases moved : t.transitionTo clk.nowUtc .redirected with
      | error e => trivial
      | ok t' =>
          refine confined_ofExcept.bind fun priority _ => (confined_maxSequence has.1).bind fun last _ => ?_
          refine confined_succession has.1 (has.1.successor inside uses draws) (has.1.transitionTo moved)
            fun e member => ?_
          rcases List.mem_cons.mp member with rfl | second
          · exact .inl rfl
          · rw [List.mem_singleton.mp second]
            exact .inr rfl

theorem confined_processSidecarEvent {req : EventRequest} (own : K.task req.taskId = true) :
    (processSidecarEvent clk req).Confined K.Agree K.Writes fun _ => True := by
  have stored : (Db.fetch (fun s => s.tasks.find? req.taskId) (eventTaskNotFound req.taskId)).Confined K.Agree
      K.Writes fun t => K.Has t ∧ t.id = req.taskId := by
    refine confined_fetch fun s s' related => ⟨related.findTask own, fun t found => ?_⟩
    obtain ⟨member, same⟩ := Table.find?_eq_some.mp found
    exact ⟨⟨(congrArg K.task same).trans own, related.sound t member⟩, same⟩
  refine confined_ensure.bind fun _ known => stored.bind fun t has => confined_ensure.bind fun _ _ => ?_
  refine Prog.Confined.bind (confined_query fun s s' related => ⟨related.maxSequence own, trivial⟩)
    fun last (_ : True) => confined_ensure.bind fun _ _ => confined_ofExcept.bind fun t' applied => ?_
  refine (confined_commit (has.1.writes fun e member => ?_)).bind fun _ _ => ?_
  · rw [List.mem_singleton.mp member]
    exact has.2.symm
  · exact (confined_refresh (has.1.of_origin (applyEvent_origin known applied))).bind fun _ _ => trivial

/-! ## What the handlers read besides -/

theorem confined_ancestorIds {R : Work → Prop} (fuel : Nat) {parent : Option String}
    (own : ∀ id, parent = some id → K.task id = true) :
    (ancestorIds fuel parent).Confined K.Agree R fun _ => True := by
  induction fuel generalizing parent with
  | zero => trivial
  | succ fuel ih =>
      cases parent with
      | none => trivial
      | some id =>
          have there : K.task id = true := own id rfl
          refine Prog.Confined.bind (confined_query (Q := fun found => ∀ t, found = some t → K.Has t)
            fun s s' related => ⟨related.findTask there, fun t found => ?_⟩) fun found has => ?_
          · obtain ⟨member, same⟩ := Table.find?_eq_some.mp found
            exact ⟨(congrArg K.task same).trans there, related.sound t member⟩
          · cases found with
            | none => trivial
            | some t =>
                have grand : ∀ id, t.parentTaskId = some id → K.task id = true := fun id named =>
                  ((has t rfl).divides.parent id named).trans (has t rfl).own
                exact (ih grand).bind fun _ _ => trivial

theorem confined_buildLineageChain {R : Work → Prop} {t : Task} (has : K.Has t) :
    (buildLineageChain t).Confined K.Agree R fun _ => True :=
  (confined_ancestorIds _ fun id named => (has.divides.parent id named).trans has.own).bind fun _ _ => trivial

theorem confined_countContextInjections {R : Work → Prop} {t : Task} (has : K.Has t) :
    (countContextInjections t.id).Confined K.Agree R fun _ => True :=
  confined_query fun _ _ related => ⟨by rw [related.contextEvents has.own], trivial⟩

end requests
end Compartment
end Fleet.Api
