/- Superseded tasks: what becomes of a retry of the call that superseded one, and
who may supersede. -/
import Fleet.Api.ContextSignals
import Fleet.Api.Lineage
import Fleet.Api.Rows

namespace Fleet.Api
open Fleet.Lib

theorem permanent_superseded : Permanent (fun a => a = .retasked ∨ a = .redirected) := by
  intro a b superseded valid
  rw [superseded_final superseded] at valid
  cases valid

theorem Step.exec_superseded (env : Env) (a : Step) {s : Store} {id : String} {t : Task}
    (stored : s.tasks.find? id = some t) (superseded : t.Superseded) :
    ∃ t', (a.exec env s).tasks.find? id = some t' ∧ Task.SameOrigin t t' ∧ t'.Superseded := by
  obtain ⟨t', now, origin⟩ := a.exec_keeps env stored
  have held : s.Holds id t.executorAgentId (fun a => a = .retasked ∨ a = .redirected) :=
    ⟨t, stored, rfl, superseded⟩
  obtain ⟨u, found, _, still⟩ := a.exec_holds env permanent_superseded held
  cases now.symm.trans found
  exact ⟨t', now, origin, still⟩

theorem runSteps_superseded (env : Env) (steps : List Step) {s : Store} {id : String} {t : Task}
    (stored : s.tasks.find? id = some t) (superseded : t.Superseded) :
    ∃ t', (runSteps env steps s).tasks.find? id = some t' ∧ Task.SameOrigin t t' ∧ t'.Superseded := by
  induction steps generalizing s t with
  | nil => exact ⟨t, stored, .refl t, superseded⟩
  | cons a steps ih =>
      obtain ⟨t₁, now, first, still⟩ := a.exec_superseded env stored superseded
      obtain ⟨t', later, rest, last⟩ := ih now still
      exact ⟨t', later, first.trans rest, last⟩

theorem Task.Superseded.not_reviewable {t : Task} (h : t.Superseded) :
    ¬ (t.status = .completed ∨ t.status = .failed) := by
  rcases h with now | now <;> simp [now]

theorem Task.Superseded.not_redirectable {t : Task} (h : t.Superseded) :
    ¬ (t.status = .running ∨ t.status = .paused) := by
  rcases h with now | now <;> simp [now]

/-! ## Retries -/

/-- The same request sent again: the clock has moved and a new id is drawn. -/
def Op.again (clk : Clock) (hex : String) : Op → Op
  | .retaskTask _ _ req => .retaskTask clk hex req
  | .redirectTask _ _ req => .redirectTask clk hex req
  | op => op

section guards
variable {env : Env} {s : Store} {clk : Clock} {hex : String} {task : Task}

/-- The status is checked before the key is looked up. -/
theorem retaskTask_superseded (env : Env) (clk : Clock) (hex : String) {req : RetaskRequest}
    (admitted : Admitted s req.workflowId req.taskId req.callerAgentId task)
    (superseded : task.Superseded) :
    (Op.retaskTask clk hex req).exec env s = (.error (.api (notReviewable task)), s) := by
  simp [Op.exec, Op.program, retaskTask, Prog.run_bind, admitted.authorized_run, Db.ensure, Db.raise,
    Prog.raise, Prog.run, superseded.not_reviewable]

theorem redirectTask_superseded (env : Env) (clk : Clock) (hex : String) {req : RedirectRequest}
    (admitted : Admitted s req.workflowId req.taskId req.callerAgentId task)
    (superseded : task.Superseded) :
    (Op.redirectTask clk hex req).exec env s = (.error (.api (notRedirectable task)), s) := by
  simp [Op.exec, Op.program, redirectTask, Prog.run_bind, admitted.authorized_run, Db.ensure, Db.raise,
    Prog.raise, Prog.run, superseded.not_redirectable]

theorem Outcome.superseded_refused {s' : Store} {op : Op} {r : Except Failure Answer}
    (h : Outcome env s op r s') {id : String} (stored : s.tasks.find? id = some task)
    (superseded : task.Superseded)
    (asks : (∃ clk hex req, op = .retaskTask clk hex req ∧ req.taskId = id) ∨
      ∃ clk hex req, op = .redirectTask clk hex req ∧ req.taskId = id) :
    ∃ e, r = .error e ∧ s' = s := by
  have same : ∀ {u workflowId agent}, Admitted s workflowId id agent u → u = task := by
    intro u workflowId agent admitted
    exact Option.some.inj (admitted.stored.symm.trans stored)
  rcases asks with ⟨clk, hex, req, rfl, rfl⟩ | ⟨clk, hex, req, rfl, rfl⟩
  · cases h with
    | refused _ e ordinary => exact ⟨e, rfl, rfl⟩
    | retaskReplayed _ _ _ u _ admitted reviewable =>
        exact absurd (same admitted ▸ reviewable) superseded.not_reviewable
    | retasked _ _ _ u _ _ _ _ admitted reviewable =>
        exact absurd (same admitted ▸ reviewable) superseded.not_reviewable
  · cases h with
    | refused _ e ordinary => exact ⟨e, rfl, rfl⟩
    | redirectReplayed _ _ _ u _ admitted redirectable =>
        exact absurd (same admitted ▸ redirectable) superseded.not_redirectable
    | redirected _ _ _ u _ _ _ _ admitted redirectable =>
        exact absurd (same admitted ▸ redirectable) superseded.not_redirectable

end guards

theorem Admitted.transport {s s' : Store} {workflowId taskId agent : String} {t t' : Task}
    (h : Admitted s workflowId taskId agent t) (stored : s'.tasks.find? taskId = some t')
    (origin : Task.SameOrigin t t') (same : s'.workflows = s.workflows) :
    Admitted s' workflowId taskId agent t' := by
  obtain ⟨workflow, known, controls⟩ := h.controls
  refine ⟨stored, origin.workflowId.trans h.inside, workflow, same ▸ known, ?_⟩
  unfold MayControl
  rw [origin.principal]
  exact controls

/-- A retask or redirect that created its task is refused when it is sent again, in
every later store: the call itself superseded the task it names, and that is checked
before the key. While the workflows are what they were, the refusal is that check. -/
theorem retry_refused (env : Env) (s : Store) (op : Op) (next old : Task)
    (first : (op.exec env s).1 = .ok (.succeeded next old false)) (later : List Step) (clk : Clock)
    (hex : String) :
    ∃ e, (op.again clk hex).exec env (runSteps env later (op.exec env s).2) =
        (.error e, runSteps env later (op.exec env s).2) ∧
      ((runSteps env later (op.exec env s).2).workflows = s.workflows → ∃ task : Task,
        task.id = old.id ∧ task.Superseded ∧
          (e = .api (notReviewable task) ∨ e = .api (notRedirectable task))) := by
  have outcome := op.exec_outcome env s
  rw [first] at outcome
  generalize (op.exec env s).2 = s₁ at outcome
  cases outcome with
  | retasked clk₀ hex₀ req task priority e created s₁ admitted reviewable room unused resolved
      announces first committed =>
      have stored := find?_succession admitted.loaded committed req.taskId
      rw [if_pos admitted.own] at stored
      obtain ⟨t, now, origin, superseded⟩ := runSteps_superseded env later stored (.inl rfl)
      have again := (Op.retaskTask clk hex req).exec_outcome env (runSteps env later s₁)
      obtain ⟨e, raised, unchanged⟩ :=
        again.superseded_refused now superseded (.inl ⟨clk, hex, req, rfl, rfl⟩)
      refine ⟨e, Prod.ext raised unchanged, fun same => ⟨t, origin.id, superseded, .inl ?_⟩⟩
      have answer := retaskTask_superseded env clk hex
        (admitted.transport now ((task.ended_origin _ _).trans origin) same) superseded
      rw [answer] at raised
      exact (Except.error.inj raised).symm
  | redirected clk₀ hex₀ req task priority e created s₁ admitted redirectable room unused resolved
      announces first committed =>
      have stored := find?_succession admitted.loaded committed req.taskId
      rw [if_pos admitted.own] at stored
      obtain ⟨t, now, origin, superseded⟩ := runSteps_superseded env later stored (.inr rfl)
      have again := (Op.redirectTask clk hex req).exec_outcome env (runSteps env later s₁)
      obtain ⟨e, raised, unchanged⟩ :=
        again.superseded_refused now superseded (.inr ⟨clk, hex, req, rfl, rfl⟩)
      refine ⟨e, Prod.ext raised unchanged, fun same => ⟨t, origin.id, superseded, .inr ?_⟩⟩
      have answer := redirectTask_superseded env clk hex
        (admitted.transport now ((task.ended_origin _ _).trans origin) same) superseded
      rw [answer] at raised
      exact (Except.error.inj raised).symm

namespace Demo

def reviewable : List Step := running ++ [.op (post 2 "task-a" "completed" [] 3)]

def retaskOnce : Op := .retaskTask (at' 3) "b"
  { workflowId := "wf", taskId := "task-a", callerAgentId := "principal",
    refinement := { message := "again" }, idempotencyKey := some "r" }

end Demo

theorem retry_refused_retask :
    ∃ e, (Demo.retaskOnce.again (Demo.at' 5) "c").exec Demo.env
        (runSteps Demo.env [] (Demo.retaskOnce.exec Demo.env
          (runSteps Demo.env Demo.reviewable Demo.store)).2) =
      (.error e, runSteps Demo.env [] (Demo.retaskOnce.exec Demo.env
        (runSteps Demo.env Demo.reviewable Demo.store)).2) := by
  obtain ⟨next, old, first⟩ : ∃ next old, (Demo.retaskOnce.exec Demo.env
      (runSteps Demo.env Demo.reviewable Demo.store)).1 = .ok (.succeeded next old false) := ⟨_, _, rfl⟩
  obtain ⟨e, refused, _⟩ := retry_refused Demo.env _ Demo.retaskOnce next old first [] (Demo.at' 5) "c"
  exact ⟨e, refused⟩

/-- The retask of a completed task, sent twice with one key. -/
theorem retask_not_idempotent :
    (created? (Demo.retaskOnce.exec Demo.env
      (runSteps Demo.env Demo.reviewable Demo.store)).1).map Task.id = some "task-b" ∧
    refusal? ((Demo.retaskOnce.again (Demo.at' 5) "c").exec Demo.env (Demo.retaskOnce.exec Demo.env
      (runSteps Demo.env Demo.reviewable Demo.store)).2).1 = some .retaskNotReviewable := by
  decide +kernel

/-! ## Who supersedes a task -/

/-- The task was not superseded before the executor's event and is after it. -/
def Step.supersedes (env : Env) (id : String) (s : Store) : Step → List EventRequest
  | .op (.processSidecarEvent clk req) =>
      let status' := ((Op.processSidecarEvent clk req).exec env s).2.status? id
      if s.status? id ∉ [some .retasked, some .redirected] ∧
        status' ∈ [some .retasked, some .redirected] then [req] else []
  | _ => []

/-- The executor's events by which a task was superseded in a run. -/
def supersededByExecutor (env : Env) (id : String) : List Step → Store → List EventRequest :=
  collect env (Step.supersedes env id)

theorem status?_superseded {s : Store} {id : String} {t : Task} (stored : s.tasks.find? id = some t) :
    s.status? id ∈ [some .retasked, some .redirected] ↔ t.Superseded := by
  simp [Store.status?, stored, Task.Superseded]

theorem Born.parent {s : Store} {op : Op} {t : Task} (h : Born s op t) {p : String}
    (link : t.parentTaskId = some p) :
    op.byPrincipal = true ∧ ∃ u, s.tasks.find? p = some u ∧ ¬ u.Superseded := by
  cases h with
  | requested unused requested =>
      rw [requested.parent] at link
      cases link
  | retasked stored inside reviewable unused priority =>
      have own := (Table.find?_eq_some.mp stored).2
      cases link
      exact ⟨rfl, _, own ▸ stored, fun superseded => superseded.not_reviewable reviewable⟩
  | redirected stored inside redirectable unused priority =>
      have own := (Table.find?_eq_some.mp stored).2
      cases link
      exact ⟨rfl, _, own ▸ stored, fun superseded => superseded.not_redirectable redirectable⟩

theorem find?_next {s s' : Store} {task next : Task} {status : TaskStatus} {at' : Time}
    {e created : TaskEvent} (stored : s.tasks.find? task.id = some task)
    (committed : Store.flush (succession task next status at' e created) s = .ok s') :
    next ∈ s'.tasks := by
  have absent := new_absent committed (succession_current stored) rfl
  have other : task.id ≠ next.id := by
    intro same
    rw [← same, stored] at absent
    cases absent
  have found := find?_succession stored committed next.id
  rw [if_neg other, if_pos rfl] at found
  exact (Table.find?_eq_some.mp found).1

/-- A request that supersedes a task either comes from the executor or adds the
successor in the same commit. -/
theorem Outcome.supersedes {env : Env} {s s' : Store} {op : Op} {r : Except Failure Answer}
    (h : Outcome env s op r s') {id : String} {t t' : Task} (stored : s.tasks.find? id = some t)
    (now : s'.tasks.find? id = some t') (live : ¬ t.Superseded) (superseded : t'.Superseded) :
    op.byPrincipal = false ∨ ∃ u ∈ s'.tasks, u.parentTaskId = some id := by
  have own := (Table.find?_eq_some.mp stored).2
  have moved : s' ≠ s := by
    intro same
    subst same
    rw [stored] at now
    cases now
    exact live superseded
  rcases h.row id with same | ⟨u, u', before, after, step⟩ | ⟨u, absent, _⟩
  · rw [now, stored] at same
    cases same
    exact absurd superseded live
  · rw [stored] at before
    rw [now] at after
    cases before
    cases after
    cases step with
    | cancelled | paused | resumed | expired => rcases superseded with other | other <;> cases other
    | applied => exact .inl rfl
    | retasked own' reviewable =>
        cases h with
        | refused | retaskReplayed => exact absurd rfl moved
        | retasked clk hex req task priority e created s' admitted _ _ _ _ _ _ committed =>
            refine .inr ⟨_, find?_next admitted.loaded committed, ?_⟩
            rw [← own, own', ← admitted.own]
            rfl
    | redirected own' redirectable =>
        cases h with
        | refused | redirectReplayed => exact absurd rfl moved
        | redirected clk hex req task priority e created s' admitted _ _ _ _ _ _ committed =>
            refine .inr ⟨_, find?_next admitted.loaded committed, ?_⟩
            rw [← own, own', ← admitted.own]
            rfl
  · rw [stored] at absent
    cases absent

/-! ### The account of one task over a run -/

def Store.SupersededAt (s : Store) (id : String) : Prop :=
  s.status? id ∈ [some .retasked, some .redirected]

def Store.HasChild (s : Store) (id : String) : Prop := ∃ u ∈ s.tasks, u.parentTaskId = some id

/-- The task is superseded by its successor or by the executor, never by both. -/
structure Accounted (s : Store) (id : String) (moved : Prop) : Prop where
  known : s.SupersededAt id ↔ s.HasChild id ∨ moved
  apart : ¬ (s.HasChild id ∧ moved)

theorem Store.SupersededAt.row {s : Store} {id : String} (h : s.SupersededAt id) :
    ∃ t, s.tasks.find? id = some t ∧ t.Superseded := by
  cases stored : s.tasks.find? id with
  | none =>
      have : s.status? id = none := by rw [Store.status?, stored]; rfl
      simp [Store.SupersededAt, this] at h
  | some t => exact ⟨t, rfl, (status?_superseded stored).mp h⟩

section step
variable {env : Env} {s : Store} {id : String} (a : Step)

theorem Store.SupersededAt.step (h : s.SupersededAt id) : (a.exec env s).SupersededAt id := by
  obtain ⟨t, stored, superseded⟩ := h.row
  obtain ⟨t', now, _, still⟩ := a.exec_superseded env stored superseded
  exact (status?_superseded now).mpr still

theorem Store.HasChild.step (h : s.HasChild id) : (a.exec env s).HasChild id := by
  obtain ⟨u, member, link⟩ := h
  obtain ⟨u', now, origin⟩ := a.exec_keeps env (Table.find?_mem member)
  exact ⟨u', (Table.find?_eq_some.mp now).1, origin.parent.trans link⟩

theorem Store.HasChild.new (h : (a.exec env s).HasChild id) (before : ¬ s.HasChild id) :
    ¬ s.SupersededAt id ∧ a.supersedes env id s = [] := by
  obtain ⟨u', member, link⟩ := h
  rcases Step.exec_origin (Table.find?_mem member) with ⟨u, stored, origin⟩ | ⟨op, rfl, _, born, _⟩
  · exact absurd ⟨u, (Table.find?_eq_some.mp stored).1, origin.parent.symm.trans link⟩ before
  · obtain ⟨principal, parent, stored, live⟩ := born.parent link
    refine ⟨fun superseded => live ((status?_superseded stored).mp superseded), ?_⟩
    cases op with
    | processSidecarEvent clk req => cases principal
    | createTask | retaskTask | redirectTask | cancelTask | pauseTask | resumeTask | injectContext => rfl

theorem Step.supersedes_ne_nil : a.supersedes env id s ≠ [] ↔
    (∃ clk req, a = .op (.processSidecarEvent clk req)) ∧ ¬ s.SupersededAt id ∧
      (a.exec env s).SupersededAt id := by
  cases a with
  | catalog agents workflows => simp [Step.supersedes]
  | op o =>
      cases o with
      | processSidecarEvent clk req =>
          simp only [Step.supersedes, ne_eq, ite_eq_right_iff, reduceCtorEq, imp_false, not_not]
          exact ⟨fun event => ⟨⟨clk, req, rfl⟩, event⟩, fun event => event.2⟩
      | createTask | retaskTask | redirectTask | cancelTask | pauseTask | resumeTask | injectContext =>
          simp [Step.supersedes]

theorem Store.SupersededAt.new (h : (a.exec env s).SupersededAt id) (live : ¬ s.SupersededAt id) :
    (a.exec env s).HasChild id ∨ a.supersedes env id s ≠ [] := by
  obtain ⟨t', now, superseded⟩ := h.row
  cases stored : s.tasks.find? id with
  | none =>
      rcases Step.exec_origin now with ⟨t, found, _⟩ | ⟨op, _, _, born, _⟩
      · rw [stored] at found
        cases found
      · rcases superseded with other | other <;> cases born.accepted.symm.trans other
  | some t =>
      have before : ¬ t.Superseded := fun superseded => live ((status?_superseded stored).mpr superseded)
      cases a with
      | catalog agents workflows => exact absurd h live
      | op o =>
          rcases (o.exec_outcome env s).supersedes stored now before superseded with executor | child
          · refine .inr ((Step.supersedes_ne_nil _).mpr ⟨?_, live, h⟩)
            cases o with
            | processSidecarEvent clk req => exact ⟨clk, req, rfl⟩
            | createTask | retaskTask | redirectTask | cancelTask | pauseTask | resumeTask
            | injectContext => cases executor
          · exact .inl child

theorem Accounted.step {moved : Prop} (h : Accounted s id moved)
    (linked : (a.exec env s).HasChild id → (a.exec env s).SupersededAt id) :
    Accounted (a.exec env s) id (moved ∨ a.supersedes env id s ≠ []) := by
  refine ⟨⟨fun now => ?_, fun reason => ?_⟩, fun both => ?_⟩
  · by_cases before : s.SupersededAt id
    · rcases h.known.mp before with child | moved
      · exact .inl (child.step a)
      · exact .inr (.inl moved)
    · rcases now.new a before with child | event
      · exact .inl child
      · exact .inr (.inr event)
  · rcases reason with child | moved | event
    · exact linked child
    · exact (h.known.mpr (.inr moved)).step a
    · exact ((Step.supersedes_ne_nil a).mp event).2.2
  · obtain ⟨child, reason⟩ := both
    by_cases before : s.HasChild id
    · rcases reason with moved | event
      · exact h.apart ⟨before, moved⟩
      · exact ((Step.supersedes_ne_nil a).mp event).2.1 (h.known.mpr (.inl before))
    · obtain ⟨live, silent⟩ := child.new a before
      rcases reason with moved | event
      · exact live (h.known.mpr (.inr moved))
      · exact event silent

end step

theorem Linked.superseded_of_child {env : Env} {s : Store} (h : Linked env s) {id : String}
    (child : s.HasChild id) : s.SupersededAt id := by
  obtain ⟨u, member, link⟩ := child
  obtain ⟨parent, stored, rfl, superseded⟩ := h.superseded u member id link
  exact (status?_superseded (Table.find?_mem stored)).mpr superseded

theorem accounted_run (env : Env) {s : Store} (blank : s.Blank) (id : String) (steps : List Step) :
    Accounted (runSteps env steps s) id (supersededByExecutor env id steps s ≠ []) := by
  induction steps using List.reverseRecOn with
  | nil =>
      have none : s.status? id = none := by rw [Store.status?, blank.find?_none]; rfl
      have childless : ¬ s.HasChild id := by
        rintro ⟨u, member, _⟩
        exact blank.not_mem u member
      refine ⟨⟨fun superseded => ?_, fun reason => ?_⟩, fun both => childless both.1⟩
      · simp [Store.SupersededAt, runSteps, none] at superseded
      · exact (reason.resolve_left childless rfl).elim
  | append_singleton steps a ih =>
      have reachable : Reachable env (runSteps env (steps ++ [a]) s) := (Reachable.start blank).runSteps _
      have next := ih.step a (by
        rw [runSteps_append] at reachable
        exact reachable.linked.superseded_of_child)
      rw [runSteps_append, supersededByExecutor, collect_append]
      have events : collect env (Step.supersedes env id) steps s ++
            collect env (Step.supersedes env id) [a] (runSteps env steps s) ≠ [] ↔
          supersededByExecutor env id steps s ≠ [] ∨ a.supersedes env id (runSteps env steps s) ≠ [] := by
        simp [supersededByExecutor, collect, ← not_and_or]
      exact ⟨next.known.trans (or_congr_right events.symm), fun both =>
        next.apart ⟨both.1, events.mp both.2⟩⟩

/-- In every run, a task is superseded exactly when one other task continues it or
when the executor's own event said so, and never both. -/
theorem superseded_iff (env : Env) {s₀ : Store} (blank : s₀.Blank) (steps : List Step) (t : Task)
    (member : t ∈ (runSteps env steps s₀).tasks) :
    (t.Superseded ↔ (∃ u ∈ (runSteps env steps s₀).tasks, u ≠ t ∧ u.parentTaskId = some t.id ∧
        ∀ v ∈ (runSteps env steps s₀).tasks, v.parentTaskId = some t.id → v = u) ∨
      supersededByExecutor env t.id steps s₀ ≠ []) ∧
    ¬ ((∃ u ∈ (runSteps env steps s₀).tasks, u.parentTaskId = some t.id) ∧
      supersededByExecutor env t.id steps s₀ ≠ []) := by
  have account := accounted_run env blank t.id steps
  have linked := ((Reachable.start blank).runSteps steps : Reachable env _).linked
  refine ⟨?_, account.apart⟩
  rw [← status?_superseded (Table.find?_mem member)]
  refine account.known.trans (or_congr_left ⟨fun child => ?_, fun child => ?_⟩)
  · obtain ⟨u, stored, link⟩ := child
    refine ⟨u, stored, fun same => ?_, link, fun v stored' link' => ?_⟩
    · obtain ⟨parent, above, own, continues⟩ := linked.child u stored t.id link
      have deeper := continues.depth
      rw [Table.eq_of_key above member own, same] at deeper
      omega
    · apply linked.only v stored' u stored
      · rw [link']
        simp
      · rw [link', link]
  · obtain ⟨u, stored, _, link, _⟩ := child
    exact ⟨u, stored, link⟩

namespace Demo

/-- The executor reports a redirect no principal asked for. -/
def selfRedirected : List Step :=
  running ++ [.op (post 2 "task-a" "status" [("status", .str "redirected")] 3)]

end Demo

theorem superseded_iff_retasked :
    ∃ u ∈ (runSteps Demo.env Demo.retasked Demo.store).tasks, u.id = "task-b" ∧
      ∀ v ∈ (runSteps Demo.env Demo.retasked Demo.store).tasks,
        v.parentTaskId = some "task-a" → v = u := by
  obtain ⟨t, member, id, superseded⟩ : ∃ t ∈ (runSteps Demo.env Demo.retasked Demo.store).tasks.rows,
      t.id = "task-a" ∧ t.status = .retasked := by decide +kernel
  obtain ⟨u, stored, link⟩ : ∃ u ∈ (runSteps Demo.env Demo.retasked Demo.store).tasks.rows,
      u.id = "task-b" ∧ u.parentTaskId = some "task-a" := by decide +kernel
  have known := (superseded_iff Demo.env Demo.store_blank Demo.retasked t member).1
  rw [id] at known
  rcases known.mp (.inl superseded) with ⟨w, _, _, _, only⟩ | executor
  · refine ⟨u, stored, link.1, fun v member' link' => ?_⟩
    rw [only v member' link', only u stored link.2]
  · exact absurd (by decide +kernel) executor

theorem redirected_without_successor :
    ((runSteps Demo.env Demo.selfRedirected Demo.store).tasks.rows.map fun t =>
      (t.id, t.status, t.parentTaskId)) = [("task-a", .redirected, none)] := by
  decide +kernel

end Fleet.Api
