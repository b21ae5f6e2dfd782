/- What holds of every store of the whole service, requests and sweeps interleaved: the
   invariants of the operations, beside registrations, heartbeats and workflow edits. -/
import Fleet.System.Attribution
import Fleet.Api.References
import Fleet.Api.SharedHistory

namespace Fleet.System
open Fleet.Lib Fleet.Api

/-- Every commit of an operation that may run beside the whole service. -/
theorem program_keeps (env : Env) (op : Op) (s : Store) :
    (op.program env).wp Store.flush Keeps (Change env Grows (fun _ => True)) (fun _ _ => True) s := by
  refine Prog.wp_mono (op.program_wp (Q := fun _ _ => True) Keeps.refl Keeps.trans ?_ ?_ ?_)
    (fun _ _ change => change.mono (fun _ _ keeps => keeps.grows) fun _ _ => trivial) fun _ _ h => h
  all_goals intros; trivial

/-! ## The invariant -/

/-- A database of the service. -/
structure WellKept (env : Env) (s : Store) : Prop where
  referential : Referential s
  anchored : s.Anchored
  owners : ∀ w ∈ s.workflows, (s.agents.find? w.ownerAgentId).isSome = true
  keys : UniqueKeys s
  journal : Journaled s
  lineage : Branched env s

namespace WellKept
variable {env : Env} {s s' : Store}

theorem of_blank (blank : s.Blank)
    (owners : ∀ w ∈ s.workflows, (s.agents.find? w.ownerAgentId).isSome = true) : WellKept env s where
  referential := .of_blank blank
  anchored t member := absurd member (blank.not_mem t)
  owners := owners
  keys := .of_blank blank
  journal := .of_blank blank
  lineage := .of_blank blank

theorem conserved (keeps : Keeps s s') : s.Conserved s'.agents s'.workflows where
  agents id known := by
    obtain ⟨a, stored⟩ := Option.isSome_iff_exists.mp known
    obtain ⟨a', stored', -⟩ := keeps.agents id a stored
    rw [stored']
    rfl
  workflows id known := by
    obtain ⟨w, stored⟩ := Option.isSome_iff_exists.mp known
    obtain ⟨w', stored', -⟩ := keeps.owners id w stored
    rw [stored']
    rfl

theorem refers (keeps : Keeps s s') {t : Task} (before : s.references t = true) : s'.references t = true := by
  refine references_mono (conserved keeps) (fun id known => ?_) before
  obtain ⟨t, stored⟩ := Option.isSome_iff_exists.mp known
  obtain ⟨t', stored', -⟩ := keeps.grows.rows id t stored
  rw [stored']
  rfl

/-- A late commit keeps the references too: a row has those it was created with. -/
theorem anchored_flush (h : s.Anchored) {w : Work} (committed : Store.flush w s = .ok s') : s'.Anchored := by
  have keeps := Keeps.flush w s s' committed
  intro t' member
  obtain ⟨t, before, origin⟩ := Store.flush_back committed member
  have checked : s.references t = true ∧ t.timeoutSeconds.all fitsInteger = true := by
    rcases before with old | new
    · exact h t old
    · obtain ⟨mid, inserted, -⟩ := Store.flush_ok committed
      rw [new] at inserted
      obtain ⟨fits, known, -⟩ := Store.insertTask_ok inserted
      simp only [Task.fits, Bool.and_eq_true] at fits
      exact ⟨known, fits.1.1.1.2⟩
  rw [references_origin origin, origin.timeout]
  exact ⟨refers keeps checked.1, checked.2⟩

theorem tasks (h : WellKept env s) {w : Work} (change : Change env Grows (fun _ => True) s w)
    (committed : Store.flush w s = .ok s') : WellKept env s' where
  referential := h.referential.flush committed
  anchored := anchored_flush h.anchored committed
  owners w member := by
    obtain ⟨_, _, agents, workflows, -⟩ := Store.flush_ok committed
    rw [workflows] at member
    rw [agents]
    exact h.owners w member
  keys := h.keys.flush committed
  journal := h.journal.commit change committed
  lineage := h.lineage.commit change committed

theorem catalog (h : WellKept env s) (keeps : Keeps s s') (tasks : s'.tasks = s.tasks)
    (events : s'.events = s.events)
    (owners : ∀ w ∈ s'.workflows, (s.agents.find? w.ownerAgentId).isSome = true) : WellKept env s' where
  referential := {
    owned e member := by
      rw [tasks]
      rw [events] at member
      exact h.referential.owned e member
    placed t member := by
      rw [tasks] at member
      obtain ⟨w, stored⟩ := h.referential.placed t member
      obtain ⟨w', stored', -⟩ := keeps.owners _ w stored
      exact ⟨w', stored'⟩ }
  anchored t member := by
    rw [tasks] at member
    exact ⟨refers keeps (h.anchored t member).1, (h.anchored t member).2⟩
  owners w member := (conserved keeps).agents _ (owners w member)
  keys := by
    unfold UniqueKeys
    rw [tasks]
    exact h.keys
  journal := by
    obtain ⟨positive, first, created⟩ := h.journal
    constructor <;> simp only [tasks, events] <;> assumption
  lineage := by
    obtain ⟨named, top, child, bound⟩ := h.lineage
    constructor <;> simp only [tasks] <;> assumption

theorem workflow_owner {w : WorkflowWork} (h : s.flushWorkflow w = .ok s')
    (owners : ∀ w ∈ s.workflows, (s.agents.find? w.ownerAgentId).isSome = true) :
    ∀ w ∈ s'.workflows, (s.agents.find? w.ownerAgentId).isSome = true := by
  unfold Store.flushWorkflow at h
  cases w with
  | insert row =>
      dsimp only at h
      split_ifs at h with large known
      split at h <;> cases h
      rename_i workflows inserted
      intro w member
      rcases (Table.mem_insert? inserted).mp member with old | rfl
      · exact owners w old
      · exact Option.isSome_iff_ne_none.mpr (by simpa using known)
  | update loaded current dbNow =>
      dsimp only at h
      split at h
      · cases h
      · split at h <;> cases h
        intro w member
        change w ∈ Table.modify _ _ _ (Workflow.writeBack_id dbNow loaded current) at member
        obtain ⟨row, stored, rfl⟩ := Table.mem_modify.mp member
        split
        · exact owners row stored
        · exact owners row stored

theorem agent_workflows {w : AgentWork} (h : s.flushAgent w = .ok s') : s'.workflows = s.workflows := by
  unfold Store.flushAgent at h
  cases w with
  | insert row =>
      dsimp only at h
      split_ifs at h
      split at h <;> cases h
      rfl
  | heartbeat loaded now =>
      dsimp only at h
      split at h <;> cases h
      rfl
  | mark ids =>
      cases h
      rfl

/-- A justified commit of the service keeps its database. -/
theorem commit (h : WellKept env s) {srv : Server} (same : srv.env = env) {incoming : Incoming}
    {w : ServiceWork} (justified : Justified srv incoming s w) (committed : s.flushService w = .ok s') :
    WellKept env s' := by
  have keeps := Keeps.flushService w s s' committed
  cases w with
  | tasks w =>
      cases justified with
      | operated op endpoint params input routed sent asked signed commits warranted =>
          refine h.tasks (commits _ fun s₁ => ?_) (mapError_ok committed)
          rw [same]
          exact program_keeps env op s₁
  | workflows w =>
      obtain ⟨tasks, events⟩ := flushWorkflow_frame (mapError_ok committed)
      exact h.catalog keeps tasks events (workflow_owner (mapError_ok committed) h.owners)
  | agents w =>
      obtain ⟨tasks, events⟩ := flushAgent_frame (mapError_ok committed)
      refine h.catalog keeps tasks events ?_
      rw [agent_workflows (mapError_ok committed)]
      exact h.owners

end WellKept

theorem WellKept.service {srv : Server} {s : Store} (start : WellKept srv.env s) (moves : List ServiceMove) :
    WellKept srv.env (service srv s moves).store :=
  Pool.turns_invariant (I := WellKept srv.env) start _ fun e member _ before committed => by
    obtain ⟨i, a, arrives, own⟩ := serviceHistory_arrived member
    exact before.commit rfl (serviceCommits_justified arrives e own) committed

theorem service_keeps (srv : Server) (s : Store) (moves more : List ServiceMove) :
    Keeps (service srv s moves).store (service srv s (moves ++ more)).store := by
  have split : service srv s (moves ++ more) =
      Pool.turns Store.flushService (service srv s moves) (more.map (ServiceMove.turn srv)) := by
    simp only [Fleet.System.service, Pool.turns, List.map_append, List.foldl_append]
  rw [split]
  exact Pool.turns_grow Keeps.refl Keeps.trans Keeps.flushService _ _

/-- Whatever requests and sweeps the service runs, in whatever order their statements come:
its database stays well kept, and what a request may rely on is never taken back. -/
theorem service_sound (srv : Server) (s : Store) (start : WellKept srv.env s) (moves more : List ServiceMove) :
    WellKept srv.env (service srv s moves).store ∧
      Keeps (service srv s moves).store (service srv s (moves ++ more)).store :=
  ⟨start.service moves, service_keeps srv s moves more⟩

theorem service_sound_sweep :
    WellKept Demo.server.env (service Demo.server Demo.enrolledStore Demo.cancelMoves).store :=
  (service_sound Demo.server Demo.enrolledStore (.of_blank ⟨rfl, rfl⟩ (by decide)) Demo.cancelMoves []).1

end Fleet.System
