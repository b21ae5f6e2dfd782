/- Terminal tasks: which requests may still change their rows. -/
import Fleet.Api.Rows

namespace Fleet.Api
open Fleet.Lib

/-- A terminal row as a later request may leave it: unchanged, or retasked, which
assigns the status and its time only. -/
def Frozen (t t' : Task) : Prop :=
  t' = t ∨ ((t.status = .completed ∨ t.status = .failed) ∧ ∃ at', t' = t.ended .retasked at')

theorem Frozen.terminal {t t' : Task} (h : Frozen t t') (terminal : isTerminal t.status = true) :
    isTerminal t'.status = true := by
  rcases h with rfl | ⟨_, at', rfl⟩
  · exact terminal
  · rfl

theorem Frozen.trans {a b c : Task} (h : Frozen a b) (k : Frozen b c) : Frozen a c := by
  rcases h with rfl | ⟨reviewable, at', rfl⟩
  · exact k
  · rcases k with rfl | ⟨again, _⟩
    · exact .inr ⟨reviewable, at', rfl⟩
    · rcases again with again | again <;> cases again

/-- An accepted progress report about a task without metadata. -/
structure LateProgress (s : Store) (t : Task) (req : EventRequest) : Prop where
  addressed : req.taskId = t.id
  type : req.eventType = "progress"
  reports : req.data.has "progress" = true
  executor : t.executorAgentId = some req.executorAgentId
  later : s.maxSequence t.id < req.sequence
  fits : fitsInteger req.sequence = true
  bare : t.metadata = none

def Op.Overwrites (op : Op) (s : Store) (t : Task) : Prop :=
  ∃ clk req, op = .processSidecarEvent clk req ∧ LateProgress s t req

/-! ## One operation -/

theorem RowStep.frozen {env : Env} {op : Op} {t t' : Task} (h : RowStep env op t t')
    (principal : op.byPrincipal = true) (terminal : isTerminal t.status = true) : Frozen t t' := by
  cases h with
  | cancelled valid => cases (terminal_exit terminal valid).2
  | retasked own reviewable => exact .inr ⟨reviewable, _, rfl⟩
  | redirected own redirectable =>
      rcases redirectable with live | live <;> (rw [live] at terminal; cases terminal)
  | paused running =>
      rw [running] at terminal
      cases terminal
  | resumed paused | expired paused =>
      rw [paused] at terminal
      cases terminal
  | applied => cases principal

theorem moveTo_frozen {t mid : Task} {nowUtc : Time} {status : TaskStatus}
    (moved : moveTo t nowUtc status = .ok mid) (terminal : isTerminal t.status = true) :
    status = .retasked ∧ (t.status = .completed ∨ t.status = .failed) ∧
      mid = t.ended .retasked nowUtc := by
  obtain ⟨valid, rfl⟩ := Task.transitionTo_ok.mp (moveTo_ok moved)
  obtain ⟨reviewable, rfl⟩ := terminal_exit terminal valid
  exact ⟨rfl, reviewable, rfl⟩

theorem applyEvent_frozen {clk : Clock} {eventType : String} {data : Dict} {t t' : Task}
    (applied : applyEvent clk eventType data t = .ok t') (terminal : isTerminal t.status = true) :
    Frozen t t' ∨ (eventType = "progress" ∧ data.has "progress" = true ∧ t.metadata = none) := by
  unfold applyEvent at applied
  split at applied
  · simp only [onStatus] at applied
    split at applied
    · cases applied
    · obtain ⟨mid, moved, rfl⟩ := moveTo_bind applied
      obtain ⟨rfl, reviewable, rfl⟩ := moveTo_frozen moved terminal
      exact .inl (.inr ⟨reviewable, clk.nowUtc, rfl⟩)
  split at applied
  · obtain ⟨mid, moved, rfl⟩ := moveTo_bind applied
    cases (moveTo_frozen moved terminal).1
  split at applied
  · obtain ⟨mid, moved, rfl⟩ := moveTo_bind applied
    cases (moveTo_frozen moved terminal).1
  split at applied
  · rename_i progress
    unfold onProgress at applied
    split at applied
    · cases applied
    · rename_i reports
      cases applied
      cases loaded : t.metadata with
      | none => exact .inr ⟨progress, by simpa using reports, rfl⟩
      | some metadata => exact .inl (.inl (by rw [Option.getD_some, ← loaded]))
  · cases applied
    exact .inl (.inl rfl)

theorem Store.flush_fits {s s' : Store} {pair : Task × Task} {e : TaskEvent}
    (committed : flush { dirty := some pair, newEvents := [e] } s = .ok s') :
    fitsInteger e.sequence = true := by
  simp only [flush, insertEvents] at committed
  split at committed
  · rename_i mid inserted
    exact (insertEvent_ok inserted).1
  · cases committed

theorem Op.exec_frozen (env : Env) {op : Op} {s : Store} {id : String} {t : Task}
    (stored : s.tasks.find? id = some t) (terminal : isTerminal t.status = true)
    (spares : ¬ op.Overwrites s t) :
    ∃ t', (op.exec env s).2.tasks.find? id = some t' ∧ Frozen t t' := by
  obtain rfl := (Table.find?_eq_some.mp stored).2
  have outcome := op.exec_outcome env s
  rcases outcome.row t.id with same | ⟨u, t', found, now, step⟩ | ⟨u, absent, _⟩
  · exact ⟨t, same.trans stored, .inl rfl⟩
  · rw [stored] at found
    cases found
    refine ⟨t', now, ?_⟩
    cases side : op.byPrincipal with
    | true => exact step.frozen side terminal
    | false =>
        generalize op.exec env s = after at outcome now
        obtain ⟨r, s'⟩ := after
        cases outcome with
        | refused op e ordinary =>
            rw [stored] at now
            cases now
            exact .inl rfl
        | recorded clk req task task' s' known loaded executor later applied committed =>
            cases step with
            | applied own _ again =>
                rw [← own, stored] at loaded
                cases loaded
                rw [applied] at again
                cases again
                rcases applyEvent_frozen applied terminal with frozen | ⟨type, reports, bare⟩
                · exact frozen
                · exact absurd ⟨clk, req, rfl, own.symm, type, reports, executor, own ▸ later,
                    Store.flush_fits committed, bare⟩ spares
        | createReplayed | created | retaskReplayed | retasked | redirectReplayed | redirected
        | cancelled | paused | resumed | expired | injected => cases side
  · rw [stored] at absent
    cases absent

theorem LateProgress.overwrites (env : Env) (clk : Clock) {s : Store} {t : Task} {req : EventRequest}
    (stored : s.tasks.find? t.id = some t) (h : LateProgress s t req) :
    ∃ metadata, ((Op.processSidecarEvent clk req).exec env s).2.tasks.find? t.id =
      some { t with metadata := some metadata } := by
  have applied : ∃ metadata, applyEvent clk req.eventType req.data t =
      .ok { t with metadata := some metadata } := by
    simp [applyEvent, onProgress, h.type, h.reports]
  obtain ⟨metadata, applied⟩ := applied
  refine ⟨metadata, ?_⟩
  have row := @processSidecarEvent_applies env clk req s t _ (by rw [h.type]; decide)
    (h.addressed ▸ stored) h.executor (h.addressed ▸ h.later) h.fits applied
  rwa [h.addressed] at row

theorem Op.exec_frozen_iff (env : Env) {op : Op} {s : Store} {id : String} {t : Task}
    (stored : s.tasks.find? id = some t) (terminal : isTerminal t.status = true) :
    (∃ t', (op.exec env s).2.tasks.find? id = some t' ∧ Frozen t t') ↔ ¬ op.Overwrites s t := by
  constructor
  · rintro ⟨t', now, frozen⟩ ⟨clk, req, rfl, late⟩
    obtain rfl := (Table.find?_eq_some.mp stored).2
    obtain ⟨metadata, written⟩ := late.overwrites env clk stored
    rw [written] at now
    cases now
    rcases frozen with same | ⟨reviewable, at', same⟩
    · have column := congrArg Task.metadata same
      rw [late.bare] at column
      cases column
    · have column := congrArg Task.status same
      rcases reviewable with done | done <;> (rw [done] at column; cases column)
  · exact op.exec_frozen env stored terminal

/-! ## Runs -/

/-- No request of the run is a progress report accepted while the task has no metadata. -/
def Spares (env : Env) (s : Store) (id : String) (steps : List Step) : Prop :=
  ∀ before op after, steps = before ++ .op op :: after →
    ∀ t, (runSteps env before s).tasks.find? id = some t → ¬ op.Overwrites (runSteps env before s) t

theorem Spares.head {env : Env} {s : Store} {id : String} {op : Op} {steps : List Step} {t : Task}
    (h : Spares env s id (.op op :: steps)) (stored : s.tasks.find? id = some t) :
    ¬ op.Overwrites s t :=
  h [] op steps rfl t stored

theorem Spares.tail {env : Env} {s : Store} {id : String} {a : Step} {steps : List Step}
    (h : Spares env s id (a :: steps)) : Spares env (a.exec env s) id steps := by
  intro before op after split t stored
  exact h (a :: before) op after (by rw [split, List.cons_append]) t stored

theorem runSteps_frozen (env : Env) (steps : List Step) {s : Store} {id : String} {t : Task}
    (stored : s.tasks.find? id = some t) (terminal : isTerminal t.status = true)
    (spares : Spares env s id steps) :
    ∃ t', (runSteps env steps s).tasks.find? id = some t' ∧ Frozen t t' := by
  induction steps generalizing s t with
  | nil => exact ⟨t, stored, .inl rfl⟩
  | cons a steps ih =>
      cases a with
      | catalog agents workflows => exact ih (s := { s with agents, workflows }) stored terminal spares.tail
      | op op =>
          obtain ⟨mid, now, first⟩ := op.exec_frozen env stored terminal (spares.head stored)
          obtain ⟨t', later, rest⟩ := ih now (first.terminal terminal) spares.tail
          exact ⟨t', later, first.trans rest⟩

/-- The exact set of requests that change a terminal row otherwise than by a retask,
and what a run without them leaves. -/
theorem terminal_frozen (env : Env) {s : Store} {id : String} {t : Task}
    (stored : s.tasks.find? id = some t) (terminal : isTerminal t.status = true) :
    (∀ op : Op, (∃ t', (op.exec env s).2.tasks.find? id = some t' ∧ Frozen t t') ↔
      ¬ op.Overwrites s t) ∧
    ∀ steps, Spares env s id steps →
      ∃ t', (runSteps env steps s).tasks.find? id = some t' ∧ Frozen t t' :=
  ⟨fun _ => Op.exec_frozen_iff env stored terminal,
    fun steps spares => runSteps_frozen env steps stored terminal spares⟩

namespace Demo

def lateReport : Op := post 3 "task-a" "progress" [("progress", .num 50)] 4

theorem delivered_stored : ∃ t, (runSteps env delivered store).tasks.find? "task-a" = some t ∧
    t.status = .completed ∧ t.metadata = none := by
  obtain ⟨t, member, own, facts⟩ : ∃ t ∈ (runSteps env delivered store).tasks.rows,
      t.id = "task-a" ∧ t.status = .completed ∧ t.metadata = none := by decide +kernel
  exact ⟨t, own ▸ Table.find?_mem member, facts⟩

end Demo

theorem terminal_frozen_delivered :
    ∃ t t', (runSteps Demo.env Demo.delivered Demo.store).tasks.find? "task-a" = some t ∧
      (Demo.again.exec Demo.env (runSteps Demo.env Demo.delivered Demo.store)).2.tasks.find? "task-a" =
        some t' ∧ Frozen t t' := by
  obtain ⟨t, stored, completed, _⟩ := Demo.delivered_stored
  have exact := terminal_frozen Demo.env stored (by rw [completed]; rfl)
  obtain ⟨t', now, frozen⟩ := (exact.1 Demo.again).mpr (by rintro ⟨_, _, same, _⟩; cases same)
  exact ⟨t, t', stored, now, frozen⟩

/-- A progress report writes the metadata of a completed task. -/
theorem terminal_overwritten : ¬ ∀ (env : Env) (s : Store), Reachable env s →
    ∀ (id : String) (t : Task) (op : Op), s.tasks.find? id = some t → isTerminal t.status = true →
      ∃ t', (op.exec env s).2.tasks.find? id = some t' ∧ Frozen t t' := by
  intro claimed
  obtain ⟨t, stored, completed, bare⟩ := Demo.delivered_stored
  obtain ⟨t', now, frozen⟩ := claimed Demo.env _ ((Reachable.start Demo.store_blank).runSteps Demo.delivered)
    "task-a" t Demo.lateReport stored (by rw [completed]; rfl)
  have written : ∀ u, (Demo.lateReport.exec Demo.env
      (runSteps Demo.env Demo.delivered Demo.store)).2.tasks.find? "task-a" = some u →
      u.metadata ≠ none ∧ u.status = .completed := by
    intro u found
    have facts : ∀ u ∈ (Demo.lateReport.exec Demo.env
        (runSteps Demo.env Demo.delivered Demo.store)).2.tasks.rows,
        u.metadata ≠ none ∧ u.status = .completed := by decide +kernel
    exact facts u (Table.find?_eq_some.mp found).1
  obtain ⟨reported, still⟩ := written t' now
  rcases frozen with rfl | ⟨_, at', rfl⟩
  · exact reported bare
  · cases still

end Fleet.Api
