/- Requests interleaved statement by statement: what survives, and when. -/
import Fleet.Api.Succession

namespace Fleet.Api
open Fleet.Lib

/-! ## Paths of statuses -/

/-- The statuses may be taken one after the other, the first one from `current`;
a task that does not exist yet may only be accepted. -/
def validPath : Option TaskStatus → List TaskStatus → Bool
  | _, [] => true
  | none, b :: rest => b = .accepted && validPath (some b) rest
  | some a, b :: rest => b ∈ validTransitions a && validPath (some b) rest

theorem validPath_append (current : Option TaskStatus) (l m : List TaskStatus) :
    validPath current (l ++ m) = (validPath current l && validPath (l.getLast?.or current) m) := by
  induction l generalizing current with
  | nil => simp [validPath]
  | cons b l ih =>
      cases current <;>
        simp only [List.cons_append, validPath, ih, List.getLast?_cons, Option.some_or,
          Bool.and_assoc]
      all_goals
        cases l.getLast? <;> rfl

section step
variable {env : Env} {quiet : TaskEvent → Prop} {s s' : Store} {w : Work}

theorem Change.newTask_accepted {G : Store → Store → Prop} (h : Change env G quiet s w) :
    ∀ t, w.newTask = some t → t.status = .accepted := by
  intro t new
  cases h with
  | create task caller now fresh => cases new; exact fresh.accepted
  | succeed => cases new; rfl
  | move | note | inject => cases new

theorem Change.path (h : Change env Persists quiet s w) (fresh : w.StatusFresh s)
    (committed : Store.flush w s = .ok s') (id : String) :
    validPath (s.status? id) (w.statusWrites id) = true ∧ (w.statusWrites id).length ≤ 1 := by
  have absent := (h.carries fresh committed).absent
  by_cases created : ∃ t, w.newTask = some t ∧ t.id = id
  · obtain ⟨t, new, rfl⟩ := created
    have untouched : w.dirty.filter (fun c => c.1.id = t.id ∧ c.2.status ≠ c.1.status) = none := by
      rw [Option.filter_eq_none_iff]
      rintro change dirty own
      obtain ⟨before, member, same⟩ := h.dirty_stored change dirty
      have missing := absent t new
      rw [← (of_decide_eq_true own).1, ← same, Table.find?_mem member] at missing
      cases missing
    rw [Work.statusWrites, untouched, new]
    simp [Option.filter, Store.status?, absent t new, validPath, h.newTask_accepted t new]
  · have other : w.newTask.filter (fun t => t.id = id) = none := by
      rw [Option.filter_eq_none_iff]
      intro t new own
      exact created ⟨t, new, of_decide_eq_true own⟩
    rw [Work.statusWrites, other]
    cases dirty : w.dirty with
    | none => simp [validPath]
    | some change =>
        by_cases written : change.1.id = id ∧ change.2.status ≠ change.1.status
        · have read := (fresh change dirty).resolve_left written.2
          have valid := (h.moves change dirty).resolve_left written.2
          rw [written.1] at read
          simp [Option.filter, written, read, validPath, valid]
        · simp only [Option.filter, written, decide_false]
          simp [validPath]

end step

/-! ## Runs of interleaved requests -/

/-- A request for an operation arrives, or a request executes its next statement. -/
inductive Move where
  | arrive (op : Op)
  | advance (i : Nat)

def Move.turn (env : Env) : Move → Turn Store Work Failure Answer
  | .arrive op => .start (op.program env)
  | .advance i => .advance i

def interleave (env : Env) (s : Store) (moves : List Move) : Pool Store Work Failure Answer :=
  Pool.turns Store.flush ⟨s, []⟩ (moves.map (Move.turn env))

/-- The commits of a run in order, each with the store it was applied to. -/
def commits (env : Env) (s : Store) (moves : List Move) : List (Store × Work) :=
  Pool.history Store.flush ⟨s, []⟩ (moves.map (Move.turn env))

def committedStatuses (history : List (Store × Work)) (id : String) : List TaskStatus :=
  history.flatMap (fun c => c.2.statusWrites id)

theorem program_promises (env : Env) (op : Op) (s : Store) :
    (op.program env).wp Store.flush Persists (Change env Persists (fun _ => True))
      (fun _ _ => True) s := by
  refine Prog.wp_mono (op.program_wp (Q := fun _ _ => True) Persists.refl Persists.trans ?_ ?_ ?_)
    (fun _ _ change => change.mono (fun _ _ h => h) fun _ _ => trivial) fun _ _ h => h
  all_goals intros; trivial

theorem commits_change (env : Env) (s : Store) (moves : List Move) :
    ∀ c ∈ commits env s moves, Change env Persists (fun _ => True) c.1 c.2 := by
  refine Pool.Sound.history Persists.refl Persists.trans
    (fun _ _ _ _ committed => Persists.flush committed) ?_ _ ?_
  · intro p member
    cases member
  · intro t member
    obtain ⟨move, _, rfl⟩ := List.mem_map.mp member
    cases move with
    | arrive op => exact fun s => program_promises env op s
    | advance i => trivial

theorem history_path {c : Pool Store Work Failure Answer} {env : Env} {quiet : TaskEvent → Prop}
    (ts : List (Turn Store Work Failure Answer))
    (changes : ∀ e ∈ c.history Store.flush ts, Change env Persists quiet e.1 e.2)
    (fresh : ∀ e ∈ c.history Store.flush ts, e.2.StatusFresh e.1) (id : String) :
    validPath (c.store.status? id) (committedStatuses (c.history Store.flush ts) id) = true := by
  induction ts generalizing c with
  | nil => rfl
  | cons t ts ih =>
      have split : ∀ e ∈ (c.turn Store.flush t).history Store.flush ts,
          e ∈ c.history Store.flush (t :: ts) := by
        intro e member
        simp only [Pool.history]
        split
        · exact List.mem_cons_of_mem _ member
        · exact member
      have rest := ih (fun e member => changes e (split e member))
        fun e member => fresh e (split e member)
      rcases @Pool.turn_store _ _ _ _ Store.flush c t with
        ⟨idle, same⟩ | ⟨w, s', commit, now⟩
      · simp only [Pool.history, idle]
        rw [← same]
        exact rest
      · obtain ⟨_, _, _, _, ok⟩ := Pool.committed_eq_some.mp commit
        have first : (c.store, w) ∈ c.history Store.flush (t :: ts) := by
          simp [Pool.history, commit]
        have change := changes _ first
        obtain ⟨valid, short⟩ := change.path (fresh _ first) ok id
        have status := Store.flush_status ok change.dirty_stored id
        rw [now, status] at rest
        have single : (w.statusWrites id).getLast? = (w.statusWrites id).head? := by
          cases writes : w.statusWrites id with
          | nil => rfl
          | cons b more =>
              rw [writes, List.length_cons] at short
              have : more = [] := List.eq_nil_of_length_eq_zero (by omega)
              rw [this]
              rfl
        simp only [Pool.history, commit, committedStatuses, List.flatMap_cons, validPath_append,
          valid, Bool.true_and, single]
        exact rest

/-- If no status changes between a request's read of the row and its own commit,
the committed statuses of every task are a path of the transition table from
accepted, and no task gets two successors. -/
theorem fresh_commits_follow_table (env : Env) {s : Store} (blank : s.Blank) (moves : List Move)
    (fresh : ∀ c ∈ commits env s moves, c.2.StatusFresh c.1) :
    (∀ id, validPath none (committedStatuses (commits env s moves) id) = true) ∧
      ∀ t ∈ (interleave env s moves).store.tasks, ∀ u ∈ (interleave env s moves).store.tasks,
        t.parentTaskId ≠ none → t.parentTaskId = u.parentTaskId → t = u := by
  have changes := commits_change env s moves
  constructor
  · intro id
    have absent : s.status? id = none := by
      rw [Store.status?, blank.find?_none]
      rfl
    have path := history_path (moves.map (Move.turn env)) changes fresh id
    rw [absent] at path
    exact path
  · have kept : Succession (interleave env s moves).store :=
      Pool.turns_invariant (.of_blank blank) _ fun e member s' before committed =>
        before.commit (changes e member) (fresh e member) committed
    exact kept.only

/-! ## Two requests that come late -/

namespace Demo

/-- One request served from its arrival to its end; it needs at most eight statements. -/
def serve (i : Nat) (op : Op) : List Move := .arrive op :: List.replicate 8 (.advance i)

def completion : Op := post 3 "task-a" "completed" [("result", .str "done")] 3

def started : List Move :=
  serve 0 (create 0 "a") ++ serve 1 (post 1 "task-a" "status" [("status", .str "running")] 2)

/-- A cancellation reads the row, another request runs, the cancellation goes on. -/
def lateCancel (other : Op) : List Move :=
  started ++ [.arrive (.cancelTask (at' 2) "wf" "task-a" "principal" none), .advance 2, .advance 2]
    ++ serve 3 other ++ [.advance 2, .advance 2]

def retask (hex : String) : Op := .retaskTask (at' 4) hex
  { workflowId := "wf", taskId := "task-a", callerAgentId := "principal"
    refinement := { message := "again" } }

/-- Two retasks both read the row before either commits. -/
def doubleRetask : List Move :=
  started ++ serve 2 completion
    ++ [.arrive (retask "b"), .arrive (retask "c"), .advance 3, .advance 3, .advance 4, .advance 4]
    ++ List.replicate 4 (.advance 3) ++ List.replicate 4 (.advance 4)

end Demo

theorem fresh_commits_follow_table_cancel :
    validPath none (committedStatuses (commits Demo.env Demo.store (Demo.lateCancel
      (Demo.post 3 "task-a" "progress" [("progress", .num 10)] 3))) "task-a") = true :=
  (fresh_commits_follow_table Demo.env Demo.store_blank
    (Demo.lateCancel (Demo.post 3 "task-a" "progress" [("progress", .num 10)] 3))
    (by decide +kernel)).1 "task-a"

/-- A completion is overwritten by a cancellation, and a task gets two successors. -/
theorem late_commits_leave_table :
    committedStatuses (commits Demo.env Demo.store (Demo.lateCancel Demo.completion)) "task-a" =
        [.accepted, .running, .completed, .cancelled] ∧
      validPath none [.accepted, .running, .completed, .cancelled] = false ∧
      ((interleave Demo.env Demo.store Demo.doubleRetask).store.tasks.rows.map
        fun t => (t.id, t.parentTaskId)) =
          [("task-a", none), ("task-b", some "task-a"), ("task-c", some "task-a")] := by
  decide +kernel

end Fleet.Api
