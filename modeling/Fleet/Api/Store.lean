/- The persisted tables, the queries on them and the commit of a session's work. -/
import Fleet.Lib.Table
import Fleet.Lib.Prog
import Fleet.Lib.Sql
import Fleet.Api.Errors
import Fleet.Api.Models

namespace Fleet.Api
open Fleet.Lib

structure Store where
  agents : Table String Agent Agent.id
  workflows : Table String Workflow Workflow.id
  tasks : Table String Task Task.id
  events : Table (String × Int) TaskEvent TaskEvent.slot

/-- What a session has pending when it commits: a new task, the task it changed
(as loaded and as it stands in the session), and new events. -/
structure Work where
  newTask : Option Task := none
  dirty : Option (Task × Task) := none
  newEvents : List TaskEvent := []

/-- The range of an `Integer` column. -/
def fitsInteger (n : Int) : Bool := -2147483648 ≤ n ∧ n ≤ 2147483647

def Task.fits (t : Task) : Bool :=
  t.id.length ≤ 128 && (t.timeoutSeconds.all fitsInteger) && fitsInteger t.lineageDepth
    && (t.callbackUrl.all (fun url => url.length ≤ 2048))
    && (t.idempotencyKey.all (fun key => key.length ≤ 256))

namespace Store

/-! ## Queries -/

def eventsOf (s : Store) (taskId : String) : List TaskEvent :=
  s.events.rows.filter (fun e => e.taskId = taskId)

/-- `coalesce(max(sequence), 0)`. -/
def maxSequence (s : Store) (taskId : String) : Int :=
  ((s.eventsOf taskId).map TaskEvent.sequence).max?.getD 0

def byIdempotencyKey? (s : Store) (key : String) : Option Task :=
  s.tasks.rows.find? (fun t => t.idempotencyKey = some key)

theorem mem_eventsOf {s : Store} {taskId : String} {e : TaskEvent} :
    e ∈ s.eventsOf taskId ↔ e ∈ s.events ∧ e.taskId = taskId := by
  rw [eventsOf, List.mem_filter, Table.mem_rows, decide_eq_true_eq]

theorem le_maxSequence {s : Store} {e : TaskEvent} (member : e ∈ s.events) :
    e.sequence ≤ s.maxSequence e.taskId := by
  have own : e.sequence ∈ (s.eventsOf e.taskId).map TaskEvent.sequence :=
    List.mem_map_of_mem (mem_eventsOf.mpr ⟨member, rfl⟩)
  unfold maxSequence
  cases eq : ((s.eventsOf e.taskId).map TaskEvent.sequence).max? with
  | none => rw [List.max?_eq_none_iff] at eq; rw [eq] at own; cases own
  | some m => exact (List.max?_eq_some_iff.mp eq).2 _ own

/-! ## The commit -/

def references (s : Store) (t : Task) : Bool :=
  (s.workflows.find? t.workflowId).isSome && (s.agents.find? t.principalAgentId).isSome
    && t.executorAgentId.all (fun a => (s.agents.find? a).isSome)
    && t.parentTaskId.all (fun p => (s.tasks.find? p).isSome)
    && t.rootTaskId.all (fun r => (s.tasks.find? r).isSome)

def insertTask (s : Store) (t : Task) : Except Failure Store :=
  if !t.fits then .error (.db .valueOutOfRange)
  else if !s.references t then .error (.db .foreignKey)
  else if t.idempotencyKey.any (fun key => (s.byIdempotencyKey? key).isSome) then
    .error (.db .duplicateIdempotencyKey)
  else
    match s.tasks.insert? t with
    | some tasks => .ok { s with tasks }
    | none => .error (.db .duplicateTaskId)

def insertEvent (s : Store) (e : TaskEvent) : Except Failure Store :=
  if !fitsInteger e.sequence then .error (.db .valueOutOfRange)
  else if (s.tasks.find? e.taskId).isNone then .error (.db .foreignKey)
  else
    match s.events.insert? e with
    | some events => .ok { s with events }
    | none => .error (.db .duplicateSequence)

def updateTask (s : Store) (loaded current : Task) : Store :=
  let tasks := s.tasks.modify loaded.id (Task.writeBack loaded current)
    (fun stored => (Task.writeBack_origin loaded current stored).id)
  { s with tasks }

def insertEvents : List TaskEvent → Store → Except Failure Store
  | [], s => .ok s
  | e :: es, s =>
      match s.insertEvent e with
      | .ok s' => insertEvents es s'
      | .error f => .error f

/-- One transaction: a violated constraint refuses all of it. -/
def flush (w : Work) (s : Store) : Except Failure Store :=
  match (match w.newTask with
    | some t => s.insertTask t
    | none => .ok s) with
  | .error f => .error f
  | .ok s' =>
      insertEvents w.newEvents (match w.dirty with
        | some (loaded, current) => s'.updateTask loaded current
        | none => s')

theorem insertTask_ok {s s' : Store} {t : Task} (h : s.insertTask t = .ok s') :
    t.fits = true ∧ s.references t = true ∧
      (∀ key, t.idempotencyKey = some key → s.byIdempotencyKey? key = none) ∧
      ∃ tasks, s.tasks.insert? t = some tasks ∧ s' = { s with tasks } := by
  unfold insertTask at h
  split at h
  · cases h
  · rename_i fits
    split at h
    · cases h
    · rename_i refs
      split at h
      · cases h
      · rename_i key
        split at h
        · rename_i tasks inserted
          refine ⟨by simpa using fits, by simpa using refs, ?_, tasks, inserted, ?_⟩
          · intro k eq
            simpa [eq] using key
          · cases h; rfl
        · cases h

theorem insertEvent_ok {s s' : Store} {e : TaskEvent} (h : s.insertEvent e = .ok s') :
    fitsInteger e.sequence = true ∧ (∃ t, s.tasks.find? e.taskId = some t) ∧
      ∃ events, s.events.insert? e = some events ∧ s' = { s with events } := by
  unfold insertEvent at h
  split at h
  · cases h
  · rename_i fits
    split at h
    · cases h
    · rename_i known
      split at h
      · rename_i events inserted
        refine ⟨by simpa using fits, ?_, events, inserted, ?_⟩
        · exact Option.ne_none_iff_exists'.mp (by simpa using known)
        · cases h; rfl
      · cases h

theorem insertTask_error {s : Store} {t : Task} {e : Failure} (h : s.insertTask t = .error e) :
    ∃ d, e = .db d := by
  unfold insertTask at h
  split_ifs at h
  · cases h; exact ⟨_, rfl⟩
  · cases h; exact ⟨_, rfl⟩
  · cases h; exact ⟨_, rfl⟩
  · split at h <;> cases h
    exact ⟨_, rfl⟩

theorem insertEvent_error {s : Store} {x : TaskEvent} {e : Failure} (h : s.insertEvent x = .error e) :
    ∃ d, e = .db d := by
  unfold insertEvent at h
  split_ifs at h
  · cases h; exact ⟨_, rfl⟩
  · cases h; exact ⟨_, rfl⟩
  · split at h <;> cases h
    exact ⟨_, rfl⟩

theorem insertEvents_error {es : List TaskEvent} {s : Store} {e : Failure}
    (h : insertEvents es s = .error e) : ∃ d, e = .db d := by
  induction es generalizing s with
  | nil => cases h
  | cons x es ih =>
      simp only [insertEvents] at h
      split at h
      · exact ih h
      · rename_i refused
        cases h
        exact insertEvent_error refused

theorem flush_db {w : Work} {s : Store} {e : Failure} (h : flush w s = .error e) : ∃ d, e = .db d := by
  unfold flush at h
  split at h
  · rename_i refused
    cases h
    split at refused
    · exact insertTask_error refused
    · cases refused
  · exact insertEvents_error h

theorem flush_error {w : Work} {s : Store} {e : Failure} (h : flush w s = .error e) :
    e.isPauseTimeout = false := by
  obtain ⟨d, rfl⟩ := flush_db h
  rfl

/-! ### What a commit leaves in each table -/

theorem insertEvents_frame {es : List TaskEvent} {s s' : Store} (h : insertEvents es s = .ok s') :
    s'.agents = s.agents ∧ s'.workflows = s.workflows ∧ s'.tasks = s.tasks ∧
      s'.events.rows = s.events.rows ++ es := by
  induction es generalizing s with
  | nil => cases h; simp
  | cons e es ih =>
      simp only [insertEvents] at h
      split at h
      · rename_i s₁ first
        obtain ⟨_, _, events, inserted, rfl⟩ := insertEvent_ok first
        obtain ⟨agents, workflows, tasks, rows⟩ := ih h
        refine ⟨agents, workflows, tasks, ?_⟩
        rw [rows, (Table.insert?_eq_some.mp inserted).2, List.append_assoc, List.singleton_append]
      · cases h

theorem flush_ok {w : Work} {s s' : Store} (h : flush w s = .ok s') :
    ∃ mid, (match w.newTask with
        | some t => s.insertTask t
        | none => .ok s) = .ok mid ∧
      s'.agents = s.agents ∧ s'.workflows = s.workflows ∧
      s'.tasks = (match w.dirty with
        | some (loaded, current) => (mid.updateTask loaded current).tasks
        | none => mid.tasks) ∧
      s'.events.rows = s.events.rows ++ w.newEvents := by
  unfold flush at h
  split at h
  · cases h
  · rename_i mid inserted
    refine ⟨mid, inserted, ?_⟩
    have same : mid.agents = s.agents ∧ mid.workflows = s.workflows ∧ mid.events = s.events := by
      split at inserted
      · obtain ⟨_, _, _, tasks, _, rfl⟩ := insertTask_ok inserted
        exact ⟨rfl, rfl, rfl⟩
      · cases inserted; exact ⟨rfl, rfl, rfl⟩
    obtain ⟨agents, workflows, tasks, events⟩ := insertEvents_frame h
    cases dirty : w.dirty with
    | none =>
        simp only [dirty] at agents workflows tasks events ⊢
        exact ⟨agents.trans same.1, workflows.trans same.2.1, tasks, by rw [events, same.2.2]⟩
    | some pair =>
        simp only [dirty] at agents workflows tasks events ⊢
        exact ⟨agents.trans same.1, workflows.trans same.2.1, tasks, by
          rw [events]; exact congrArg (fun t => t.rows ++ _) same.2.2⟩

end Store

/-! ## Statements of a request -/

/-- A text as the parameter of a statement. -/
def bindText (text : String) : Except Failure Unit :=
  if Sql.storable text then .ok () else .error (.db .invalidText)

abbrev Db := Prog Store Work Failure

namespace Db
variable {α : Type}

def raise (e : FleetAPIError) : Db α := Prog.raise (.api e)

def ofExcept (r : Except Failure α) : Db α := .done r

/-- Raise unless the condition holds. -/
def ensure (c : Prop) [Decidable c] (e : FleetAPIError) : Db Unit :=
  if c then pure () else raise e

def query (q : Store → α) : Db α := .read fun s => pure (q s)

/-- What follows a statement whose conditions the database has to resolve. -/
def under (conditions : List Sql.Expr) (rest : Db α) : Db α :=
  if Sql.resolves conditions then rest else .done (.error (.db .undefinedOperator))

def select (conditions : List Sql.Expr) (q : Store → α) : Db α := under conditions (query q)

/-- A lookup whose miss is an error. -/
def fetch (q : Store → Option α) (e : FleetAPIError) : Db α := .read fun s =>
  match q s with
  | some a => pure a
  | none => raise e

def commit (w : Work) : Db Unit := Prog.commit w (pure ())

/-- `session.refresh(task)`: the row as it is stored now. -/
def refresh (task : Task) : Db Task := query fun s => (s.tasks.find? task.id).getD task

variable {G : Store → Store → Prop} {R : Store → Work → Prop} {s : Store}

@[simp] theorem wp_raise (e : FleetAPIError) (Q : Except Failure α → Store → Prop) :
    (raise e : Db α).wp Store.flush G R Q s ↔ Q (.error (.api e)) s := Iff.rfl

@[simp] theorem wp_ofExcept (r : Except Failure α) (Q : Except Failure α → Store → Prop) :
    (ofExcept r : Db α).wp Store.flush G R Q s ↔ Q r s := Iff.rfl

@[simp] theorem wp_ensure (c : Prop) [Decidable c] (e : FleetAPIError)
    (Q : Except Failure Unit → Store → Prop) :
    (ensure c e).wp Store.flush G R Q s ↔
      (c → Q (.ok ()) s) ∧ (¬ c → Q (.error (.api e)) s) := by
  unfold ensure
  rw [Prog.wp_ite]
  exact Iff.rfl

@[simp] theorem wp_query (q : Store → α) (Q : Except Failure α → Store → Prop) :
    (query q).wp Store.flush G R Q s ↔ ∀ s', G s s' → Q (.ok (q s')) s' := Iff.rfl

@[simp] theorem wp_fetch (q : Store → Option α) (e : FleetAPIError)
    (Q : Except Failure α → Store → Prop) :
    (fetch q e).wp Store.flush G R Q s ↔ ∀ s', G s s' →
      (∀ a, q s' = some a → Q (.ok a) s') ∧ (q s' = none → Q (.error (.api e)) s') := by
  refine forall_congr' fun s' => imp_congr_right fun _ => ?_
  cases eq : q s' with
  | some a => simp [eq]
  | none => simp [eq]

@[simp] theorem wp_refresh (task : Task) (Q : Except Failure Task → Store → Prop) :
    (refresh task).wp Store.flush G R Q s ↔
      ∀ s', G s s' → Q (.ok ((s'.tasks.find? task.id).getD task)) s' := Iff.rfl

@[simp] theorem wp_commit (w : Work) (Q : Except Failure Unit → Store → Prop) :
    (commit w).wp Store.flush G R Q s ↔ ∀ s', G s s' → R s' w ∧
      (∀ t, Store.flush w s' = .ok t → Q (.ok ()) t) ∧
      (∀ e, Store.flush w s' = .error e → Q (.error e) s') := by
  refine forall_congr' fun s' => imp_congr_right fun _ => and_congr_right fun _ => ?_
  cases Store.flush w s' with
  | ok t => simp
  | error e => simp

end Db
end Fleet.Api
