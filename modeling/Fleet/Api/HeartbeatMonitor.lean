/- The heartbeat monitor among the heartbeats of the agents, statement by statement. -/
import Fleet.Lib.Machine
import Fleet.Api.Operations

namespace Fleet.Api
open Fleet.Lib

/-! ## What the statements do -/

/-- The row as `heartbeat` holds it when it commits. -/
def Agent.heartbeat (agent : Agent) (now : Time) : Agent :=
  { agent with
    lastHeartbeat := some now
    status := if agent.status = .registered ∨ agent.status = .unreachable then .active
      else agent.status }

/-- The row after the session writes back the columns that differ from the loaded ones. -/
def Agent.writeBack (loaded current stored : Agent) : Agent :=
  { stored with
    lastHeartbeat := Task.column loaded.lastHeartbeat current.lastHeartbeat stored.lastHeartbeat
    status := Task.column loaded.status current.status stored.status }

theorem Agent.writeBack_id (loaded current stored : Agent) :
    (Agent.writeBack loaded current stored).id = stored.id := rfl

/-- The last heartbeat is older than the cutoff; a null is not. -/
def Agent.SilentSince (cutoff : Time) (agent : Agent) : Prop :=
  ∃ at', agent.lastHeartbeat = some at' ∧ at' < cutoff

instance (cutoff : Time) (agent : Agent) : Decidable (agent.SilentSince cutoff) :=
  decidable_of_iff (agent.lastHeartbeat.any (fun at' => at' < cutoff) = true) (by
    simp [Agent.SilentSince, Option.any_eq_true])

/-- `stale_ids`: the `ACTIVE` agents whose last heartbeat is older than the cutoff. -/
def staleIds (s : Store) (cutoff : Time) : List String :=
  (s.agents.rows.filter (fun a => a.status = .active ∧ a.SilentSince cutoff)).map Agent.id

/-- The rows the bulk update matches. -/
def markable (s : Store) (staleIds : List String) : List String :=
  (s.agents.rows.filter (fun a => a.id ∈ staleIds ∧ a.status = .active)).map Agent.id

/-- `values(status=AgentStatus.UNREACHABLE)` on these rows. -/
def markUnreachable (s : Store) (ids : List String) : Store :=
  let agents := s.agents.updateWhere (fun a => a.id ∈ ids) (fun a => { a with status := .unreachable })
    (fun _ => rfl)
  { s with agents }

def commitHeartbeat (s : Store) (loaded : Agent) (now : Time) : Store :=
  let agents := s.agents.modify loaded.id (Agent.writeBack loaded (loaded.heartbeat now))
    (Agent.writeBack_id loaded _)
  { s with agents }

/-! ## Sweeps and heartbeats -/

/-- Where the monitor stands. A sweep that has updated holds the locks of the rows it
changed until it commits. -/
inductive Sweep where
  | asleep
  | begun (cutoff : Time)
  | selected (cutoff : Time) (staleIds : List String)
  | updated (cutoff : Time) (marked : List String)

def Sweep.locks : Sweep → List String
  | .updated _ marked => marked
  | _ => []

inductive Call where
  | asked (agentId : String)
  | loaded (agent : Agent)
  | answered

structure Monitored where
  store : Store
  sweep : Sweep := .asleep
  calls : List Call := []
  /-- Which sweep marked which agent, by its cutoff, the last one first. -/
  marks : List (String × Time) := []

inductive Statement where
  | begin (now : Time)
  | select
  | update
  | commitSweep
  | heartbeat (agentId : String)
  | getAgent (i : Nat)
  | commit (i : Nat) (now : Time)

def Statement.bySweep : Statement → Bool
  | .begin _ | .select | .update | .commitSweep => true
  | _ => false

namespace Monitored

/-- One statement; one whose turn it is not changes nothing. -/
def step (timeoutSeconds : Int) (w : Monitored) : Statement → Monitored
  | .begin now =>
      match w.sweep with
      | .asleep => { w with sweep := .begun (now - timeoutSeconds * 1000000) }
      | _ => w
  | .select =>
      match w.sweep with
      | .begun cutoff =>
          { w with sweep := match staleIds w.store cutoff with
              | [] => .asleep
              | id :: ids => .selected cutoff (id :: ids) }
      | _ => w
  | .update =>
      match w.sweep with
      | .selected cutoff ids => { w with sweep := .updated cutoff (markable w.store ids) }
      | _ => w
  | .commitSweep =>
      match w.sweep with
      | .updated cutoff marked =>
          { w with
            store := markUnreachable w.store marked
            sweep := .asleep
            marks := marked.map (fun id => (id, cutoff)) ++ w.marks }
      | _ => w
  | .heartbeat agentId => { w with calls := w.calls ++ [.asked agentId] }
  | .getAgent i =>
      match w.calls[i]? with
      | some (.asked agentId) =>
          { w with calls := w.calls.set i (match w.store.agents.find? agentId with
              | some agent => .loaded agent
              | none => .answered) }
      | _ => w
  | .commit i now =>
      match w.calls[i]? with
      | some (.loaded agent) =>
          -- the update waits for a lock on the row
          if agent.id ∈ w.sweep.locks then w
          else { w with
            store := commitHeartbeat w.store agent now
            calls := w.calls.set i .answered }
      | _ => w

end Monitored

inductive MonitorOutcome (timeoutSeconds : Int) (w : Monitored) : Statement → Monitored → Prop
  | idle (statement : Statement) : MonitorOutcome timeoutSeconds w statement w
  | begun {now : Time} (asleep : w.sweep = .asleep) : MonitorOutcome timeoutSeconds w (.begin now)
      { w with sweep := .begun (now - timeoutSeconds * 1000000) }
  | spared {cutoff : Time} (begun : w.sweep = .begun cutoff) (none : staleIds w.store cutoff = []) :
      MonitorOutcome timeoutSeconds w .select { w with sweep := .asleep }
  | selected {cutoff : Time} (begun : w.sweep = .begun cutoff) (some : staleIds w.store cutoff ≠ []) :
      MonitorOutcome timeoutSeconds w .select
        { w with sweep := .selected cutoff (staleIds w.store cutoff) }
  | updated {cutoff : Time} {ids : List String} (selected : w.sweep = .selected cutoff ids) :
      MonitorOutcome timeoutSeconds w .update
        { w with sweep := .updated cutoff (markable w.store ids) }
  | swept {cutoff : Time} {marked : List String} (updated : w.sweep = .updated cutoff marked) :
      MonitorOutcome timeoutSeconds w .commitSweep
        { w with
          store := markUnreachable w.store marked
          sweep := .asleep
          marks := marked.map (fun id => (id, cutoff)) ++ w.marks }
  | asked (agentId : String) : MonitorOutcome timeoutSeconds w (.heartbeat agentId)
      { w with calls := w.calls ++ [.asked agentId] }
  | read {i : Nat} {agentId : String} (asked : w.calls[i]? = some (.asked agentId)) :
      MonitorOutcome timeoutSeconds w (.getAgent i)
        { w with calls := w.calls.set i (match w.store.agents.find? agentId with
            | some agent => .loaded agent
            | none => .answered) }
  | heard {i : Nat} {now : Time} {agent : Agent} (loaded : w.calls[i]? = some (.loaded agent))
      (free : agent.id ∉ w.sweep.locks) : MonitorOutcome timeoutSeconds w (.commit i now)
        { w with
          store := commitHeartbeat w.store agent now
          calls := w.calls.set i .answered }

theorem Monitored.step_outcome (timeoutSeconds : Int) (w : Monitored) (statement : Statement) :
    MonitorOutcome timeoutSeconds w statement (w.step timeoutSeconds statement) := by
  cases statement with
  | begin now =>
      simp only [Monitored.step]
      split
      · rename_i asleep
        exact .begun asleep
      · exact .idle _
  | select =>
      simp only [Monitored.step]
      split
      · rename_i cutoff begun
        split
        · rename_i none
          exact .spared begun none
        · rename_i some
          rw [← some]
          exact .selected begun (by simp [some])
      · exact .idle _
  | update =>
      simp only [Monitored.step]
      split
      · rename_i selected
        exact .updated selected
      · exact .idle _
  | commitSweep =>
      simp only [Monitored.step]
      split
      · rename_i updated
        exact .swept updated
      · exact .idle _
  | heartbeat agentId => exact .asked agentId
  | getAgent i =>
      simp only [Monitored.step]
      split
      · rename_i asked
        exact .read asked
      · exact .idle _
  | commit i now =>
      simp only [Monitored.step]
      split
      · rename_i loaded
        split
        · exact .idle _
        · rename_i free
          exact .heard loaded free
      · exact .idle _

def monitoring (timeoutSeconds : Int) : Machine Monitored Statement Empty :=
  ⟨fun w statement => (w.step timeoutSeconds statement, [])⟩

def monitored (timeoutSeconds : Int) (s : Store) (statements : List Statement) : Monitored :=
  ((monitoring timeoutSeconds).run { store := s } statements).1

/-! ## What a sweep changes -/

/-- A sweep turns `ACTIVE` agents `UNREACHABLE` and touches nothing else. -/
structure SweepFrame (s s' : Store) : Prop where
  workflows : s'.workflows = s.workflows
  tasks : s'.tasks = s.tasks
  events : s'.events = s.events
  agents : ∀ id, s'.agents.find? id = s.agents.find? id ∨ ∃ a, s.agents.find? id = some a ∧
    a.status = .active ∧ s'.agents.find? id = some { a with status := .unreachable }

theorem SweepFrame.refl (s : Store) : SweepFrame s s := ⟨rfl, rfl, rfl, fun _ => .inl rfl⟩

theorem find?_markUnreachable (s : Store) (ids : List String) (id : String) :
    (markUnreachable s ids).agents.find? id = if id ∈ ids then
      (s.agents.find? id).map (fun a => { a with status := .unreachable }) else s.agents.find? id := by
  rw [markUnreachable, Table.find?_updateWhere]
  cases found : s.agents.find? id with
  | none => simp
  | some a =>
      have own : a.id = id := (Table.find?_eq_some.mp found).2
      by_cases member : id ∈ ids
      · simp [own, member]
      · simp [own, member]

theorem find?_commitHeartbeat (s : Store) (loaded : Agent) (now : Time) (id : String) :
    (commitHeartbeat s loaded now).agents.find? id = if id = loaded.id then
      (s.agents.find? id).map (Agent.writeBack loaded (loaded.heartbeat now)) else s.agents.find? id := by
  simp only [commitHeartbeat]
  rw [Table.find?_modify]

theorem mem_markable {s : Store} {ids : List String} {id : String} :
    id ∈ markable s ids ↔ ∃ a, s.agents.find? id = some a ∧ id ∈ ids ∧ a.status = .active := by
  simp only [markable, List.mem_map, List.mem_filter, decide_eq_true_eq]
  constructor
  · rintro ⟨a, ⟨member, listed, active⟩, rfl⟩
    exact ⟨a, Table.find?_mem member, listed, active⟩
  · rintro ⟨a, found, listed, active⟩
    obtain ⟨member, rfl⟩ := Table.find?_eq_some.mp found
    exact ⟨a, ⟨member, listed, active⟩, rfl⟩

namespace Monitored
variable {timeoutSeconds : Int} {w : Monitored}

/-- The rows a sweep has updated and not committed are still stored as `ACTIVE`. -/
def Locked (w : Monitored) : Prop :=
  ∀ id ∈ w.sweep.locks, ∀ a, w.store.agents.find? id = some a → a.status = .active

theorem Locked.step (h : w.Locked) (timeoutSeconds : Int) (statement : Statement) :
    (w.step timeoutSeconds statement).Locked := by
  have outcome := w.step_outcome timeoutSeconds statement
  generalize w.step timeoutSeconds statement = w' at *
  cases outcome with
  | idle | asked | read => exact h
  | begun | spared | selected | swept =>
      intro id member
      cases member
  | updated selected =>
      intro id member a found
      obtain ⟨a', found', _, active⟩ := mem_markable.mp member
      rw [found] at found'
      cases found'
      exact active
  | @heard i now agent loaded free =>
      intro id member a found
      have other : id ≠ agent.id := by
        rintro rfl
        exact free member
      dsimp only at found
      rw [find?_commitHeartbeat, if_neg other] at found
      exact h id member a found

/-- Each statement of a sweep stays within the frame. -/
theorem Locked.sweepFrame (h : w.Locked) (timeoutSeconds : Int) {statement : Statement}
    (own : statement.bySweep = true) : SweepFrame w.store (w.step timeoutSeconds statement).store := by
  have outcome := w.step_outcome timeoutSeconds statement
  generalize w.step timeoutSeconds statement = w' at *
  cases outcome with
  | idle | begun | spared | selected | updated => exact .refl _
  | asked | read | heard => cases own
  | @swept cutoff marked updated =>
      refine ⟨rfl, rfl, rfl, fun id => ?_⟩
      dsimp only
      rw [find?_markUnreachable]
      by_cases member : id ∈ marked
      · rw [if_pos member]
        cases found : w.store.agents.find? id with
        | none => exact .inl rfl
        | some a => exact .inr ⟨a, rfl, h id (by rw [updated]; exact member) a found, rfl⟩
      · exact .inl (if_neg member)

/-! ## Why an agent is unreachable -/

/-- An agent that is `UNREACHABLE` because of a sweep was silent up to its cutoff. -/
def Silent (w : Monitored) : Prop :=
  ∀ a ∈ w.store.agents, a.status = .unreachable →
    ∀ cutoff ∈ w.marks.lookup a.id, a.SilentSince cutoff

instance (w : Monitored) : Decidable w.Silent :=
  decidable_of_iff (∀ a ∈ w.store.agents.rows, a.status = .unreachable →
    ∀ cutoff ∈ w.marks.lookup a.id, a.SilentSince cutoff) Iff.rfl

theorem silent_iff : w.Silent ↔ ∀ id a, w.store.agents.find? id = some a → a.status = .unreachable →
    ∀ cutoff, w.marks.lookup id = some cutoff → a.SilentSince cutoff := by
  constructor
  · intro silent id a found
    obtain ⟨member, rfl⟩ := Table.find?_eq_some.mp found
    exact silent a member
  · intro silent a member
    exact silent a.id a (Table.find?_mem member)

def Waiting (w : Monitored) : Prop :=
  ∀ cutoff marked, w.sweep = .updated cutoff marked →
    ∀ id ∈ marked, ∀ a, w.store.agents.find? id = some a → a.SilentSince cutoff

/-- What is asked of the two statements that write: an agent the sweep selected has not
been heard since, and a heartbeat does not keep the status of an agent that was marked
after it read it. -/
def Timely (w : Monitored) : Statement → Prop
  | .update =>
      match w.sweep with
      | .selected cutoff ids => ∀ id ∈ ids, ∀ a ∈ w.store.agents.find? id,
          a.status = .active → a.SilentSince cutoff
      | _ => True
  | .commit i now =>
      match w.calls[i]? with
      | some (.loaded loaded) => loaded.id ∉ w.sweep.locks →
          ∀ stored ∈ w.store.agents.find? loaded.id, stored.status = .unreachable →
          ∀ cutoff ∈ w.marks.lookup loaded.id,
            (loaded.status = .registered ∨ loaded.status = .unreachable) ∨ now < cutoff ∨
              loaded.lastHeartbeat = some now
      | _ => True
  | _ => True

instance (w : Monitored) (statement : Statement) : Decidable (w.Timely statement) := by
  unfold Timely
  split
  · split <;> infer_instance
  · split <;> infer_instance
  · infer_instance

theorem lookup_marked (marked : List String) (cutoff : Time) (id : String) :
    (marked.map (fun id => (id, cutoff))).lookup id = if id ∈ marked then some cutoff else none := by
  induction marked with
  | nil => rfl
  | cons x marked ih =>
      rw [List.map_cons, List.lookup_cons, ih]
      by_cases same : id = x
      · simp [same]
      · simp [beq_false_of_ne same, same]

theorem writeBack_unreachable {loaded stored : Agent} {now : Time}
    (unreachable : (Agent.writeBack loaded (loaded.heartbeat now) stored).status = .unreachable) :
    stored.status = .unreachable ∧ ¬ (loaded.status = .registered ∨ loaded.status = .unreachable) := by
  change Task.column loaded.status (loaded.heartbeat now).status stored.status = _ at unreachable
  by_cases revived : loaded.status = .registered ∨ loaded.status = .unreachable
  · have held : (loaded.heartbeat now).status = .active := if_pos revived
    have differs : AgentStatus.active ≠ loaded.status := by
      rcases revived with read | read <;> (rw [read]; decide)
    rw [held, Task.column, if_neg differs] at unreachable
    cases unreachable
  · have held : (loaded.heartbeat now).status = loaded.status := if_neg revived
    rw [held, Task.column, if_pos rfl] at unreachable
    exact ⟨unreachable, revived⟩

theorem writeBack_silent {loaded stored : Agent} {now cutoff : Time} (silent : stored.SilentSince cutoff)
    (timely : now < cutoff ∨ loaded.lastHeartbeat = some now) :
    (Agent.writeBack loaded (loaded.heartbeat now) stored).SilentSince cutoff := by
  change ∃ at', Task.column loaded.lastHeartbeat (some now) stored.lastHeartbeat = some at' ∧ at' < cutoff
  unfold Task.column
  by_cases same : some now = loaded.lastHeartbeat
  · rw [if_pos same]
    exact silent
  · rw [if_neg same]
    exact ⟨now, rfl, timely.resolve_right fun read => same read.symm⟩

structure Kept (w : Monitored) : Prop where
  locked : w.Locked
  silent : w.Silent
  waiting : w.Waiting

theorem Kept.silent_step (h : w.Kept) (timeoutSeconds : Int) {statement : Statement}
    (timely : w.Timely statement) : (w.step timeoutSeconds statement).Silent := by
  have silent := silent_iff.mp h.silent
  rw [silent_iff]
  have outcome := w.step_outcome timeoutSeconds statement
  generalize w.step timeoutSeconds statement = w' at *
  cases outcome with
  | idle | begun | spared | selected | updated | asked | read => exact silent
  | @swept cutoff marked updated =>
      intro id a found unreachable cutoff' cause
      dsimp only at found cause
      rw [find?_markUnreachable] at found
      rw [List.lookup_append, lookup_marked] at cause
      by_cases member : id ∈ marked
      · rw [if_pos member] at found cause
        cases cause
        obtain ⟨before, stored, rfl⟩ := Option.map_eq_some_iff.mp found
        exact h.waiting cutoff marked updated id member before stored
      · rw [if_neg member] at found cause
        exact silent id a found unreachable cutoff' cause
  | @heard i now agent called free =>
      intro id a found unreachable cutoff cause
      dsimp only at found cause
      rw [find?_commitHeartbeat] at found
      by_cases own : id = agent.id
      · subst own
        rw [if_pos rfl] at found
        obtain ⟨stored, loaded, rfl⟩ := Option.map_eq_some_iff.mp found
        obtain ⟨before, kept⟩ := writeBack_unreachable unreachable
        simp only [Timely, called] at timely
        have here := timely free stored loaded before cutoff cause
        exact writeBack_silent (silent agent.id stored loaded before cutoff cause)
          (here.resolve_left kept)
      · rw [if_neg own] at found
        exact silent id a found unreachable cutoff cause

theorem Kept.waiting_step (h : w.Kept) (timeoutSeconds : Int) {statement : Statement}
    (timely : w.Timely statement) : (w.step timeoutSeconds statement).Waiting := by
  have outcome := w.step_outcome timeoutSeconds statement
  generalize w.step timeoutSeconds statement = w' at *
  cases outcome with
  | idle | asked | read => exact h.waiting
  | begun | spared | selected | swept =>
      intro cutoff marked phase
      cases phase
  | @updated cutoff ids selected =>
      intro cutoff' marked phase id member a found
      cases phase
      obtain ⟨a', found', listed, active⟩ := mem_markable.mp member
      rw [found] at found'
      cases found'
      simp only [Timely, selected] at timely
      exact timely id listed a found active
  | @heard i now agent loaded free =>
      intro cutoff marked phase id member a found
      have other : id ≠ agent.id := by
        rintro rfl
        rw [show w.sweep = .updated cutoff marked from phase] at free
        exact free member
      dsimp only at found
      rw [find?_commitHeartbeat, if_neg other] at found
      exact h.waiting cutoff marked phase id member a found

theorem Kept.step (h : w.Kept) (timeoutSeconds : Int) {statement : Statement}
    (timely : w.Timely statement) : (w.step timeoutSeconds statement).Kept where
  locked := h.locked.step timeoutSeconds statement
  silent := h.silent_step timeoutSeconds timely
  waiting := h.waiting_step timeoutSeconds timely

/-- A statement that is not timely leaves an agent unreachable that has been heard. -/
theorem untimely (timeoutSeconds : Int) {statement : Statement} (late : ¬ w.Timely statement) :
    ¬ (w.step timeoutSeconds statement).Silent ∨
      ¬ ((w.step timeoutSeconds statement).step timeoutSeconds .commitSweep).Silent := by
  cases statement with
  | begin | select | commitSweep | heartbeat | getAgent => exact absurd trivial late
  | update =>
      cases selected : w.sweep with
      | selected cutoff ids =>
          simp only [Timely, selected, not_forall] at late
          obtain ⟨id, listed, a, found, active, heard⟩ := late
          have marked : id ∈ markable w.store ids := mem_markable.mpr ⟨a, found, listed, active⟩
          refine .inr fun silent => ?_
          simp only [Monitored.step, selected, silent_iff] at silent
          refine heard (silent id { a with status := .unreachable } ?_ rfl cutoff ?_)
          · rw [find?_markUnreachable, if_pos marked, show _ = some a from found]
            rfl
          · rw [List.lookup_append, lookup_marked, if_pos marked]
            rfl
      | asleep | begun | updated => exact absurd (by simp [Timely, selected]) late
  | commit i now =>
      unfold Timely at late
      dsimp only at late
      split at late
      · rename_i loaded called
        simp only [not_forall, not_or] at late
        obtain ⟨free, stored, found, unreachable, cutoff, cause, kept, recent, fresh⟩ := late
        refine .inl fun silent => ?_
        simp only [Monitored.step, called, if_neg free, silent_iff] at silent
        have status : (Agent.writeBack loaded (loaded.heartbeat now) stored).status = .unreachable := by
          have held : (loaded.heartbeat now).status = loaded.status := if_neg (not_or.mpr kept)
          change Task.column loaded.status (loaded.heartbeat now).status stored.status = _
          rw [held, Task.column, if_pos rfl, unreachable]
        obtain ⟨at', written, earlier⟩ := silent loaded.id _
          (by rw [find?_commitHeartbeat, if_pos rfl, show _ = some stored from found]; rfl) status
          cutoff cause
        change Task.column loaded.lastHeartbeat (some now) stored.lastHeartbeat = _ at written
        rw [Task.column, if_neg fun same => fresh same.symm] at written
        cases written
        exact recent earlier
      · exact absurd trivial late

end Monitored

/-! ## Runs -/

section runs
variable (timeoutSeconds : Int) (s : Store)

theorem monitored_append (xs ys : List Statement) :
    monitored timeoutSeconds s (xs ++ ys) =
      ((monitoring timeoutSeconds).run (monitored timeoutSeconds s xs) ys).1 := by
  rw [monitored, Machine.run_append]
  rfl

theorem monitored_locked (statements : List Statement) : (monitored timeoutSeconds s statements).Locked :=
  @Machine.run_invariant _ _ _ (monitoring timeoutSeconds) (fun w _ => w.Locked) (fun _ _ => True)
    (fun _ _ statement h _ => h.step timeoutSeconds statement) { store := s } []
    (fun _ member => by cases member) statements (Machine.along_true _ statements)

theorem monitored_kept {statements : List Statement}
    (timely : (monitoring timeoutSeconds).Along Monitored.Timely { store := s } statements) :
    (monitored timeoutSeconds s statements).Kept :=
  @Machine.run_invariant _ _ _ (monitoring timeoutSeconds) (fun w _ => w.Kept) Monitored.Timely
    (fun _ _ _ h timely => h.step timeoutSeconds timely) { store := s } []
    ⟨fun _ member => (by cases member), fun _ _ _ _ cause => (by cases cause),
      fun _ _ phase => (by cases phase)⟩ statements timely

/-- A sweep only turns `ACTIVE` agents `UNREACHABLE`, whatever the heartbeats do; where
every statement is timely it turns silent ones only, and a statement that is not leads to
one that has been heard. -/
theorem sweep_marks_silent (statements : List Statement) :
    (∀ statement : Statement, statement.bySweep = true →
      SweepFrame (monitored timeoutSeconds s statements).store
        (monitored timeoutSeconds s (statements ++ [statement])).store) ∧
    ((monitoring timeoutSeconds).Along Monitored.Timely { store := s } statements →
      (monitored timeoutSeconds s statements).Silent ∧
      ∀ statement, ¬ (monitored timeoutSeconds s statements).Timely statement →
        ∃ more, ¬ (monitored timeoutSeconds s (statements ++ statement :: more)).Silent) := by
  refine ⟨fun statement own => ?_, fun timely => ?_⟩
  · rw [monitored_append]
    exact (monitored_locked timeoutSeconds s statements).sweepFrame timeoutSeconds own
  · have kept := monitored_kept timeoutSeconds s timely
    refine ⟨kept.silent, fun statement late => ?_⟩
    rcases Monitored.untimely timeoutSeconds late with now | next
    · exact ⟨[], by rw [monitored_append]; exact now⟩
    · exact ⟨[.commitSweep], by rw [monitored_append]; exact next⟩

end runs

namespace Demo

def silentExecutor : Store :=
  let executor := { agent "executor" with status := .active, lastHeartbeat := some 0 }
  { store with agents := ⟨[agent "principal", executor], by decide⟩ }

/-- A heartbeat commits between the select and the update of a sweep. -/
def heardBefore : List Statement := [.heartbeat "executor", .getAgent 0, .begin 100000000, .select,
  .commit 0 100000001, .update, .commitSweep]

/-- A heartbeat that has read the agent commits after the sweep. -/
def heardAfter : List Statement := [.heartbeat "executor", .getAgent 0, .begin 100000000, .select, .update,
  .commitSweep, .commit 0 100000001]

/-- The sweep marks a silent agent, which is heard again. -/
def revived : List Statement := [.begin 100000000, .select, .update, .commitSweep, .heartbeat "executor",
  .getAgent 0, .commit 0 100000001]

end Demo

theorem sweep_marks_silent_revived : (monitored 90 Demo.silentExecutor Demo.revived).Silent :=
  ((sweep_marks_silent 90 Demo.silentExecutor Demo.revived).2 (by decide +kernel)).1

namespace Demo

/-- What is stored of the executor, and the sweeps that marked an agent. -/
def outcome (statements : List Statement) :
    Option (AgentStatus × Option Time) × List (String × Time) :=
  let m := monitored 90 silentExecutor statements
  ((m.store.agents.find? "executor").map fun a => (a.status, a.lastHeartbeat), m.marks)

end Demo

/-- In both orders an agent heard a microsecond ago stays unreachable. -/
theorem sweep_marks_heard :
    (¬ (monitored 90 Demo.silentExecutor Demo.heardBefore).Silent ∧
      ¬ (monitored 90 Demo.silentExecutor Demo.heardAfter).Silent) ∧
    Demo.outcome Demo.heardBefore = (some (.unreachable, some 100000001), [("executor", 10000000)]) ∧
    Demo.outcome Demo.heardAfter = (some (.unreachable, some 100000001), [("executor", 10000000)]) := by
  decide +kernel

end Fleet.Api
