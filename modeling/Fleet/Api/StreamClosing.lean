/- When the event stream of a task closes, while other requests commit. -/
import Fleet.Api.Interleaving
import Fleet.Api.StreamProgress

namespace Fleet.Api
open Fleet.Lib

/-! ## The return of the generator -/

def Phase.returned : Phase → Bool
  | .closed => true
  | _ => false

theorem Phase.batch_returned {p : Phase} (returned : p.returned = true) : p.batch = [] := by
  cases p with
  | closed => rfl
  | _ => cases returned

/-- The generator returns after an event that says so, or on a terminal status. -/
theorem EventStream.returns {interval : Int} {s : Store} {g : EventStream}
    (going : g.phase.returned = false)
    (returned : (g.step interval s).1.phase.returned = true) :
    (∃ e rest polled, g.phase = .sending (e :: rest) polled ∧ signalsTerminal e = .ok true) ∨
      ∃ polled status, g.phase = .statusCheck polled ∧ g.taskStatus s = some status ∧
        isTerminal status = true := by
  unfold EventStream.step at returned
  cases phase : g.phase with
  | sending batch polled =>
      rw [phase] at returned
      cases batch with
      | nil => cases polled <;> cases returned
      | cons e rest =>
          refine .inl ⟨e, rest, polled, rfl, ?_⟩
          change (EventStream.phaseAfter e (.sending rest polled)).returned = true at returned
          unfold EventStream.phaseAfter at returned
          split at returned
          · cases returned
          · assumption
          · cases returned
  | statusCheck polled =>
      simp only [phase] at returned
      split at returned
      · cases returned
      · rename_i status read
        split at returned
        · rename_i terminal
          exact .inr ⟨polled, status, rfl, read, terminal⟩
        · cases polled <;> cases returned
  | workflowCheck | taskCheck | fetch | heartbeat =>
      simp only [phase] at returned
      split at returned <;> cases returned
  | replay | sleep =>
      rw [phase] at returned
      cases returned
  | closed =>
      rw [phase] at going
      cases going
  | raised e =>
      simp only [phase] at returned
      cases returned

/-- What the client is owed when the generator returns: the task has ended, and every
stored event beyond the number the client came with has been sent, up to the one that
recorded the first terminal status. -/
structure Told (taskId : String) (first : Int) (s : Store) (frames : List Frame) : Prop where
  ended : s.ended taskId = true
  sent : ∃ e ∈ s.endingEvent? taskId, ∀ x ∈ s.eventsOf taskId,
    first < x.sequence → x.sequence ≤ e.sequence → .entry x ∈ frames

instance (taskId : String) (first : Int) (s : Store) (frames : List Frame) :
    Decidable (Told taskId first s frames) :=
  decidable_of_iff (s.ended taskId = true ∧ ∃ e ∈ s.endingEvent? taskId, ∀ x ∈ s.eventsOf taskId,
    first < x.sequence → x.sequence ≤ e.sequence → .entry x ∈ frames)
    ⟨fun h => ⟨h.1, h.2⟩, fun h => ⟨h.ended, h.sent⟩⟩

theorem Aware.told {first : Int} {s : Store} {g : EventStream} {frames : List Frame}
    (h : Aware first s g) (interval : Int) (recorded : Recorded first g.taskId s)
    (complete : Complete first s g frames) (going : g.phase.returned = false)
    (returned : (g.step interval s).1.phase.returned = true) :
    Told g.taskId first s (frames ++ (g.step interval s).2) := by
  have after := complete.step interval
  have own : (g.step interval s).1.taskId = g.taskId := EventStream.step_taskId interval s g
  have spent : (g.step interval s).1.phase.batch = [] := Phase.batch_returned returned
  -- what is owed up to the last number is sent, so the end must not lie beyond it
  have enough : ∀ e, s.endingEvent? g.taskId = some e →
      (first < e.sequence → e.sequence ≤ (g.step interval s).1.lastSent) →
      Told g.taskId first s (frames ++ (g.step interval s).2) := by
    intro e ending below
    refine ⟨recorded.lasting (by rw [ending]; rfl), e, ending, fun x member later upTo => ?_⟩
    apply after.covers spent
    · rwa [own]
    · refine ⟨later, fun e' ending' => ?_⟩
      rw [own, ending] at ending'
      cases ending'
      exact upTo
    · exact Int.le_trans upTo (below (Int.lt_of_lt_of_le later upTo))
  rcases EventStream.returns going returned with
    ⟨x, rest, polled, phase, ends⟩ | ⟨polled, status, phase, read, terminal⟩
  · have held : x ∈ g.phase.batch := by
      rw [phase]
      exact List.mem_cons_self
    have member := complete.stored x held
    have beyond := Int.lt_of_le_of_lt complete.came (complete.above x held)
    obtain ⟨e, ending⟩ := Option.isSome_iff_exists.mp
      (List.find?_isSome.mpr ⟨x, member, signalsTerminal_reports ends⟩ :
        (s.endingEvent? g.taskId).isSome = true)
    apply enough e ending
    intro _
    have reach : (g.step interval s).1.lastSent = x.sequence := by simp [EventStream.step, phase]
    rw [reach]
    exact recorded.foremost x member beyond ends e ending
  · have known : (s.endingEvent? g.taskId).isSome = true := by
      rw [EventStream.taskStatus] at read
      cases cache : g.cached with
      | some c =>
          rw [cache] at read
          cases read
          exact h.cached (by simpa [cache] using terminal)
      | none =>
          rw [cache, Option.none_or] at read
          exact recorded.ending (by simp [Store.ended, read, terminal])
    have unspoilt : g.cached.all isTerminal = true := by
      cases cache : g.cached with
      | some c =>
          rw [EventStream.taskStatus, cache] at read
          cases read
          simpa using terminal
      | none => rfl
    obtain ⟨e, ending⟩ := Option.isSome_iff_exists.mp known
    apply enough e ending
    intro later
    have reach : (g.step interval s).1.lastSent = g.lastSent := by
      simp [EventStream.step, phase, read, terminal]
    rw [reach]
    exact (h.ahead [] (by rw [phase]; rfl) unspoilt e ending later).resolve_right List.not_mem_nil

/-! ## The stream among other requests -/

/-- The requests on tasks, and the generator of one stream. -/
structure World where
  pool : Pool Store Work Failure Answer
  stream : EventStream

inductive Act where
  | other (move : Move)
  | resume

namespace World

def act (env : Env) (interval : Int) (w : World) : Act → World × List Frame
  | .other move => ({ w with pool := w.pool.turn Store.flush (move.turn env) }, [])
  | .resume =>
      let (stream, frames) := w.stream.step interval w.pool.store
      ({ w with stream }, frames)

def Meets (env : Env) (first : Int) (w : World) : Act → Prop
  | .other move => ∀ c ∈ w.pool.committed Store.flush (move.turn env),
      Timely first w.stream w.pool.store c.1
  | .resume => True

instance (env : Env) (first : Int) (w : World) (a : Act) : Decidable (w.Meets env first a) := by
  unfold Meets
  cases a <;> infer_instance

/-- No request has run and the stream is asked for; it starts with its first step. -/
def opened (s : Store) (workflowId taskId : String) (header : Option Int) (held : Bool) : World :=
  ⟨⟨s, []⟩, streamTaskEvents workflowId taskId header held⟩

structure Keeps (env : Env) (taskId : String) (first : Int) (w : World) (frames : List Frame) :
    Prop where
  pool : w.pool.Sound Store.flush Persists (Change env Persists fun _ => True)
  own : w.stream.taskId = taskId
  recorded : Recorded first w.stream.taskId w.pool.store
  complete : Complete first w.pool.store w.stream frames
  aware : Aware first w.pool.store w.stream

namespace Keeps
variable {env : Env} {taskId : String} {first : Int} {w : World} {frames : List Frame}

theorem opened {s : Store} (blank : s.Blank) (env : Env) (workflowId taskId : String)
    (header : Option Int) (held : Bool) :
    Keeps env taskId (header.getD 0) (World.opened s workflowId taskId header held) [] where
  pool := fun _ member => by cases member
  own := rfl
  recorded := .of_blank blank _ taskId
  complete := .start s workflowId taskId header held
  aware := ⟨fun terminal => (by cases terminal), fun _ waits => (by cases waits)⟩

theorem act (h : Keeps env taskId first w frames) (interval : Int) (a : Act)
    (meets : w.Meets env first a) :
    Keeps env taskId first (w.act env interval a).1 (frames ++ (w.act env interval a).2) := by
  cases a with
  | resume =>
      have same := EventStream.step_taskId interval w.pool.store w.stream
      exact ⟨h.pool, same.trans h.own, same ▸ h.recorded, h.complete.step interval,
        h.aware.step interval h.recorded h.complete⟩
  | other move =>
      have admissible : Pool.Admissible Store.flush Persists (Change env Persists fun _ => True)
          (move.turn env) := by
        cases move with
        | arrive op => exact fun s => program_promises env op s
        | advance i => trivial
      have pool := h.pool.turn Persists.refl Persists.trans
        (fun _ _ _ _ committed => Persists.flush committed) admissible
      rw [show (w.act env interval (.other move)).2 = [] from rfl, List.append_nil]
      rcases @Pool.turn_store _ _ _ _ Store.flush w.pool (move.turn env) with
        ⟨_, same⟩ | ⟨work, s', commit, now⟩
      · have store : (w.act env interval (.other move)).1.pool.store = w.pool.store := by
          rw [World.act, same]
        exact ⟨pool, h.own, store ▸ h.recorded, store ▸ h.complete, store ▸ h.aware⟩
      · have store : (w.act env interval (.other move)).1.pool.store = s' := by
          rw [World.act, now]
        have change := h.pool.committed Persists.refl commit
        obtain ⟨_, _, _, _, committed⟩ := Pool.committed_eq_some.mp commit
        have timely := meets (work, s') commit
        exact ⟨pool, h.own, store ▸ h.recorded.commit change timely committed,
          store ▸ h.complete.commit timely committed, store ▸ h.aware.commit timely committed⟩

end Keeps
end World

/-- Other requests and one stream, step by step. -/
def watching (env : Env) (interval : Int) : Machine World Act Frame := ⟨World.act env interval⟩

section
variable (env : Env) (interval : Int) (workflowId taskId : String) (header : Option Int) (held : Bool)

def streamRun (s : Store) (acts : List Act) : World × List Frame :=
  (watching env interval).run (World.opened s workflowId taskId header held) acts

theorem streamRun_keeps {s : Store} (blank : s.Blank) {acts : List Act}
    (meets : (watching env interval).Along (World.Meets env (header.getD 0))
      (World.opened s workflowId taskId header held) acts) :
    World.Keeps env taskId (header.getD 0)
      (streamRun env interval workflowId taskId header held s acts).1
      (streamRun env interval workflowId taskId header held s acts).2 :=
  Machine.run_invariant (M := watching env interval)
    (I := World.Keeps env taskId (header.getD 0)) (fun _ _ a h meets => h.act interval a meets)
    (.opened blank env workflowId taskId header held) meets

/-- Where every commit is timely, the generator returns only when the client has been told
all it is owed. -/
theorem stream_closes_told {s : Store} (blank : s.Blank) (acts : List Act)
    (meets : (watching env interval).Along (World.Meets env (header.getD 0))
      (World.opened s workflowId taskId header held) acts)
    (going : (streamRun env interval workflowId taskId header held s acts).1.stream.phase.returned = false)
    (returns : (streamRun env interval workflowId taskId header held s
      (acts ++ [.resume])).1.stream.phase.returned = true) :
    Told taskId (header.getD 0)
      (streamRun env interval workflowId taskId header held s (acts ++ [.resume])).1.pool.store
      (streamRun env interval workflowId taskId header held s (acts ++ [.resume])).2 := by
  have kept := streamRun_keeps env interval workflowId taskId header held blank meets
  rw [streamRun, Machine.run_snoc] at returns ⊢
  have told := kept.aware.told interval kept.recorded kept.complete going returns
  rw [kept.own] at told
  exact told

end

namespace Demo

def resumes (n : Nat) : List Act := List.replicate n .resume

def polling : List Act := started.map .other ++ resumes 9

def asleep : List Act := polling ++ resumes 2

def plainEnding : List Act := asleep ++ (serve 2 completion).map .other ++ resumes 2

/-- The completion commits after the fetch and before the look at the status. -/
def lateEnding : List Act := polling ++ (serve 2 completion).map .other

/-- A log entry with number three commits after number ten has been sent. -/
def lateNumber : List Act :=
  asleep ++ [.other (.arrive (post 2 "task-a" "log" [] 3)), .other (.advance 2), .other (.advance 2)]
    ++ (serve 3 (post 3 "task-a" "progress" [("progress", .num 50)] 10)).map .other ++ resumes 4
    ++ [.other (.advance 2)] ++ (serve 4 (post 4 "task-a" "completed" [] 11)).map .other ++ resumes 3

/-- A pause that read the running task commits after the completion. -/
def latePause : List Act :=
  asleep ++ [.other (.arrive (.pauseTask (at' 2) "wf" "task-a" "principal" none)),
      .other (.advance 2), .other (.advance 2)]
    ++ (serve 3 completion).map .other ++ [.other (.advance 2), .other (.advance 2)] ++ resumes 2

/-- A failure with number three commits after the completion with number ten, before the
stream is asked for. -/
def lateFailure : List Act :=
  started.map .other
    ++ [.other (.arrive (post 2 "task-a" "failed" [] 3)), .other (.advance 2), .other (.advance 2)]
    ++ (serve 3 (post 3 "task-a" "completed" [] 10)).map .other
    ++ [.other (.advance 2), .other (.advance 2)] ++ resumes 5

def toldAfter (acts : List Act) : Prop :=
  Told "task-a" 0 (streamRun env 15 "wf" "task-a" none true store (acts ++ [.resume])).1.pool.store
    (streamRun env 15 "wf" "task-a" none true store (acts ++ [.resume])).2

instance (acts : List Act) : Decidable (toldAfter acts) := by
  unfold toldAfter
  infer_instance

def returnsAfter (acts : List Act) : Bool :=
  !(streamRun env 15 "wf" "task-a" none true store acts).1.stream.phase.returned &&
    (streamRun env 15 "wf" "task-a" none true store (acts ++ [.resume])).1.stream.phase.returned

end Demo

theorem stream_closes_told_plain :
    Told "task-a" 0 (streamRun Demo.env 15 "wf" "task-a" none true Demo.store
        (Demo.plainEnding ++ [.resume])).1.pool.store
      (streamRun Demo.env 15 "wf" "task-a" none true Demo.store (Demo.plainEnding ++ [.resume])).2 :=
  stream_closes_told Demo.env 15 "wf" "task-a" none true Demo.store_blank Demo.plainEnding
    (by decide +kernel) (by decide +kernel) (by decide +kernel)

/-- The stream closes on the status of the completed task and has not sent the
completion. -/
theorem stream_closes_untold :
    Demo.returnsAfter Demo.lateEnding = true ∧ ¬ Demo.toldAfter Demo.lateEnding ∧
      (streamRun Demo.env 15 "wf" "task-a" none true Demo.store (Demo.lateEnding ++ [.resume])).2.map
        (Feed.numberOf TaskEvent.sequence) = [1, 2] ∧
      ((streamRun Demo.env 15 "wf" "task-a" none true Demo.store
        (Demo.lateEnding ++ [.resume])).1.pool.store.endingEvent? "task-a").map TaskEvent.sequence =
          some 3 := by
  decide +kernel

/-- Nor may a commit come late: an event is passed by, the task is no longer ended, or the
stream closes before the event that recorded the end. -/
example : ∀ acts ∈ [Demo.lateNumber, Demo.latePause, Demo.lateFailure],
    Demo.returnsAfter acts = true ∧ ¬ Demo.toldAfter acts := by
  decide +kernel

end Fleet.Api
