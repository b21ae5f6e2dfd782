/- The event stream of a task: the checks of the endpoint, then the generator, one
   suspension after the other. -/
import Fleet.Lib.Feed
import Fleet.Lib.JsonText
import Fleet.Lib.Machine
import Fleet.Api.Effects

namespace Fleet.Api
open Fleet.Lib

/-! ## Frames -/

def formatSseEvent (eventType : String) (data : Dict) (sequence : Int) : String :=
  s!"id: {sequence}\nevent: {eventType}\ndata: {Json.dumpsPlain (.obj data)}\n\n"

/-- What the generator yields: a stored event, or a keepalive with the last number
sent. -/
abbrev Frame := Item TaskEvent Int

def Frame.text : Frame → String
  | .entry e => formatSseEvent e.eventType e.dataD e.sequence
  | .mark last => formatSseEvent "heartbeat" [("type", .str "keepalive")] last

/-! ## What ends a stream -/

/-- `status_value in _TERMINAL_STATUS_VALUES`; a list or a dictionary has no hash. -/
def inTerminalStatusValues : Json → Except Failure Bool
  | .str v => .ok (v ∈ terminalStates.map TaskStatus.value)
  | .arr _ => .error (.python "unhashable type: 'list'")
  | .obj _ => .error (.python "unhashable type: 'dict'")
  | .null | .bool _ | .num _ | .real _ _ => .ok false

/-- The check after each event sent. -/
def signalsTerminal (e : TaskEvent) : Except Failure Bool :=
  if e.eventType = "completed" ∨ e.eventType = "failed" then .ok true
  else if e.eventType = "status" then inTerminalStatusValues ((e.dataD.get? "status").getD (.str ""))
  else .ok false

def endsStream (e : TaskEvent) : Bool :=
  match signalsTerminal e with
  | .ok ends => ends
  | .error _ => true

/-! ## The generator -/

def fetchEventsAfter (s : Store) (taskId : String) (afterSequence : Int) : List TaskEvent :=
  ((s.eventsOf taskId).filter (fun e => afterSequence < e.sequence)).insertionSort
    (fun a b => a.sequence ≤ b.sequence)

theorem mem_fetchEventsAfter {s : Store} {taskId : String} {after : Int} {e : TaskEvent} :
    e ∈ fetchEventsAfter s taskId after ↔ e ∈ s.eventsOf taskId ∧ after < e.sequence := by
  rw [fetchEventsAfter, List.mem_insertionSort, List.mem_filter, decide_eq_true_eq]

theorem fetchEventsAfter_increasing (s : Store) (taskId : String) (after : Int) :
    Feed.Increasing TaskEvent.sequence (fetchEventsAfter s taskId after) := by
  have distinct : ((fetchEventsAfter s taskId after).map TaskEvent.sequence).Nodup := by
    refine List.Nodup.map_on (fun x first y second same => ?_) ?_
    · obtain ⟨stored, own⟩ := Store.mem_eventsOf.mp (mem_fetchEventsAfter.mp first).1
      obtain ⟨stored', own'⟩ := Store.mem_eventsOf.mp (mem_fetchEventsAfter.mp second).1
      exact Table.eq_of_key stored stored' (Prod.ext (own.trans own'.symm) same)
    · rw [fetchEventsAfter, (List.perm_insertionSort _ _).nodup_iff]
      exact (List.Nodup.of_map _ s.events.nodup).filter _ |>.filter _
  have sorted : ((fetchEventsAfter s taskId after).map TaskEvent.sequence).Pairwise (· ≤ ·) := by
    rw [fetchEventsAfter, List.map_insertionSort _ (· ≤ ·) _ _ fun _ _ _ _ => Iff.rfl]
    exact List.pairwise_insertionSort _ _
  exact (List.sortedLT_iff_nodup_and_sortedLE.mpr ⟨distinct, sorted.sortedLE⟩).pairwise

/-- Where the request stands: what it does next. `polled` tells a batch or a status
check of the polling loop from that of the replay. -/
inductive Phase where
  | workflowCheck
  | taskCheck
  | replay
  | sending (rest : List TaskEvent) (polled : Bool)
  | statusCheck (polled : Bool)
  | sleep
  | fetch
  | heartbeat
  | closed
  | raised (e : Failure)

def Phase.stopped : Phase → Prop
  | closed | raised _ => True
  | _ => False

def Phase.batch : Phase → List TaskEvent
  | .sending rest _ => rest
  | _ => []

structure EventStream where
  workflowId : String
  taskId : String
  phase : Phase
  lastSent : Int
  /-- The session holds its objects weakly: whether the task read at the opening is
  still held when the status is first looked at. -/
  held : Bool
  /-- The status of the task in the session's cache. -/
  cached : Option TaskStatus := none
  secondsSinceLastEvent : Int := 0

/-- `stream_task_events`: a missing `Last-Event-Id` counts as zero. -/
def streamTaskEvents (workflowId taskId : String) (lastEventId : Option Int) (held : Bool) :
    EventStream :=
  { workflowId, taskId, phase := .workflowCheck, lastSent := lastEventId.getD 0, held }

namespace EventStream

def phaseAfter (e : TaskEvent) (next : Phase) : Phase :=
  match signalsTerminal e with
  | .error f => .raised f
  | .ok true => .closed
  | .ok false => next

/-- `_get_task_status`: the cached object, or the stored row. -/
def taskStatus (s : Store) (g : EventStream) : Option TaskStatus := g.cached.or (s.status? g.taskId)

/-- One statement, one frame or one sleep, at the store of that moment. -/
def step (heartbeatInterval : Int) (g : EventStream) (s : Store) : EventStream × List Frame :=
  match g.phase with
  | .workflowCheck =>
      match s.workflows.find? g.workflowId with
      | some _ => ({ g with phase := .taskCheck }, [])
      | none => ({ g with phase := .raised (.api (workflowNotFound g.workflowId)) }, [])
  | .taskCheck =>
      match (s.tasks.find? g.taskId).filter (fun t => t.workflowId = g.workflowId) with
      | some task =>
          ({ g with phase := .replay, cached := if g.held then some task.status else none }, [])
      | none => ({ g with phase := .raised (.api (taskNotFound g.workflowId g.taskId)) }, [])
  | .replay => ({ g with phase := .sending (fetchEventsAfter s g.taskId g.lastSent) false }, [])
  | .sending (e :: rest) polled =>
      ({ g with phase := phaseAfter e (.sending rest polled), lastSent := e.sequence }, [.entry e])
  | .sending [] false => ({ g with phase := .statusCheck false }, [])
  | .sending [] true => ({ g with phase := .heartbeat }, [])
  | .statusCheck polled =>
      match g.taskStatus s with
      | none => ({ g with phase := .raised (.api (eventTaskNotFound g.taskId)) }, [])
      | some status =>
          if isTerminal status then ({ g with phase := .closed }, [])
          else ({ g with phase := if polled then .heartbeat else .sleep }, [])
  | .sleep =>
      -- `expire_all` comes with the end of the sleep: the next reads are fresh
      ({ g with
          phase := .fetch
          cached := none
          secondsSinceLastEvent := g.secondsSinceLastEvent + 1 }, [])
  | .fetch =>
      match fetchEventsAfter s g.taskId g.lastSent with
      | [] => ({ g with phase := .statusCheck true }, [])
      | e :: rest => ({ g with phase := .sending (e :: rest) true, secondsSinceLastEvent := 0 }, [])
  | .heartbeat =>
      if heartbeatInterval ≤ g.secondsSinceLastEvent then
        ({ g with phase := .sleep, secondsSinceLastEvent := 0 }, [.mark g.lastSent])
      else ({ g with phase := .sleep }, [])
  | .closed | .raised _ => (g, [])

end EventStream

/-- `_event_stream`; its actions are the stores it meets. -/
def eventStream (heartbeatInterval : Int) : Machine EventStream Store Frame :=
  ⟨EventStream.step heartbeatInterval⟩

example : Frame.text (.entry ⟨"task-a", "progress", some [("progress", .num 50)], 7, 0⟩) =
    "id: 7\nevent: progress\ndata: \x7b\"progress\": 50\x7d\n\n" := by decide

/-! ## What a step may do -/

namespace EventStream
variable {interval : Int} {s : Store} {g : EventStream}

/-- Every step of a stream: it sends nothing and holds at most a fresh batch, sends the
next event of its batch, or sends a keepalive. -/
inductive Advance (s : Store) (g : EventStream) : EventStream × List Frame → Prop
  | silent (g' : EventStream) (own : g'.taskId = g.taskId) (same : g'.lastSent = g.lastSent)
      (stopped : g.phase.stopped → g' = g) (spent : g.phase.batch = [])
      (batch : ∀ rest polled, g'.phase = .sending rest polled →
        rest = fetchEventsAfter s g.taskId g.lastSent) : Advance s g (g', [])
  | event (e : TaskEvent) (rest : List TaskEvent) (polled : Bool)
      (batch : g.phase = .sending (e :: rest) polled) :
      Advance s g ({ g with phase := phaseAfter e (.sending rest polled), lastSent := e.sequence },
        [.entry e])
  | keepalive (idle : g.phase = .heartbeat) :
      Advance s g ({ g with phase := .sleep, secondsSinceLastEvent := 0 }, [.mark g.lastSent])

theorem Advance.idle {g' : EventStream} (going : ¬ g.phase.stopped)
    (spent : g.phase.batch = []) (own : g'.taskId = g.taskId)
    (same : g'.lastSent = g.lastSent) (empty : ∀ rest polled, g'.phase ≠ .sending rest polled) :
    Advance s g (g', []) :=
  .silent g' own same (fun stopped => absurd stopped going) spent
    fun rest polled batch => absurd batch (empty rest polled)

theorem advance (interval : Int) (s : Store) (g : EventStream) : Advance s g (g.step interval s) := by
  unfold step
  cases phase : g.phase with
  | workflowCheck | taskCheck =>
      dsimp only
      split <;> exact .idle (by simp [phase, Phase.stopped]) (by rw [phase]; rfl) rfl rfl (by simp)
  | replay =>
      refine .silent _ rfl rfl (by simp [phase, Phase.stopped]) (by rw [phase]; rfl) fun rest polled batch => ?_
      cases batch
      rfl
  | sending rest polled =>
      cases rest with
      | cons e rest => exact .event e rest polled phase
      | nil => cases polled <;> exact .idle (by simp [phase, Phase.stopped]) (by rw [phase]; rfl) rfl rfl (by simp)
  | statusCheck polled =>
      dsimp only
      split
      · exact .idle (by simp [phase, Phase.stopped]) (by rw [phase]; rfl) rfl rfl (by simp)
      · split
        · exact .idle (by simp [phase, Phase.stopped]) (by rw [phase]; rfl) rfl rfl (by simp)
        · cases polled <;> exact .idle (by simp [phase, Phase.stopped]) (by rw [phase]; rfl) rfl rfl (by simp)
  | sleep => exact .idle (by simp [phase, Phase.stopped]) (by rw [phase]; rfl) rfl rfl (by simp)
  | fetch =>
      dsimp only
      split
      · exact .idle (by simp [phase, Phase.stopped]) (by rw [phase]; rfl) rfl rfl (by simp)
      · rename_i e rest found
        refine .silent _ rfl rfl (by simp [phase, Phase.stopped]) (by rw [phase]; rfl) fun batch polled same => ?_
        cases same
        exact found.symm
  | heartbeat =>
      dsimp only
      split
      · exact .keepalive phase
      · exact .idle (by simp [phase, Phase.stopped]) (by rw [phase]; rfl) rfl rfl (by simp)
  | closed | raised e => exact .silent _ rfl rfl (fun _ => rfl) (by rw [phase]; rfl) (by simp [phase])

theorem step_taskId (interval : Int) (s : Store) (g : EventStream) :
    (g.step interval s).1.taskId = g.taskId := by
  have advance := advance interval s g
  generalize g.step interval s = result at advance ⊢
  cases advance with
  | silent g' own => exact own
  | event | keepalive => rfl

theorem phaseAfter_stopped (e : TaskEvent) (next : Phase) (ends : endsStream e = true) :
    (phaseAfter e next).stopped := by
  unfold endsStream at ends
  unfold phaseAfter
  cases check : signalsTerminal e with
  | error f => trivial
  | ok value =>
      rw [check] at ends
      cases ends
      trivial

theorem phaseAfter_next (e : TaskEvent) (next : Phase) (goes : endsStream e = false) :
    phaseAfter e next = next := by
  unfold endsStream at goes
  unfold phaseAfter
  cases check : signalsTerminal e with
  | error f =>
      rw [check] at goes
      cases goes
  | ok value =>
      rw [check] at goes
      cases goes
      rfl

end EventStream
end Fleet.Api
