/- The two polling loops and the executions of one sidecar: when a stop signal is heeded. -/
import Fleet.Agent.Poller
import Fleet.Agent.SignalPolling

namespace Fleet.Agent
open Fleet.Lib

/-! ## The loops side by side -/

/-- What `TaskPoller.run`, its dispatches and `SignalPoller.run` share on one event loop. -/
structure Loops where
  dispatches : Table String Dispatch Dispatch.taskId := .empty
  poller : SignalPoller := {}

/-- From here the execution checks for a stop before it reads another line, or
reads none. -/
def Point.heeds : Point → Bool
  | .blocked | .contexts _ => false
  | .launch | .feed | .check | .read | .wait | .closing _ => true

namespace Loops

/-- The next step of any of them. `none` is a poll that fails; a post returned, or
an exception left it. -/
inductive Action where
  | tasksPolled (result : Option (List PendingTask))
  | signalsPolled (result : Option (List Signal))
  | visits
  | acknowledges
  | goesOn (taskId : String) (input : Input)
  | posted (taskId : String) (raised : Bool)

/-- A task is dispatched; its execution starts to read the next line; it delivers
the event of a line. -/
inductive Report where
  | dispatched (taskId : String)
  | reads (taskId : String)
  | delivered (taskId : String)
  deriving DecidableEq

section step
variable (s : Loops)

def sidecar : Sidecar := ⟨s.dispatches, s.poller.signals⟩

def withSidecar (c : Sidecar) : Loops where
  dispatches := c.dispatches
  poller := { s.poller with signals := c.signals }

def withSignals (signals : SignalState) : Loops := { s with poller := { s.poller with signals } }

def put (d : Dispatch) : Loops := { s with dispatches := s.dispatches.put d }

def finish (taskId : String) : Loops := s.withSidecar (s.sidecar.finish taskId)

def round (maxConcurrent : Nat) (tasks : List PendingTask) : Loops × List Report :=
  let c := s.sidecar.round maxConcurrent tasks
  (s.withSidecar c, (c.dispatches.rows.filter fun d => (s.dispatches.find? d.taskId).isNone).map
    fun d => .dispatched d.taskId)

/-- What a turn of the execution leaves and shows. -/
def turned (d : Dispatch) (input : Input) : Turn → Loops × List Report
  | .started next => (s.put { d with execution := next }, [])
  | .awaits next =>
      (s.put { d with execution := next }, if next.point = .read then [.reads d.taskId] else [])
  | .yields event next =>
      (s.put (d.yielded event next), match input with
        | .line _ => [.delivered d.taskId]
        | _ => [])
  | .ends _ => (s.finish d.taskId, [])

def goesOn (taskId : String) (input : Input) : Loops × List Report :=
  match s.dispatches.find? taskId with
  | none => (s, [])
  | some d =>
      match d.turn s.poller.signals input with
      | none => (s, [])
      | some (t, signals) => (s.withSignals signals).turned d input t

def posted (taskId : String) (raised : Bool) : Loops :=
  match s.dispatches.find? taskId with
  | none => s
  | some d =>
      if d.stream.posting.isNone then s
      else if raised then s.finish taskId
      else s.put { d with stream := d.stream.settled }

def step (maxConcurrent : Nat) : Action → Loops × List Report
  | .tasksPolled result => s.round maxConcurrent (result.getD [])
  | .signalsPolled result => ({ s with poller := s.poller.poll result }, [])
  | .visits => ({ s with poller := s.poller.visit.1 }, [])
  | .acknowledges => ({ s with poller := s.poller.acknowledge }, [])
  | .goesOn taskId input => s.goesOn taskId input
  | .posted taskId raised => (s.posted taskId raised, [])

end step

def machine (maxConcurrent : Nat) : Machine Loops Action Report where
  step s := s.step maxConcurrent

/-! ## Stop signals -/

/-- The stop signal that the action takes up: one that is not remembered. -/
def takesUp? (s : Loops) : Action → Option Signal
  | .visits =>
      match s.poller.handling, s.poller.queue with
      | none, sig :: _ =>
          if sig.signalType.stops && !s.poller.signals.isSignalProcessed (signalKey sig) then some sig
          else none
      | _, _ => none
  | _ => none

def standing? (s : Loops) (taskId : String) : Option Point :=
  (s.dispatches.find? taskId).map fun d => d.execution.point

/-- The task is registered, its execution neither waits out a pause nor yields contexts
nor reads a line, and it is not dispatched again. -/
structure InTime (s : Loops) (sig : Signal) (later : List Report) : Prop where
  registered : s.poller.signals.hasTask sig.taskId = true
  checks : ∀ point, s.standing? sig.taskId = some point → point.heeds = true ∧ point ≠ .read
  once : .dispatched sig.taskId ∉ later

def isReading (s : Loops) (taskId : String) : Bool := s.standing? taskId = some .read

/-- No further event of the task's handler is delivered, and no line of it read. -/
structure Heeded (_ : Loops) (sig : Signal) (later : List Report) : Prop where
  undelivered : .delivered sig.taskId ∉ later
  unread : .reads sig.taskId ∉ later

/-- Along the run, `P` holds of every stop signal that is taken up, with the state it
finds and all that is reported later. -/
def AtStops (maxConcurrent : Nat) (P : Loops → Signal → List Report → Prop) : Loops → List Action → Prop
  | _, [] => True
  | s, a :: as =>
      (∀ sig, s.takesUp? a = some sig →
        P s sig ((machine maxConcurrent).run (s.step maxConcurrent a).1 as).2) ∧
      AtStops maxConcurrent P (s.step maxConcurrent a).1 as

/-! ## A flagged execution -/

/-- What an execution whose check stops it may do in one turn. -/
inductive Slows (x : Execution) (input : Input) : Turn → Prop
  | started (point : Point) (heeds : point.heeds = true) (idle : point ≠ .read) :
      Slows x input (.started (x.moveTo point))
  | awaits (point : Point) (heeds : point.heeds = true) (idle : point ≠ .read) :
      Slows x input (.awaits (x.moveTo point))
  | yields (event : Int → TaskEvent) (point : Point) (heeds : point.heeds = true) (idle : point ≠ .read)
      (line : ∀ l, input = .line l → x.point = .read) : Slows x input (x.yield event point)
  | ends (how : Ending) : Slows x input (.ends how)

section turn
variable {x : Execution} {st st' : SignalState} {input : Input} {t : Turn}

theorem Slows.last (event : Int → TaskEvent) (how : Ending) (other : ∀ l, input ≠ .line l) :
    Slows x input (x.yield event (.closing how)) := by
  refine .yields event (.closing how) rfl (fun reads => ?_) fun l line => absurd line (other l)
  cases reads

theorem Slows.timedOut (stderr : String) : Slows x (.timeout stderr) (x.timedOut stderr) := by
  refine .last _ .returned fun l line => ?_
  cases line

theorem Slows.check (flag : st.stopping x.task.taskId = true) : Slows x .go (x.check st).1 := by
  obtain ⟨e, entry, flagged⟩ := (Option.any_eq_true _ _).mp flag
  rw [Execution.check, entry]
  by_cases redirect : e.redirect.isSome = true
  · simp only [redirect, if_true]
    exact .ends .stopped
  · have cancelled : e.cancelled = true := by
      rw [TaskSignals.flagged, Bool.or_eq_true] at flagged
      exact flagged.resolve_right redirect
    simp only [redirect, cancelled, if_true]
    refine .last _ .stopped fun l line => ?_
    cases line

theorem Slows.onLine (reads : x.point = .read) (l : Line) : Slows x (.line l) (x.onLine l) := by
  cases l with
  | eof => exact .awaits .wait rfl (by decide)
  | skipped => exact .awaits .check rfl (by decide)
  | overrun => exact .ends .raised
  | value v =>
      simp only [Execution.onLine]
      split
      · exact .yields _ .check rfl (by decide) fun _ _ => reads
      · exact .ends .raised

theorem slows_of_turn (flag : st.stopping x.task.taskId = true) (heeds : x.point.heeds = true)
    (h : x.turn st input = some (t, st')) : Slows x input t := by
  unfold Execution.turn at h
  split at h
  case h_1 => cases h; exact .started .feed rfl (by decide)
  case h_2 => cases h; exact .last _ .raised fun l line => by cases line
  case h_3 | h_5 => cases h; exact .ends .raised
  case h_4 => cases h; exact .awaits .check rfl (by decide)
  case h_6 =>
    have eq : (x.check st).1 = t := congrArg Prod.fst (Option.some.inj h)
    rw [← eq]
    exact .check flag
  case h_7 _ _ point | h_9 _ _ _ point =>
    rw [point] at heeds
    cases heeds
  case h_8 | h_11 => cases h; exact .timedOut _
  case h_10 _ _ l point => cases h; exact .onLine point l
  case h_12 _ _ code stderr _ =>
    cases h
    unfold Execution.onExit
    split
    · exact .ends .returned
    · exact .last _ .returned fun l line => by cases line
  case h_13 _ _ how _ => cases h; exact .ends how
  case h_14 =>
    split at h
    · cases h
      exact .ends .raised
    · cases h
  case h_15 => cases h

end turn

/-! ## What each step leaves of a stopping task -/

/-- The next check of the task's execution stops it, and it reads no line before. -/
def Stopping (s : Loops) (id : String) : Prop :=
  ∀ point, s.standing? id = some point → s.poller.signals.stopping id = true ∧ point.heeds = true

structure Calm (id : String) (s s' : Loops) (new : List Report) : Prop where
  stopping : s'.Stopping id
  unread : .reads id ∉ new
  last : new.count (.delivered id) + (s'.isReading id).toNat ≤ (s.isReading id).toNat

def Silent (id : String) (new : List Report) : Prop := ∀ o ∈ new, o ≠ .reads id ∧ o ≠ .delivered id

section silent
variable {id : String} {new : List Report}

theorem Silent.nil : Silent id [] := by
  intro o member
  cases member

theorem Silent.unread (h : Silent id new) : .reads id ∉ new := fun member => (h _ member).1 rfl

theorem Silent.count (h : Silent id new) : new.count (.delivered id) = 0 :=
  List.count_eq_zero.mpr fun member => (h _ member).2 rfl

end silent

namespace Calm
variable {id : String} {s s' : Loops} {new : List Report}

theorem of_same (h : s.Stopping id) (same : s'.standing? id = s.standing? id)
    (flag : s.poller.signals.stopping id = true → s'.poller.signals.stopping id = true)
    (silent : Silent id new) : Calm id s s' new where
  stopping := by
    intro point stands
    rw [same] at stands
    exact ⟨flag (h point stands).1, (h point stands).2⟩
  unread := silent.unread
  last := by rw [silent.count, isReading, same, ← isReading, Nat.zero_add]

theorem of_gone (gone : s'.dispatches.find? id = none) (silent : Silent id new) : Calm id s s' new where
  stopping := by
    intro point stands
    rw [standing?, gone] at stands
    cases stands
  unread := silent.unread
  last := by
    rw [silent.count, isReading, standing?, gone]
    exact Nat.zero_le _

theorem of_put {d d' : Dispatch} (live : s.dispatches.find? id = some d)
    (put : s'.dispatches.find? id = some d') (flag : s'.poller.signals.stopping id = true)
    (heeds : d'.execution.point.heeds = true) (idle : d'.execution.point ≠ .read) (unread : .reads id ∉ new)
    (last : new.count (.delivered id) ≤ if d.execution.point = .read then 1 else 0) :
    Calm id s s' new where
  stopping := by
    intro point stands
    rw [standing?, put] at stands
    cases stands
    exact ⟨flag, heeds⟩
  unread := unread
  last := by
    have before : s.standing? id = some d.execution.point := by rw [standing?, live]; rfl
    have after : s'.standing? id = some d'.execution.point := by rw [standing?, put]; rfl
    rw [isReading, isReading, before, after]
    by_cases reads : d.execution.point = .read
    · simpa [reads, idle] using last
    · simpa [reads, idle] using last

theorem of_finished {taskId : String} (h : s.Stopping id) (other : taskId ≠ id) :
    Calm id s (s.finish taskId) [] := by
  refine of_same h (congrArg _ (Table.find?_erase.trans (if_neg (Ne.symm other)))) (fun flag => ?_) .nil
  rw [← flag]
  exact congrArg _ ((SignalState.entry?_unregisterTask _ _ _).trans (if_neg (Ne.symm other)))

theorem of_own_finished : Calm id s (s.finish id) [] :=
  of_gone (Table.find?_erase.trans (if_pos rfl)) .nil

theorem of_other {d : Dispatch} (input : Input) {t : Turn} (h : s.Stopping id) (other : d.taskId ≠ id)
    (own : ∀ next, t.next? = some next → next.task = d.execution.task) :
    Calm id s (s.turned d input t).1 (s.turned d input t).2 := by
  have put : ∀ d' : Dispatch, d'.execution.task = d.execution.task →
      (s.put d').dispatches.find? id = s.dispatches.find? id := by
    intro d' same
    have apart : id ≠ d'.taskId := by
      rw [Dispatch.taskId, same]
      exact Ne.symm other
    exact Table.find?_put.trans (if_neg apart)
  cases t with
  | started next =>
      exact of_same h (congrArg _ (put _ (own next rfl))) (fun flag => flag) .nil
  | awaits next =>
      refine of_same h (congrArg _ (put _ (own next rfl))) (fun flag => flag) fun o member => ?_
      simp only [Loops.turned] at member
      split at member
      · rw [List.mem_singleton.mp member]
        simp [other]
      · cases member
  | yields event next =>
      refine of_same h (congrArg _ (put _ (own next rfl))) (fun flag => flag) fun o member => ?_
      simp only [Loops.turned] at member
      split at member
      · rw [List.mem_singleton.mp member]
        simp [other]
      · cases member
  | ends how =>
      exact of_finished h other

theorem of_own {d : Dispatch} {input : Input} {t : Turn} (h : s.Stopping id)
    (live : s.dispatches.find? id = some d) (slows : Slows d.execution input t) :
    Calm id s (s.turned d input t).1 (s.turned d input t).2 := by
  obtain rfl : d.taskId = id := (Table.find?_eq_some.mp live).2
  have flag := (h d.execution.point (by rw [standing?, live]; rfl)).1
  have put : ∀ d' : Dispatch, d'.taskId = d.taskId → (s.put d').dispatches.find? d.taskId = some d' := by
    intro d' same
    refine Table.find?_put.trans ?_
    rw [if_pos same.symm, live]
    rfl
  cases slows with
  | started point heeds idle =>
      exact of_put live (put { d with execution := d.execution.moveTo point } rfl) flag heeds idle
        (by simp [Loops.turned]) (by simp [Loops.turned])
  | awaits point heeds idle =>
      exact of_put live (put { d with execution := d.execution.moveTo point } rfl) flag heeds idle
        (by simp [Loops.turned, Execution.moveTo, idle]) (by simp [Loops.turned, Execution.moveTo, idle])
  | yields event point heeds idle line =>
      refine of_put live (put (d.yielded _ _) rfl) flag heeds idle ?_ ?_
      · cases input <;> simp [Loops.turned, Execution.yield]
      · cases input with
        | line l => simp [Loops.turned, Execution.yield, line l rfl]
        | _ => simp [Loops.turned, Execution.yield]
  | ends how =>
      exact of_own_finished

theorem goesOn (h : s.Stopping id) (taskId : String) (input : Input) :
    Calm id s (s.goesOn taskId input).1 (s.goesOn taskId input).2 := by
  have quiet : Calm id s s [] := of_same h rfl (fun flag => flag) .nil
  simp only [Loops.goesOn]
  split
  · exact quiet
  · rename_i d found
    obtain rfl : d.taskId = taskId := (Table.find?_eq_some.mp found).2
    split
    · exact quiet
    · rename_i t signals turn
      have kept : signals.stopping id = s.poller.signals.stopping id := by
        rcases Dispatch.turn_cases turn with goes | ⟨_, rfl⟩
        · rcases turn_signals goes with rfl | rfl
          · rfl
          · exact stopping_popContext _ _ _
        · rfl
      have still : (s.withSignals signals).Stopping id := fun d' live => kept.symm ▸ h d' live
      by_cases own : d.taskId = id
      · subst own
        have slows : Slows d.execution input t := by
          rcases Dispatch.turn_cases turn with goes | ⟨rfl, _⟩
          · have here := h d.execution.point (by rw [standing?, found]; rfl)
            exact slows_of_turn here.1 here.2 goes
          · exact .ends .raised
        have calm := of_own still found slows
        exact ⟨calm.stopping, calm.unread, calm.last⟩
      · have sameTask : ∀ next, t.next? = some next → next.task = d.execution.task := by
          intro next continues
          rcases Dispatch.turn_cases turn with goes | ⟨rfl, _⟩
          · exact turn_next_task goes continues
          · cases continues
        have calm := of_other input still own sameTask
        exact ⟨calm.stopping, calm.unread, calm.last⟩

theorem posted (h : s.Stopping id) (taskId : String) (raised : Bool) :
    Calm id s (s.posted taskId raised) [] := by
  have quiet : Calm id s s [] := of_same h rfl (fun flag => flag) .nil
  simp only [Loops.posted]
  split
  · exact quiet
  · rename_i d found
    obtain rfl : d.taskId = taskId := (Table.find?_eq_some.mp found).2
    split
    · exact quiet
    · split
      · by_cases own : d.taskId = id
        · rw [own]
          exact of_own_finished
        · exact of_finished h own
      · refine of_same h ?_ (fun flag => flag) .nil
        change Option.map _ ((s.dispatches.put _).find? id) = _
        rw [Table.find?_put, standing?]
        split
        · rename_i own
          have live : s.dispatches.find? id = some d := own ▸ found
          rw [live]
          rfl
        · rfl

theorem round (h : s.Stopping id) (maxConcurrent : Nat) (tasks : List PendingTask)
    (again : .dispatched id ∉ (s.round maxConcurrent tasks).2) :
    Calm id s (s.round maxConcurrent tasks).1 (s.round maxConcurrent tasks).2 := by
  have silent : Silent id (s.round maxConcurrent tasks).2 := by
    intro o member
    obtain ⟨d, _, rfl⟩ := List.mem_map.mp member
    simp
  cases live : s.dispatches.find? id with
  | some d =>
      obtain ⟨kept, entry⟩ := Sidecar.round_live maxConcurrent (c := s.sidecar) tasks live
      refine of_same h (congrArg _ (kept.trans live.symm)) (fun flag => ?_) silent
      rw [← flag]
      exact congrArg _ entry
  | none =>
      refine of_gone ?_ silent
      cases now : (s.round maxConcurrent tasks).1.dispatches.find? id with
      | none => rfl
      | some d =>
          obtain ⟨member, rfl⟩ := Table.find?_eq_some.mp now
          refine absurd (List.mem_map.mpr ⟨d, List.mem_filter.mpr ⟨member, ?_⟩, rfl⟩) again
          rw [live]
          rfl

theorem step (h : s.Stopping id) (maxConcurrent : Nat) (a : Action)
    (again : .dispatched id ∉ (s.step maxConcurrent a).2) :
    Calm id s (s.step maxConcurrent a).1 (s.step maxConcurrent a).2 := by
  cases a with
  | tasksPolled result => exact round h maxConcurrent _ again
  | goesOn taskId input => exact goesOn h taskId input
  | posted taskId raised => exact posted h taskId raised
  | signalsPolled result =>
      refine of_same h rfl (fun flag => ?_) .nil
      simp only [Loops.step, SignalPoller.poll]
      split <;> exact flag
  | acknowledges =>
      refine of_same h rfl (fun flag => ?_) .nil
      simp only [Loops.step, SignalPoller.acknowledge]
      split <;> exact flag
  | visits =>
      refine of_same h rfl (fun flag => ?_) .nil
      change s.poller.visit.1.signals.stopping id = true
      generalize outcome : s.poller.visit = r
      have visited := s.poller.visit_cases
      rw [outcome] at visited
      cases visited with
      | idle | known | unregistered => exact flag
      | done | posts => exact stopping_handleSignal flag _

theorem trans {s'' : Loops} {more : List Report} (h : Calm id s s' new) (k : Calm id s' s'' more) :
    Calm id s s'' (new ++ more) where
  stopping := k.stopping
  unread := by
    rw [List.mem_append, not_or]
    exact ⟨h.unread, k.unread⟩
  last := by
    have first := h.last
    have second := k.last
    rw [List.count_append]
    omega

end Calm

/-! ## Heeded signals -/

section heeded
variable {s : Loops}

theorem stopping_taken {a : Action} {sig : Signal} (takes : s.takesUp? a = some sig)
    (registered : s.poller.signals.hasTask sig.taskId = true)
    (checks : ∀ point, s.standing? sig.taskId = some point → point.heeds = true) (maxConcurrent : Nat) :
    (s.step maxConcurrent a).1.Stopping sig.taskId ∧
      (s.step maxConcurrent a).1.isReading sig.taskId = s.isReading sig.taskId := by
  unfold takesUp? at takes
  split at takes
  · split at takes
    · rename_i first rest free next
      split at takes
      · rename_i applies
        cases takes
        obtain ⟨stops, fresh⟩ := Bool.and_eq_true_iff.mp applies
        refine ⟨fun point stands => ⟨?_, checks point stands⟩, rfl⟩
        rw [← handleSignal_stops registered stops]
        exact congrArg _ (SignalPoller.visit_entry free next (by simpa using fresh) _)
      · cases takes
    · cases takes
  · cases takes

theorem run_calm {id : String} (h : s.Stopping id) (maxConcurrent : Nat) (as : List Action)
    (again : .dispatched id ∉ ((machine maxConcurrent).run s as).2) :
    Calm id s ((machine maxConcurrent).run s as).1 ((machine maxConcurrent).run s as).2 := by
  refine Machine.run_establishes (M := machine maxConcurrent)
    (I := fun s' log => .dispatched id ∉ log → Calm id s s' log) (P := fun _ _ => True)
    (fun s' log a old _ quiet => ?_) (fun _ => .of_same h rfl (fun flag => flag) .nil)
    (Machine.along_true s as) again
  obtain ⟨before, now⟩ := not_or.mp fun either => quiet (List.mem_append.mpr either)
  exact (old before).trans (Calm.step (old before).stopping maxConcurrent a now)

/-- Along every run in which each stop signal is taken up in time, each is heeded. -/
theorem stop_signals_heeded (maxConcurrent : Nat) (s : Loops) (as : List Action)
    (inTime : AtStops maxConcurrent InTime s as) : AtStops maxConcurrent Heeded s as := by
  induction as generalizing s with
  | nil => trivial
  | cons a as ih =>
      refine ⟨fun sig takes => ?_, ih _ inTime.2⟩
      obtain ⟨registered, checks, once⟩ := inTime.1 sig takes
      obtain ⟨stopping, reading⟩ := stopping_taken takes registered (fun point stands => (checks point stands).1)
        maxConcurrent
      have calm := run_calm stopping maxConcurrent as once
      have idle : s.isReading sig.taskId = false := by
        rw [isReading, decide_eq_false_iff_not]
        exact fun reads => (checks .read reads).2 rfl
      have bound := calm.last
      rw [reading, idle] at bound
      exact ⟨List.count_eq_zero.mp (Nat.eq_zero_of_le_zero ((Nat.le_add_right _ _).trans bound)), calm.unread⟩

end heeded

namespace Demo

def task : PendingTask where
  taskId := "task-a"
  workflowId := "workflow"
  input := []
  priority := "normal"
  timeoutSeconds := none
  createdAt := "2026-01-01T00:00:00+00:00"

/-- The running event is posted and the handler started, and a line of it is read. -/
def firstLine : List Action :=
  [.posted "task-a" false, .goesOn "task-a" .launched, .goesOn "task-a" .fed, .goesOn "task-a" .go,
    .goesOn "task-a" (.line (.value (.obj [("event_type", .str "log")])))]

def poll : Action := .signalsPolled (some [SignalPoller.Demo.stop])

def stopped : List Action := [.tasksPolled (some [task]), poll, .visits] ++ firstLine

/-- The task was polled before the stop signal and is dispatched after it; the
service then repeats the signal. -/
def overtaken : List Action :=
  [poll, .visits, .tasksPolled (some [task]), poll, .visits] ++ firstLine

theorem stopped_inTime : AtStops 1 InTime {} stopped := by
  have untouched : ∀ {P : Prop} {sig : Signal}, (none : Option Signal) = some sig → P := by
    intro P sig takes
    cases takes
  refine ⟨fun _ => untouched, fun _ => untouched, fun sig takes => ?_, fun _ => untouched, fun _ => untouched,
    fun _ => untouched, fun _ => untouched, fun _ => untouched, trivial⟩
  cases takes
  refine ⟨rfl, fun point stands => ?_, by decide⟩
  cases stands
  exact ⟨rfl, by decide⟩

end Demo

theorem stop_signals_heeded_stopped : AtStops 1 Heeded {} Demo.stopped :=
  stop_signals_heeded 1 {} Demo.stopped Demo.stopped_inTime

/-- The signal is remembered without an effect, and a line is read and delivered. -/
theorem stop_signal_lost : ¬ AtStops 1 Heeded {} Demo.overtaken := by
  intro heeded
  exact (heeded.2.1 SignalPoller.Demo.stop rfl).undelivered (by decide)

end Loops
end Fleet.Agent
