/- One execution among its signals: what the generator still does once a stop is set. -/
import Fleet.Agent.StopSignals

namespace Fleet.Agent
open Fleet.Lib
open Loops (Slows slows_of_turn)

/-- The generator of one execution, until it has ended, and the signals it looks at. -/
structure Reader where
  execution : Option Execution
  signals : SignalState

namespace Reader

/-- A signal is handled, the generator goes on, or its consumer drops it. -/
inductive Action where
  | handles (sig : Signal)
  | goesOn (input : Input)
  | drops

/-- A `readline` is started; the event of a line or of a context is yielded;
`TaskCancelledError` or `TaskRedirectedError` is raised. -/
inductive Report where
  | reads | line | context | raises
  deriving DecidableEq, Repr

def shows (x : Execution) (input : Input) : Turn → List Report
  | .started _ => []
  | .awaits next => if next.point = .read then [.reads] else []
  | .yields _ next =>
      match input, next.point with
      | .line _, _ => [.line]
      | _, .contexts _ => [.context]
      | _, .closing .stopped => [.raises]
      | _, _ => []
  | .ends .stopped => if x.point = .check then [.raises] else []
  | .ends _ => []

def goesOn (r : Reader) (input : Input) : Reader × List Report :=
  match r.execution with
  | none => (r, [])
  | some x =>
      match x.turn r.signals input with
      | none => (r, [])
      | some (t, signals) => ({ execution := t.next?, signals }, shows x input t)

def step (r : Reader) : Action → Reader × List Report
  | .handles sig => ({ r with signals := (handleSignal r.signals sig).1 }, [])
  | .goesOn input => r.goesOn input
  | .drops => ({ r with execution := none }, [])

def machine : Machine Reader Action Report where
  step := step

/-! ## What a stop asks for -/

def point? (r : Reader) : Option Point := r.execution.map Execution.point

/-- The cancel flag or the redirect payload of the task is set. -/
def Flagged (r : Reader) : Prop :=
  ∃ x, r.execution = some x ∧ r.signals.stopping x.task.taskId = true

def Sets (r : Reader) : Action → Prop
  | .handles sig => ¬ r.Flagged ∧ (r.step (.handles sig)).1.Flagged
  | _ => False

/-- The generator neither waits out a pause nor yields contexts. -/
def Heeds (r : Reader) : Prop := ∀ point, r.point? = some point → point.heeds = true

/-- No further `readline`, context event or line but the one that was being read; and the
check, where the generator comes to it, raises. -/
structure Obeyed (r : Reader) (as : List Action) : Prop where
  unread : .reads ∉ (machine.run r as).2
  calm : .context ∉ (machine.run r as).2
  last : (machine.run r as).2.count .line ≤ (decide (r.point? = some .read)).toNat
  raises : machine.Along (fun r a => a = .goesOn .go → r.point? = some .check →
    (r.step a).2 = [.raises]) r as

/-! ## A flagged generator -/

/-- If it has not ended, it is flagged and its next check raises. -/
def Stopped (r : Reader) : Prop :=
  ∀ x, r.execution = some x → r.signals.stopping x.task.taskId = true ∧ x.point.heeds = true

/-- What one step of a stopped generator leaves and shows. -/
structure Quiet (r r' : Reader) (new : List Report) : Prop where
  stopped : r'.Stopped
  unread : .reads ∉ new
  calm : .context ∉ new
  last : new.count .line + (decide (r'.point? = some .read)).toNat ≤
    (decide (r.point? = some .read)).toNat

section step
variable {r r' : Reader} {x : Execution} {st st' : SignalState} {input : Input} {t : Turn}

theorem Quiet.of_same (stopped : r'.Stopped) (same : r'.point? = r.point? ∨ r'.point? = none) :
    Quiet r r' [] where
  stopped := stopped
  unread := List.not_mem_nil
  calm := List.not_mem_nil
  last := by
    rcases same with same | gone
    · simp [same]
    · simp [gone]

theorem shows_slows (slows : Slows x input t) : .reads ∉ shows x input t ∧ .context ∉ shows x input t ∧
    (shows x input t).count .line ≤ (decide (x.point = .read)).toNat := by
  cases slows with
  | started => simp [shows]
  | awaits point heeds idle => simp [shows, Execution.moveTo, idle]
  | yields event point heeds idle line =>
      cases input with
      | line l => simp [shows, Execution.yield, line l rfl]
      | launched | notFound | launchError | fed | feedError | go | timeout | gone | exited =>
          cases point with
          | contexts => cases heeds
          | closing how => cases how <;> simp [shows, Execution.yield]
          | launch | feed | check | blocked | read | wait => simp [shows, Execution.yield]
  | ends how =>
      cases how with
      | stopped =>
          simp only [shows]
          split <;> simp
      | returned | raised => simp [shows]

theorem slows_next (slows : Slows x input t) {next : Execution} (goes : t.next? = some next) :
    next.point.heeds = true ∧ next.point ≠ .read := by
  cases slows with
  | started point heeds idle | awaits point heeds idle | yields _ point heeds idle =>
      cases goes
      exact ⟨heeds, idle⟩
  | ends => cases goes

theorem Stopped.goesOn (h : r.Stopped) (input : Input) :
    Quiet r (r.goesOn input).1 (r.goesOn input).2 := by
  unfold Reader.goesOn
  split
  · exact .of_same h (.inl rfl)
  · rename_i x live
    split
    · exact .of_same h (.inl rfl)
    · rename_i t signals turn
      obtain ⟨flag, heeds⟩ := h x live
      have slows := slows_of_turn flag heeds turn
      obtain ⟨unread, calm, last⟩ := shows_slows slows
      have kept : signals.stopping x.task.taskId = true := by
        rcases turn_signals turn with rfl | rfl
        · exact flag
        · rw [stopping_popContext]
          exact flag
      have idle : ¬ Reader.point? { execution := t.next?, signals } = some .read := by
        intro reading
        obtain ⟨next, goes, reads⟩ := Option.map_eq_some_iff.mp reading
        exact (slows_next slows goes).2 reads
      refine ⟨fun next goes => ?_, unread, calm, ?_⟩
      · rw [turn_next_task turn goes]
        exact ⟨kept, (slows_next slows goes).1⟩
      · have here : r.point? = some x.point := by rw [point?, live]; rfl
        simpa [idle, here] using last

theorem Stopped.step (h : r.Stopped) (a : Action) : Quiet r (r.step a).1 (r.step a).2 := by
  cases a with
  | handles sig =>
      refine .of_same (fun x live => ?_) (.inl rfl)
      obtain ⟨flag, heeds⟩ := h x live
      exact ⟨stopping_handleSignal flag sig, heeds⟩
  | goesOn input => exact h.goesOn input
  | drops => exact .of_same (fun x live => by cases live) (.inr rfl)

theorem Stopped.raises (h : r.Stopped) (checks : r.point? = some .check) :
    (r.step (.goesOn .go)).2 = [.raises] := by
  obtain ⟨x, live, point⟩ := Option.map_eq_some_iff.mp checks
  obtain ⟨flag, -⟩ := h x live
  obtain ⟨e, entry, flagged⟩ := (Option.any_eq_true _ _).mp flag
  have turn : x.turn r.signals .go = some (x.check r.signals) := by
    unfold Execution.turn
    rw [point]
  simp only [Reader.step, Reader.goesOn, live, turn, Execution.check, entry]
  by_cases redirect : e.redirect.isSome = true
  · simp [redirect, shows, point]
  · have cancelled : e.cancelled = true := by
      rw [TaskSignals.flagged, Bool.or_eq_true] at flagged
      exact flagged.resolve_right redirect
    simp [redirect, cancelled, shows, Execution.yield]

theorem Stopped.obeyed (h : r.Stopped) (as : List Action) : Obeyed r as := by
  induction as generalizing r with
  | nil => exact ⟨List.not_mem_nil, List.not_mem_nil, Nat.zero_le _, trivial⟩
  | cons a as ih =>
      have quiet := h.step a
      have rest := ih quiet.stopped
      have first : (machine.step r a) = r.step a := rfl
      refine ⟨fun member => ?_, fun member => ?_, ?_, ⟨?_, rest.raises⟩⟩
      · rcases List.mem_append.mp member with now | later
        · exact quiet.unread now
        · exact rest.unread later
      · rcases List.mem_append.mp member with now | later
        · exact quiet.calm now
        · exact rest.calm later
      · simp only [Machine.run, List.count_append]
        exact (Nat.add_le_add_left rest.last _).trans quiet.last
      · rintro rfl checks
        exact h.raises checks

/-! ## A stop that comes too early -/

theorem Sets.wakes {sig : Signal} (sets : r.Sets (.handles sig)) (live : r.execution = some x) :
    ∃ e, SignalState.entry? (handleSignal r.signals sig).1 x.task.taskId = some e ∧ e.paused = false := by
  obtain ⟨unset, _, same, flag⟩ := sets
  cases live.symm.trans same
  have before : r.signals.stopping x.task.taskId = false :=
    Bool.eq_false_iff.mpr fun set => unset ⟨x, live, set⟩
  obtain ⟨e, entry, flagged⟩ := (Option.any_eq_true _ _).mp flag
  refine ⟨e, entry, ?_⟩
  change SignalState.entry? (handleSignal r.signals sig).1 x.task.taskId = some e at entry
  rw [entry?_handleSignal] at entry
  split_ifs at entry with own
  · obtain ⟨old, found, rfl⟩ := Option.map_eq_some_iff.mp entry
    have stops : sig.signalType.stops = true := by
      by_contra goes
      rw [Bool.not_eq_true] at goes
      rw [runHandler_flagged _ _ goes] at flagged
      rw [SignalState.stopping, found] at before
      exact absurd (flagged.symm.trans before) (by decide)
    rw [runHandler_paused]
    cases kind : sig.signalType with
    | cancelRequested | redirectRequested => rfl
    | pauseRequested | resumeRequested | contextInjection => rw [kind] at stops; cases stops
  · rw [SignalState.stopping, entry] at before
    exact absurd (flagged.symm.trans before) (by decide)

theorem shows_nextContext (rest : List Dict) :
    shows x .go (x.nextContext rest) = [.reads] ∨ shows x .go (x.nextContext rest) = [.context] := by
  cases rest with
  | nil => exact .inl rfl
  | cons ctx rest => exact .inr rfl

theorem Obeyed.silent {a : Action} (h : Obeyed r [a]) : .reads ∉ (r.step a).2 ∧ .context ∉ (r.step a).2 := by
  have shown : (machine.run r [a]).2 = (r.step a).2 := List.append_nil _
  exact ⟨shown ▸ h.unread, shown ▸ h.calm⟩

theorem Sets.late {a : Action} (sets : r.Sets a) (late : ¬ r.Heeds) :
    ¬ Obeyed (r.step a).1 [.goesOn .go] := by
  cases a with
  | goesOn | drops => cases sets
  | handles sig =>
      simp only [Heeds, not_forall] at late
      obtain ⟨point, here, deaf⟩ := late
      obtain ⟨x, live, rfl⟩ := Option.map_eq_some_iff.mp here
      obtain ⟨e, entry, awake⟩ := sets.wakes live
      have goes : ∃ rest st, x.turn (handleSignal r.signals sig).1 .go = some (x.nextContext rest, st) := by
        unfold Execution.turn
        cases point : x.point with
        | blocked =>
            simp only [entry, Option.any_some, awake]
            exact ⟨_, _, rfl⟩
        | contexts rest => exact ⟨rest, _, rfl⟩
        | launch | feed | check | read | wait | closing => rw [point] at deaf; exact absurd rfl deaf
      obtain ⟨rest, st, turn⟩ := goes
      intro obeyed
      have silent := obeyed.silent
      simp only [Reader.step, Reader.goesOn, live, turn] at silent
      rcases @shows_nextContext x rest with reads | context
      · exact silent.1 (by rw [reads]; exact List.mem_cons_self)
      · exact silent.2 (by rw [context]; exact List.mem_cons_self)

theorem Sets.timely {a : Action} (sets : r.Sets a) (heeds : r.Heeds) : (r.step a).1.Stopped := by
  cases a with
  | goesOn | drops => cases sets
  | handles sig =>
      obtain ⟨_, x, live, flag⟩ := sets
      intro y same
      cases live.symm.trans same
      have here : r.point? = some x.point := by
        change r.execution = some x at live
        rw [point?, live]
        rfl
      exact ⟨flag, heeds _ here⟩

end step

/-- In every run of a generator among its signals, the stops are obeyed, whatever comes
after them, if and only if none is set while the generator waits out a pause or yields
contexts. -/
theorem stops_obeyed_iff (r : Reader) (as : List Action) :
    machine.Along (fun r a => r.Sets a → ∀ later, Obeyed (r.step a).1 later) r as ↔
      machine.Along (fun r a => r.Sets a → r.Heeds) r as := by
  refine Machine.along_congr (fun r a _ => ?_) (Machine.along_true r as)
  refine forall_congr' fun sets => ⟨fun obeyed => ?_, fun heeds => (sets.timely heeds).obeyed⟩
  by_contra late
  exact sets.late late (obeyed _)

namespace Demo

def start : Reader where
  execution := some { task := Loops.Demo.task }
  signals := SignalState.registerTask {} "task-a"

def signal (signalType : SignalType) : Signal where
  taskId := "task-a"
  signalType := signalType
  timestamp := "2026-01-01T00:00:01+00:00"
  payload := none

/-- The execution comes to its check while the task is paused, and then the task is
cancelled. -/
def cancelled : List Action :=
  [.goesOn .launched, .goesOn .fed, .handles (signal .pauseRequested), .goesOn .go,
    .handles (signal .cancelRequested)]

end Demo

/-- The cancellation wakes the execution, which then starts to read a line. -/
theorem cancel_while_paused_reads : ¬ machine.Along
    (fun r a => r.Sets a → ∀ later, Obeyed (r.step a).1 later) Demo.start Demo.cancelled := by
  rintro ⟨-, -, -, -, obeyed, -⟩
  have sets : Sets (machine.run Demo.start (Demo.cancelled.take 4)).1
      (.handles (Demo.signal .cancelRequested)) := by
    refine ⟨?_, _, rfl, by decide⟩
    rintro ⟨x, live, flag⟩
    cases live
    revert flag
    decide
  exact (obeyed sets [.goesOn .go]).unread (by decide)

end Reader
end Fleet.Agent
