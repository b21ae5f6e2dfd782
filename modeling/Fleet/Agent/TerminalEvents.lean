/- The whole run of one handler: when the events end with their only terminal one. -/
import Fleet.Agent.StopSignals

namespace Fleet.Agent
open Fleet.Lib

/-- `completed`, `failed`, or `status` with the status `cancelled`. -/
def Terminal (eventType : String) (data : Option Dict) : Prop :=
  eventType = "completed" ∨ eventType = "failed" ∨
    eventType = "status" ∧ ∃ d, data = some d ∧ Dict.get? d "status" = some (.str "cancelled")

def TaskEvent.Terminates (event : TaskEvent) : Prop := Terminal event.eventType event.data

/-- The generator, the signals it finds, and what it was waiting for. -/
structure Moment where
  execution : Execution
  signals : SignalState
  input : Input

/-- A handler is run to its end. Between two moments the signals may change in any way. A
timeout that fires while the consumer handles an event cancels the consumer, and the
generator gets no further. -/
inductive Run : Execution → List Moment → List TaskEvent → Prop
  | ends {x : Execution} {st st' : SignalState} {input : Input} (how : Ending)
      (turn : x.turn st input = some (.ends how, st')) : Run x [⟨x, st, input⟩] []
  | interrupted {x next : Execution} {st st' : SignalState} {input : Input} {event : TaskEvent}
      (turn : x.turn st input = some (.yields event next, st')) (inside : next.point.guarded = true) :
      Run x [⟨x, st, input⟩] [event]
  | goesOn {x next : Execution} {st st' : SignalState} {input : Input} {ms : List Moment}
      {es : List TaskEvent} (turn : x.turn st input = some (.started next, st') ∨
        x.turn st input = some (.awaits next, st')) (rest : Run next ms es) :
      Run x (⟨x, st, input⟩ :: ms) es
  | yields {x next : Execution} {st st' : SignalState} {input : Input} {event : TaskEvent}
      {ms : List Moment} {es : List TaskEvent}
      (turn : x.turn st input = some (.yields event next, st')) (rest : Run next ms es) :
      Run x (⟨x, st, input⟩ :: ms) (event :: es)

def FirstThen {α : Type} (P Q : α → Prop) (l : List α) : Prop :=
  ∃ before a after, l = before ++ a :: after ∧ (∀ b ∈ before, ¬ P b) ∧ P a ∧ ∀ c ∈ after, Q c

def EndsOnce (es : List TaskEvent) : Prop :=
  ∃ before last, es = before ++ [last] ∧ last.Terminates ∧ ∀ event ∈ before, ¬ event.Terminates

namespace Moment
variable (m : Moment)

/-! ## What the handler and the signals bring -/

/-- The handler reports the end: the line read is a terminal event. -/
def Reports : Prop :=
  match m.input with
  | .line (.value v) => ∃ fields, lineFields v = some fields ∧ Terminal fields.1 fields.2
  | _ => False

/-- The check finds a cancellation that no redirect overrides. -/
def Cancels : Prop :=
  m.execution.point = .check ∧ ∃ e, m.signals.entry? m.execution.task.taskId = some e ∧
    e.redirect = none ∧ e.cancelled = true

/-- The executor reports the end: there is no such command, the handler takes too long,
is cancelled, or fails. -/
def Stops : Prop :=
  match m.input with
  | .notFound _ | .timeout _ => True
  | .exited code _ => code ≠ 0
  | .go => m.Cancels
  | _ => False

def contexts : List Dict :=
  match m.execution.point with
  | .contexts rest => rest
  | .blocked => (m.signals.popContext m.execution.task.taskId).1
  | .check =>
      if (m.signals.entry? m.execution.task.taskId).any (fun e => e.flagged || e.paused) then []
      else (m.signals.popContext m.execution.task.taskId).1
  | _ => []

def Quiet : Prop :=
  match m.input with
  | .notFound _ | .timeout _ => False
  | .exited code _ => code = 0
  | .line (.value v) => lineFields v = none
  | .go => ¬ m.Cancels ∧ m.contexts = []
  | _ => True

variable {m}

theorem Reports.loud (h : m.Reports) : ¬ m.Quiet := by
  unfold Reports at h
  unfold Quiet
  split at h
  · rename_i v line
    obtain ⟨fields, eq, -⟩ := h
    simp [line, eq]
  · exact h.elim

theorem Stops.loud (h : m.Stops) : ¬ m.Quiet := by
  unfold Stops at h
  unfold Quiet
  split at h <;> simp_all

end Moment

/-! ## One turn -/

/-- What the moment is, by the event of its turn. -/
structure Told (m : Moment) (event : Option TaskEvent) : Prop where
  quiet : m.Quiet ↔ event = none
  terminal : (∃ e, event = some e ∧ e.Terminates) ↔ m.Reports ∨ m.Stops

def Turn.event? : Turn → Option TaskEvent
  | .yields event _ => some event
  | .started _ | .awaits _ | .ends _ => none

section turn
variable {x next : Execution} {st st' : SignalState} {input : Input} {t : Turn} {event : TaskEvent}

theorem Told.silent {m : Moment} (quiet : m.Quiet) : Told m none where
  quiet := by simp [quiet]
  terminal := by
    have calm : ¬ (m.Reports ∨ m.Stops) := by
      rintro (reports | stops)
      · exact reports.loud quiet
      · exact stops.loud quiet
    simp [calm]

theorem Told.plain {m : Moment} (loud : ¬ m.Quiet) (plain : ¬ event.Terminates)
    (calm : ¬ (m.Reports ∨ m.Stops)) : Told m (some event) where
  quiet := by simp [loud]
  terminal := by simp [plain, calm]

theorem Told.final {m : Moment} (terminal : event.Terminates) (ends : m.Reports ∨ m.Stops) :
    Told m (some event) where
  quiet := by
    have loud : ¬ m.Quiet := ends.elim Moment.Reports.loud Moment.Stops.loud
    simp [loud]
  terminal := by simp [terminal, ends]

theorem terminates_failedEvent (sequence : Int) (error : String) (details : Dict) :
    (failedEvent sequence error details).Terminates := .inr (.inl rfl)

theorem terminates_cancelledEvent (sequence : Int) : (cancelledEvent sequence).Terminates :=
  .inr (.inr ⟨rfl, _, rfl, by decide⟩)

theorem not_terminates_contextEvent (sequence : Int) (ctx : Dict) :
    ¬ (contextEvent sequence ctx).Terminates := by
  simp [TaskEvent.Terminates, Terminal, contextEvent]

theorem Told.failed (error : String) (details : Dict) (point : Point)
    (stops : Moment.Stops ⟨x, st, input⟩) :
    Told ⟨x, st, input⟩ (x.yield (fun n => failedEvent n error details) point).event? :=
  .final (terminates_failedEvent _ _ _) (.inr stops)

theorem Told.contexts {rest : List Dict} (calm : ¬ Moment.Cancels ⟨x, st, .go⟩)
    (up : Moment.contexts ⟨x, st, .go⟩ = rest) : Told ⟨x, st, .go⟩ (x.nextContext rest).event? := by
  cases rest with
  | nil => exact .silent ⟨calm, up⟩
  | cons ctx rest =>
      refine .plain (fun quiet => ?_) (not_terminates_contextEvent _ _) ?_
      · rw [quiet.2] at up
        cases up
      · rintro (reports | stops)
        · exact reports
        · exact calm stops

theorem Told.check (checking : x.point = .check) : Told ⟨x, st, .go⟩ (x.check st).1.event? := by
  unfold Execution.check
  split
  · rename_i unknown
    refine .contexts ?_ ?_
    · rintro ⟨-, e, entry, -⟩
      cases unknown.symm.trans entry
    · simp [Moment.contexts, checking, unknown]
  · rename_i e entry
    have cancels : Moment.Cancels ⟨x, st, .go⟩ ↔ e.redirect = none ∧ e.cancelled = true := by
      simp [Moment.Cancels, checking, entry]
    split_ifs with redirect cancelled paused
    · refine .silent ⟨fun h => ?_, ?_⟩
      · rw [(cancels.mp h).1] at redirect
        cases redirect
      · simp [Moment.contexts, checking, entry, TaskSignals.flagged, redirect]
    · refine .final (terminates_cancelledEvent _) (.inr (cancels.mpr ⟨?_, cancelled⟩))
      simpa using redirect
    · refine .silent ⟨fun h => cancelled (cancels.mp h).2, ?_⟩
      simp [Moment.contexts, checking, entry, paused]
    · refine .contexts (fun h => cancelled (cancels.mp h).2) ?_
      simp [Moment.contexts, checking, entry, TaskSignals.flagged, redirect, cancelled, paused]

theorem Told.onLine (l : Line) : Told ⟨x, st, .line l⟩ (x.onLine l).event? := by
  cases l with
  | eof | skipped | overrun => exact .silent trivial
  | value v =>
      cases fields : lineFields v with
      | none =>
          simp only [Execution.onLine, fields]
          exact .silent fields
      | some pair =>
          obtain ⟨eventType, data⟩ := pair
          simp only [Execution.onLine, fields]
          by_cases ends : Terminal eventType data
          · exact .final ends (.inl ⟨_, fields, ends⟩)
          · refine .plain (fun quiet => ?_) ends ?_
            · cases fields.symm.trans quiet
            · rintro (⟨_, same, terminal⟩ | stops)
              · cases fields.symm.trans same
                exact ends terminal
              · exact stops

theorem Told.onExit (code : Int) (stderr : String) :
    Told ⟨x, st, .exited code stderr⟩ (x.onExit code stderr).event? := by
  unfold Execution.onExit
  split_ifs with clean
  · exact .silent clean
  · exact .failed _ _ _ clean

theorem turn_told (h : x.turn st input = some (t, st')) : Told ⟨x, st, input⟩ t.event? := by
  unfold Execution.turn at h
  split at h
  case h_1 | h_3 | h_4 | h_5 => cases h; exact .silent trivial
  case h_2 => cases h; exact .failed _ _ _ trivial
  case h_6 _ _ point =>
    have eq : (x.check st).1 = t := congrArg Prod.fst (Option.some.inj h)
    rw [← eq]
    exact .check point
  case h_7 _ _ point =>
    split at h
    · cases h
    · have eq : (x.afterPause st).1 = t := congrArg Prod.fst (Option.some.inj h)
      rw [← eq]
      refine .contexts ?_ (by simp [Moment.contexts, point])
      simp [Moment.Cancels, point]
  case h_8 | h_11 => cases h; exact .failed _ _ _ trivial
  case h_9 _ _ rest point =>
    cases h
    refine .contexts ?_ (by simp [Moment.contexts, point])
    simp [Moment.Cancels, point]
  case h_10 => cases h; exact .onLine _
  case h_12 => cases h; exact .onExit _ _
  case h_13 _ _ how point =>
    cases h
    refine .silent ⟨?_, by simp [Moment.contexts, point]⟩
    simp [Moment.Cancels, point]
  case h_14 =>
    split at h
    · cases h
      exact .silent trivial
    · cases h
  case h_15 => cases h

theorem turn_stops (h : x.turn st input = some (.yields event next, st'))
    (stops : Moment.Stops ⟨x, st, input⟩) : ∃ how, next.point = .closing how := by
  have speaks := turn_yields h
  generalize at_point : next.point = point at speaks
  cases speaks with
  | notFound | cancelled | timedOut | exited => exact ⟨_, rfl⟩
  | line => exact stops.elim
  | context ctx =>
      have told := (turn_told h).terminal.mpr (.inr stops)
      obtain ⟨_, same, terminal⟩ := told
      cases same
      exact absurd terminal (not_terminates_contextEvent _ _)

end turn

/-! ## The run -/

section run
variable {α : Type} {P Q : α → Prop} {x : Execution} {m : Moment} {ms : List Moment} {es : List TaskEvent}

theorem FirstThen.nil : ¬ FirstThen P Q [] := by
  rintro ⟨before, a, after, split, -⟩
  cases before <;> cases split

theorem FirstThen.cons {a : α} {l : List α} :
    FirstThen P Q (a :: l) ↔ (P a ∧ ∀ c ∈ l, Q c) ∨ (¬ P a ∧ FirstThen P Q l) := by
  constructor
  · rintro ⟨before, b, after, split, none, here, rest⟩
    cases before with
    | nil => cases split; exact .inl ⟨here, rest⟩
    | cons first before =>
        cases split
        obtain ⟨other, none⟩ := List.forall_mem_cons.mp none
        exact .inr ⟨other, before, b, after, rfl, none, here, rest⟩
  · rintro (⟨here, rest⟩ | ⟨other, before, b, after, rfl, none, here, rest⟩)
    · exact ⟨[], a, l, rfl, fun _ member => (List.not_mem_nil member).elim, here, rest⟩
    · exact ⟨a :: before, b, after, rfl, List.forall_mem_cons.mpr ⟨other, none⟩, here, rest⟩

theorem endsOnce_iff : EndsOnce es ↔ FirstThen TaskEvent.Terminates (fun _ => False) es := by
  constructor
  · rintro ⟨before, last, split, here, none⟩
    exact ⟨before, last, [], split, none, here, fun _ member => List.not_mem_nil member⟩
  · rintro ⟨before, last, after, split, none, here, rest⟩
    obtain rfl := List.eq_nil_iff_forall_not_mem.mpr rest
    exact ⟨before, last, split, here, none⟩

theorem endsOnce_nil : ¬ EndsOnce [] := endsOnce_iff.not.mpr FirstThen.nil

theorem endsOnce_cons {event : TaskEvent} :
    EndsOnce (event :: es) ↔ (event.Terminates ∧ es = []) ∨ (¬ event.Terminates ∧ EndsOnce es) := by
  rw [endsOnce_iff, endsOnce_iff, FirstThen.cons, List.eq_nil_iff_forall_not_mem]

/-- The events are those of the moments. -/
structure Tells (ms : List Moment) (es : List TaskEvent) : Prop where
  quiet : (∀ m ∈ ms, m.Quiet) ↔ es = []
  ends : EndsOnce es ↔ FirstThen (fun m => m.Reports ∨ m.Stops) Moment.Quiet ms

theorem Tells.nil : Tells [] [] where
  quiet := by simp
  ends := iff_of_false endsOnce_nil FirstThen.nil

theorem Tells.cons {event : Option TaskEvent} (told : Told m event) (rest : Tells ms es) :
    Tells (m :: ms) (event.toList ++ es) := by
  have quiet := told.quiet
  have terminal := told.terminal
  cases event with
  | none =>
      refine ⟨?_, ?_⟩
      · rw [List.forall_mem_cons, rest.quiet]
        simp [quiet]
      · rw [FirstThen.cons, ← rest.ends, ← terminal]
        simp
  | some event =>
      refine ⟨?_, ?_⟩
      · rw [List.forall_mem_cons]
        simp [quiet]
      · rw [FirstThen.cons, ← rest.ends, rest.quiet, ← terminal]
        simp [endsOnce_cons]

theorem Run.tells (run : Run x ms es) : Tells ms es := by
  induction run with
  | ends how turn => exact .cons (turn_told turn) .nil
  | interrupted turn => exact .cons (turn_told turn) .nil
  | goesOn turn rest ih =>
      rcases turn with turn | turn
      · exact .cons (turn_told turn) ih
      · exact .cons (turn_told turn) ih
  | yields turn rest ih => exact .cons (turn_told turn) ih

theorem turn_closing {st st' : SignalState} {input : Input} {t : Turn} {how : Ending}
    (h : x.turn st input = some (t, st')) (closing : x.point = .closing how) : t = .ends how := by
  unfold Execution.turn at h
  rw [closing] at h
  cases input with
  | gone =>
      have heedless : x.stopsHandler st = false := by simp [Execution.stopsHandler, closing]
      simp [heedless] at h
  | go =>
      cases h
      rfl
  | _ => cases h

theorem Run.closing (run : Run x ms es) {how : Ending} (closing : x.point = .closing how) :
    ∀ m ∈ ms, m.Quiet := by
  cases run with
  | ends _ turn => simpa using (turn_told turn).quiet.mpr rfl
  | interrupted turn | yields turn => cases turn_closing turn closing
  | goesOn turn => rcases turn with turn | turn <;> cases turn_closing turn closing

theorem Run.stops (run : Run x (m :: ms) es) (stops : m.Stops) : ∀ m ∈ ms, m.Quiet := by
  have quiet : ∀ {event}, Told m event → event ≠ none := fun told none =>
    stops.loud (told.quiet.mpr none)
  cases run with
  | ends _ turn => exact absurd rfl (quiet (turn_told turn))
  | interrupted => simp
  | goesOn turn =>
      rcases turn with turn | turn <;> exact absurd rfl (quiet (turn_told turn))
  | yields turn rest =>
      obtain ⟨how, closing⟩ := turn_stops turn stops
      exact rest.closing closing

theorem Run.tail (run : Run x (m :: ms) es) : ms = [] ∨ ∃ y es', Run y ms es' := by
  cases run with
  | ends | interrupted => exact .inl rfl
  | goesOn _ rest | yields _ rest => exact .inr ⟨_, _, rest⟩

/-- Either report of the end makes it, but the executor's ends the run as well. -/
theorem firstThen_reports_or_stops (last : ∀ before m after, ms = before ++ m :: after → m.Stops →
    ∀ m ∈ after, m.Quiet) : FirstThen (fun m => m.Reports ∨ m.Stops) Moment.Quiet ms ↔
      ((∀ m ∈ ms, ¬ m.Reports) ∧ ∃ m ∈ ms, m.Stops) ∨ FirstThen Moment.Reports Moment.Quiet ms := by
  induction ms with
  | nil => simp [FirstThen.nil]
  | cons m ms ih =>
      have rest := ih fun before m' after split => last (m :: before) m' after (congrArg _ split)
      rw [FirstThen.cons, FirstThen.cons, rest, List.forall_mem_cons, List.exists_mem_cons_iff]
      by_cases reports : m.Reports
      · simp [reports]
      · by_cases stops : m.Stops
        · have quiet := last [] m ms rfl stops
          have silent : ∀ m ∈ ms, ¬ m.Reports := fun m member reports =>
            reports.loud (quiet m member)
          exact iff_of_true (.inl ⟨.inr stops, quiet⟩) (.inl ⟨⟨reports, silent⟩, .inl stops⟩)
        · simp [reports, stops]

theorem Run.last (run : Run x ms es) : ∀ before m after, ms = before ++ m :: after → m.Stops →
    ∀ m ∈ after, m.Quiet := by
  intro before
  induction before generalizing x ms es with
  | nil =>
      rintro m after rfl stops
      exact run.stops stops
  | cons first before ih =>
      rintro m after rfl stops
      rcases run.tail with gone | ⟨y, es', rest⟩
      · simp at gone
      · exact ih rest m after rfl stops

end run

/-- The events of a run of the handler end with the only terminal one if and only if either
the handler reports no end and the executor does, or the handler reports the end and from
then on nothing is up that makes an event. -/
theorem ends_once_iff {task : PendingTask} {ms : List Moment} {es : List TaskEvent}
    (run : Run { task } ms es) : EndsOnce es ↔
      ((∀ m ∈ ms, ¬ m.Reports) ∧ ∃ m ∈ ms, m.Stops) ∨ FirstThen Moment.Reports Moment.Quiet ms :=
  run.tells.ends.trans (firstThen_reports_or_stops run.last)

namespace Run.Demo
open Loops.Demo (task)

def moment (point : Point) (sequence : Int) (input : Input) : Moment where
  execution := { task, point, sequence }
  signals := {}
  input := input

def completed : Json := .obj [("event_type", .str "completed"), ("data", .obj [])]

def completes : List Moment :=
  [moment .launch 0 .launched, moment .feed 0 .fed, moment .check 0 .go,
    moment .read 0 (.line (.value completed)), moment .check 1 .go, moment .read 1 (.line .eof),
    moment .wait 1 (.exited 0 "")]

/-- The handler exits with code 0 and has written nothing. -/
def exits : List Moment :=
  [moment .launch 0 .launched, moment .feed 0 .fed, moment .check 0 .go,
    moment .read 0 (.line .eof), moment .wait 0 (.exited 0 "")]

theorem completes_run : Run { task } completes
    [{ eventType := "completed", data := some [], sequence := 1 }] :=
  .goesOn (.inl rfl) <| .goesOn (.inr rfl) <| .goesOn (.inr rfl) <| .yields rfl <|
    .goesOn (.inr rfl) <| .goesOn (.inr rfl) <| .ends .returned rfl

theorem exits_run : Run { task } exits [] :=
  .goesOn (.inl rfl) <| .goesOn (.inr rfl) <| .goesOn (.inr rfl) <| .goesOn (.inr rfl) <|
    .ends .returned rfl

end Run.Demo

theorem ends_once_completes :
    EndsOnce [{ eventType := "completed", data := some [], sequence := 1 }] := by
  refine (ends_once_iff Run.Demo.completes_run).mpr (.inr ?_)
  refine ⟨Run.Demo.completes.take 3, _, Run.Demo.completes.drop 4, rfl, ?_, ⟨_, rfl, .inl rfl⟩, ?_⟩
  · simp [Run.Demo.completes, Run.Demo.moment, Moment.Reports]
  · simp [Run.Demo.completes, Run.Demo.moment, Moment.Quiet, Moment.Cancels, Moment.contexts,
      SignalState.entry?, SignalState.popContext]

/-- Nothing tells the service that the task has ended. -/
theorem exit_without_terminal : ∃ ms, Run { task := Loops.Demo.task } ms [] ∧ ¬ EndsOnce [] :=
  ⟨_, Run.Demo.exits_run, endsOnce_nil⟩

end Fleet.Agent
