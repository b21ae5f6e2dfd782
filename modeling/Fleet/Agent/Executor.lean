/- The local executor: the generator that runs one handler and yields its events. -/
import Fleet.Agent.SignalState

namespace Fleet.Agent
open Fleet.Lib

/-- How the generator ends: it returns, it was stopped by a signal, or an
exception leaves it. -/
inductive Ending where
  | returned | stopped | raised
  deriving DecidableEq, Repr

/-- Where the generator stands. From `check` to `read` it is inside the block that
the timeout guards; `closing` follows the last event it yields. -/
inductive Point where
  | launch
  | feed
  | check
  | blocked
  | contexts (rest : List Dict)
  | read
  | wait
  | closing (how : Ending)
  deriving DecidableEq

def Point.guarded : Point → Bool
  | check | blocked | contexts _ | read => true
  | launch | feed | wait | closing _ => false

def Point.live : Point → Bool
  | .launch | .closing _ => false
  | .feed | .check | .blocked | .contexts _ | .read | .wait => true

/-- What one `readline` gives after `strip` and `json.loads`; `overrun` is a line
beyond the limit of the stream reader. -/
inductive Line where
  | eof
  | skipped
  | value (v : Json)
  | overrun

/-- What the generator was waiting for. Where `go` or `timeout` makes it stop the handler, the
process is still there; with `gone` it is not, and `terminate` or `kill` raises a
`ProcessLookupError`. -/
inductive Input where
  | launched
  | notFound (error : String)
  | launchError
  | fed
  | feedError
  | go
  | line (l : Line)
  | timeout (stderr : String)
  | gone
  | exited (code : Int) (stderr : String)

structure Execution where
  task : PendingTask
  point : Point := .launch
  sequence : Int := 0

/-- What the generator does until it waits again. -/
inductive Turn where
  | started (next : Execution)
  | awaits (next : Execution)
  | yields (event : TaskEvent) (next : Execution)
  | ends (how : Ending)

/-! ## The events it yields -/

/-- The `event_type` and `data` of a line, which `TaskEvent` accepts; `none` stands for
the `AttributeError` or `ValidationError`. -/
def lineFields : Json → Option (String × Option Dict)
  | .obj d => do
      let eventType ← ((Dict.get? d "event_type").getD (.str "log")).str?
      let data ← optionalDict (Dict.get? d "data")
      return (eventType, data)
  | _ => none

def Input.crashes : Input → Bool
  | .launchError | .feedError | .gone | .line .overrun => true
  | .line (.value v) => (lineFields v).isNone
  | _ => false

def contextEvent (sequence : Int) (ctx : Dict) : TaskEvent where
  eventType := "context_injected"
  data := some [
    ("context_type", ctx.get "context_type"),
    ("context_sequence", ctx.get "context_sequence"),
    ("payload", ctx.get "payload"),
    ("urgency", (ctx.get? "urgency").getD (.str "normal"))]
  sequence := sequence

def failedEvent (sequence : Int) (error : String) (details : Dict) : TaskEvent where
  eventType := "failed"
  data := some (("error", .str error) :: details)
  sequence := sequence

def cancelledEvent (sequence : Int) : TaskEvent where
  eventType := "status"
  data := some [("status", .str "cancelled"), ("reason", .str "Cancelled by signal")]
  sequence := sequence

namespace Execution
variable (x : Execution)

def timeoutSeconds : Int :=
  match x.task.timeoutSeconds with
  | some n => if n = 0 then 600 else n
  | none => 600

def moveTo (point : Point) : Execution := { x with point }

def yield (event : Int → TaskEvent) (point : Point) : Turn :=
  .yields (event (x.sequence + 1)) { x with point, sequence := x.sequence + 1 }

/-! ## The loop -/

def nextContext : List Dict → Turn
  | [] => .awaits (x.moveTo .read)
  | ctx :: rest => x.yield (fun n => contextEvent n ctx) (.contexts rest)

def afterPause (st : SignalState) : Turn × SignalState :=
  (x.nextContext (st.popContext x.task.taskId).1, (st.popContext x.task.taskId).2)

/-- A redirect ends the execution without an event, a cancellation with one. -/
def check (st : SignalState) : Turn × SignalState :=
  match st.entry? x.task.taskId with
  | none => x.afterPause st
  | some e =>
      if e.redirect.isSome then (.ends .stopped, st)
      else if e.cancelled then (x.yield cancelledEvent (.closing .stopped), st)
      else if e.paused then (.awaits (x.moveTo .blocked), st)
      else x.afterPause st

def onLine : Line → Turn
  | .eof => .awaits (x.moveTo .wait)
  | .skipped => .awaits (x.moveTo .check)
  | .value v =>
      match lineFields v with
      | some (eventType, data) => x.yield (fun sequence => { eventType, data, sequence }) .check
      | none => .ends .raised
  | .overrun => .ends .raised

def timedOut (stderr : String) : Turn :=
  x.yield (fun n => failedEvent n "EXECUTION_TIMEOUT" [
    ("detail", .str (s!"Task exceeded {x.timeoutSeconds}s timeout")), ("stderr", .str stderr)])
    (.closing .returned)

def onExit (code : Int) (stderr : String) : Turn :=
  if code = 0 then .ends .returned
  else x.yield (fun n => failedEvent n "SUBPROCESS_FAILED" [
    ("exit_code", .num code), ("stderr", .str stderr)]) (.closing .returned)

/-- The handler is to be stopped, by a flag that the check finds or by the timeout. -/
def stopsHandler (st : SignalState) : Bool :=
  match x.point with
  | .check => (st.entry? x.task.taskId).any fun e => e.redirect.isSome || e.cancelled
  | .blocked | .read => true
  | _ => false

/-- The generator goes on with an input; `none` where it does not wait for it. -/
def turn (st : SignalState) (input : Input) : Option (Turn × SignalState) :=
  match x.point, input with
  | .launch, .launched => some (.started (x.moveTo .feed), st)
  | .launch, .notFound error =>
      some (x.yield (fun n => failedEvent n error []) (.closing .raised), st)
  | .launch, .launchError => some (.ends .raised, st)
  | .feed, .fed => some (.awaits (x.moveTo .check), st)
  | .feed, .feedError => some (.ends .raised, st)
  | .check, .go => some (x.check st)
  | .blocked, .go =>
      if (st.entry? x.task.taskId).any (fun e => e.paused) then none else some (x.afterPause st)
  | .blocked, .timeout stderr => some (x.timedOut stderr, st)
  | .contexts rest, .go => some (x.nextContext rest, st)
  | .read, .line l => some (x.onLine l, st)
  | .read, .timeout stderr => some (x.timedOut stderr, st)
  | .wait, .exited code stderr => some (x.onExit code stderr, st)
  | .closing how, .go => some (.ends how, st)
  | _, .gone => if x.stopsHandler st then some (.ends .raised, st) else none
  | _, _ => none

end Execution

/-! ## What a turn can be -/

inductive TurnStep (x : Execution) (st : SignalState) (input : Input) : Turn → Prop
  | started (launch : x.point = .launch) : TurnStep x st input (.started (x.moveTo .feed))
  | awaits (live : x.point.live = true) (point : Point) (inside : ∀ how, point ≠ .closing how) :
      TurnStep x st input (.awaits (x.moveTo point))
  | speaks (live : x.point.live = true) (event : Int → TaskEvent) (point : Point)
      (inside : ∀ how, point ≠ .closing how) : TurnStep x st input (x.yield event point)
  | fails (error : String) (details : Dict) (how : Ending) (own : how ≠ .stopped) :
      TurnStep x st input (x.yield (fun n => failedEvent n error details) (.closing how))
  | cancels (live : x.point.live = true) (e : TaskSignals)
      (entry : st.entry? x.task.taskId = some e) (flag : e.cancelled = true) :
      TurnStep x st input (x.yield cancelledEvent (.closing .stopped))
  | redirects (e : TaskSignals) (entry : st.entry? x.task.taskId = some e)
      (flag : e.redirect.isSome = true) : TurnStep x st input (.ends .stopped)
  | crashes (broken : input.crashes = true) : TurnStep x st input (.ends .raised)
  | exits (drained : x.point = .wait) : TurnStep x st input (.ends .returned)
  | closes (how : Ending) (last : x.point = .closing how) : TurnStep x st input (.ends how)

section turn
variable {x : Execution} {st st' : SignalState} {input : Input} {t : Turn}

theorem TurnStep.nextContext (live : x.point.live = true) (rest : List Dict) :
    TurnStep x st input (x.nextContext rest) := by
  cases rest with
  | nil => exact .awaits live .read nofun
  | cons ctx rest => exact .speaks live _ (.contexts rest) nofun

theorem TurnStep.check (live : x.point.live = true) : TurnStep x st input (x.check st).1 := by
  unfold Execution.check
  split
  · exact .nextContext live _
  · rename_i e entry
    split_ifs with redirect cancelled paused
    · exact .redirects e entry redirect
    · exact .cancels live e entry cancelled
    · exact .awaits live .blocked nofun
    · exact .nextContext live _

theorem TurnStep.onLine (live : x.point.live = true) (l : Line) :
    TurnStep x st (.line l) (x.onLine l) := by
  cases l with
  | eof => exact .awaits live .wait nofun
  | skipped => exact .awaits live .check nofun
  | overrun => exact .crashes rfl
  | value v =>
      simp only [Execution.onLine]
      split
      · exact .speaks live _ .check nofun
      · rename_i broken
        exact .crashes (by rw [Input.crashes, broken]; rfl)

theorem turn_cases (h : x.turn st input = some (t, st')) : TurnStep x st input t := by
  unfold Execution.turn at h
  split at h
  case h_1 _ _ point => cases h; exact .started point
  case h_2 => cases h; exact .fails _ _ .raised nofun
  case h_3 | h_5 => cases h; exact .crashes rfl
  case h_4 _ _ point => cases h; exact .awaits (by rw [point]; rfl) .check nofun
  case h_6 _ _ point =>
    have eq : (x.check st).1 = t := congrArg Prod.fst (Option.some.inj h)
    rw [← eq]
    exact .check (by rw [point]; rfl)
  case h_7 _ _ point =>
    split at h
    · cases h
    · have eq : (x.afterPause st).1 = t := congrArg Prod.fst (Option.some.inj h)
      rw [← eq]
      exact .nextContext (by rw [point]; rfl) _
  case h_8 | h_11 => cases h; exact .fails _ _ .returned nofun
  case h_9 _ _ rest point => cases h; exact .nextContext (by rw [point]; rfl) rest
  case h_10 _ _ l point => cases h; exact .onLine (by rw [point]; rfl) l
  case h_12 _ _ code stderr point =>
    cases h
    unfold Execution.onExit
    split
    · exact .exits point
    · exact .fails _ _ .returned nofun
  case h_13 _ _ how point => cases h; exact .closes how point
  case h_14 =>
    split at h
    · cases h
      exact .crashes rfl
    · cases h
  case h_15 => cases h

/-- Where the generator stands after the turn, unless it ended. -/
def Turn.next? : Turn → Option Execution
  | .started next | .awaits next | .yields _ next => some next
  | .ends _ => none

theorem turn_next_task (h : x.turn st input = some (t, st')) {next : Execution}
    (goes : t.next? = some next) : next.task = x.task := by
  cases turn_cases h <;> cases goes <;> rfl

theorem turn_task {event : TaskEvent} {next : Execution}
    (h : x.turn st input = some (.yields event next, st')) : next.task = x.task := by
  generalize outcome : Turn.yields event next = t at h
  cases turn_cases h <;> cases outcome <;> rfl

theorem turn_signals (h : x.turn st input = some (t, st')) :
    st' = st ∨ st' = (st.popContext x.task.taskId).2 := by
  have checked : (x.check st).2 = st ∨ (x.check st).2 = (st.popContext x.task.taskId).2 := by
    unfold Execution.check
    split
    · exact .inr rfl
    · split_ifs <;> first | exact .inl rfl | exact .inr rfl
  unfold Execution.turn at h
  split at h
  case h_6 =>
    have eq : (x.check st).2 = st' := congrArg Prod.snd (Option.some.inj h)
    rw [← eq]
    exact checked
  case h_7 =>
    split at h
    · cases h
    · exact .inr (congrArg Prod.snd (Option.some.inj h)).symm
  case h_14 =>
    split at h
    · cases h
      exact .inl rfl
    · cases h
  all_goals first | cases h; exact .inl rfl | cases h

end turn

/-! ## What a turn yields -/

/-- Every event of a turn, with the input that brings it and where the generator goes
on. -/
inductive Speaks (x : Execution) : Input → TaskEvent → Point → Prop
  | notFound (error : String) (unstarted : x.point = .launch) :
      Speaks x (.notFound error) (failedEvent (x.sequence + 1) error []) (.closing .raised)
  | context (ctx : Dict) (rest : List Dict) :
      Speaks x .go (contextEvent (x.sequence + 1) ctx) (.contexts rest)
  | cancelled (checking : x.point = .check) :
      Speaks x .go (cancelledEvent (x.sequence + 1)) (.closing .stopped)
  | line (v : Json) (eventType : String) (data : Option Dict) (reading : x.point = .read)
      (fields : lineFields v = some (eventType, data)) :
      Speaks x (.line (.value v)) { eventType, data, sequence := x.sequence + 1 } .check
  | timedOut (stderr : String) (guarded : x.point.guarded = true) :
      Speaks x (.timeout stderr) (failedEvent (x.sequence + 1) "EXECUTION_TIMEOUT" [
        ("detail", .str (s!"Task exceeded {x.timeoutSeconds}s timeout")), ("stderr", .str stderr)])
        (.closing .returned)
  | exited (code : Int) (stderr : String) (drained : x.point = .wait) (failed : code ≠ 0) :
      Speaks x (.exited code stderr) (failedEvent (x.sequence + 1) "SUBPROCESS_FAILED" [
        ("exit_code", .num code), ("stderr", .str stderr)]) (.closing .returned)

section speaks
variable {x next : Execution} {st st' : SignalState} {input : Input} {event : TaskEvent}

theorem Speaks.of_nextContext {rest : List Dict} (h : x.nextContext rest = .yields event next) :
    Speaks x .go event next.point := by
  cases rest with
  | nil => cases h
  | cons ctx rest => cases h; exact .context ctx rest

theorem Speaks.of_check (checking : x.point = .check) (h : (x.check st).1 = .yields event next) :
    Speaks x .go event next.point := by
  unfold Execution.check at h
  split at h
  · exact .of_nextContext h
  · split_ifs at h
    · cases h
      exact .cancelled checking
    · exact .of_nextContext h

theorem Speaks.of_onLine {l : Line} (reading : x.point = .read)
    (h : x.onLine l = .yields event next) : Speaks x (.line l) event next.point := by
  cases l with
  | eof | skipped | overrun => cases h
  | value v =>
      simp only [Execution.onLine] at h
      split at h
      · rename_i eventType data fields
        cases h
        exact .line v eventType data reading fields
      · cases h

theorem turn_yields (h : x.turn st input = some (.yields event next, st')) :
    Speaks x input event next.point := by
  unfold Execution.turn at h
  split at h
  case h_2 _ _ error point => cases h; exact .notFound error point
  case h_6 _ _ point => exact .of_check point (congrArg Prod.fst (Option.some.inj h))
  case h_7 =>
    split at h
    · cases h
    · exact .of_nextContext (congrArg Prod.fst (Option.some.inj h))
  case h_8 _ _ stderr point => cases h; exact .timedOut stderr (by rw [point]; rfl)
  case h_9 => exact .of_nextContext (congrArg Prod.fst (Option.some.inj h))
  case h_10 _ _ l point => exact .of_onLine point (congrArg Prod.fst (Option.some.inj h))
  case h_11 _ _ stderr point => cases h; exact .timedOut stderr (by rw [point]; rfl)
  case h_12 _ _ code stderr point =>
    have exits := congrArg Prod.fst (Option.some.inj h)
    simp only [Execution.onExit] at exits
    split at exits
    · cases exits
    · rename_i failed
      cases exits
      exact .exited code stderr point failed
  case h_14 => split at h <;> cases h
  all_goals cases h

end speaks
end Fleet.Agent
