/- The signal poller: parsing a poll, and the handler of each kind of signal. -/
import Fleet.Agent.SignalState

namespace Fleet.Agent
open Fleet.Lib

/-- `[Signal.model_validate(s) for s in signals]`: one refusal raises, and `run`
goes on with no signal at all. -/
def pollSignals (signals : List Json) : Option (List Signal) := signals.mapM Signal.modelValidate

def signalKey (sig : Signal) : String :=
  sig.taskId ++ ":" ++ sig.signalType.value ++ ":" ++ sig.timestamp

def ack (status : String) (extra : Dict := []) : TaskEvent where
  eventType := "status"
  data := some (("status", .str status) :: extra)
  sequence := 0

inductive Handler where
  | pause | resume | cancel | redirect | contextInjection
  deriving DecidableEq, Repr

/-- The branch of `_handle_signal` a signal of a registered task takes. -/
def handlerFor : SignalType → Handler
  | .pauseRequested => .pause
  | .resumeRequested => .resume
  | .cancelRequested => .cancel
  | .redirectRequested => .redirect
  | .contextInjection => .contextInjection

/-- What the handler does to the task's entry, and the event it streams back. -/
def runHandler (payload : Dict) (e : TaskSignals) : Handler → TaskSignals × Option TaskEvent
  | .pause => if e.paused then (e, none) else ({ e with paused := true }, some (ack "paused"))
  | .resume => if e.paused then ({ e with paused := false }, some (ack "running")) else (e, none)
  | .cancel => ({ e with cancelled := true, paused := false }, some (ack "cancelled"))
  | .redirect =>
      ({ e with redirect := some payload, cancelled := true, paused := false },
        some (ack "redirected" [("redirect", .obj payload)]))
  | .contextInjection => ({ e with context := e.context ++ [payload] }, none)

/-- `_handle_signal` up to the acknowledgement it then streams. -/
def handleSignal (st : SignalState) (sig : Signal) : SignalState × Option TaskEvent :=
  match st.entry? sig.taskId with
  | none => (st, none)
  | some e =>
      let (e', event) := runHandler (sig.payload.getD []) e (handlerFor sig.signalType)
      (st.update sig.taskId (fun _ => e'), event)

/-! ## What a signal changes -/

section handleSignal
variable (st : SignalState) (sig : Signal)

theorem hasTask_handleSignal (id : String) : (handleSignal st sig).1.hasTask id = st.hasTask id := by
  simp only [handleSignal]
  split
  · rfl
  · exact st.hasTask_update sig.taskId id _

theorem processed_handleSignal : (handleSignal st sig).1.processed = st.processed := by
  simp only [handleSignal]
  split <;> rfl

theorem handleSignal_unregistered (absent : st.hasTask sig.taskId = false) :
    handleSignal st sig = (st, none) := by
  rw [SignalState.hasTask, Option.isSome_eq_false_iff, Option.isNone_iff_eq_none] at absent
  simp only [handleSignal, absent]

theorem entry?_handleSignal (id : String) :
    SignalState.entry? (handleSignal st sig).1 id = if id = sig.taskId then
      (st.entry? id).map fun e => (runHandler (sig.payload.getD []) e (handlerFor sig.signalType)).1
    else st.entry? id := by
  simp only [handleSignal]
  split
  · rename_i absent
    split
    · rename_i own
      rw [own, absent]
      rfl
    · rfl
  · rename_i e entry
    rw [SignalState.entry?_update]
    split
    · rename_i own
      rw [own, entry]
      rfl
    · rfl

end handleSignal

theorem runHandler_paused (payload : Dict) (e : TaskSignals) (t : SignalType) :
    (runHandler payload e (handlerFor t)).1.paused =
      if t = .contextInjection then e.paused else decide (t = .pauseRequested) := by
  cases t with
  | pauseRequested | resumeRequested =>
      simp only [handlerFor, runHandler]
      split <;> simp_all
  | cancelRequested | redirectRequested | contextInjection => rfl

theorem runHandler_context (payload : Dict) (e : TaskSignals) (t : SignalType) :
    (runHandler payload e (handlerFor t)).1.context =
      if t = .contextInjection then e.context ++ [payload] else e.context := by
  cases t with
  | pauseRequested | resumeRequested =>
      simp only [handlerFor, runHandler]
      split <;> rfl
  | cancelRequested | redirectRequested | contextInjection => rfl

/-! ## Where a stop flag comes from -/

def TaskSignals.flagged (e : TaskSignals) : Bool := e.cancelled || e.redirect.isSome

def SignalState.stopping (st : SignalState) (taskId : String) : Bool :=
  (st.entry? taskId).any TaskSignals.flagged

/-- Every flagged entry was flagged before, or its task has a cause to stop. -/
def FlagsFrom (cause : String → Prop) (old new : SignalState) : Prop :=
  ∀ p ∈ new.entries, p.2.flagged = true →
    (∃ q ∈ old.entries, q.1 = p.1 ∧ q.2.flagged = true) ∨ cause p.1

namespace FlagsFrom
variable {cause : String → Prop} {st st₁ st₂ : SignalState}

theorem of_entries (same : st₁.entries = st.entries) : FlagsFrom cause st st₁ := by
  intro p member flag
  rw [same] at member
  exact .inl ⟨p, member, rfl, flag⟩

theorem trans (h : FlagsFrom cause st st₁) (k : FlagsFrom cause st₁ st₂) : FlagsFrom cause st st₂ := by
  intro p member flag
  rcases k p member flag with ⟨q, before, same, flagged⟩ | stop
  · rw [← same]
    exact h q before flagged
  · exact .inr stop

theorem registerTask (taskId : String) : FlagsFrom cause st (st.registerTask taskId) := by
  intro p member flag
  rcases List.mem_cons.mp member with rfl | old
  · cases flag
  · exact .inl ⟨p, (List.mem_filter.mp old).1, rfl, flag⟩

theorem unregisterTask (taskId : String) : FlagsFrom cause st (st.unregisterTask taskId) := by
  intro p member flag
  exact .inl ⟨p, (List.mem_filter.mp member).1, rfl, flag⟩

theorem update {taskId : String} {f : TaskSignals → TaskSignals}
    (sets : ∀ q ∈ st.entries, q.1 = taskId → (f q.2).flagged = true →
      (∃ r ∈ st.entries, r.1 = taskId ∧ r.2.flagged = true) ∨ cause taskId) :
    FlagsFrom cause st (st.update taskId f) := by
  intro p member flag
  obtain ⟨q, old, rfl⟩ := List.mem_map.mp member
  by_cases own : q.1 = taskId
  · simp only [own, if_true] at flag ⊢
    exact sets q old own flag
  · simp only [own, if_false] at flag ⊢
    exact .inl ⟨q, old, rfl, flag⟩

theorem popContext (taskId : String) : FlagsFrom cause st (st.popContext taskId).2 :=
  update fun q old own flag => .inl ⟨q, old, own, flag⟩

end FlagsFrom

theorem entry?_mem {st : SignalState} {taskId : String} {e : TaskSignals}
    (h : st.entry? taskId = some e) : (taskId, e) ∈ st.entries := by
  obtain ⟨before, after, eq, _⟩ := List.lookup_eq_some_iff.mp h
  rw [eq]
  exact List.mem_append_right _ List.mem_cons_self

theorem runHandler_flagged (payload : Dict) (e : TaskSignals) {t : SignalType} (goes : t.stops = false) :
    (runHandler payload e (handlerFor t)).1.flagged = e.flagged := by
  cases t with
  | cancelRequested | redirectRequested => cases goes
  | pauseRequested | resumeRequested =>
      simp only [handlerFor, runHandler]
      split <;> rfl
  | contextInjection => rfl

theorem stopping_popContext (st : SignalState) (taskId id : String) :
    (st.popContext taskId).2.stopping id = st.stopping id := by
  rw [SignalState.stopping, SignalState.entry?_popContext]
  split
  · exact Option.any_map
  · rfl

theorem runHandler_stops (payload : Dict) (e : TaskSignals) {t : SignalType} (stops : t.stops = true) :
    (runHandler payload e (handlerFor t)).1.flagged = true := by
  cases t with
  | cancelRequested | redirectRequested => simp [handlerFor, runHandler, TaskSignals.flagged]
  | pauseRequested | resumeRequested | contextInjection => cases stops

theorem stopping_handleSignal {st : SignalState} {id : String} (flag : st.stopping id = true) (sig : Signal) :
    (handleSignal st sig).1.stopping id = true := by
  rw [SignalState.stopping, entry?_handleSignal]
  split
  · obtain ⟨e, entry, flagged⟩ := (Option.any_eq_true _ _).mp flag
    rw [entry]
    cases kind : sig.signalType.stops with
    | true => exact runHandler_stops _ _ kind
    | false => exact (runHandler_flagged _ _ kind).trans flagged
  · exact flag

theorem handleSignal_stops {st : SignalState} {sig : Signal} (registered : st.hasTask sig.taskId = true)
    (stops : sig.signalType.stops = true) : (handleSignal st sig).1.stopping sig.taskId = true := by
  obtain ⟨e, entry⟩ := Option.isSome_iff_exists.mp registered
  rw [SignalState.stopping, entry?_handleSignal, if_pos rfl, entry]
  exact runHandler_stops _ _ stops

theorem handleSignal_flags {st : SignalState} (sig : Signal) :
    FlagsFrom (fun id => id = sig.taskId ∧ sig.signalType.stops = true) st (handleSignal st sig).1 := by
  simp only [handleSignal]
  split
  · exact .of_entries rfl
  · rename_i e entry
    refine @FlagsFrom.update _ st sig.taskId
      (fun _ => (runHandler (sig.payload.getD []) e (handlerFor sig.signalType)).1)
      fun q old own flag => ?_
    cases kind : sig.signalType.stops with
    | true => exact .inr ⟨rfl, rfl⟩
    | false =>
        rw [runHandler_flagged _ _ kind] at flag
        exact .inl ⟨_, entry?_mem entry, rfl, flag⟩

end Fleet.Agent
