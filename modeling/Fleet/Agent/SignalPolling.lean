/- The loop of the signal poller: what it handles of each poll and what it remembers,
   while tasks are registered and unregistered and executors take their contexts. -/
import Mathlib.Data.Finset.Card
import Mathlib.Data.Finset.Dedup
import Fleet.Lib.Machine
import Fleet.Lib.Text
import Fleet.Agent.Signals

namespace Fleet.Agent
open Fleet.Lib

/-! ## Keys -/

/-- An identifier as the service gives them out. -/
@[ext] structure TaskId where
  val : String
  plain : ':' ∉ val.toList

namespace SignalState

def isPaused (st : SignalState) (taskId : String) : Bool := (st.entry? taskId).any TaskSignals.paused

def queued (st : SignalState) (taskId : String) : List Dict :=
  ((st.entry? taskId).map TaskSignals.context).getD []

theorem mem_unregisterTask {st : SignalState} {taskId key : String} :
    key ∈ (st.unregisterTask taskId).processed ↔
      key ∈ st.processed ∧ ¬ (taskId ++ ":").toList <+: key.toList := by
  simp [unregisterTask, String.isPrefixOf]

end SignalState

theorem signalKey_toList (sig : Signal) : (signalKey sig).toList =
    sig.taskId.toList ++ ':' :: (sig.signalType.value ++ ":" ++ sig.timestamp).toList := by
  simp [signalKey]

theorem signalKey_prefix (sig : Signal) : (sig.taskId ++ ":").toList <+: (signalKey sig).toList := by
  rw [signalKey_toList, String.toList_append]
  exact ⟨(sig.signalType.value ++ ":" ++ sig.timestamp).toList, by simp⟩

theorem TaskId.eq_of_prefix {t u : TaskId} {sig : Signal} (own : sig.taskId = t.val)
    (start : (u.val ++ ":").toList <+: (signalKey sig).toList) : u.val = t.val := by
  obtain ⟨rest, shape⟩ := start
  rw [signalKey_toList, own, String.toList_append, List.append_assoc] at shape
  exact String.toList_inj.mp (append_mark_inj u.plain t.plain shape).1

/-! ## The loop -/

/-- `SignalPoller.run`: the signals left of the last poll, and the one whose
acknowledgement is being posted. -/
structure SignalPoller where
  signals : SignalState := {}
  queue : List Signal := []
  handling : Option Signal := none

namespace SignalPoller

/-- What may happen next on the event loop. `none` is a poll that fails. -/
inductive Action where
  | polls (result : Option (List Signal))
  | visits
  | acknowledges
  | registers (t : TaskId)
  | unregisters (t : TaskId)
  | pops (taskId : String)

/-- The loop comes to a signal; its handler runs; an executor takes its contexts. -/
inductive Report where
  | appeared (sig : Signal)
  | handled (sig : Signal)
  | popped (taskId : String) (contexts : List Dict)
  deriving DecidableEq

section step
variable (p : SignalPoller)

/-- A signal of a task that is not registered has no handler, and counts as
processed like any other. -/
def visit : SignalPoller × List Report :=
  match p.handling, p.queue with
  | none, sig :: rest =>
      if p.signals.isSignalProcessed (signalKey sig) then
        ({ p with queue := rest }, [.appeared sig])
      else
        let reports := if p.signals.hasTask sig.taskId then [.appeared sig, .handled sig] else [.appeared sig]
        match handleSignal p.signals sig with
        | (signals, none) =>
            ({ p with signals := signals.markSignalProcessed (signalKey sig), queue := rest }, reports)
        | (signals, some _) => ({ signals, queue := rest, handling := some sig }, reports)
  | _, _ => (p, [])

/-- The acknowledgement is posted, or was given up. -/
def acknowledge : SignalPoller :=
  match p.handling with
  | none => p
  | some sig =>
      { p with signals := p.signals.markSignalProcessed (signalKey sig), handling := none }

/-- The next poll waits until the last one is worked off. -/
def poll (result : Option (List Signal)) : SignalPoller :=
  if p.queue.isEmpty && p.handling.isNone then { p with queue := result.getD [] } else p

def step : Action → SignalPoller × List Report
  | .polls result => (p.poll result, [])
  | .visits => p.visit
  | .acknowledges => (p.acknowledge, [])
  | .registers t => ({ p with signals := p.signals.registerTask t.val }, [])
  | .unregisters t => ({ p with signals := p.signals.unregisterTask t.val }, [])
  | .pops taskId =>
      ({ p with signals := (p.signals.popContext taskId).2 },
        [.popped taskId (p.signals.popContext taskId).1])

end step

def machine : Machine SignalPoller Action Report where
  step := step

inductive Visited (p : SignalPoller) : SignalPoller × List Report → Prop
  | idle : Visited p (p, [])
  | known {sig : Signal} {rest : List Signal} (free : p.handling = none) (next : p.queue = sig :: rest)
      (old : signalKey sig ∈ p.signals.processed) : Visited p ({ p with queue := rest }, [.appeared sig])
  | unregistered {sig : Signal} {rest : List Signal} (free : p.handling = none)
      (next : p.queue = sig :: rest) (new : signalKey sig ∉ p.signals.processed)
      (absent : p.signals.hasTask sig.taskId = false) :
      Visited p ({ p with signals := p.signals.markSignalProcessed (signalKey sig), queue := rest },
        [.appeared sig])
  | done {sig : Signal} {rest : List Signal} (free : p.handling = none) (next : p.queue = sig :: rest)
      (new : signalKey sig ∉ p.signals.processed) (present : p.signals.hasTask sig.taskId = true) :
      Visited p ({ p with
        signals := (handleSignal p.signals sig).1.markSignalProcessed (signalKey sig)
        queue := rest }, [.appeared sig, .handled sig])
  | posts {sig : Signal} {rest : List Signal} (free : p.handling = none) (next : p.queue = sig :: rest)
      (new : signalKey sig ∉ p.signals.processed) (present : p.signals.hasTask sig.taskId = true) :
      Visited p ({ signals := (handleSignal p.signals sig).1, queue := rest, handling := some sig },
        [.appeared sig, .handled sig])

theorem visit_cases (p : SignalPoller) : Visited p p.visit := by
  unfold visit
  split
  · rename_i sig rest free next
    split
    · rename_i old
      exact .known free next (by simpa [SignalState.isSignalProcessed] using old)
    · rename_i fresh
      have new : signalKey sig ∉ p.signals.processed := by
        simpa [SignalState.isSignalProcessed] using fresh
      cases present : p.signals.hasTask sig.taskId with
      | false =>
          rw [handleSignal_unregistered p.signals sig present]
          exact .unregistered free next new present
      | true =>
          generalize outcome : handleSignal p.signals sig = r
          obtain ⟨signals, event⟩ := r
          obtain rfl : signals = (handleSignal p.signals sig).1 := by rw [outcome]
          cases event with
          | none => exact .done free next new present
          | some event => exact .posts free next new present
  · exact .idle

theorem visit_entry {p : SignalPoller} {sig : Signal} {rest : List Signal} (free : p.handling = none)
    (next : p.queue = sig :: rest) (fresh : p.signals.isSignalProcessed (signalKey sig) = false)
    (id : String) :
    SignalState.entry? p.visit.1.signals id = SignalState.entry? (handleSignal p.signals sig).1 id := by
  simp only [visit, free, next, fresh]
  split
  · contradiction
  · split
    · rename_i outcome
      rw [outcome]
      rfl
    · rename_i outcome
      rw [outcome]

/-! ## The keys it remembers -/

def appeared : List Report → List Signal :=
  List.filterMap fun
    | .appeared sig => some sig
    | .handled _ | .popped _ _ => none

theorem mem_appeared {log : List Report} {sig : Signal} : sig ∈ appeared log ↔ .appeared sig ∈ log := by
  rw [appeared, List.mem_filterMap]
  constructor
  · rintro ⟨o, member, found⟩
    cases o with
    | appeared _ => cases found; exact member
    | handled _ | popped _ _ => cases found
  · exact fun member => ⟨_, member, rfl⟩

/-- The keys of the signals that appeared for the tasks now registered. -/
def liveKeys (p : SignalPoller) (log : List Report) : Finset String :=
  (((appeared log).filter fun sig => p.signals.hasTask sig.taskId).map signalKey).toFinset

/-- What the loop remembers is of tasks that are registered. -/
def Tidy (p : SignalPoller) (log : List Report) : Prop :=
  ∀ key ∈ p.signals.processed, key ∈ p.liveKeys log

/-- A signal that is not remembered is taken up while its task is registered, and the
task is registered still when the handling ends. -/
def Timely (p : SignalPoller) : Action → Prop
  | .visits => ∀ sig rest, p.handling = none → p.queue = sig :: rest →
      signalKey sig ∉ p.signals.processed → p.signals.hasTask sig.taskId = true
  | .acknowledges => ∀ sig, p.handling = some sig → p.signals.hasTask sig.taskId = true
  | .polls _ | .registers _ | .unregisters _ | .pops _ => True

section tidy
variable {p q : SignalPoller} {log : List Report}

theorem mem_liveKeys {key : String} : key ∈ p.liveKeys log ↔
    ∃ sig, .appeared sig ∈ log ∧ p.signals.hasTask sig.taskId = true ∧ signalKey sig = key := by
  simp only [liveKeys, List.mem_toFinset, List.mem_map, List.mem_filter, mem_appeared, and_assoc]

theorem liveKeys_mono {more : List Report} (grown : log ⊆ more)
    (kept : ∀ id, p.signals.hasTask id = true → q.signals.hasTask id = true) :
    p.liveKeys log ⊆ q.liveKeys more := by
  intro key member
  obtain ⟨sig, seen, live, own⟩ := mem_liveKeys.mp member
  exact mem_liveKeys.mpr ⟨sig, grown seen, kept _ live, own⟩

theorem Tidy.mono {more : List Report} (h : p.Tidy log) (grown : log ⊆ more)
    (kept : ∀ id, p.signals.hasTask id = true → q.signals.hasTask id = true)
    (fewer : q.signals.processed ⊆ p.signals.processed) : q.Tidy more :=
  fun key member => liveKeys_mono grown kept (h key (fewer member))

theorem Tidy.mark {more : List Report} {sig : Signal} (h : p.Tidy log) (grown : log ⊆ more)
    (kept : ∀ id, p.signals.hasTask id = true → q.signals.hasTask id = true)
    (seen : .appeared sig ∈ more) (live : p.signals.hasTask sig.taskId = true)
    (marked : q.signals.processed = signalKey sig :: p.signals.processed) : q.Tidy more := by
  intro key member
  rw [marked] at member
  rcases List.mem_cons.mp member with rfl | old
  · exact mem_liveKeys.mpr ⟨sig, seen, kept _ live, rfl⟩
  · exact liveKeys_mono grown kept (h key old)

theorem Tidy.unregister (h : p.Tidy log) (t : TaskId) :
    Tidy { p with signals := p.signals.unregisterTask t.val } log := by
  intro key member
  obtain ⟨old, other⟩ := SignalState.mem_unregisterTask.mp member
  obtain ⟨sig, seen, live, rfl⟩ := mem_liveKeys.mp (h key old)
  have apart : sig.taskId ≠ t.val := fun own => other (own ▸ signalKey_prefix sig)
  exact mem_liveKeys.mpr
    ⟨sig, seen, (SignalState.hasTask_unregisterTask _ _ _).mpr ⟨apart, live⟩, rfl⟩

/-- The invariant of a timely run. -/
structure Accounted (p : SignalPoller) (log : List Report) : Prop where
  tidy : p.Tidy log
  handling : ∀ sig, p.handling = some sig → .appeared sig ∈ log

theorem Accounted.fresh : Accounted {} [] where
  tidy := by
    intro key member
    cases member
  handling := by
    intro sig given
    cases given

/-- A step that remembers nothing new and unregisters nothing. -/
theorem Accounted.mono {more : List Report} (h : p.Accounted log) (grown : log ⊆ more)
    (kept : ∀ id, p.signals.hasTask id = true → q.signals.hasTask id = true)
    (fewer : q.signals.processed ⊆ p.signals.processed) (same : q.handling = p.handling) :
    q.Accounted more where
  tidy := h.tidy.mono grown kept fewer
  handling := by
    intro sig given
    exact grown (h.handling sig (same ▸ given))

theorem Accounted.visit (h : p.Accounted log) (timely : p.Timely .visits) :
    p.visit.1.Accounted (log ++ p.visit.2) := by
  generalize outcome : p.visit = r
  have visited := p.visit_cases
  rw [outcome] at visited
  have grown : log ⊆ log ++ r.2 := List.subset_append_left _ _
  cases visited with
  | idle => exact h.mono grown (fun _ live => live) (List.Subset.refl _) rfl
  | known free next old => exact h.mono grown (fun _ live => live) (List.Subset.refl _) rfl
  | unregistered free next new absent =>
      rw [timely _ _ free next new] at absent
      cases absent
  | @done sig rest free next new present =>
      refine ⟨?_, fun sig given => grown (h.handling sig given)⟩
      refine h.tidy.mark grown (fun id live => ?_) (by simp) present ?_
      · exact (hasTask_handleSignal p.signals sig id).trans live
      · exact congrArg _ (processed_handleSignal p.signals sig)
  | @posts sig rest free next new present =>
      refine ⟨h.tidy.mono grown (fun id live => ?_) ?_, fun other given => ?_⟩
      · exact (hasTask_handleSignal p.signals sig id).trans live
      · rw [processed_handleSignal]
        exact List.Subset.refl _
      · cases given
        simp

theorem Accounted.step (h : p.Accounted log) {a : Action} (timely : p.Timely a) :
    (p.step a).1.Accounted (log ++ (p.step a).2) := by
  cases a with
  | visits => exact h.visit timely
  | polls result =>
      simp only [SignalPoller.step, List.append_nil, poll]
      split <;> exact ⟨h.tidy, h.handling⟩
  | acknowledges =>
      simp only [SignalPoller.step, List.append_nil, acknowledge]
      split
      · exact h
      · rename_i sig given
        refine ⟨?_, fun other given => by cases given⟩
        exact h.tidy.mark (List.Subset.refl _) (fun _ live => live) (h.handling sig given)
          (timely sig given) rfl
  | registers t =>
      simp only [SignalPoller.step, List.append_nil]
      refine h.mono (List.Subset.refl _) (fun id live => ?_) (List.Subset.refl _) rfl
      exact (SignalState.hasTask_registerTask _ _ _).mpr (.inr live)
  | unregisters t =>
      simp only [SignalPoller.step, List.append_nil]
      exact ⟨h.tidy.unregister t, h.handling⟩
  | pops taskId =>
      refine h.mono (List.subset_append_left _ _) (fun id live => ?_) (List.Subset.refl _) rfl
      exact (SignalState.hasTask_update _ _ _ _).trans live

end tidy

/-- After every timely run the loop remembers keys of registered tasks only, so no
more than appeared for them, and none when no task is registered. -/
theorem processed_signals_bounded (as : List Action) (timely : machine.Along Timely {} as) :
    (machine.run {} as).1.Tidy (machine.run {} as).2 ∧
      (machine.run {} as).1.signals.processed.toFinset.card ≤
        ((machine.run {} as).1.liveKeys (machine.run {} as).2).card ∧
      ((∀ id, (machine.run {} as).1.signals.hasTask id = false) →
        (machine.run {} as).1.signals.processed = []) := by
  have accounted : (machine.run {} as).1.Accounted (machine.run {} as).2 :=
    Machine.run_establishes (fun _ _ _ old timely => old.step timely) .fresh timely
  refine ⟨accounted.tidy, Finset.card_le_card fun key member => ?_, fun none => ?_⟩
  · exact accounted.tidy key (List.mem_toFinset.mp member)
  · refine List.eq_nil_iff_forall_not_mem.mpr fun key member => ?_
    obtain ⟨sig, _, live, _⟩ := mem_liveKeys.mp (accounted.tidy key member)
    rw [none] at live
    cases live

namespace Demo

theorem taskA_plain : ':' ∉ "task-a".toList := by decide

def taskA : TaskId := ⟨"task-a", taskA_plain⟩

def stop : Signal where
  taskId := "task-a"
  signalType := .cancelRequested
  timestamp := "2026-01-01T00:00:00+00:00"
  payload := none

def inTime : List Action :=
  [.registers taskA, .polls (some [stop]), .visits, .acknowledges, .unregisters taskA]

/-- The service sends the signal to a sidecar that has no such task any more. -/
def tooLate : List Action := [.polls (some [stop]), .visits]

theorem inTime_timely : machine.Along Timely {} inTime := by
  refine ⟨trivial, trivial, fun sig rest _ next _ => ?_, fun sig given => ?_, trivial, trivial⟩
  · cases next
    rfl
  · cases given
    rfl

end Demo

theorem processed_signals_bounded_inTime :
    (machine.run {} Demo.inTime).1.Tidy (machine.run {} Demo.inTime).2 ∧
      (machine.run {} Demo.inTime).1.signals.processed.toFinset.card ≤
        ((machine.run {} Demo.inTime).1.liveKeys (machine.run {} Demo.inTime).2).card ∧
      ((∀ id, (machine.run {} Demo.inTime).1.signals.hasTask id = false) →
        (machine.run {} Demo.inTime).1.signals.processed = []) :=
  processed_signals_bounded Demo.inTime Demo.inTime_timely

/-- The key stays although no task is registered. -/
theorem processed_key_leaks :
    ¬ (machine.run {} Demo.tooLate).1.Tidy (machine.run {} Demo.tooLate).2 ∧
      (machine.run {} Demo.tooLate).1.signals.processed = [signalKey Demo.stop] ∧
      ∀ id, (machine.run {} Demo.tooLate).1.signals.hasTask id = false := by
  have nothing : ∀ id, (machine.run {} Demo.tooLate).1.signals.hasTask id = false := fun _ => rfl
  refine ⟨fun tidy => ?_, rfl, nothing⟩
  obtain ⟨sig, _, live, _⟩ := mem_liveKeys.mp (tidy (signalKey Demo.stop) List.mem_cons_self)
  rw [nothing] at live
  cases live

end SignalPoller
end Fleet.Agent
