/- What the signal poller does for one task between its registration and its
   unregistration: each signal once, the pause as last asked for, the contexts in order. -/
import Mathlib.Data.List.Induction
import Fleet.Agent.SignalPolling

namespace Fleet.Agent.SignalPoller
open Fleet.Lib

/-! ## First appearances -/

theorem eraseDups_concat {α : Type} [BEq α] [LawfulBEq α] [DecidableEq α] (l : List α) (a : α) :
    (l ++ [a]).eraseDups = if a ∈ l then l.eraseDups else l.eraseDups ++ [a] := by
  rw [List.eraseDups_append]
  by_cases old : a ∈ l
  · simp [List.removeAll, old]
  · simp [List.removeAll, old, List.eraseDups_cons]

theorem sublist_eraseDups_concat {α : Type} [BEq α] [LawfulBEq α] [DecidableEq α] {chosen l : List α}
    (h : chosen.Sublist l.eraseDups) (a : α) : chosen.Sublist (l ++ [a]).eraseDups := by
  rw [eraseDups_concat]
  split
  · exact h
  · exact h.trans (List.sublist_append_left _ _)

theorem nodup_eraseDups {α : Type} [BEq α] [LawfulBEq α] [DecidableEq α] (l : List α) :
    l.eraseDups.Nodup := by
  induction l using List.reverseRecOn with
  | nil => exact List.nodup_nil
  | append_singleton l a ih =>
      rw [eraseDups_concat]
      split
      · exact ih
      · rename_i fresh
        refine ih.append (List.nodup_singleton a) ?_
        rw [List.disjoint_singleton, List.mem_eraseDups]
        exact fresh

/-! ## The share of one task -/

def appearedFor (id : String) (log : List Report) : List Signal :=
  (appeared log).filter fun sig => sig.taskId = id

def handledFor (id : String) : List Report → List Signal :=
  List.filterMap fun
    | .handled sig => if sig.taskId = id then some sig else none
    | .appeared _ | .popped _ _ => none

def poppedFor (id : String) : List Report → List Dict :=
  List.flatMap fun
    | .popped taskId contexts => if taskId = id then contexts else []
    | .appeared _ | .handled _ => []

/-- The last of the signals that pause, resume, cancel or redirect. -/
def lastSwitch (sigs : List Signal) : Option SignalType :=
  ((sigs.map Signal.signalType).filter fun t => t ≠ .contextInjection).getLast?

def payloads (sigs : List Signal) : List Dict :=
  (sigs.filter fun sig => sig.signalType = .contextInjection).map fun sig => sig.payload.getD []

/-- Since the log began, the signals of the task took effect once each, in the order
in which they first appeared. -/
structure Exact (id : String) (p : SignalPoller) (log : List Report) : Prop where
  once : ((handledFor id log).map signalKey).Nodup
  order : ((handledFor id log).map signalKey).Sublist ((appearedFor id log).map signalKey).eraseDups
  paused : p.signals.isPaused id = true ↔ lastSwitch (handledFor id log) = some .pauseRequested
  contexts : poppedFor id log ++ p.signals.queued id = payloads (handledFor id log)

section share
variable {id : String} {log new : List Report}

theorem appearedFor_append : appearedFor id (log ++ new) = appearedFor id log ++ appearedFor id new := by
  rw [appearedFor, appeared, List.filterMap_append, List.filter_append]
  rfl

theorem handledFor_append : handledFor id (log ++ new) = handledFor id log ++ handledFor id new :=
  List.filterMap_append

theorem poppedFor_append : poppedFor id (log ++ new) = poppedFor id log ++ poppedFor id new :=
  List.flatMap_append

theorem lastSwitch_concat (sigs : List Signal) (sig : Signal) : lastSwitch (sigs ++ [sig]) =
    if sig.signalType = .contextInjection then lastSwitch sigs else some sig.signalType := by
  unfold lastSwitch
  rw [List.map_append, List.filter_append]
  split
  · rename_i context
    simp [context]
  · rename_i switches
    simp [switches]

theorem payloads_concat (sigs : List Signal) (sig : Signal) : payloads (sigs ++ [sig]) =
    payloads sigs ++ if sig.signalType = .contextInjection then [sig.payload.getD []] else [] := by
  unfold payloads
  rw [List.filter_append, List.map_append]
  split
  · rename_i context
    simp [context]
  · rename_i switches
    simp [switches]

end share

/-! ## The invariant -/

structure Shows (e : TaskSignals) (sigs : List Signal) (popped : List Dict) : Prop where
  paused : e.paused = true ↔ lastSwitch sigs = some .pauseRequested
  contexts : popped ++ e.context = payloads sigs

theorem Shows.handle {e : TaskSignals} {sigs : List Signal} {popped : List Dict} (h : Shows e sigs popped)
    (sig : Signal) :
    Shows (runHandler (sig.payload.getD []) e (handlerFor sig.signalType)).1 (sigs ++ [sig]) popped where
  paused := by
    rw [runHandler_paused, lastSwitch_concat]
    split
    · exact h.paused
    · rw [decide_eq_true_iff, Option.some.injEq]
  contexts := by
    rw [runHandler_context, payloads_concat, ← h.contexts]
    split
    · rw [List.append_assoc]
    · rw [List.append_nil]

theorem Shows.pop {e : TaskSignals} {sigs : List Signal} {popped : List Dict} (h : Shows e sigs popped) :
    Shows { e with context := [] } sigs (popped ++ e.context) where
  paused := h.paused
  contexts := by rw [List.append_nil, h.contexts]

/-- The task is registered, its entry shows what was handled, and of the signals that
appeared every key is remembered or about to be. -/
structure Tracked (t : TaskId) (p : SignalPoller) (log : List Report) : Prop where
  entry : ∃ e, p.signals.entry? t.val = some e ∧ Shows e (handledFor t.val log) (poppedFor t.val log)
  order : ((handledFor t.val log).map signalKey).Sublist
    ((appearedFor t.val log).map signalKey).eraseDups
  settled : ∀ sig ∈ appearedFor t.val log, signalKey sig ∈ p.signals.processed ∨ p.handling = some sig

namespace Tracked
variable {t : TaskId} {p q : SignalPoller} {log new : List Report}

theorem exact (h : Tracked t p log) : Exact t.val p log := by
  obtain ⟨e, found, shows'⟩ := h.entry
  refine ⟨h.order.nodup (nodup_eraseDups _), h.order, ?_, ?_⟩
  · rw [SignalState.isPaused, found]
    exact shows'.paused
  · rw [SignalState.queued, found]
    exact shows'.contexts

theorem registered (h : Tracked t p log) : p.signals.hasTask t.val = true := by
  obtain ⟨e, found, _⟩ := h.entry
  rw [SignalState.hasTask, found]
  rfl

theorem of_quiet (h : Tracked t p log) (appears : appearedFor t.val new = [])
    (handles : handledFor t.val new = []) (pops : poppedFor t.val new = [])
    (entry : q.signals.entry? t.val = p.signals.entry? t.val)
    (settled : ∀ sig ∈ appearedFor t.val log, signalKey sig ∈ q.signals.processed ∨ q.handling = some sig) :
    Tracked t q (log ++ new) where
  entry := by
    rw [entry, handledFor_append, handles, List.append_nil, poppedFor_append, pops, List.append_nil]
    exact h.entry
  order := by
    rw [handledFor_append, handles, List.append_nil, appearedFor_append, appears, List.append_nil]
    exact h.order
  settled := by
    rw [appearedFor_append, appears, List.append_nil]
    exact settled

theorem handle (h : Tracked t p log) {sig : Signal} (own : sig.taskId = t.val) (free : p.handling = none)
    (fresh : signalKey sig ∉ p.signals.processed)
    (entry : q.signals.entry? t.val = SignalState.entry? (handleSignal p.signals sig).1 t.val)
    (old : p.signals.processed ⊆ q.signals.processed)
    (last : signalKey sig ∈ q.signals.processed ∨ q.handling = some sig) :
    Tracked t q (log ++ [.appeared sig, .handled sig]) := by
  have appears : appearedFor t.val [.appeared sig, .handled sig] = [sig] := by
    simp [appearedFor, appeared, own]
  have handles : handledFor t.val [.appeared sig, .handled sig] = [sig] := by simp [handledFor, own]
  have before : ∀ other ∈ appearedFor t.val log, signalKey other ∈ p.signals.processed := by
    intro other member
    refine (h.settled other member).resolve_right fun handling => ?_
    rw [free] at handling
    cases handling
  refine ⟨?_, ?_, fun other member => ?_⟩
  · obtain ⟨e, found, shows'⟩ := h.entry
    refine ⟨(runHandler (sig.payload.getD []) e (handlerFor sig.signalType)).1, ?_, ?_⟩
    · rw [entry, entry?_handleSignal, own, if_pos rfl, found]
      rfl
    · have pops : poppedFor t.val [.appeared sig, .handled sig] = [] := rfl
      rw [handledFor_append, handles, poppedFor_append, pops, List.append_nil]
      exact shows'.handle sig
  · have first : signalKey sig ∉ (appearedFor t.val log).map signalKey := by
      rintro again
      obtain ⟨other, member, same⟩ := List.mem_map.mp again
      exact fresh (same ▸ before other member)
    rw [handledFor_append, handles, appearedFor_append, appears, List.map_append, List.map_append,
      List.map_singleton, eraseDups_concat, if_neg first]
    exact h.order.append (List.Sublist.refl _)
  · rw [appearedFor_append, appears] at member
    rcases List.mem_append.mp member with earlier | now
    · exact .inl (old (before other earlier))
    · rw [List.mem_singleton.mp now]
      exact last

theorem reappear (h : Tracked t p log) {sig : Signal} (old : signalKey sig ∈ p.signals.processed)
    (rest : List Signal) : Tracked t { p with queue := rest } (log ++ [.appeared sig]) := by
  by_cases own : sig.taskId = t.val
  · have appears : appearedFor t.val [.appeared sig] = [sig] := by simp [appearedFor, appeared, own]
    have quiet : handledFor t.val [.appeared sig] = [] ∧ poppedFor t.val [.appeared sig] = [] := ⟨rfl, rfl⟩
    refine ⟨?_, ?_, fun other member => ?_⟩
    · rw [handledFor_append, quiet.1, List.append_nil, poppedFor_append, quiet.2, List.append_nil]
      exact h.entry
    · rw [handledFor_append, quiet.1, List.append_nil, appearedFor_append, appears, List.map_append]
      exact sublist_eraseDups_concat h.order _
    · rw [appearedFor_append, appears] at member
      rcases List.mem_append.mp member with earlier | now
      · exact h.settled other earlier
      · rw [List.mem_singleton.mp now]
        exact .inl old
  · exact h.of_quiet (by simp [appearedFor, appeared, own]) rfl rfl rfl h.settled

theorem visit (h : Tracked t p log) : Tracked t p.visit.1 (log ++ p.visit.2) := by
  generalize outcome : p.visit = r
  have visited := p.visit_cases
  rw [outcome] at visited
  cases visited with
  | idle => exact h.of_quiet rfl rfl rfl rfl h.settled
  | known free next old => exact h.reappear old _
  | @unregistered sig rest free next fresh absent =>
      have other : sig.taskId ≠ t.val := by
        intro own
        rw [own, h.registered] at absent
        cases absent
      refine h.of_quiet (by simp [appearedFor, appeared, other]) rfl rfl rfl fun sig member => ?_
      exact (h.settled sig member).imp_left (List.mem_cons_of_mem _)
  | @done sig rest free next fresh present =>
      by_cases own : sig.taskId = t.val
      · refine h.handle own free fresh rfl ?_ (.inl List.mem_cons_self)
        rw [← processed_handleSignal p.signals sig]
        exact List.subset_cons_self _ _
      · refine h.of_quiet (by simp [appearedFor, appeared, own]) (by simp [handledFor, own]) rfl ?_
          fun sig member => (h.settled sig member).imp_left fun old => List.mem_cons_of_mem _ ?_
        · exact (entry?_handleSignal p.signals sig t.val).trans (if_neg (Ne.symm own))
        · rw [processed_handleSignal]
          exact old
  | @posts sig rest free next fresh present =>
      by_cases own : sig.taskId = t.val
      · refine h.handle own free fresh rfl ?_ (.inr rfl)
        rw [processed_handleSignal]
        exact List.Subset.refl _
      · refine h.of_quiet (by simp [appearedFor, appeared, own]) (by simp [handledFor, own]) rfl ?_
          fun sig member => ?_
        · exact (entry?_handleSignal p.signals sig t.val).trans (if_neg (Ne.symm own))
        · refine .inl ((processed_handleSignal p.signals _).symm ▸ (h.settled sig member).resolve_right ?_)
          rw [free]
          exact fun handling => by cases handling

theorem pop (h : Tracked t p log) : Tracked t { p with signals := (p.signals.popContext t.val).2 }
    (log ++ [.popped t.val (p.signals.popContext t.val).1]) := by
  obtain ⟨e, found, shows'⟩ := h.entry
  have takes : poppedFor t.val [.popped t.val (p.signals.popContext t.val).1] = e.context := by
    rw [poppedFor, List.flatMap_singleton, SignalState.popContext, found]
    exact if_pos rfl
  have quiet : handledFor t.val [.popped t.val (p.signals.popContext t.val).1] = [] ∧
      appearedFor t.val [.popped t.val (p.signals.popContext t.val).1] = [] := ⟨rfl, rfl⟩
  refine ⟨⟨{ e with context := [] }, ?_, ?_⟩, ?_, ?_⟩
  · rw [SignalState.popContext, SignalState.entry?_update, if_pos rfl, found]
    rfl
  · rw [handledFor_append, quiet.1, List.append_nil, poppedFor_append, takes]
    exact shows'.pop
  · rw [handledFor_append, quiet.1, List.append_nil, appearedFor_append, quiet.2, List.append_nil]
    exact h.order
  · rw [appearedFor_append, quiet.2, List.append_nil]
    exact h.settled

theorem step (h : Tracked t p log) {a : Action} (during : a ≠ .registers t ∧ a ≠ .unregisters t) :
    Tracked t (p.step a).1 (log ++ (p.step a).2) := by
  cases a with
  | visits => exact h.visit
  | polls result =>
      refine h.of_quiet rfl rfl rfl ?_ fun sig member => ?_ <;>
        simp only [SignalPoller.step, poll] <;> split
      · rfl
      · rfl
      · exact h.settled sig member
      · exact h.settled sig member
  | acknowledges =>
      refine h.of_quiet rfl rfl rfl ?_ fun sig member => ?_ <;>
        simp only [SignalPoller.step, acknowledge] <;> split
      · rfl
      · rfl
      · exact h.settled sig member
      · rename_i current given
        refine .inl ((h.settled sig member).elim (List.mem_cons_of_mem _) fun handling => ?_)
        rw [given, Option.some.injEq] at handling
        rw [handling]
        exact List.mem_cons_self
  | registers u =>
      have other : t.val ≠ u.val := fun same => during.1 (congrArg _ (TaskId.ext same.symm))
      refine h.of_quiet rfl rfl rfl ?_ h.settled
      exact (SignalState.entry?_registerTask _ _ _).trans (if_neg other)
  | unregisters u =>
      have other : u.val ≠ t.val := fun same => during.2 (congrArg _ (TaskId.ext same))
      refine h.of_quiet rfl rfl rfl ?_ fun sig member => (h.settled sig member).imp_left fun old => ?_
      · exact (SignalState.entry?_unregisterTask _ _ _).trans (if_neg (Ne.symm other))
      · have own : sig.taskId = t.val := by simpa using (List.mem_filter.mp member).2
        exact SignalState.mem_unregisterTask.mpr ⟨old, fun start => other (TaskId.eq_of_prefix own start)⟩
  | pops taskId =>
      by_cases own : taskId = t.val
      · subst own
        exact h.pop
      · refine h.of_quiet rfl rfl ?_ ?_ h.settled
        · rw [poppedFor, SignalPoller.step, List.flatMap_singleton]
          exact if_neg own
        · exact (SignalState.entry?_update _ _ _ _).trans (if_neg (Ne.symm own))

theorem registered_task (p : SignalPoller) (t : TaskId) :
    Tracked t { p with signals := p.signals.registerTask t.val } [] where
  entry := ⟨{}, (SignalState.entry?_registerTask _ _ _).trans (if_pos rfl),
    ⟨by simp [handledFor, lastSwitch], rfl⟩⟩
  order := List.Sublist.refl []
  settled := by
    intro sig member
    cases member

end Tracked

/-- Between the registration of a task and its unregistration its signals take effect
exactly, whatever else happens meanwhile. -/
theorem signals_handled_exactly (before as : List Action) (t : TaskId)
    (during : ∀ a ∈ as, a ≠ .registers t ∧ a ≠ .unregisters t) :
    Exact t.val (machine.run (machine.run {} (before ++ [.registers t])).1 as).1
      (machine.run (machine.run {} (before ++ [.registers t])).1 as).2 := by
  rw [Machine.run_snoc]
  have tracked := Machine.run_establishes (M := machine) (I := Tracked t)
    (P := fun _ a => a ≠ .registers t ∧ a ≠ .unregisters t) (fun _ _ _ old during => old.step during)
    (.registered_task (machine.run {} before).1 t) (Machine.along_of_forall (fun a member _ => during a member) _)
  exact tracked.exact

namespace Demo

def signal (signalType : SignalType) (second : String) (payload : Option Dict) : Signal where
  taskId := "task-a"
  signalType
  timestamp := "2026-01-01T00:00:" ++ second ++ "+00:00"
  payload

/-- The service repeats a pause and a context while they wait. -/
def asked : List Signal :=
  [signal .pauseRequested "01" none, signal .contextInjection "02" (some [("payload", .str "late")])]

def repeated : List Action :=
  [.polls (some asked), .visits, .pops "task-a", .acknowledges, .visits, .polls (some asked), .visits, .visits]

theorem repeated_during : ∀ a ∈ repeated, a ≠ .registers taskA ∧ a ≠ .unregisters taskA := by
  simp [repeated]

end Demo

theorem signals_handled_exactly_repeated :
    Exact "task-a" (machine.run (machine.run {} ([] ++ [.registers Demo.taskA])).1 Demo.repeated).1
      (machine.run (machine.run {} ([] ++ [.registers Demo.taskA])).1 Demo.repeated).2 :=
  signals_handled_exactly [] Demo.repeated Demo.taskA Demo.repeated_during

end Fleet.Agent.SignalPoller
