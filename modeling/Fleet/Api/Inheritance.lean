/- What a task inherits along the retasks and redirects that lead to it. -/
import Mathlib.Data.List.Chain
import Fleet.Api.Creation

namespace Fleet.Api
open Fleet.Lib

/-! ## What the calls hand over -/

namespace Op

def continues? : Op → Option String
  | retaskTask _ _ req => some req.taskId
  | redirectTask _ _ req => some req.taskId
  | _ => none

/-- The whole input that a creation or a redirect gives. -/
def given? : Op → Option Dict
  | createTask _ _ req => some req.input
  | redirectTask _ _ req => some req.newInput
  | _ => none

def additional : Op → Dict
  | retaskTask _ _ req => req.refinement.additionalInput.getD []
  | _ => []

/-- The priority a call asks for instead of the inherited one. -/
def override? : Op → Option String
  | retaskTask _ _ req => req.priority
  | redirectTask _ _ req => req.priority
  | _ => none

def creates : Op → Bool
  | createTask _ _ _ => true
  | _ => false

end Op

/-- What is stored with a task that continues another. -/
structure Succeeds (op : Op) (parent next : Task) : Prop where
  input : next.input = (op.given?).getD (Dict.update parent.input op.additional)
  timeout : next.timeoutSeconds = parent.timeoutSeconds
  delegation : next.delegationDepth = parent.delegationDepth
  priority : resolvePriority op.override? parent.priority = .ok next.priority

section outcome
variable {env : Env} {op : Op} {s s' : Store} {r : Except Failure Answer} {t : Task}

theorem Outcome.created_stored (h : Outcome env s op r s') (answers : created? r = some t) :
    s.tasks.find? t.id = none ∧ s'.tasks.find? t.id = some t := by
  have succeeds : ∀ {task next : Task} {status at' e created}, s.tasks.find? task.id = some task →
      Store.flush (succession task next status at' e created) s = .ok s' →
      s.tasks.find? next.id = none ∧ s'.tasks.find? next.id = some next := by
    intro task next status at' e created stored committed
    have absent := new_absent committed (succession_current stored) rfl
    have apart : task.id ≠ next.id := by
      intro same
      rw [← same, stored] at absent
      cases absent
    refine ⟨absent, ?_⟩
    rw [find?_succession stored committed, if_neg apart, if_pos rfl]
  cases h with
  | created clk hex req task workflow s' unused requested committed =>
      cases answers
      refine ⟨new_absent committed (fun _ _ none => by cases none) rfl, ?_⟩
      rw [find?_new committed, if_pos rfl]
  | retasked _ _ _ _ _ _ _ _ admitted _ _ _ _ _ _ committed =>
      cases answers
      exact succeeds admitted.loaded committed
  | redirected _ _ _ _ _ _ _ _ admitted _ _ _ _ _ _ committed =>
      cases answers
      exact succeeds admitted.loaded committed
  | refused | createReplayed | retaskReplayed | redirectReplayed => cases answers
  | cancelled | paused | resumed | expired | injected | recorded => cases answers

/-- A task that continues another inherits from the row stored at that moment. -/
theorem Outcome.continues (h : Outcome env s op r s') (answers : created? r = some t) {id : String}
    (continues : op.continues? = some id) :
    ∃ parent, s.tasks.find? id = some parent ∧ Succeeds op parent t := by
  cases h with
  | retasked _ _ _ task priority _ _ _ admitted _ _ _ resolved _ _ _ =>
      cases answers
      cases continues
      exact ⟨task, admitted.stored, rfl, rfl, rfl, resolved⟩
  | redirected _ _ _ task priority _ _ _ admitted _ _ _ resolved _ _ _ =>
      cases answers
      cases continues
      exact ⟨task, admitted.stored, rfl, rfl, rfl, resolved⟩
  | created | cancelled | paused | resumed | expired | injected | recorded => cases continues
  | refused | createReplayed | retaskReplayed | redirectReplayed => cases answers

theorem Outcome.root_input (h : Outcome env s op r s') (answers : created? r = some t)
    (creates : op.creates = true) : op.given? = some t.input := by
  cases h with
  | created _ _ _ _ _ _ _ requested =>
      cases answers
      exact congrArg some requested.input.symm
  | retasked | redirected | cancelled | paused | resumed | expired | injected | recorded => cases creates
  | refused | createReplayed | retaskReplayed | redirectReplayed => cases answers

end outcome

/-! ## Chains -/

/-- A call, the store it was served at and the task it created. -/
structure Link where
  op : Op
  before : Store
  task : Task

def Link.MadeIn (env : Env) (s : Store) (steps : List Step) (l : Link) : Prop :=
  ∃ earlier later, steps = earlier ++ .op l.op :: later ∧ l.before = runSteps env earlier s ∧
    created? (l.op.exec env l.before).1 = some l.task

/-- A root and the tasks that continue it one after the other, whatever the run does in
between. -/
structure Lineage (env : Env) (s : Store) (steps : List Step) (chain : List Link) : Prop where
  made : ∀ l ∈ chain, l.MadeIn env s steps
  root : ∀ l, chain.head? = some l → l.op.creates = true
  linked : chain.IsChain fun a b => b.op.continues? = some a.task.id

/-- The second task was made from the first as it was stored then. -/
structure Inherits (a b : Link) : Prop where
  input : b.task.input = (b.op.given?).getD (Dict.update a.task.input b.op.additional)
  timeout : b.task.timeoutSeconds = a.task.timeoutSeconds
  delegation : b.task.delegationDepth = a.task.delegationDepth
  priority : ∃ parent, b.before.tasks.find? a.task.id = some parent ∧
    (b.op.override? = none → b.task.priority = parent.priority)

/-- The given input with the additional inputs laid over it, from left to right. -/
structure Overlay (given : Dict) (additions : List Dict) (input : Dict) : Prop where
  whole : input = additions.foldl Dict.update given
  keys : ∀ k, input.get? k = (additions.reverse.findSome? fun e => e.last? k).or (given.get? k)

/-- The input is what the root or the last redirect gave, overlaid by the retasks after it. -/
def Composed (chain : List Link) (input : Dict) : Prop :=
  ∃ front start later given, chain = front ++ start :: later ∧ start.op.given? = some given ∧
    (∀ l ∈ later, l.op.given? = none) ∧ Overlay given (later.map fun l => l.op.additional) input

section chain
variable {env : Env} {s : Store} {steps : List Step} {a b l : Link} {chain : List Link}

theorem Link.MadeIn.stored (h : l.MadeIn env s steps) :
    ∃ t, (runSteps env steps s).tasks.find? l.task.id = some t ∧ Task.SameOrigin l.task t := by
  obtain ⟨earlier, later, rfl, at', answers⟩ := h
  obtain ⟨-, now⟩ := (l.op.exec_outcome env l.before).created_stored answers
  rw [runSteps_append, ← at']
  exact runSteps_keeps later now

theorem Link.MadeIn.parent (h : a.MadeIn env s steps) (k : b.MadeIn env s steps) {parent : Task}
    (stored : b.before.tasks.find? a.task.id = some parent) : Task.SameOrigin a.task parent := by
  obtain ⟨earlier, later, split, at', answers⟩ := h
  obtain ⟨earlier', later', split', at'', -⟩ := k
  obtain ⟨absent, now⟩ := (a.op.exec_outcome env a.before).created_stored answers
  rcases List.append_eq_append_iff.mp (split.symm.trans split') with
    ⟨between, rest, shape⟩ | ⟨between, rest, shape⟩
  · cases between with
    | nil =>
        rw [List.append_nil] at rest
        rw [at'', rest, ← at', absent] at stored
        cases stored
    | cons step between =>
        obtain ⟨rfl, -⟩ := List.cons.inj shape
        obtain ⟨t, kept, origin⟩ := @runSteps_keeps env between _ _ _ now
        rw [at'', rest, runSteps_append, ← at'] at stored
        cases kept.symm.trans stored
        exact origin
  · -- a row that was stored when `b` was served would still be stored when `a` was made
    obtain ⟨t, kept, -⟩ := @runSteps_keeps env between _ _ _ stored
    rw [at'', ← runSteps_append, ← rest, ← at', absent] at kept
    cases kept

theorem Link.MadeIn.inherits (h : a.MadeIn env s steps) (k : b.MadeIn env s steps)
    (linked : b.op.continues? = some a.task.id) : Inherits a b := by
  obtain ⟨_, _, _, _, answers⟩ := id k
  obtain ⟨parent, stored, continues⟩ := (b.op.exec_outcome env b.before).continues answers linked
  have origin := h.parent k stored
  refine ⟨origin.input ▸ continues.input, continues.timeout.trans origin.timeout,
    continues.delegation.trans origin.delegation, parent, stored, fun inherited => ?_⟩
  have resolved := continues.priority
  rw [inherited] at resolved
  exact (Except.ok.inj resolved).symm

theorem Lineage.inherits (h : Lineage env s steps chain) : chain.IsChain Inherits := by
  obtain ⟨made, -, linked⟩ := h
  induction chain with
  | nil => exact .nil
  | cons a rest ih =>
      cases linked with
      | singleton => exact .singleton a
      | cons_cons first later =>
          have tail := ih (fun l member => made l (List.mem_cons_of_mem a member)) later
          exact .cons_cons ((made a List.mem_cons_self).inherits
            (made _ (List.mem_cons_of_mem a List.mem_cons_self)) first) tail

/-! ## How the inputs compose -/

theorem Overlay.start (given : Dict) : Overlay given [] given := ⟨rfl, fun _ => rfl⟩

theorem Overlay.extend {given input : Dict} {additions : List Dict} (h : Overlay given additions input)
    (e : Dict) : Overlay given (additions ++ [e]) (input.update e) := by
  have whole : input.update e = (additions ++ [e]).foldl Dict.update given := by
    rw [List.foldl_append, ← h.whole]
    rfl
  exact ⟨whole, fun k => whole ▸ Dict.get?_updates given (additions ++ [e]) k⟩

theorem Composed.link (h : Composed chain a.task.input) (inherits : Inherits a b) :
    Composed (chain ++ [b]) b.task.input := by
  rw [inherits.input]
  cases gives : b.op.given? with
  | some given => exact ⟨chain, b, [], given, rfl, gives, (fun _ none => by cases none), .start given⟩
  | none =>
      obtain ⟨front, start, later, given, rfl, gave, retasks, overlay⟩ := h
      refine ⟨front, start, later ++ [b], given, by simp, gave, fun l member => ?_, ?_⟩
      · rcases List.mem_append.mp member with old | new
        · exact retasks l old
        · exact List.mem_singleton.mp new ▸ gives
      · rw [List.map_append]
        exact overlay.extend b.op.additional

/-- Induction along the rest of a chain, with what has been composed so far. -/
theorem Composed.along {front rest : List Link} (h : Composed (front ++ [a]) a.task.input)
    (inherits : (a :: rest).IsChain Inherits) {last : Link} (ends : (a :: rest).getLast? = some last) :
    Composed (front ++ a :: rest) last.task.input := by
  induction rest generalizing front a with
  | nil =>
      cases ends
      exact h
  | cons b rest ih =>
      cases inherits with
      | cons_cons first later =>
          rw [List.getLast?_cons_cons] at ends
          have next := ih (h.link first) later ends
          rwa [List.append_assoc] at next

theorem inherits_limits {root : Link} (inherits : (root :: chain).IsChain Inherits) :
    ∀ l ∈ root :: chain, l.task.timeoutSeconds = root.task.timeoutSeconds ∧
      l.task.delegationDepth = root.task.delegationDepth := by
  induction chain generalizing root with
  | nil =>
      intro l member
      rw [List.mem_singleton.mp member]
      exact ⟨rfl, rfl⟩
  | cons b rest ih =>
      cases inherits with
      | cons_cons first later =>
          intro l member
          rcases List.mem_cons.mp member with rfl | tail
          · exact ⟨rfl, rfl⟩
          · obtain ⟨timeout, delegation⟩ := ih later l tail
            exact ⟨timeout.trans first.timeout, delegation.trans first.delegation⟩

end chain

/-- What is stored at the end of a run of the tasks of a lineage. -/
structure Inherited (env : Env) (s : Store) (steps : List Step) (chain : List Link) : Prop where
  composed : ∀ last, chain.getLast? = some last → ∃ t,
    (runSteps env steps s).tasks.find? last.task.id = some t ∧ Composed chain t.input
  kept : ∀ l ∈ chain, ∃ t, (runSteps env steps s).tasks.find? l.task.id = some t ∧
    t.input = l.task.input ∧ ∀ root, chain.head? = some root →
      t.timeoutSeconds = root.task.timeoutSeconds ∧ t.delegationDepth = root.task.delegationDepth
  priority : chain.IsChain fun a b => b.op.override? = none → ∃ parent,
    b.before.tasks.find? a.task.id = some parent ∧ b.task.priority = parent.priority

/-- Inputs compose along every lineage of every run. -/
theorem lineage_inherits {env : Env} {s : Store} {steps : List Step} {chain : List Link}
    (lineage : Lineage env s steps chain) : Inherited env s steps chain := by
  have inherits := lineage.inherits
  refine ⟨fun last ends => ?_, fun l member => ?_, inherits.imp fun a b h inherited => ?_⟩
  · obtain ⟨t, stored, origin⟩ := (lineage.made last (List.mem_of_getLast? ends)).stored
    refine ⟨t, stored, ?_⟩
    rw [origin.input]
    cases chain with
    | nil => cases ends
    | cons root rest =>
        obtain ⟨_, _, _, _, answers⟩ := lineage.made root List.mem_cons_self
        have gave := (root.op.exec_outcome env root.before).root_input answers (lineage.root root rfl)
        have start : Composed ([] ++ [root]) root.task.input :=
          ⟨[], root, [], _, rfl, gave, (fun _ none => by cases none), .start _⟩
        exact start.along inherits ends
  · obtain ⟨t, stored, origin⟩ := (lineage.made l member).stored
    refine ⟨t, stored, origin.input, fun root first => ?_⟩
    rw [origin.timeout, origin.delegation]
    cases chain with
    | nil => cases member
    | cons root' rest =>
        cases first
        exact inherits_limits inherits l member
  · obtain ⟨parent, stored, same⟩ := h.priority
    exact ⟨parent, stored, same inherited⟩

namespace Demo

def ask : Op := .createTask (at' 0) "a"
  { workflowId := "wf", callerAgentId := "principal", input := [("goal", .str "draft")] }

def turnTo : Op := .redirectTask (at' 2) "b"
  { workflowId := "wf", taskId := "task-a", callerAgentId := "principal", reason := "wrong goal"
    newInput := [("goal", .str "summary"), ("pages", .num 1)] }

def refine : Op := .retaskTask (at' 5) "c"
  { workflowId := "wf", taskId := "task-b", callerAgentId := "principal"
    refinement := { message := "longer", additionalInput := some [("pages", .num 2)] } }

/-- A task is redirected while it runs, and the next one is retasked when it is completed. -/
def reworked : List Step := [
  .op ask, .op (post 1 "task-a" "status" [("status", .str "running")] 2), .op turnTo,
  .op (post 3 "task-b" "status" [("status", .str "running")] 2), .op (post 4 "task-b" "completed" [] 3),
  .op refine]

def linkAt (earlier : List Step) (op : Op) : Option Link :=
  (created? (op.exec env (runSteps env earlier store)).1).map fun task =>
    ⟨op, runSteps env earlier store, task⟩

def reworkedChain : List Link :=
  [linkAt [] ask, linkAt (reworked.take 2) turnTo, linkAt (reworked.take 5) refine].filterMap id

theorem linkAt_made {earlier later : List Step} {op : Op} {l : Link} (h : linkAt earlier op = some l)
    (split : reworked = earlier ++ .op op :: later) : l.MadeIn env store reworked := by
  obtain ⟨task, answers, rfl⟩ := Option.map_eq_some_iff.mp h
  exact ⟨earlier, later, split, rfl, answers⟩

theorem reworked_lineage : Lineage env store reworked reworkedChain := by
  refine ⟨fun l member => ?_, fun l first => ?_, by decide +kernel⟩
  · obtain ⟨found, member, here⟩ := List.mem_filterMap.mp member
    simp only [List.mem_cons, List.not_mem_nil, or_false] at member
    rcases member with rfl | rfl | rfl
    · exact linkAt_made here rfl
    · exact linkAt_made here rfl
    · exact linkAt_made here rfl
  · have creates : ∀ l ∈ reworkedChain.head?, l.op.creates = true := by decide +kernel
    exact creates l first

end Demo

theorem lineage_inherits_reworked : Inherited Demo.env Demo.store Demo.reworked Demo.reworkedChain :=
  lineage_inherits Demo.reworked_lineage

example : Demo.reworkedChain.map (fun l => l.task.input) =
    [[("goal", .str "draft")], [("goal", .str "summary"), ("pages", .num 1)],
      [("goal", .str "summary"), ("pages", .num 2)]] := by
  decide +kernel

end Fleet.Api
