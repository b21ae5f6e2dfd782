/- Requests interleaved statement by statement, late commits included: each commits at most
   once, what it was answered is kept, and the keys stay sound. -/
import Fleet.Api.Receipts
import Fleet.Api.Interleaving

namespace Fleet.Api
open Fleet.Lib

/-! ## Stores that only grow -/

/-- Rows keep the columns set at their creation, the log is only appended to. -/
structure Grows (s s' : Store) : Prop where
  rows : Persists s s'
  log : s.events.rows <+: s'.events.rows

namespace Grows

theorem refl (s : Store) : Grows s s := ⟨.refl s, List.prefix_refl _⟩

theorem trans (a b c : Store) (h : Grows a b) (k : Grows b c) : Grows a c :=
  ⟨Persists.trans a b c h.rows k.rows, h.log.trans k.log⟩

theorem flush (w : Work) (s s' : Store) (h : Store.flush w s = .ok s') : Grows s s' := by
  obtain ⟨_, _, _, _, _, events⟩ := Store.flush_ok h
  exact ⟨.flush h, events ▸ List.prefix_append _ _⟩

theorem event {s s' : Store} (h : Grows s s') {e : TaskEvent} (member : e ∈ s.events) : e ∈ s'.events :=
  h.log.subset member

theorem row {s s' : Store} (h : Grows s s') {t : Task} (member : t ∈ s.tasks) :
    ∃ t' ∈ s'.tasks, Task.SameOrigin t t' := by
  obtain ⟨t', found, origin⟩ := h.rows t.id t (Table.find?_mem member)
  exact ⟨t', (Table.find?_eq_some.mp found).1, origin⟩

end Grows

/-! ## Every commit, whatever it writes -/

section commits
variable {w : Work} {s s' : Store}

theorem Store.flush_added (committed : Store.flush w s = .ok s') {t : Task} (new : w.newTask = some t) :
    (∀ k, t.idempotencyKey = some k → s.byIdempotencyKey? k = none) ∧
      ∃ row ∈ s'.tasks, Task.SameOrigin t row := by
  obtain ⟨mid, inserted, _, _, tasks, _⟩ := Store.flush_ok committed
  rw [new] at inserted
  obtain ⟨_, _, unused, _⟩ := Store.insertTask_ok inserted
  have member : t ∈ mid.tasks := ((Store.insertTask_mem inserted).2 t).mpr (.inr rfl)
  refine ⟨unused, ?_⟩
  rw [tasks]
  cases w.dirty with
  | none => exact ⟨t, member, .refl t⟩
  | some change =>
      obtain ⟨row, found, origin⟩ := Persists.updateTask mid change.1 change.2 t.id t (Table.find?_mem member)
      exact ⟨row, (Table.find?_eq_some.mp found).1, origin⟩

/-- A row after a commit was there before or is the new one. -/
theorem Store.flush_back (committed : Store.flush w s = .ok s') {t' : Task} (member : t' ∈ s'.tasks) :
    ∃ t, (t ∈ s.tasks ∨ w.newTask = some t) ∧ Task.SameOrigin t t' := by
  obtain ⟨mid, inserted, _, _, tasks, _⟩ := Store.flush_ok committed
  have before : ∀ {t}, t ∈ mid.tasks → t ∈ s.tasks ∨ w.newTask = some t := by
    intro t stored
    split at inserted
    · rename_i u new
      rcases ((Store.insertTask_mem inserted).2 t).mp stored with old | rfl
      · exact .inl old
      · exact .inr new
    · cases inserted
      exact .inl stored
  rw [tasks] at member
  cases dirty : w.dirty with
  | none =>
      rw [dirty] at member
      exact ⟨t', before member, .refl t'⟩
  | some change =>
      rw [dirty] at member
      obtain ⟨t, stored, rfl⟩ := Store.updateTask_mem.mp member
      refine ⟨t, before stored, ?_⟩
      split
      · exact Task.writeBack_origin _ _ _
      · exact .refl t

theorem UniqueKeys.flush (h : UniqueKeys s) (committed : Store.flush w s = .ok s') : UniqueKeys s' := by
  -- a stored key stands beside no new row
  have apart : ∀ {t u : Task} {k}, t ∈ s.tasks → w.newTask = some u → t.idempotencyKey = some k →
      u.idempotencyKey = some k → False := by
    intro t u k stored new own same
    have unused : Unused s (some k) := by
      rintro _ ⟨⟩
      exact (Store.flush_added committed new).1 k same
    exact unused.absent rfl stored own
  intro t member u member' k own same
  obtain ⟨t₀, before, origin⟩ := Store.flush_back committed member
  obtain ⟨u₀, before', origin'⟩ := Store.flush_back committed member'
  have own₀ := origin.key ▸ own
  have same₀ := origin'.key ▸ same
  have equal : t₀ = u₀ := by
    rcases before with old | new
    · rcases before' with old' | new'
      · exact h t₀ old u₀ old' k own₀ same₀
      · exact (apart old new' own₀ same₀).elim
    · rcases before' with old' | new'
      · exact (apart old' new same₀ own₀).elim
      · exact Option.some.inj (new.symm.trans new')
  apply Table.eq_of_key member member'
  rw [origin.id, origin'.id, equal]

end commits

/-! ## Runs -/

def arrived : List Move → List Op
  | [] => []
  | .arrive op :: moves => op :: arrived moves
  | .advance _ :: moves => arrived moves

theorem arrivals_moves (env : Env) (moves : List Move) :
    Pool.arrivals (moves.map (Move.turn env)) = (arrived moves).map (Op.program env) := by
  induction moves with
  | nil => rfl
  | cons move moves ih =>
      cases move with
      | arrive op => exact congrArg (op.program env :: ·) ih
      | advance i => exact ih

def ownCommits (env : Env) (s : Store) (moves : List Move) (i : Nat) : List Work :=
  Pool.commitsOf Store.flush i ⟨s, []⟩ (moves.map (Move.turn env))

def answered (env : Env) (s : Store) (moves : List Move) (i : Nat) : Option (Except Failure Answer) :=
  match (interleave env s moves).requests[i]? with
  | some (.done r) => some r
  | _ => none

theorem answered_eq_some {env : Env} {s : Store} {moves : List Move} {i : Nat}
    {r : Except Failure Answer} :
    answered env s moves i = some r ↔ (interleave env s moves).requests[i]? = some (.done r) := by
  unfold answered
  split
  · rename_i r' found
    rw [found]
    simp
  · rename_i other
    constructor
    · intro none
      cases none
    · intro found
      exact absurd found (other r)

theorem interleave_append (env : Env) (s : Store) (moves more : List Move) :
    interleave env s (moves ++ more) =
      Pool.turns Store.flush (interleave env s moves) (more.map (Move.turn env)) := by
  simp only [interleave, Pool.turns, List.map_append, List.foldl_append]

theorem interleave_grows (env : Env) (s : Store) (moves more : List Move) :
    Grows (interleave env s moves).store (interleave env s (moves ++ more)).store := by
  rw [interleave_append]
  exact Pool.turns_grow Grows.refl Grows.trans Grows.flush _ _

theorem answered_append {env : Env} {s : Store} {moves : List Move} {i : Nat}
    {r : Except Failure Answer} (h : answered env s moves i = some r) (more : List Move) :
    answered env s (moves ++ more) i = some r := by
  rw [answered_eq_some, interleave_append]
  exact Pool.done_turns _ (answered_eq_some.mp h)

theorem arrived_append {moves : List Move} {i : Nat} {op : Op} (h : (arrived moves)[i]? = some op)
    (more : List Move) : (arrived (moves ++ more))[i]? = some op := by
  induction moves generalizing i with
  | nil => cases h
  | cons move moves ih =>
      cases move with
      | advance j => exact ih h
      | arrive first =>
          cases i with
          | zero => exact h
          | succ i => exact ih h

theorem ownCommits_arrived (env : Env) (s : Store) (moves : List Move) {i : Nat} {op : Op}
    (arrives : (arrived moves)[i]? = some op) :
    ∃ own : Option Work, ownCommits env s moves i = own.toList ∧
      ∀ r, answered env s moves i = some r →
        Receipt env (fun s₁ => Grows s₁ (interleave env s moves).store) op own r := by
  have visits := Pool.visits_before Grows.refl Grows.trans Grows.flush
    (⟨s, []⟩ : Pool Store Work Failure Answer) (moves.map (Move.turn env))
  have position : (Pool.arrivals (moves.map (Move.turn env)))[i]? = some (op.program env) := by
    rw [arrivals_moves, List.getElem?_map, arrives, Option.map_some]
  obtain ⟨p, own, found, once, commits⟩ := Pool.arrived_turns visits position
    (op.once env (fun s₁ => Grows s₁ (interleave env s moves).store))
  simp only [List.length_nil, Nat.zero_add] at found commits
  refine ⟨own, commits.symm, fun r done => ?_⟩
  have same := found.symm.trans (answered_eq_some.mp done)
  cases same
  exact once

theorem ownCommits_flushed {env : Env} {s : Store} {moves : List Move} {i : Nat} {w : Work}
    (own : ownCommits env s moves i = [w]) : ∃ s₁ s₂, Store.flush w s₁ = .ok s₂ ∧
      Grows s₂ (interleave env s moves).store := by
  have member : w ∈ ownCommits env s moves i := by
    rw [own]
    exact List.mem_singleton_self w
  obtain ⟨s₁, stored⟩ := Pool.mem_commitsOf member
  obtain ⟨_, s₂, ok, after⟩ := Pool.history_between Grows.refl Grows.trans Grows.flush _ _ _ stored
  exact ⟨s₁, s₂, ok, after⟩

/-- Each request of a run commits at most one transaction, and its answer is the receipt
for it: a refused request has committed nothing, unless it found a pause expired. -/
theorem one_commit_each (env : Env) (s : Store) (moves : List Move) (i : Nat) (op : Op)
    (arrives : (arrived moves)[i]? = some op) :
    ∃ own : Option Work, ownCommits env s moves i = own.toList ∧
      ∀ r, answered env s moves i = some r →
        Receipt env (fun s₁ => Grows s₁ (interleave env s moves).store) op own r :=
  ownCommits_arrived env s moves arrives

/-! ### What was answered is kept -/

/-- The task that a dispatch was answered with, its own or that of an earlier request. -/
def dispatched? (r : Except Failure Answer) : Option Task := (created? r).or (replayed? r)

theorem dispatched?_created {r : Except Failure Answer} {t : Task} (h : created? r = some t) :
    dispatched? r = some t := by
  rw [dispatched?, h]
  rfl

theorem dispatched?_replayed {a : Answer} {t : Task} (h : replayed? (.ok a) = some t) :
    created? (.ok a) = none ∧ dispatched? (.ok a) = some t := by
  cases a with
  | created u workflow replayed | succeeded u old replayed =>
      cases replayed with
      | false => cases h
      | true => exact ⟨rfl, h⟩
  | cancelled | signalled | injected | recorded => cases h

/-- What a success promises of a later store. -/
def Kept (op : Op) (a : Answer) (s : Store) : Prop :=
  (∃ t, dispatched? (.ok a) = some t ∧ ∃ row ∈ s.tasks, row.id = t.id ∧
    row.idempotencyKey = op.idempotencyKey) ∨ ∃ e ∈ s.events, op.Reports a e

theorem Receipt.kept {env : Env} {s : Store} {op : Op} {own : Option Work} {a : Answer}
    (receipt : Receipt env (fun s₁ => Grows s₁ s) op own (.ok a))
    (flushed : ∀ w, own = some w → ∃ s₁ s₂, Store.flush w s₁ = .ok s₂ ∧ Grows s₂ s) : Kept op a s := by
  cases receipt with
  | replayed _ t k s₀ reads keyed found named =>
      have stored : t ∈ s₀.tasks := List.mem_of_find?_eq_some found
      have key : t.idempotencyKey = some k := by simpa using List.find?_some found
      obtain ⟨row, member, origin⟩ := reads.row stored
      exact .inl ⟨t, (dispatched?_replayed named).2, row, member, origin.id, by rw [origin.key, key, keyed]⟩
  | dispatched _ t new hex w named drawn added id same keyed =>
      obtain ⟨_, _, ok, after⟩ := flushed w rfl
      obtain ⟨_, row, member, origin⟩ := Store.flush_added ok added
      obtain ⟨row', member', origin'⟩ := after.row member
      have fields := origin.trans origin'
      exact .inl ⟨t, dispatched?_created named, row', member', fields.id.trans same.symm,
        fields.key.trans keyed⟩
  | reported _ w e adds events reports =>
      obtain ⟨_, _, ok, after⟩ := flushed w rfl
      obtain ⟨_, _, _, _, _, log⟩ := Store.flush_ok ok
      refine .inr ⟨e, after.event ?_, reports⟩
      rw [← Table.mem_rows, log, events]
      exact List.mem_append_right _ (List.mem_singleton_self e)

theorem Kept.row {op : Op} {a : Answer} {s : Store} (h : Kept op a s) {t : Task}
    (named : dispatched? (.ok a) = some t) :
    ∃ row ∈ s.tasks, row.id = t.id ∧ row.idempotencyKey = op.idempotencyKey := by
  rcases h with ⟨u, same, row⟩ | ⟨e, _, reports⟩
  · rw [named] at same
    cases same
    exact row
  · cases op <;> cases a <;> first | exact reports.elim | cases named

theorem Receipt.inserted {env : Env} {I : Store → Prop} {op : Op} {own : Option Work} {a : Answer}
    (h : Receipt env I op own (.ok a)) {t : Task} (named : created? (.ok a) = some t) :
    ∃ w new, own = some w ∧ w.newTask = some new ∧ new.idempotencyKey = op.idempotencyKey := by
  cases h with
  | replayed _ u k s reads keyed found other =>
      rw [(dispatched?_replayed other).1] at named
      cases named
  | dispatched _ u new hex w other drawn added id same keyed => exact ⟨w, new, rfl, added, keyed⟩
  | reported _ w e adds events reports =>
      cases op <;> cases a <;> first | exact reports.elim | cases named

theorem kept_answered {env : Env} {s : Store} {moves : List Move} {i : Nat} {op : Op} {a : Answer}
    (arrives : (arrived moves)[i]? = some op) (done : answered env s moves i = some (.ok a)) :
    Kept op a (interleave env s moves).store := by
  obtain ⟨own, commits, receipts⟩ := ownCommits_arrived env s moves arrives
  apply (receipts _ done).kept
  rintro w rfl
  exact ownCommits_flushed commits

/-- What a request was answered stays true however the run goes on: the task it names is
stored under its key, the event it reports is in the log. -/
theorem answers_kept (env : Env) (s : Store) (moves more : List Move) (i : Nat) (op : Op) (a : Answer)
    (arrives : (arrived moves)[i]? = some op) (done : answered env s moves i = some (.ok a)) :
    Kept op a (interleave env s (moves ++ more)).store :=
  kept_answered (arrived_append arrives more) (answered_append done more)

/-! ### One task for each key -/

theorem interleave_uniqueKeys {env : Env} {s : Store} (start : UniqueKeys s) (moves : List Move) :
    UniqueKeys (interleave env s moves).store := by
  unfold interleave
  exact Pool.turns_invariant (I := UniqueKeys) start _
    fun _ _ _ before committed => UniqueKeys.flush before committed

theorem inserts_apart {env : Env} {s : Store} {moves : List Move} {i j : Nat} (other : i ≠ j)
    {v w : Work} {t u : Task} {k : String} (first : ownCommits env s moves i = [v])
    (last : ownCommits env s moves j = [w]) (added : v.newTask = some t) (added' : w.newTask = some u)
    (own : t.idempotencyKey = some k) (own' : u.idempotencyKey = some k) : False := by
  have member : v ∈ ownCommits env s moves i := by simp [first]
  have member' : w ∈ ownCommits env s moves j := by simp [last]
  -- the later of two insertions would find the row of the earlier
  have clash : ∀ {v w : Work} {t u : Task} {s s₁ s₂ s₃ : Store}, v.newTask = some t →
      w.newTask = some u → t.idempotencyKey = some k → u.idempotencyKey = some k →
      Grows s₁ s₂ → Store.flush v s = .ok s₁ → Store.flush w s₂ = .ok s₃ → False := by
    intro v w t u s s₁ s₂ s₃ added added' own own' after ok ok'
    obtain ⟨_, row, stored, origin⟩ := Store.flush_added ok added
    obtain ⟨row', stored', origin'⟩ := after.row stored
    have unused : Unused s₂ (some k) := by
      rintro _ ⟨⟩
      exact (Store.flush_added ok' added').1 k own'
    exact unused.absent rfl stored' (by rw [origin'.key, origin.key, own])
  obtain ⟨_, _, _, _, after, ⟨ok, ok'⟩ | ⟨ok, ok'⟩⟩ :=
    Pool.commits_ordered Grows.refl Grows.trans Grows.flush other _ _ member member'
  · exact clash added added' own own' after ok ok'
  · exact clash added' added own' own after ok ok'

/-- However requests that carry one key interleave, all that succeed are answered with
one task, and at most one of them created it. -/
theorem one_task_for_each_key (env : Env) (s : Store) (start : UniqueKeys s) (moves : List Move)
    (i j : Nat) (op op' : Op) (a a' : Answer) (t t' : Task) (k : String)
    (arrives : (arrived moves)[i]? = some op) (arrives' : (arrived moves)[j]? = some op')
    (done : answered env s moves i = some (.ok a)) (done' : answered env s moves j = some (.ok a'))
    (key : op.idempotencyKey = some k) (key' : op'.idempotencyKey = some k)
    (named : dispatched? (.ok a) = some t) (named' : dispatched? (.ok a') = some t') :
    t.id = t'.id ∧ (i ≠ j → created? (.ok a) = none ∨ created? (.ok a') = none) := by
  have distinct : UniqueKeys (interleave env s moves).store := interleave_uniqueKeys start moves
  constructor
  · -- both tasks are stored under the key at the end
    obtain ⟨row, member, same, own⟩ := (kept_answered arrives done).row named
    obtain ⟨row', member', same', own'⟩ := (kept_answered arrives' done').row named'
    rw [key] at own
    rw [key'] at own'
    rw [← same, ← same', distinct row member row' member' k own own']
  · intro other
    obtain ⟨own, commits, receipts⟩ := ownCommits_arrived env s moves arrives
    obtain ⟨own', commits', receipts'⟩ := ownCommits_arrived env s moves arrives'
    cases first : created? (.ok a) with
    | none => exact .inl rfl
    | some new =>
        cases last : created? (.ok a') with
        | none => exact .inr rfl
        | some new' =>
            exfalso
            obtain ⟨w, v, rfl, added, keyed⟩ := (receipts _ done).inserted first
            obtain ⟨w', v', rfl, added', keyed'⟩ := (receipts' _ done').inserted last
            exact inserts_apart other commits commits' added added' (keyed.trans key) (keyed'.trans key')

/-- The id of the task that the request at a position was answered with. -/
def dispatchedId? (env : Env) (s : Store) (moves : List Move) (i : Nat) : Option String :=
  (answered env s moves i).bind fun r => (dispatched? r).map Task.id

theorem dispatchedId?_eq_some {env : Env} {s : Store} {moves : List Move} {i : Nat} {id : String}
    (h : dispatchedId? env s moves i = some id) :
    ∃ a t, answered env s moves i = some (.ok a) ∧ dispatched? (.ok a) = some t ∧ t.id = id := by
  obtain ⟨r, done, named⟩ := Option.bind_eq_some_iff.mp h
  obtain ⟨t, named, same⟩ := Option.map_eq_some_iff.mp named
  cases r with
  | error e => cases named
  | ok a => exact ⟨a, t, done, named, same⟩

/-! ### Requests that overlap -/

namespace Demo

/-- The second request arrives while the first is served, and reads its key afterwards. -/
def overlapping : List Move :=
  [.arrive (keyed 0 "a" []), .arrive (keyed 1 "b" [])] ++ List.replicate 8 (.advance 0)
    ++ List.replicate 8 (.advance 1)

end Demo

theorem one_commit_each_retask :
    ∃ own : Option Work, ownCommits Demo.env Demo.store Demo.doubleRetask 3 = own.toList ∧
      ∀ r, answered Demo.env Demo.store Demo.doubleRetask 3 = some r →
        Receipt Demo.env (fun s₁ => Grows s₁ (interleave Demo.env Demo.store Demo.doubleRetask).store)
          (Demo.retask "b") own r :=
  one_commit_each Demo.env Demo.store Demo.doubleRetask 3 (Demo.retask "b") rfl

theorem answers_kept_retask :
    ∃ a t, dispatched? (.ok a) = some t ∧ t.id = "task-b" ∧
      Kept (Demo.retask "b") a (interleave Demo.env Demo.store
        (Demo.doubleRetask ++ Demo.serve 5 (Demo.create 6 "d"))).store := by
  obtain ⟨a, t, done, named, same⟩ := dispatchedId?_eq_some
    (show dispatchedId? Demo.env Demo.store Demo.doubleRetask 3 = some "task-b" by decide +kernel)
  exact ⟨a, t, named, same, answers_kept Demo.env Demo.store Demo.doubleRetask
    (Demo.serve 5 (Demo.create 6 "d")) 3 (Demo.retask "b") a rfl done⟩

theorem one_task_for_each_key_overlapping :
    ∃ a a' t t', answered Demo.keyedEnv Demo.store Demo.overlapping 0 = some (.ok a) ∧
      answered Demo.keyedEnv Demo.store Demo.overlapping 1 = some (.ok a') ∧
      dispatched? (.ok a) = some t ∧ dispatched? (.ok a') = some t' ∧ t.id = t'.id ∧
      (created? (.ok a) = none ∨ created? (.ok a') = none) := by
  obtain ⟨a, t, done, named, _⟩ := dispatchedId?_eq_some
    (show dispatchedId? Demo.keyedEnv Demo.store Demo.overlapping 0 = some "task-a" by decide +kernel)
  obtain ⟨a', t', done', named', _⟩ := dispatchedId?_eq_some
    (show dispatchedId? Demo.keyedEnv Demo.store Demo.overlapping 1 = some "task-a" by decide +kernel)
  obtain ⟨same, once⟩ := one_task_for_each_key Demo.keyedEnv Demo.store (.of_blank Demo.store_blank)
    Demo.overlapping 0 1 (Demo.keyed 0 "a" []) (Demo.keyed 1 "b" []) a a' t t' "k" rfl rfl done done' rfl
    rfl named named'
  exact ⟨a, a', t, t', done, done', named, named', same, once (by decide)⟩

end Fleet.Api
