/- Idempotency keys over runs: one task for each key, and what a dispatch that
presents a stored key is answered. -/
import Fleet.Lib.JsonText
import Fleet.Api.Rows

namespace Fleet.Api
open Fleet.Lib

/-! ## One task for each key -/

/-- The unique index `ix_tasks_idempotency_key`. -/
def UniqueKeys (s : Store) : Prop :=
  ∀ t ∈ s.tasks, ∀ u ∈ s.tasks, ∀ k, t.idempotencyKey = some k → u.idempotencyKey = some k → t = u

theorem Born.unused {s : Store} {op : Op} {t : Task} (h : Born s op t) :
    Unused s t.idempotencyKey := by
  cases h with
  | requested unused requested => rw [requested.key]; exact unused
  | retasked stored inside reviewable unused priority => exact unused
  | redirected stored inside redirectable unused priority => exact unused

theorem Unused.absent {s : Store} {key : Option String} (h : Unused s key) {k : String}
    (same : key = some k) {t : Task} (member : t ∈ s.tasks) : t.idempotencyKey ≠ some k := by
  intro own
  have none := List.find?_eq_none.mp (h k same) t (Table.mem_rows.mpr member)
  exact none (decide_eq_true own)

theorem UniqueKeys.step {env : Env} {s : Store} (h : UniqueKeys s) (a : Step) :
    UniqueKeys (a.exec env s) := by
  -- a stored key stands beside no new row
  have apart : ∀ {t₀ t u : Task} {op k}, t₀ ∈ s.tasks → Task.SameOrigin t₀ t → Born s op u →
      t.idempotencyKey = some k → u.idempotencyKey = some k → False := by
    intro t₀ t u op k stored origin born own same
    exact born.unused.absent same stored (origin.key ▸ own)
  intro t member u member' k own same
  have found := Table.find?_mem member
  have found' := Table.find?_mem member'
  rcases Step.exec_origin found with ⟨t₀, stored, origin⟩ | ⟨op, here, _, born, answers⟩
  · obtain ⟨old, _⟩ := Table.find?_eq_some.mp stored
    rcases Step.exec_origin found' with ⟨u₀, stored', origin'⟩ | ⟨op, _, _, born, _⟩
    · obtain ⟨old', _⟩ := Table.find?_eq_some.mp stored'
      have equal := h t₀ old u₀ old' k (origin.key ▸ own) (origin'.key ▸ same)
      apply Table.eq_of_key member member'
      rw [origin.id, origin'.id, equal]
    · exact (apart old origin born own same).elim
  · rcases Step.exec_origin found' with ⟨u₀, stored', origin'⟩ | ⟨op', here', _, _, answers'⟩
    · obtain ⟨old', _⟩ := Table.find?_eq_some.mp stored'
      exact (apart old' origin' born same own).elim
    · cases here.symm.trans here'
      exact Option.some.inj (answers.symm.trans answers')

theorem UniqueKeys.run {env : Env} {s : Store} (h : UniqueKeys s) (steps : List Step) :
    UniqueKeys (runSteps env steps s) := by
  induction steps generalizing s with
  | nil => exact h
  | cons a steps ih => exact ih (h.step a)

theorem UniqueKeys.of_blank {s : Store} (blank : s.Blank) : UniqueKeys s := by
  intro t member
  rw [← Table.mem_rows, blank.1] at member
  cases member

theorem UniqueKeys.byIdempotencyKey? {s : Store} (h : UniqueKeys s) {t : Task} (member : t ∈ s.tasks)
    {k : String} (own : t.idempotencyKey = some k) : s.byIdempotencyKey? k = some t := by
  cases found : s.byIdempotencyKey? k with
  | none =>
      have unused : Unused s (some k) := by
        intro k' same
        cases same
        exact found
      exact absurd own (unused.absent rfl member)
  | some u =>
      have stored : u ∈ s.tasks := List.mem_of_find?_eq_some found
      have same : u.idempotencyKey = some k := by simpa using List.find?_some found
      rw [h u stored t member k same own]

/-! ## Dispatching a stored key -/

section dispatch
variable {env : Env} {s : Store} {clk : Clock} {hex k : String} {req : CreateRequest} {t : Task}

theorem createTask_replays (given : req.idempotencyKey = some k) (stored : s.byIdempotencyKey? k = some t)
    (same : env.inputDigest t.input = env.inputDigest req.input) {workflow : Workflow}
    (known : s.workflows.find? req.workflowId = some workflow) :
    (Op.createTask clk hex req).exec env s = (.ok (.created t workflow true), s) := by
  simp [Op.exec, Op.program, createTask, createTaskWith, given, replayOf, checkIdempotency, getWorkflowOr404, Db.query,
    Db.ensure, Db.fetch, Prog.run_bind, Prog.run, Prog.pure_eq, stored, same, known]

theorem createTask_mismatch (given : req.idempotencyKey = some k)
    (stored : s.byIdempotencyKey? k = some t)
    (different : env.inputDigest t.input ≠ env.inputDigest req.input) :
    (Op.createTask clk hex req).exec env s = (.error (.api (idempotencyMismatch k)), s) := by
  simp [Op.exec, Op.program, createTask, createTaskWith, given, replayOf, checkIdempotency, Db.query, Db.ensure,
    Db.raise, Prog.raise, Prog.run_bind, Prog.run, Prog.pure_eq, stored, different]

end dispatch

section contract
variable (env : Env) (sha256 : String → String)
  (digest : ∀ d, env.inputDigest d = sha256 (Json.dumps (.obj d)))
include digest

/-- Where the digest tells the two texts apart if they differ, equal digests mean
inputs equal up to the order of keys. -/
theorem inputDigest_eq_iff {a b : Dict}
    (distinct : sha256 (Json.dumps (.obj a)) = sha256 (Json.dumps (.obj b)) →
      Json.dumps (.obj a) = Json.dumps (.obj b)) :
    env.inputDigest a = env.inputDigest b ↔ Json.Same (.obj a) (.obj b) := by
  rw [digest, digest, ← Json.dumps_eq_iff]
  constructor
  · exact distinct
  · exact congrArg sha256

/-- In every run no two tasks have one key. A dispatch that presents a stored key is
answered with its task when it repeats the input, and is refused when it does not; it
changes nothing either way. -/
theorem dispatch_idempotent {s₀ : Store} (blank : s₀.Blank) (steps : List Step) :
    UniqueKeys (runSteps env steps s₀) ∧
      ∀ t ∈ (runSteps env steps s₀).tasks, ∀ k, t.idempotencyKey = some k →
        ∀ clk hex req, req.idempotencyKey = some k →
          (sha256 (Json.dumps (.obj t.input)) = sha256 (Json.dumps (.obj req.input)) →
            Json.dumps (.obj t.input) = Json.dumps (.obj req.input)) →
          (Json.Same (.obj t.input) (.obj req.input) → ∀ workflow,
            (runSteps env steps s₀).workflows.find? req.workflowId = some workflow →
            (Op.createTask clk hex req).exec env (runSteps env steps s₀) =
              (.ok (.created t workflow true), runSteps env steps s₀)) ∧
          (¬ Json.Same (.obj t.input) (.obj req.input) →
            (Op.createTask clk hex req).exec env (runSteps env steps s₀) =
              (.error (.api (idempotencyMismatch k)), runSteps env steps s₀)) := by
  have unique : UniqueKeys (runSteps env steps s₀) := (UniqueKeys.of_blank blank).run steps
  refine ⟨unique, fun t member k own clk hex req given distinct => ⟨fun same workflow known => ?_,
    fun different => ?_⟩⟩
  · apply createTask_replays given (unique.byIdempotencyKey? member own) _ known
    exact (inputDigest_eq_iff env sha256 digest distinct).mpr same
  · apply createTask_mismatch given (unique.byIdempotencyKey? member own)
    exact fun equal => different ((inputDigest_eq_iff env sha256 digest distinct).mp equal)

end contract

namespace Demo

def sha256 (text : String) : String :=
  if text = "\x7b\"a\": 1, \"b\": \x7b\"c\": [2, \"x\"]\x7d\x7d" then
    "866067d21699fbaee4f844a4a33289e039ac958b0bb02513aa72f3f6bd51f06e"
  else if text = "\x7b\"a\": 1\x7d" then
    "f9d86028c6e0d64e225186f96acb69338b2c59764df79162107f5c4bb34d1310"
  else "44136fa355b3678a1146ad16f7e8649e94fb4fc21fe77e8310c060f61caaff8a"

def keyedEnv : Env := { env with inputDigest := fun d => sha256 (Json.dumps (.obj d)) }

def keyed (second : Int) (hex : String) (input : Dict) : Op :=
  .createTask (at' second) hex
    { workflowId := "wf", callerAgentId := "principal", input, idempotencyKey := some "k" }

def keyedRun : List Step := [
  .op (keyed 0 "a" [("b", .obj [("c", .arr [.num 2, .str "x"])]), ("a", .num 1)]),
  .op (post 1 "task-a" "status" [("status", .str "running")] 2),
  .op (post 2 "task-a" "completed" [] 3),
  .op (.retaskTask (at' 3) "b"
    { workflowId := "wf", taskId := "task-a", callerAgentId := "principal",
      refinement := { message := "again" }, idempotencyKey := some "r" })]

end Demo

/-- The repeated dispatch names the keys in another order. -/
theorem dispatch_idempotent_keyed :
    ∃ t, t.id = "task-a" ∧ t.status = .retasked ∧
      (Demo.keyed 4 "c" [("a", .num 1), ("b", .obj [("c", .arr [.num 2, .str "x"])])]).exec
        Demo.keyedEnv (runSteps Demo.keyedEnv Demo.keyedRun Demo.store) =
          (.ok (.created t Demo.workflow true), runSteps Demo.keyedEnv Demo.keyedRun Demo.store) ∧
      (Demo.keyed 5 "d" [("a", .num 1)]).exec Demo.keyedEnv
        (runSteps Demo.keyedEnv Demo.keyedRun Demo.store) =
          (.error (.api (idempotencyMismatch "k")), runSteps Demo.keyedEnv Demo.keyedRun Demo.store) := by
  obtain ⟨t, member, id, ended, own, input⟩ :
      ∃ t ∈ (runSteps Demo.keyedEnv Demo.keyedRun Demo.store).tasks.rows, t.id = "task-a" ∧
        t.status = .retasked ∧ t.idempotencyKey = some "k" ∧
        t.input = [("b", .obj [("c", .arr [.num 2, .str "x"])]), ("a", .num 1)] := by decide +kernel
  have dispatch := (dispatch_idempotent Demo.keyedEnv Demo.sha256 (fun _ => rfl) Demo.store_blank
    Demo.keyedRun).2 t member "k" own
  refine ⟨t, id, ended, ?_, ?_⟩
  · apply (dispatch _ _ _ rfl ?_).1 ?_ Demo.workflow (by rfl)
    · intro _
      rw [input]
      decide +kernel
    · rw [input, ← Json.dumps_eq_iff]
      decide +kernel
  · apply (dispatch _ _ _ rfl ?_).2
    · rw [input, ← Json.dumps_eq_iff]
      decide +kernel
    · rw [input]
      decide +kernel

/-! ## Whose task a replay hands out -/

def Op.idempotencyKey : Op → Option String
  | .createTask _ _ req => req.idempotencyKey
  | .retaskTask _ _ req => req.idempotencyKey
  | .redirectTask _ _ req => req.idempotencyKey
  | _ => none

def Op.requestedInput (s : Store) : Op → Option Dict
  | .createTask _ _ req => some req.input
  | .retaskTask _ _ req =>
      (s.tasks.find? req.taskId).map fun task => mergedInput task req.refinement
  | .redirectTask _ _ req => some req.newInput
  | _ => none

theorem Born.requested_by {s : Store} {op : Op} {t : Task} (h : Born s op t) :
    op.idempotencyKey = t.idempotencyKey ∧ op.requestedInput s = some t.input := by
  cases h with
  | requested unused requested =>
      exact ⟨requested.key.symm, congrArg some requested.input.symm⟩
  | retasked stored inside reviewable unused priority =>
      refine ⟨rfl, ?_⟩
      rw [Op.requestedInput, stored]
      rfl
  | redirected stored inside redirectable unused priority => exact ⟨rfl, rfl⟩

/-- A replay presents the key and the input of the task it hands out, and changes
nothing. -/
theorem Outcome.replay {env : Env} {s s' : Store} {op : Op} {r : Except Failure Answer}
    (h : Outcome env s op r s') {t : Task} (replayed : replayed? r = some t) :
    s' = s ∧ ∃ k input, op.idempotencyKey = some k ∧ s.byIdempotencyKey? k = some t ∧
      op.requestedInput s = some input ∧ env.inputDigest t.input = env.inputDigest input := by
  cases h with
  | createReplayed clk hex req u workflow replays known =>
      cases replayed
      obtain ⟨k, given, stored, same⟩ := replays
      exact ⟨rfl, k, req.input, given, stored, rfl, same⟩
  | retaskReplayed clk hex req task u admitted reviewable replays =>
      cases replayed
      obtain ⟨k, given, stored, same⟩ := replays
      refine ⟨rfl, k, mergedInput task req.refinement, given, stored, ?_, same⟩
      rw [Op.requestedInput, admitted.stored]
      rfl
  | redirectReplayed clk hex req task u admitted redirectable replays =>
      cases replayed
      obtain ⟨k, given, stored, same⟩ := replays
      exact ⟨rfl, k, req.newInput, given, stored, rfl, same⟩
  | refused | created | retasked | redirected | cancelled | paused | resumed | expired | injected
  | recorded => cases replayed

theorem Store.byIdempotencyKey?_eq_some {s : Store} {k : String} {t : Task}
    (found : s.byIdempotencyKey? k = some t) : t ∈ s.tasks ∧ t.idempotencyKey = some k :=
  ⟨List.mem_of_find?_eq_some found, by simpa using List.find?_some found⟩

/-- The task a replay hands out is the one stored under the key of the request. An
earlier request of the run, by whichever operation, created it with that key and with
an input equal to the one now asked for. -/
theorem replay_hands_out_key (env : Env) (sha256 : String → String)
    (digest : ∀ d, env.inputDigest d = sha256 (Json.dumps (.obj d))) {s₀ : Store}
    (blank : s₀.Blank) (steps : List Step) (op : Op) (t : Task)
    (replayed : replayed? (op.exec env (runSteps env steps s₀)).1 = some t) :
    (op.exec env (runSteps env steps s₀)).2 = runSteps env steps s₀ ∧
      ∃ k input, op.idempotencyKey = some k ∧
        op.requestedInput (runSteps env steps s₀) = some input ∧
        (∀ u ∈ (runSteps env steps s₀).tasks, u.idempotencyKey = some k ↔ u = t) ∧
        ((sha256 (Json.dumps (.obj t.input)) = sha256 (Json.dumps (.obj input)) →
          Json.dumps (.obj t.input) = Json.dumps (.obj input)) →
            Json.Same (.obj t.input) (.obj input)) ∧
        ∃ before earlier after t₀, steps = before ++ .op earlier :: after ∧
          created? (earlier.exec env (runSteps env before s₀)).1 = some t₀ ∧
          Task.SameOrigin t₀ t ∧ earlier.idempotencyKey = some k ∧
          earlier.requestedInput (runSteps env before s₀) = some t.input := by
  obtain ⟨unchanged, k, input, given, stored, asked, same⟩ :=
    (op.exec_outcome env (runSteps env steps s₀)).replay replayed
  obtain ⟨member, own⟩ := Store.byIdempotencyKey?_eq_some stored
  obtain ⟨before, earlier, after, t₀, split, born, answers, origin⟩ :=
    runSteps_created steps blank (Table.find?_mem member)
  obtain ⟨key, created⟩ := born.requested_by
  refine ⟨unchanged, k, input, given, asked, fun u member' => ⟨fun own' => ?_, ?_⟩, fun distinct => ?_,
    before, earlier, after, t₀, split, answers, origin, ?_, ?_⟩
  · exact (UniqueKeys.of_blank blank).run steps u member' t member k own' own
  · intro equal
    rw [equal]
    exact own
  · exact (inputDigest_eq_iff env sha256 digest distinct).mp same
  · rw [key, ← origin.key, own]
  · rw [created, origin.input]

namespace Demo

/-- A second workflow, with a principal of its own. -/
def neighbour : Step := .catalog
  ⟨[agent "principal", agent "executor", agent "stranger"], by decide⟩
  ⟨[workflow, { workflow with id := "wf-2" }], by decide⟩

def strangersRun : List Step := [neighbour, .op (keyed 0 "a" [("a", .num 1)]),
  .op (.createTask (at' 1) "b" { workflowId := "wf-2", callerAgentId := "stranger", input := [] }),
  .op (post 2 "task-b" "status" [("status", .str "running")] 2)]

def strangersRequest : RedirectRequest where
  workflowId := "wf-2"
  taskId := "task-b"
  callerAgentId := "stranger"
  reason := "reuse"
  newInput := [("a", .num 1)]
  idempotencyKey := some "k"

def strangersRedirect : Op := .redirectTask (at' 3) "c" strangersRequest

end Demo

theorem replay_hands_out_key_stranger :
    ∃ t, replayed? (Demo.strangersRedirect.exec Demo.keyedEnv
        (runSteps Demo.keyedEnv Demo.strangersRun Demo.store)).1 = some t ∧
      ∀ u ∈ (runSteps Demo.keyedEnv Demo.strangersRun Demo.store).tasks,
        u.idempotencyKey = some "k" ↔ u = t := by
  obtain ⟨t, replayed⟩ : ∃ t, replayed? (Demo.strangersRedirect.exec Demo.keyedEnv
      (runSteps Demo.keyedEnv Demo.strangersRun Demo.store)).1 = some t := by
    apply Option.isSome_iff_exists.mp
    decide +kernel
  obtain ⟨_, k, _, given, _, unique, _⟩ := replay_hands_out_key Demo.keyedEnv Demo.sha256 (fun _ => rfl)
    Demo.store_blank Demo.strangersRun Demo.strangersRedirect t replayed
  cases given
  exact ⟨t, replayed, unique⟩

/-- A redirect in one workflow is answered with a task another agent created, by
`create_task`, in another workflow. -/
theorem replay_crosses_workflows :
    ∃ t, replayed? (Demo.strangersRedirect.exec Demo.keyedEnv
        (runSteps Demo.keyedEnv Demo.strangersRun Demo.store)).1 = some t ∧
      t.workflowId ≠ Demo.strangersRequest.workflowId ∧
      t.principalAgentId ≠ Demo.strangersRequest.callerAgentId ∧ t.parentTaskId = none := by
  have found : (replayed? (Demo.strangersRedirect.exec Demo.keyedEnv
      (runSteps Demo.keyedEnv Demo.strangersRun Demo.store)).1).any (fun t =>
        t.workflowId ≠ Demo.strangersRequest.workflowId ∧
        t.principalAgentId ≠ Demo.strangersRequest.callerAgentId ∧ t.parentTaskId = none) = true := by
    decide +kernel
  rw [Option.any_eq_true] at found
  obtain ⟨t, replayed, apart⟩ := found
  exact ⟨t, replayed, of_decide_eq_true apart⟩

end Fleet.Api
