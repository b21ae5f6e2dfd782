/- Agent registration, statement by statement, among the heartbeats and the sweeps. -/
import Mathlib.Data.List.Induction
import Fleet.Api.Auth
import Fleet.Api.HeartbeatMonitor

namespace Fleet.Api
open Fleet.Lib

/-! ## The request model -/

/-- `str.isspace` of one character. -/
def isSpace (c : Char) : Bool :=
  (9 ≤ c.toNat && c.toNat ≤ 13) || (28 ≤ c.toNat && c.toNat ≤ 32) || c.toNat = 133 || c.toNat = 160
    || c.toNat = 5760 || (8192 ≤ c.toNat && c.toNat ≤ 8202) || c.toNat = 8232 || c.toNat = 8233
    || c.toNat = 8239 || c.toNat = 8287 || c.toNat = 12288

/-- `not v or not v.strip()`. -/
def blankText (v : String) : Bool := v.toList.all isSpace

/-- `^[a-zA-Z0-9][a-zA-Z0-9\-]*$`; the `$` also matches before a last newline. -/
def agentIdPattern (id : List Char) : Bool :=
  let body := if id.getLast? = some '\n' then id.dropLast else id
  body.head?.any Char.isAlphanum && body.tail.all (fun c => c.isAlphanum || c = '-')

def validateAgentId (v : String) : Except String String :=
  if blankText v then .error "agent_id must not be empty"
  else if v.length > 128 then .error "agent_id must be at most 128 characters"
  else if !agentIdPattern v.toList then .error ("agent_id must contain only alphanumeric characters and "
    ++ "hyphens, and must start with an alphanumeric character")
  else .ok v

def validatePublicKey (v : String) : Except String String :=
  if blankText v then .error "public_key must not be empty"
  else
    match Base64.b64decode v with
    | .error _ => .error "public_key must be valid base64"
    | .ok decoded =>
        if decoded.length ≠ 32 then .error
          s!"public_key must decode to exactly 32 bytes (Ed25519), got {decoded.length}"
        else .ok v

/-- A body that passed its validators; no other reaches the handler. -/
structure RegisterAgentRequest where
  agentId : String
  displayName : Option String := none
  publicKey : String
  capabilities : Option (List String) := none
  endpoint : Option String := none
  validId : validateAgentId agentId = .ok agentId
  validKey : validatePublicKey publicKey = .ok publicKey

theorem validatePublicKey_decodes {v : String} (valid : validatePublicKey v = .ok v) :
    ∃ raw, Base64.b64decode v = .ok raw ∧ raw.length = 32 := by
  unfold validatePublicKey at valid
  split at valid
  · cases valid
  · split at valid
    · cases valid
    · rename_i raw decoded
      split at valid
      · cases valid
      · rename_i size
        exact ⟨raw, decoded, not_not.mp size⟩

/-! ## Statements -/

def agentExists (agentId : String) : FleetAPIError where
  kind := .conflict
  code := .agentExists
  message := s!"Agent '{agentId}' is already registered with a different public key. "
    ++ "Re-registration requires the same public key."
  suggestion := some "Use the original public key, or register with a different agent_id."
  links := [("existing_agent", .obj [("href", .str s!"/agents/{agentId}")])]

def RegisterAgentRequest.row (body : RegisterAgentRequest) (now : Time) : Agent where
  id := body.agentId
  displayName := body.displayName
  publicKey := body.publicKey
  capabilities := body.capabilities
  status := .registered
  lastHeartbeat := none
  registeredAt := now
  metadata := (body.endpoint.filter (fun endpoint => endpoint ≠ "")).map
    fun endpoint => [("endpoint", .str endpoint)]

def Agent.fits (agent : Agent) : Bool :=
  agent.id.length ≤ 128 && agent.displayName.all (fun name => name.length ≤ 256)

/-- Where a registration stands: its row may be inserted and not committed yet. -/
inductive Registration where
  | asked (body : RegisterAgentRequest)
  | absent (body : RegisterAgentRequest)
  | inserted (agent : Agent)
  | ended

def Registration.pending? : Registration → Option String
  | .inserted agent => some agent.id
  | _ => none

structure Registry where
  monitored : Monitored
  registrations : List Registration := []

inductive RegistryStatement where
  | monitor (statement : Statement)
  | register (body : RegisterAgentRequest)
  | getAgent (i : Nat)
  | insert (i : Nat) (now : Time)
  | commit (i : Nat)
  /-- The connection fails, or the database refuses a value. -/
  | abort (i : Nat)

/-- What becomes of the registration with a number. -/
inductive RegistryReport where
  | found (i : Nat) (agent : Agent)
  | refused (i : Nat) (e : FleetAPIError)
  | created (i : Nat) (agent : Agent)
  | failed (i : Nat)

namespace Registry

def store (w : Registry) : Store := w.monitored.store

def become (w : Registry) (i : Nat) (r : Registration) : Registry :=
  { w with registrations := w.registrations.set i r }

/-- The answer to a registration that finds a row. -/
def answerFound (i : Nat) (body : RegisterAgentRequest) (existing : Agent) : RegistryReport :=
  if existing.publicKey = body.publicKey then .found i existing
  else .refused i (agentExists body.agentId)

/-- One statement; one whose turn it is not changes nothing. An `INSERT` waits while
another transaction holds a row with its key, and is refused where one is stored. -/
def step (timeoutSeconds : Int) (w : Registry) : RegistryStatement → Registry × List RegistryReport
  | .monitor statement => ({ w with monitored := w.monitored.step timeoutSeconds statement }, [])
  | .register body => ({ w with registrations := w.registrations ++ [.asked body] }, [])
  | .getAgent i =>
      match w.registrations[i]? with
      | some (.asked body) =>
          match w.store.agents.find? body.agentId with
          | some existing => (w.become i .ended, [answerFound i body existing])
          | none => (w.become i (.absent body), [])
      | _ => (w, [])
  | .insert i now =>
      match w.registrations[i]? with
      | some (.absent body) =>
          if !(body.row now).fits then (w.become i .ended, [.failed i])
          else if some body.agentId ∈ w.registrations.map Registration.pending? then (w, [])
          else if (w.store.agents.find? body.agentId).isSome then (w.become i .ended, [.failed i])
          else (w.become i (.inserted (body.row now)), [])
      | _ => (w, [])
  | .commit i =>
      match w.registrations[i]? with
      | some (.inserted agent) =>
          match w.store.agents.insert? agent with
          | some agents =>
              let monitored := { w.monitored with store := { w.store with agents } }
              ({ w with monitored }.become i .ended, [.created i agent])
          | none => (w.become i .ended, [.failed i])
      | _ => (w, [])
  | .abort i =>
      match w.registrations[i]? with
      | some (.absent _) | some (.inserted _) => (w.become i .ended, [.failed i])
      | _ => (w, [])

end Registry

def registry (timeoutSeconds : Int) : Machine Registry RegistryStatement RegistryReport :=
  ⟨Registry.step timeoutSeconds⟩

def RegistryReport.index : RegistryReport → Nat
  | .found i _ | .refused i _ | .created i _ | .failed i => i

def RegistryStatement.index? : RegistryStatement → Option Nat
  | .getAgent i | .insert i _ | .commit i | .abort i => some i
  | .monitor _ | .register _ => none

inductive RegistryOutcome (timeoutSeconds : Int) (w : Registry) :
    RegistryStatement → Registry × List RegistryReport → Prop
  | monitored (statement : Statement) : RegistryOutcome timeoutSeconds w (.monitor statement)
      ({ w with monitored := w.monitored.step timeoutSeconds statement }, [])
  | asked (body : RegisterAgentRequest) : RegistryOutcome timeoutSeconds w (.register body)
      ({ w with registrations := w.registrations ++ [.asked body] }, [])
  | idle (statement : RegistryStatement) : RegistryOutcome timeoutSeconds w statement (w, [])
  | answered {i : Nat} {body : RegisterAgentRequest} {existing : Agent}
      (holds : w.registrations[i]? = some (.asked body))
      (found : w.store.agents.find? body.agentId = some existing) :
      RegistryOutcome timeoutSeconds w (.getAgent i)
        (w.become i .ended, [Registry.answerFound i body existing])
  | absent {i : Nat} {body : RegisterAgentRequest} (holds : w.registrations[i]? = some (.asked body))
      (missing : w.store.agents.find? body.agentId = none) :
      RegistryOutcome timeoutSeconds w (.getAgent i) (w.become i (.absent body), [])
  | failed {statement : RegistryStatement} {i : Nat} (own : statement.index? = some i) :
      RegistryOutcome timeoutSeconds w statement (w.become i .ended, [.failed i])
  | inserted {i : Nat} {now : Time} {body : RegisterAgentRequest}
      (holds : w.registrations[i]? = some (.absent body))
      (free : some body.agentId ∉ w.registrations.map Registration.pending?)
      (missing : w.store.agents.find? body.agentId = none) :
      RegistryOutcome timeoutSeconds w (.insert i now) (w.become i (.inserted (body.row now)), [])
  | created {i : Nat} {agent : Agent} {agents : Table String Agent Agent.id}
      (holds : w.registrations[i]? = some (.inserted agent))
      (inserted : w.store.agents.insert? agent = some agents) :
      RegistryOutcome timeoutSeconds w (.commit i)
        ({ w with monitored := { w.monitored with store := { w.store with agents } } }.become i .ended,
          [.created i agent])

theorem Registry.step_outcome (timeoutSeconds : Int) (w : Registry) (statement : RegistryStatement) :
    RegistryOutcome timeoutSeconds w statement (w.step timeoutSeconds statement) := by
  cases statement with
  | monitor statement => exact .monitored statement
  | register body => exact .asked body
  | getAgent i =>
      simp only [Registry.step]
      split
      · rename_i body holds
        split
        · rename_i existing found
          exact .answered holds found
        · rename_i missing
          exact .absent holds missing
      · exact .idle _
  | insert i now =>
      simp only [Registry.step]
      split
      · rename_i body holds
        split
        · exact .failed rfl
        · split
          · exact .idle _
          · rename_i free
            split
            · exact .failed rfl
            · rename_i missing
              exact .inserted holds free (by simpa using missing)
      · exact .idle _
  | commit i =>
      simp only [Registry.step]
      split
      · rename_i agent holds
        split
        · rename_i agents inserted
          exact .created holds inserted
        · exact .failed rfl
      · exact .idle _
  | abort i =>
      simp only [Registry.step]
      split
      · exact .failed rfl
      · exact .failed rfl
      · exact .idle _

/-! ## The stored keys -/

def Store.keyOf? (s : Store) (agentId : String) : Option String :=
  (s.agents.find? agentId).map Agent.publicKey

/-- No sweep and no heartbeat writes a key. -/
theorem Monitored.step_keyOf (timeoutSeconds : Int) (w : Monitored) (statement : Statement) (id : String) :
    (w.step timeoutSeconds statement).store.keyOf? id = w.store.keyOf? id := by
  have outcome := w.step_outcome timeoutSeconds statement
  generalize w.step timeoutSeconds statement = w' at *
  cases outcome with
  | idle | begun | spared | selected | updated | asked | read => rfl
  | swept =>
      simp only [Store.keyOf?, find?_markUnreachable]
      split
      · rw [Option.map_map]
        rfl
      · rfl
  | heard =>
      simp only [Store.keyOf?, find?_commitHeartbeat]
      split
      · rw [Option.map_map]
        rfl
      · rfl

def RegistryReport.createdKey? (id : String) : RegistryReport → Option String
  | .created _ agent => if agent.id = id then some agent.publicKey else none
  | _ => none

namespace Registry

/-- The keys announced for an agent, in the order of their commits. -/
def announced (log : List RegistryReport) (id : String) : List String :=
  log.filterMap (RegistryReport.createdKey? id)

/-- Each stored key was announced once and nothing else was; a row that waits for its
commit has a key of its own, and every key is valid. -/
structure Bound (w : Registry) (log : List RegistryReport) : Prop where
  once : ∀ id, announced log id = (w.store.keyOf? id).toList
  valid : ∀ id k, w.store.keyOf? id = some k → validatePublicKey k = .ok k
  waiting : ∀ (i : Nat) (agent : Agent), w.registrations[i]? = some (.inserted agent) →
    w.store.keyOf? agent.id = none ∧ validatePublicKey agent.publicKey = .ok agent.publicKey
  alone : ∀ (i j : Nat) (agent other : Agent), w.registrations[i]? = some (.inserted agent) →
    w.registrations[j]? = some (.inserted other) → agent.id = other.id → i = j

variable {w : Registry} {log : List RegistryReport}

theorem become_cases {i j : Nat} {r x : Registration}
    (h : (w.become i r).registrations[j]? = some x) :
    (j = i ∧ x = r) ∨ (j ≠ i ∧ w.registrations[j]? = some x) := by
  simp only [become, List.getElem?_set] at h
  split at h
  · rename_i same
    split at h
    · exact .inl ⟨same.symm, (Option.some.inj h).symm⟩
    · cases h
  · rename_i other
    exact .inr ⟨fun same => other same.symm, h⟩

theorem inserted_asked {i : Nat} {body : RegisterAgentRequest} {agent : Agent}
    (holds : (w.registrations ++ [.asked body])[i]? = some (.inserted agent)) :
    w.registrations[i]? = some (.inserted agent) := by
  rw [List.getElem?_append] at holds
  split at holds
  · exact holds
  · rw [List.getElem?_singleton] at holds
    split at holds <;> cases holds

/-- A registration that does not hold a row afterwards, and reports no creation. -/
theorem Bound.settle (h : Bound w log) {i : Nat} {r : Registration} (free : r.pending? = none)
    {reports : List RegistryReport} (silent : ∀ id, announced reports id = []) :
    Bound (w.become i r) (log ++ reports) := by
  have kept : ∀ {j : Nat} {agent : Agent}, (w.become i r).registrations[j]? = some (.inserted agent) →
      w.registrations[j]? = some (.inserted agent) := by
    intro j agent holds
    rcases become_cases holds with ⟨_, same⟩ | ⟨_, old⟩
    · rw [← same] at free
      cases free
    · exact old
  refine ⟨fun id => ?_, h.valid, fun j agent holds => h.waiting j agent (kept holds),
    fun j k agent other holds holds' => h.alone j k agent other (kept holds) (kept holds')⟩
  rw [announced, List.filterMap_append, ← announced, ← announced, silent, List.append_nil]
  exact h.once id

theorem Bound.silent (h : Bound w log) {reports : List RegistryReport}
    (silent : ∀ id, announced reports id = []) : Bound w (log ++ reports) := by
  refine ⟨fun id => ?_, h.valid, h.waiting, h.alone⟩
  rw [announced, List.filterMap_append, ← announced, ← announced, silent, List.append_nil]
  exact h.once id

theorem announced_found (i : Nat) (body : RegisterAgentRequest) (existing : Agent) (id : String) :
    announced [answerFound i body existing] id = [] := by
  unfold answerFound
  split <;> rfl

theorem mem_pending {i : Nat} {agent : Agent} (holds : w.registrations[i]? = some (.inserted agent)) :
    some agent.id ∈ w.registrations.map Registration.pending? :=
  List.mem_map.mpr ⟨_, List.mem_of_getElem? holds, rfl⟩

theorem Bound.inserts (h : Bound w log) {i : Nat} {body : RegisterAgentRequest} {now : Time}
    (free : some body.agentId ∉ w.registrations.map Registration.pending?)
    (absent : w.store.agents.find? body.agentId = none) :
    Bound (w.become i (.inserted (body.row now))) (log ++ []) := by
  have unstored : w.store.keyOf? body.agentId = none := by
    rw [Store.keyOf?, absent]
    rfl
  have apart : ∀ {j : Nat} {agent : Agent}, w.registrations[j]? = some (.inserted agent) →
      agent.id ≠ body.agentId := by
    intro j agent holds same
    apply free
    rw [← same]
    exact mem_pending holds
  refine ⟨fun id => ?_, h.valid, fun j agent holds => ?_, fun j k agent other holds holds' same => ?_⟩
  · rw [List.append_nil]
    exact h.once id
  · rcases become_cases holds with ⟨_, new⟩ | ⟨_, old⟩
    · cases new
      exact ⟨unstored, body.validKey⟩
    · exact h.waiting j agent old
  · rcases become_cases holds with ⟨rfl, new⟩ | ⟨_, old⟩
    · cases new
      rcases become_cases holds' with ⟨rfl, _⟩ | ⟨_, old'⟩
      · rfl
      · exact absurd same.symm (apart old')
    · rcases become_cases holds' with ⟨_, new'⟩ | ⟨_, old'⟩
      · cases new'
        exact absurd same (apart old)
      · exact h.alone j k agent other old old' same

theorem Bound.commits (h : Bound w log) {i : Nat} {agent : Agent} {agents : Table String Agent Agent.id}
    (holds : w.registrations[i]? = some (.inserted agent))
    (inserted : w.store.agents.insert? agent = some agents) :
    Bound ({ w with monitored := { w.monitored with store := { w.store with agents } } }.become i .ended)
      (log ++ [.created i agent]) := by
  obtain ⟨unstored, valid⟩ := h.waiting i agent holds
  have keys : ∀ id, Store.keyOf? { w.store with agents } id =
      if agent.id = id then some agent.publicKey else w.store.keyOf? id := by
    intro id
    simp only [Store.keyOf?, Table.find?_insert? inserted]
    split <;> rfl
  refine ⟨fun id => ?_, fun id k stored => ?_, fun j other waits => ?_, fun j k a b waits waits' => ?_⟩
  · rw [announced, List.filterMap_append, ← announced, h.once id]
    change _ = (Store.keyOf? { w.store with agents } id).toList
    rw [keys]
    by_cases own : agent.id = id
    · subst own
      simp [unstored, RegistryReport.createdKey?]
    · simp [own, RegistryReport.createdKey?]
  · change Store.keyOf? { w.store with agents } id = some k at stored
    rw [keys] at stored
    split at stored
    · cases stored
      exact valid
    · exact h.valid id k stored
  · rcases become_cases waits with ⟨_, new⟩ | ⟨apart, old⟩
    · cases new
    · obtain ⟨unstored', valid'⟩ := h.waiting j other old
      refine ⟨?_, valid'⟩
      change Store.keyOf? { w.store with agents } other.id = none
      rw [keys, if_neg, unstored']
      intro same
      exact apart (h.alone j i other agent old holds same.symm)
  · rcases become_cases waits with ⟨_, new⟩ | ⟨_, old⟩
    · cases new
    · rcases become_cases waits' with ⟨_, new⟩ | ⟨_, old'⟩
      · cases new
      · exact h.alone j k a b old old'

theorem Bound.step (h : Bound w log) (timeoutSeconds : Int) (statement : RegistryStatement) :
    Bound (w.step timeoutSeconds statement).1 (log ++ (w.step timeoutSeconds statement).2) := by
  have same : Bound w (log ++ []) := h.silent fun _ => rfl
  have outcome := w.step_outcome timeoutSeconds statement
  generalize w.step timeoutSeconds statement = r at *
  cases outcome with
  | monitored statement =>
      have keys := Monitored.step_keyOf timeoutSeconds w.monitored statement
      refine ⟨fun id => ?_, fun id k stored => ?_, fun i agent waits => ?_, h.alone⟩
      · exact (same.once id).trans (congrArg Option.toList (keys id).symm)
      · exact h.valid id k ((keys id).symm.trans stored)
      · obtain ⟨unstored, valid⟩ := h.waiting i agent waits
        exact ⟨(keys agent.id).trans unstored, valid⟩
  | asked body =>
      exact ⟨same.once, h.valid, fun i agent waits => h.waiting i agent (inserted_asked waits),
        fun i j agent other waits waits' =>
          h.alone i j agent other (inserted_asked waits) (inserted_asked waits')⟩
  | idle => exact same
  | answered holds found => exact h.settle rfl (announced_found _ _ _)
  | absent holds missing => exact h.settle rfl fun _ => rfl
  | failed own => exact h.settle rfl fun _ => rfl
  | inserted holds free missing => exact h.inserts free missing
  | created holds inserted => exact h.commits holds inserted

/-! ## A registration that begins after the commit -/

variable {i : Nat} {body : RegisterAgentRequest}

theorem answerFound_index (i : Nat) (body : RegisterAgentRequest) (existing : Agent) :
    (answerFound i body existing).index = i := by
  unfold answerFound
  split <;> rfl

theorem quiet_nil (i : Nat) : ∀ o ∈ ([] : List RegistryReport), o.index ≠ i := by
  intro o member
  cases member

theorem step_other (timeoutSeconds : Int) {statement : RegistryStatement} {r : Registration}
    (holds : w.registrations[i]? = some r) (other : statement.index? ≠ some i) :
    (w.step timeoutSeconds statement).1.registrations[i]? = some r ∧
      ∀ o ∈ (w.step timeoutSeconds statement).2, o.index ≠ i := by
  have apart : ∀ {j r'}, j ≠ i → (w.become j r').registrations[i]? = some r := by
    intro j r' different
    rw [become, List.getElem?_set_ne different]
    exact holds
  have single : ∀ {j : Nat} {o : RegistryReport}, o.index = j → j ≠ i → ∀ x ∈ [o], x.index ≠ i := by
    rintro j o rfl different x member
    rw [List.mem_singleton.mp member]
    exact different
  have different : ∀ {j}, statement.index? = some j → j ≠ i := by
    rintro j own rfl
    exact other own
  have outcome := w.step_outcome timeoutSeconds statement
  generalize w.step timeoutSeconds statement = moved at *
  cases outcome with
  | monitored statement => exact ⟨holds, quiet_nil i⟩
  | asked body =>
      refine ⟨?_, quiet_nil i⟩
      rw [← holds]
      exact List.getElem?_append_left (List.getElem?_eq_some_iff.mp holds).1
  | idle => exact ⟨holds, quiet_nil i⟩
  | @answered j body existing _ _ =>
      exact ⟨apart (different rfl), single (answerFound_index j body existing) (different rfl)⟩
  | absent _ _ => exact ⟨apart (different rfl), quiet_nil i⟩
  | failed own => exact ⟨apart (different own), single rfl (different own)⟩
  | inserted _ _ _ => exact ⟨apart (different rfl), quiet_nil i⟩
  | created _ _ => exact ⟨apart (different rfl), single rfl (different rfl)⟩

theorem step_ended (timeoutSeconds : Int) (statement : RegistryStatement)
    (holds : w.registrations[i]? = some .ended) :
    (w.step timeoutSeconds statement).1.registrations[i]? = some .ended ∧
      ∀ o ∈ (w.step timeoutSeconds statement).2, o.index ≠ i := by
  by_cases own : statement.index? = some i
  · have still : w.step timeoutSeconds statement = (w, []) := by
      cases statement with
      | monitor _ | register _ => cases own
      | getAgent j | insert j now | commit j | abort j =>
          cases own
          simp only [Registry.step, holds]
    rw [still]
    exact ⟨holds, quiet_nil i⟩
  · exact step_other timeoutSeconds holds own

theorem step_asked (timeoutSeconds : Int) {statement : RegistryStatement}
    (holds : w.registrations[i]? = some (.asked body)) (other : statement ≠ .getAgent i) :
    (w.step timeoutSeconds statement).1.registrations[i]? = some (.asked body) ∧
      ∀ o ∈ (w.step timeoutSeconds statement).2, o.index ≠ i := by
  by_cases own : statement.index? = some i
  · have still : w.step timeoutSeconds statement = (w, []) := by
      cases statement with
      | monitor _ | register _ => cases own
      | getAgent j =>
          cases own
          exact absurd rfl other
      | insert j now | commit j | abort j =>
          cases own
          simp only [Registry.step, holds]
    rw [still]
    exact ⟨holds, quiet_nil i⟩
  · exact step_other timeoutSeconds holds own

theorem step_reads (timeoutSeconds : Int) {existing : Agent}
    (holds : w.registrations[i]? = some (.asked body))
    (stored : w.store.agents.find? body.agentId = some existing) :
    w.step timeoutSeconds (.getAgent i) = (w.become i .ended, [answerFound i body existing]) := by
  simp only [Registry.step, holds, stored]

/-- What becomes of a registration that has been asked: nothing yet, or its read found a
row, changed nothing else and gave its only answer. -/
def Settles (timeoutSeconds : Int) (w : Registry) (i : Nat) (body : RegisterAgentRequest) (k : String)
    (statements : List RegistryStatement) : Prop :=
  let (last, reports) := (registry timeoutSeconds).run w statements
  (last.registrations[i]? = some (.asked body) ∧ ∀ o ∈ reports, o.index ≠ i) ∨
    ∃ before after existing, statements = before ++ .getAgent i :: after ∧
      let now := ((registry timeoutSeconds).run w before).1
      now.store.agents.find? body.agentId = some existing ∧ existing.publicKey = k ∧
        now.step timeoutSeconds (.getAgent i) = (now.become i .ended, [answerFound i body existing]) ∧
        last.registrations[i]? = some .ended ∧
        reports.filter (fun o => o.index = i) = [answerFound i body existing]

theorem run_keyOf (timeoutSeconds : Int) {log : List RegistryReport} (h : Bound w log) {id k : String}
    (stored : w.store.keyOf? id = some k) (statements : List RegistryStatement) :
    ((registry timeoutSeconds).run w statements).1.store.keyOf? id = some k := by
  have bound : Bound ((registry timeoutSeconds).run w statements).1
      (log ++ ((registry timeoutSeconds).run w statements).2) :=
    Machine.run_invariant (M := registry timeoutSeconds) (P := fun _ _ => True)
      (fun _ _ statement bound _ => bound.step timeoutSeconds statement) h
      (Machine.along_true w statements)
  have once := bound.once id
  rw [announced, List.filterMap_append, ← announced, h.once id, stored] at once
  cases key : ((registry timeoutSeconds).run w statements).1.store.keyOf? id with
  | none => rw [key] at once; cases once
  | some k' =>
      rw [key] at once
      obtain ⟨same, -⟩ := List.cons.inj once
      rw [same]

theorem settles (timeoutSeconds : Int) {log : List RegistryReport} (h : Bound w log) {k : String}
    (stored : w.store.keyOf? body.agentId = some k) (holds : w.registrations[i]? = some (.asked body))
    (statements : List RegistryStatement) : Settles timeoutSeconds w i body k statements := by
  induction statements using List.reverseRecOn with
  | nil => exact .inl ⟨holds, quiet_nil i⟩
  | append_singleton statements statement ih =>
      simp only [Settles, Machine.run_snoc]
      rcases ih with ⟨asked, quiet⟩ | ⟨before, after, existing, split, found, key, read, ended, answer⟩
      · by_cases read : statement = .getAgent i
        · subst read
          obtain ⟨existing, found, key⟩ :=
            Option.map_eq_some_iff.mp (run_keyOf timeoutSeconds h stored statements)
          have reads := step_reads timeoutSeconds asked found
          refine .inr ⟨statements, [], existing, rfl, found, key, reads, ?_, ?_⟩
          · change (Registry.step timeoutSeconds _ (.getAgent i)).1.registrations[i]? = _
            rw [reads]
            exact List.getElem?_set_self (List.getElem?_eq_some_iff.mp asked).1
          · change List.filter _ (_ ++ (Registry.step timeoutSeconds _ (.getAgent i)).2) = _
            rw [reads, List.filter_append, List.filter_eq_nil_iff.mpr]
            · simp [answerFound_index]
            · intro o member
              simpa using quiet o member
        · obtain ⟨still, more⟩ := step_asked timeoutSeconds asked read
          refine .inl ⟨still, fun o member => ?_⟩
          rcases List.mem_append.mp member with old | new
          · exact quiet o old
          · exact more o new
      · obtain ⟨still, more⟩ := step_ended timeoutSeconds statement ended
        refine .inr ⟨before, after ++ [statement], existing, ?_, found, key, read, still, ?_⟩
        · rw [split, List.append_assoc, List.cons_append]
        · change List.filter _ (_ ++ (Registry.step timeoutSeconds _ statement).2) = _
          rw [List.filter_append, answer, List.filter_eq_nil_iff.mpr, List.append_nil]
          intro o member
          simpa using more o member

/-- What can be trusted of a store from here on, given the reports so far. -/
structure Trusted (timeoutSeconds : Int) (w : Registry) (log : List RegistryReport) : Prop where
  kept : ∀ later id k, w.store.keyOf? id = some k →
    ((registry timeoutSeconds).run w later).1.store.keyOf? id = some k
  once : ∀ id, (announced log id).length ≤ 1
  settled : ∀ (body : RegisterAgentRequest) k, w.store.keyOf? body.agentId = some k → ∀ later,
    Settles timeoutSeconds (w.step timeoutSeconds (.register body)).1 w.registrations.length body k later
  lookup : ∀ C : Crypto, (∀ raw, raw.length = 32 → ∃ key, C.fromPublicBytes raw = .ok key) →
    ∀ id a, w.store.agents.find? id = some a → ∃ i first raw key, .created i first ∈ log ∧
      first.id = id ∧ Base64.b64decode first.publicKey = .ok raw ∧ raw.length = 32 ∧
      C.fromPublicBytes raw = .ok key ∧ storedKey C w.store id = .ok (some key)

theorem mem_announced {log : List RegistryReport} {id k : String} (member : k ∈ announced log id) :
    ∃ i first, .created i first ∈ log ∧ first.id = id ∧ first.publicKey = k := by
  obtain ⟨o, logged, key⟩ := List.mem_filterMap.mp member
  cases o with
  | created i first =>
      simp only [RegistryReport.createdKey?] at key
      split at key
      · rename_i own
        exact ⟨i, first, logged, own, Option.some.inj key⟩
      · cases key
  | found | refused | failed => cases key

theorem Bound.trusted {log : List RegistryReport} (h : Bound w log) (timeoutSeconds : Int) :
    Trusted timeoutSeconds w log where
  kept later id k stored := run_keyOf timeoutSeconds h stored later
  once id := by
    rw [h.once id]
    cases w.store.keyOf? id with
    | none => exact Nat.zero_le 1
    | some k => exact Nat.le_refl 1
  settled body k stored later := by
    refine settles timeoutSeconds (h.step timeoutSeconds (.register body)) stored ?_ later
    simp only [Registry.step, List.getElem?_append_right (Nat.le_refl _), Nat.sub_self,
      List.getElem?_cons_zero]
  lookup C takes id a stored := by
    have key : w.store.keyOf? id = some a.publicKey := by rw [Store.keyOf?, stored]; rfl
    have once : a.publicKey ∈ announced log id := by
      rw [h.once id, key]
      exact List.mem_singleton_self _
    obtain ⟨i, first, logged, own, same⟩ := mem_announced once
    obtain ⟨raw, decoded, size⟩ := validatePublicKey_decodes (h.valid id _ key)
    obtain ⟨publicKey, read⟩ := takes raw size
    refine ⟨i, first, raw, publicKey, logged, own, same ▸ decoded, size, read, ?_⟩
    simp [storedKey, stored, decoded, read, bind, Except.bind, pure, Except.pure]

end Registry

/-- After every interleaving of registrations, heartbeats and sweeps from an empty table:
a stored key stays, an agent is created at most once, whoever asks for it later is
answered with its row or refused, and its key is the 32 bytes first registered. -/
theorem identity_bound (timeoutSeconds : Int) {s : Store} (empty : s.agents.rows = [])
    (statements : List RegistryStatement) :
    Registry.Trusted timeoutSeconds
      ((registry timeoutSeconds).run { monitored := { store := s } } statements).1
      ((registry timeoutSeconds).run { monitored := { store := s } } statements).2 := by
  apply Registry.Bound.trusted
  have absent : ∀ id, s.keyOf? id = none := by
    intro id
    have none : s.agents.find? id = none := by
      rw [Table.find?_eq_none]
      intro a member
      rw [← Table.mem_rows, empty] at member
      cases member
    rw [Store.keyOf?, none]
    rfl
  refine Machine.run_establishes (M := registry timeoutSeconds) (P := fun _ _ => True)
    (fun _ _ statement bound _ => bound.step timeoutSeconds statement) ?_ (Machine.along_true _ statements)
  have idle : ∀ (i : Nat) (agent : Agent), ([] : List Registration)[i]? ≠ some (.inserted agent) := by
    intro i agent
    rw [List.getElem?_nil]
    exact nofun
  refine ⟨fun id => ?_, fun id k stored => ?_, fun i agent waits => absurd waits (idle i agent),
    fun i _ agent _ waits => absurd waits (idle i agent)⟩
  · change [] = (s.keyOf? id).toList
    rw [absent]
    rfl
  · change s.keyOf? id = some k at stored
    rw [absent] at stored
    cases stored

namespace Demo

def unregistered : Store := { store with agents := .empty, workflows := .empty }

def keyText (c : Char) : String := String.ofList (List.replicate 43 c) ++ "="

def registration (c : Char) (valid : validatePublicKey (keyText c) = .ok (keyText c)) :
    RegisterAgentRequest where
  agentId := "agent"
  publicKey := keyText c
  validId := by decide
  validKey := valid

/-- Two first registrations of one agent with different keys: both find no row, the
second insert waits for the first and is refused. -/
def racing : List RegistryStatement := [
  .register (registration 'A' (by decide +kernel)), .register (registration 'E' (by decide +kernel)),
  .getAgent 0, .getAgent 1, .insert 0 1, .insert 1 2, .commit 0, .insert 1 3, .commit 1]

example : (((registry 90).run { monitored := { store := unregistered } } racing).2.map fun o =>
    match o with
    | .created i _ => (i, true)
    | o => (o.index, false)) = [(0, true), (1, false)] := by decide +kernel

end Demo

theorem identity_bound_racing : Demo.unregistered.agents.rows = [] ∧
    Registry.Trusted 90
      ((registry 90).run { monitored := { store := Demo.unregistered } } Demo.racing).1
      ((registry 90).run { monitored := { store := Demo.unregistered } } Demo.racing).2 :=
  ⟨rfl, identity_bound 90 rfl Demo.racing⟩

end Fleet.Api
