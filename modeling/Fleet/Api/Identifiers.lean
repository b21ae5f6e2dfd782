/- The ids that the two validators accept, and the texts that an id is written into. -/
import Fleet.Api.Registration
import Fleet.Api.Workflows

namespace Fleet.Api
open Fleet.Lib Fleet.Lib.Urllib

/-! ## The documented language -/

/-- 1 to 128 letters, digits and hyphens, the first a letter or a digit. -/
structure Documented (id : String) : Prop where
  nonempty : 1 ≤ id.length
  short : id.length ≤ 128
  characters : ∀ c ∈ id.toList, c.isAlphanum = true ∨ c = '-'
  first : ∀ c, id.toList.head? = some c → c.isAlphanum = true

/-- A documented id with a line break after it. -/
def BreakEnded (v : String) : Prop := ∃ id, Documented id ∧ v = id ++ "\n"

def AcceptsAgentId (v : String) : Prop := validateAgentId v = .ok v

def AcceptsWorkflowId (v : String) : Prop := validateWorkflowId v = .ok ()

structure Exact (v : String) : Prop where
  agent : AcceptsAgentId v ↔ Documented v
  workflow : AcceptsWorkflowId v ↔ Documented v

theorem Documented.unbroken {id : String} (h : Documented id) : '\n' ∉ id.toList := by
  intro member
  rcases h.characters _ member with letter | hyphen
  · exact absurd letter (by decide)
  · exact absurd hyphen (by decide)

theorem BreakEnded.broken {v : String} (h : BreakEnded v) : '\n' ∈ v.toList := by
  obtain ⟨id, -, rfl⟩ := h
  simp

/-! ## What the patterns match -/

/-- What the expression of a pattern is matched with, the `$` apart. -/
def beforeEnd (v : List Char) : List Char := if v.getLast? = some '\n' then v.dropLast else v

/-- A letter or a digit, then letters, digits and hyphens. -/
def shaped (v : List Char) : Bool :=
  v.head?.any Char.isAlphanum && v.tail.all (fun c => c.isAlphanum || c = '-')

theorem shaped_iff {v : List Char} : shaped v = true ↔
    v ≠ [] ∧ (∀ c ∈ v, c.isAlphanum = true ∨ c = '-') ∧
      ∀ c, v.head? = some c → c.isAlphanum = true := by
  cases v with
  | nil => simp [shaped]
  | cons c v =>
      simp only [shaped, List.head?_cons, Option.any_some, List.tail_cons, Bool.and_eq_true,
        List.all_eq_true, Bool.or_eq_true, decide_eq_true_eq, List.mem_cons, Option.some.injEq,
        ne_eq, reduceCtorEq, not_false_eq_true, true_and, forall_eq', forall_eq_or_imp]
      constructor
      · rintro ⟨first, rest⟩
        exact ⟨⟨.inl first, rest⟩, first⟩
      · rintro ⟨⟨_, rest⟩, first⟩
        exact ⟨first, rest⟩

theorem documented_iff {id : String} : Documented id ↔ shaped id.toList = true ∧ id.length ≤ 128 := by
  have length : id.length = id.toList.length := String.length_toList.symm
  rw [shaped_iff]
  constructor
  · rintro ⟨nonempty, short, characters, first⟩
    refine ⟨⟨?_, characters, first⟩, short⟩
    intro empty
    rw [length, empty] at nonempty
    cases nonempty
  · rintro ⟨⟨nonempty, characters, first⟩, short⟩
    exact ⟨length ▸ List.length_pos_iff.mpr nonempty, short, characters, first⟩

theorem beforeEnd_shaped {v : List Char} (h : shaped v = true) : beforeEnd v = v := by
  have unbroken : v.getLast? ≠ some '\n' := by
    intro last
    rcases (shaped_iff.mp h).2.1 _ (List.mem_of_getLast? last) with letter | hyphen
    · exact absurd letter (by decide)
    · exact absurd hyphen (by decide)
  exact if_neg unbroken

theorem beforeEnd_append (v : List Char) : beforeEnd (v ++ ['\n']) = v := by
  simp [beforeEnd]

theorem beforeEnd_cases {v : String} (h : shaped (beforeEnd v.toList) = true) :
    shaped v.toList = true ∨ ∃ id : String, shaped id.toList = true ∧ v = id ++ "\n" := by
  by_cases last : v.toList.getLast? = some '\n'
  · obtain ⟨front, shape⟩ := List.getLast?_eq_some_iff.mp last
    rw [shape, beforeEnd_append] at h
    refine .inr ⟨String.ofList front, by rwa [String.toList_ofList], ?_⟩
    rw [← String.toList_inj, shape, String.toList_append, String.toList_ofList]
    rfl
  · rw [beforeEnd, if_neg last] at h
    exact .inl h

theorem matched_iff {v : String} :
    (shaped (beforeEnd v.toList) = true ∧ (beforeEnd v.toList).length ≤ 128) ↔
      Documented v ∨ BreakEnded v := by
  have broken : ∀ id : String, beforeEnd (id ++ "\n").toList = id.toList := by
    intro id
    rw [String.toList_append]
    exact beforeEnd_append id.toList
  constructor
  · rintro ⟨matched, short⟩
    rcases beforeEnd_cases matched with own | ⟨id, own, rfl⟩
    · rw [beforeEnd_shaped own, String.length_toList] at short
      exact .inl (documented_iff.mpr ⟨own, short⟩)
    · rw [broken, String.length_toList] at short
      exact .inr ⟨id, documented_iff.mpr ⟨own, short⟩, rfl⟩
  · rintro (documented | ⟨id, documented, rfl⟩)
    · obtain ⟨own, short⟩ := documented_iff.mp documented
      rw [beforeEnd_shaped own, String.length_toList]
      exact ⟨own, short⟩
    · obtain ⟨own, short⟩ := documented_iff.mp documented
      rw [broken, String.length_toList]
      exact ⟨own, short⟩

theorem isSpace_alphanum {c : Char} (h : c.isAlphanum = true) : isSpace c = false := by
  have range : 48 ≤ c.toNat ∧ c.toNat ≤ 122 := by
    change ((c.isUpper || c.isLower) || c.isDigit) = true at h
    rw [Bool.or_eq_true, Bool.or_eq_true] at h
    rcases h with (upper | lower) | digit
    · have bounds : 'A'.toNat ≤ c.toNat ∧ c.toNat ≤ 'Z'.toNat := of_decide_eq_true upper
      exact ⟨Nat.le_trans (by decide) bounds.1, Nat.le_trans bounds.2 (by decide)⟩
    · obtain ⟨low, high⟩ := Bool.and_eq_true_iff.mp lower
      have low : 'a'.toNat ≤ c.toNat := of_decide_eq_true low
      have high : c.toNat ≤ 'z'.toNat := of_decide_eq_true high
      exact ⟨Nat.le_trans (by decide) low, Nat.le_trans high (by decide)⟩
    · obtain ⟨low, high⟩ := Bool.and_eq_true_iff.mp digit
      have low : '0'.toNat ≤ c.toNat := of_decide_eq_true low
      have high : c.toNat ≤ '9'.toNat := of_decide_eq_true high
      exact ⟨Nat.le_trans (by decide) low, Nat.le_trans high (by decide)⟩
  simp only [isSpace, Bool.or_eq_false_iff, Bool.and_eq_false_iff, decide_eq_false_iff_not]
  omega

theorem blankText_matched {v : String} (h : shaped (beforeEnd v.toList) = true) : blankText v = false := by
  have letter : ∃ c ∈ v.toList, c.isAlphanum = true := by
    rcases beforeEnd_cases h with own | ⟨id, own, rfl⟩
    · obtain ⟨nonempty, -, first⟩ := shaped_iff.mp own
      exact ⟨_, List.head_mem nonempty, first _ (List.head?_eq_some_head nonempty)⟩
    · obtain ⟨nonempty, -, first⟩ := shaped_iff.mp own
      refine ⟨_, ?_, first _ (List.head?_eq_some_head nonempty)⟩
      rw [String.toList_append]
      exact List.mem_append_left _ (List.head_mem nonempty)
  obtain ⟨c, member, alphanumeric⟩ := letter
  rw [blankText, List.all_eq_false]
  exact ⟨c, member, by simp [isSpace_alphanum alphanumeric]⟩

theorem acceptsWorkflowId_iff {v : String} : AcceptsWorkflowId v ↔ Documented v ∨ BreakEnded v := by
  have pattern : workflowIdPattern v.toList = true ↔ Documented v ∨ BreakEnded v := by
    rw [← matched_iff, ← decide_eq_true_iff (p := (beforeEnd v.toList).length ≤ 128), ← Bool.and_eq_true]
    exact Iff.rfl
  rw [← pattern, AcceptsWorkflowId, validateWorkflowId]
  by_cases empty : v = ""
  · subst empty
    simp [workflowIdPattern]
  · cases workflowIdPattern v.toList <;> simp [empty]

theorem acceptsAgentId_iff {v : String} :
    AcceptsAgentId v ↔ (Documented v ∨ BreakEnded v) ∧ v.length ≤ 128 := by
  have length : (beforeEnd v.toList).length ≤ v.length := by
    rw [← String.length_toList, beforeEnd]
    split
    · rw [List.length_dropLast]
      exact Nat.sub_le _ _
    · exact Nat.le_refl _
  rw [← matched_iff, AcceptsAgentId, validateAgentId]
  change _ ↔ (agentIdPattern v.toList = true ∧ _) ∧ _
  by_cases short : v.length ≤ 128
  · cases matched : agentIdPattern v.toList with
    | true => simp [blankText_matched matched, short, Nat.not_lt.mpr short, length.trans short]
    | false => by_cases blank : blankText v <;> simp [blank, Nat.not_lt.mpr short]
  · by_cases blank : blankText v <;> simp [blank, short, Nat.not_le.mp short]

theorem exact_iff {v : String} : Exact v ↔ ¬ BreakEnded v := by
  constructor
  · intro exact broken
    have documented := exact.workflow.mp (acceptsWorkflowId_iff.mpr (.inr broken))
    exact documented.unbroken broken.broken
  · intro unbroken
    constructor
    · rw [acceptsAgentId_iff]
      exact ⟨fun h => h.1.resolve_right unbroken, fun h => ⟨.inl h, h.short⟩⟩
    · rw [acceptsWorkflowId_iff]
      exact ⟨fun h => h.resolve_right unbroken, .inl⟩

/-! ## The texts an id is written into -/

/-- The id stands for itself in a path, in an authorization header and in a line of the
signing string. -/
structure Embeds (id : String) : Prop where
  path : ∀ front back : List (List Char), (∀ s ∈ front ++ back, PlainSegment s) →
    '%' ∉ (urlsplit (String.ofList (joinPath (front ++ id.toList :: back)))).path ∧
    (urlsplit (String.ofList (joinPath (front ++ id.toList :: back)))).path.splitOn '/' =
      [] :: (front ++ id.toList :: back)
  authorization : ∀ signature, signature ≠ [] →
    '\n' ∉ (s!"Signature {id}:{Base64.b64encode signature}").toList ∧
    parseAuthorizationHeader s!"Signature {id}:{Base64.b64encode signature}" = .ok (id, signature)
  signingString : ∀ (C : Crypto) (method front back timestamp : String) (body : Bytes),
    (∀ part ∈ [method, front, back, timestamp, C.sha256 body], '\n' ∉ part.toList) →
    ∃ text : String, buildSigningString C method (front ++ id ++ back) timestamp body = utf8 text ∧
      text.toList.splitOn '\n' =
        [method.toList, (front ++ id ++ back).toList, timestamp.toList, (C.sha256 body).toList]

theorem Documented.plainSegment {id : String} (h : Documented id) : PlainSegment id.toList := by
  refine ⟨?_, fun c member => ?_⟩
  · have nonempty := h.nonempty
    rw [← String.length_toList] at nonempty
    exact List.length_pos_iff.mp nonempty
  · rcases h.characters c member with letter | rfl
    · simp [isUnreserved, letter]
    · decide

theorem Documented.embeds {id : String} (h : Documented id) : Embeds id where
  path front back plain := by
    have segments : ∀ s ∈ front ++ id.toList :: back, PlainSegment s := by
      intro s member
      rcases List.mem_append.mp member with before | here
      · exact plain s (List.mem_append_left _ before)
      · rcases List.mem_cons.mp here with rfl | after
        · exact h.plainSegment
        · exact plain s (List.mem_append_right _ after)
    rw [urlsplit_joinPath segments]
    exact ⟨joinPath_absent segments (by decide) (by decide), splitOn_joinPath segments⟩
  authorization signature signed := by
    have named : id ≠ "" ∧ ':' ∉ id.toList := by
      refine ⟨?_, h.plainSegment.absent (by decide)⟩
      rintro rfl
      exact absurd h.nonempty (by decide)
    refine ⟨?_, parseAuthorizationHeader_signed named signed⟩
    have payload : '\n' ∉ (Base64.b64encode signature).toList := by
      rw [Base64.b64encode, String.toList_ofList]
      exact Base64.encode_unbroken signature
    simp [toString, String.toList_append, h.unbroken, payload]
  signingString C method front back timestamp body plain := by
    refine ⟨s!"{method}\n{front ++ id ++ back}\n{timestamp}\n{C.sha256 body}", rfl, ?_⟩
    have line : '\n' ∉ (front ++ id ++ back).toList := by
      simp [String.toList_append, h.unbroken, plain front (by simp), plain back (by simp)]
    have shape : (s!"{method}\n{front ++ id ++ back}\n{timestamp}\n{C.sha256 body}").toList =
        method.toList ++ '\n' :: ((front ++ id ++ back).toList ++ '\n' ::
          (timestamp.toList ++ '\n' :: (C.sha256 body).toList)) := by
      simp [toString, String.toList_append]
    rw [shape, List.splitOn_append_cons_self_of_not_mem (plain method (by simp)),
      List.splitOn_append_cons_self_of_not_mem line,
      List.splitOn_append_cons_self_of_not_mem (plain timestamp (by simp)),
      List.splitOn_eq_singleton (plain (C.sha256 body) (by simp))]

/-- An accepted id can be written into all of them unless it ends in a line break. -/
theorem embeds_iff {id : String} (accepted : Documented id ∨ BreakEnded id) :
    Embeds id ↔ ¬ BreakEnded id := by
  constructor
  · intro embeds broken
    obtain ⟨unbroken, -⟩ := embeds.authorization [0] (by simp)
    apply unbroken
    simp [toString, String.toList_append, broken.broken]
  · intro unbroken
    exact (accepted.resolve_right unbroken).embeds

/-! ## The stored ids -/

namespace Registry
variable {w : Registry}

/-- Every id that is stored or waits for its commit was accepted. -/
structure Named (w : Registry) : Prop where
  stored : ∀ id k, w.store.keyOf? id = some k → AcceptsAgentId id
  waiting : ∀ (i : Nat) (agent : Agent), w.registrations[i]? = some (.inserted agent) →
    AcceptsAgentId agent.id

theorem Named.settle (h : Named w) {i : Nat} {r : Registration}
    (accepted : ∀ agent, r = .inserted agent → AcceptsAgentId agent.id) : Named (w.become i r) := by
  refine ⟨h.stored, fun j agent holds => ?_⟩
  rcases become_cases holds with ⟨_, same⟩ | ⟨_, old⟩
  · exact accepted agent same.symm
  · exact h.waiting j agent old

theorem Named.step (h : Named w) (timeoutSeconds : Int) (statement : RegistryStatement) :
    Named (w.step timeoutSeconds statement).1 := by
  have ended : ∀ i, Named (w.become i .ended) := fun i => h.settle fun agent same => by cases same
  have outcome := w.step_outcome timeoutSeconds statement
  generalize w.step timeoutSeconds statement = r at *
  cases outcome with
  | monitored statement =>
      refine ⟨fun id k stored => h.stored id k ?_, h.waiting⟩
      exact (Monitored.step_keyOf timeoutSeconds w.monitored statement id).symm.trans stored
  | asked body => exact ⟨h.stored, fun i agent waits => h.waiting i agent (inserted_asked waits)⟩
  | idle => exact h
  | answered holds found => exact ended _
  | absent holds missing => exact h.settle fun agent same => by cases same
  | failed own => exact ended _
  | @inserted i now body holds free missing =>
      refine h.settle fun agent same => ?_
      cases same
      exact body.validId
  | @created i agent agents holds inserted =>
      refine ⟨fun id k stored => ?_, (ended i).waiting⟩
      change Store.keyOf? { w.store with agents } id = some k at stored
      simp only [Store.keyOf?, Table.find?_insert? inserted] at stored
      split at stored
      · rename_i own
        exact own ▸ h.waiting i agent holds
      · exact h.stored id k stored

end Registry

theorem registry_named (timeoutSeconds : Int) {s : Store} (empty : s.agents.rows = [])
    (statements : List RegistryStatement) :
    ((registry timeoutSeconds).run { monitored := { store := s } } statements).1.Named := by
  refine Machine.run_keeps (M := registry timeoutSeconds) (I := Registry.Named)
    (fun _ statement named => named.step timeoutSeconds statement) ⟨fun id k stored => ?_, ?_⟩ statements
  · obtain ⟨a, found, -⟩ := Option.map_eq_some_iff.mp stored
    have member := (Table.find?_eq_some.mp found).1
    rw [← Table.mem_rows] at member
    change a ∈ s.agents.rows at member
    rw [empty] at member
    cases member
  · intro i agent waits
    rw [List.getElem?_nil] at waits
    cases waits

def Store.NamedWorkflows (s : Store) : Prop :=
  ∀ id w, s.workflows.find? id = some w → AcceptsWorkflowId id

theorem WorkflowCreate.validate_named {req : WorkflowCreate} (valid : req.validate = .ok ()) :
    AcceptsWorkflowId req.workflowId := by
  unfold validate at valid
  cases id : validateWorkflowId req.workflowId with
  | error e => rw [id] at valid; cases valid
  | ok _ => exact id

theorem CatalogStep.named (a : CatalogStep) {s : Store} (h : s.NamedWorkflows) :
    (a.exec s).NamedWorkflows := by
  intro id w found
  have own : ∀ {s : Store} {id : String} {w : Workflow}, s.workflows.find? id = some w → w.id = id :=
    fun stored => (Table.find?_eq_some.mp stored).2
  rw [← own found]
  refine a.exec_keeps (P := fun w => AcceptsWorkflowId w.id) (fun clk req valid => req.validate_named valid)
    (fun clk req loaded written assigned _ _ before => ?_) (fun id w stored => ?_) found
  · rw [assigned.id]
    exact before
  · rw [own stored]
    exact h id w stored

theorem catalogued_named {s : Store} (empty : s.workflows.rows = []) (steps : List CatalogStep) :
    (catalogued s steps).NamedWorkflows := by
  refine Machine.run_keeps (M := catalogue) (fun _ a named => a.named named) ?_ steps
  intro id w found
  rw [Table.find?_eq_some, ← Table.mem_rows, empty] at found
  cases found.1

/-- A validator is exact where the text is no id with a line break after it, and after any
run from empty tables so are the stored ids fit to be written as they are. -/
theorem identifiers_exact (v : String) (timeoutSeconds : Int)
    {s : Store} (noAgents : s.agents.rows = []) (statements : List RegistryStatement)
    {s' : Store} (noWorkflows : s'.workflows.rows = []) (steps : List CatalogStep) :
    (Exact v ↔ ¬ BreakEnded v) ∧
    (∀ id agent, ((registry timeoutSeconds).run
        { monitored := { store := s } } statements).1.store.agents.find? id = some agent →
      (Embeds id ↔ ¬ BreakEnded id)) ∧
    ∀ id workflow, (catalogued s' steps).workflows.find? id = some workflow →
      (Embeds id ↔ ¬ BreakEnded id) := by
  refine ⟨exact_iff, fun id agent stored => ?_, fun id workflow stored => ?_⟩
  · have accepted := (registry_named timeoutSeconds noAgents statements).stored id agent.publicKey
      (by rw [Store.keyOf?, stored]; rfl)
    exact embeds_iff (acceptsAgentId_iff.mp accepted).1
  · have accepted := catalogued_named noWorkflows steps id workflow stored
    exact embeds_iff (acceptsWorkflowId_iff.mp accepted)

namespace Demo

def brokenAgent : RegisterAgentRequest where
  agentId := "agent\n"
  publicKey := keyText 'I'
  validId := by decide
  validKey := by decide +kernel

def brokenAgents : List RegistryStatement := [.register brokenAgent, .getAgent 0, .insert 0 1, .commit 0]

def brokenWorkflows : List CatalogStep := [
  .call (.create (at' 0) { workflowId := "wf\n", ownerAgentId := "executor", name := "first" })]

end Demo

theorem identifiers_exact_stored :
    (Exact "agent" ↔ ¬ BreakEnded "agent") ∧
    (∀ id agent, ((registry 90).run { monitored := { store := Demo.unregistered } }
        Demo.brokenAgents).1.store.agents.find? id = some agent →
      (Embeds id ↔ ¬ BreakEnded id)) ∧
    ∀ id workflow, (catalogued Demo.agentsOnly Demo.brokenWorkflows).workflows.find? id = some workflow →
      (Embeds id ↔ ¬ BreakEnded id) :=
  identifiers_exact "agent" 90 rfl Demo.brokenAgents rfl Demo.brokenWorkflows

/-- Both validators accept an id with a line break after it, it is stored, and it breaks the
header it is written into. -/
theorem broken_ids_accepted :
    AcceptsAgentId "agent\n" ∧ AcceptsWorkflowId "wf\n" ∧
    ¬ Documented "agent\n" ∧ ¬ Documented "wf\n" ∧
    (((registry 90).run { monitored := { store := Demo.unregistered } }
      Demo.brokenAgents).1.store.agents.find? "agent\n").isSome ∧
    ((catalogued Demo.agentsOnly Demo.brokenWorkflows).workflows.find? "wf\n").isSome ∧
    ¬ Embeds "agent\n" ∧ ¬ Embeds "wf\n" := by
  have undocumented : ∀ id ∈ ["agent\n", "wf\n"], '\n' ∈ id.toList :=
    List.all_iff_forall_prop.mp (by decide)
  have written : ∀ id : String, '\n' ∈ id.toList → ¬ Embeds id := by
    intro id broken embeds
    obtain ⟨unbroken, -⟩ := embeds.authorization [0] (by simp)
    apply unbroken
    simp [toString, String.toList_append, broken]
  refine ⟨by unfold AcceptsAgentId; decide, by unfold AcceptsWorkflowId; decide,
    fun h => h.unbroken (undocumented _ (by simp)), fun h => h.unbroken (undocumented _ (by simp)),
    by decide +kernel, by decide +kernel, written _ (undocumented _ (by simp)),
    written _ (undocumented _ (by simp))⟩

end Fleet.Api
