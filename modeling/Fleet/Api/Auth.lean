/- Request signatures: the signing string, the headers, and the gate in front of the
   protected handlers. -/
import Fleet.Lib.Crypto
import Fleet.Lib.DateTime
import Fleet.Lib.Text
import Fleet.Api.Store

namespace Fleet.Api
open Fleet.Lib

/-- `request.url`: its delimiters and its line breaks are gone when it is split. -/
structure Url where
  path : String
  query : String
  path_plain : ∀ c ∈ path.toList, c ≠ '\n' ∧ c ≠ '?' ∧ c ≠ '#'
  query_plain : ∀ c ∈ query.toList, c ≠ '\n' ∧ c ≠ '#'

/-- What the router and the gate read of an HTTP request. `path` is the decoded path
that the router matches; `url` is put together by the framework. -/
structure Request where
  method : String
  path : String
  url : Url
  authorization : Option String
  fleetTimestamp : Option String
  body : Bytes
  method_plain : '\n' ∉ method.toList
  timestamp_plain : ∀ t, fleetTimestamp = some t → '\n' ∉ t.toList

/-- `±5` minutes. -/
def replayWindow : Int := 5 * 60 * 1000000

def unprotectedPaths : List String :=
  ["/", "/manifest", "/agents/register", "/health", "/openapi.json"]

structure AuthenticatedAgent (C : Crypto) where
  agentId : String
  publicKey : C.PublicKey

/-- An `HTTPException`, or a `ValueError` that nothing catches. -/
inductive AuthFailure where
  | http (statusCode : Nat) (code message : String)
  | python (message : String)
  deriving DecidableEq

def authError (code message : String) (statusCode : Nat := 401) : AuthFailure :=
  .http statusCode code message

/-! ## The signing string -/

def buildSigningString (C : Crypto) (method path timestamp : String) (body : Bytes) : Bytes :=
  let bodyHash := C.sha256 body
  utf8 s!"{method}\n{path}\n{timestamp}\n{bodyHash}"

def verifySignature (C : Crypto) (publicKey : C.PublicKey) (signingString signature : Bytes) : Bool :=
  C.verify publicKey signature signingString

/-- The path of the signing string, with the query when there is one. -/
def Url.target (url : Url) : String :=
  if url.query = "" then url.path else s!"{url.path}?{url.query}"

def parseAuthorizationHeader (header : String) : Except String (String × Bytes) :=
  if !"Signature ".toList.isPrefixOf header.toList then
    .error "Authorization header must start with 'Signature '"
  else
    match cut ':' (header.toList.drop "Signature ".length) with
    | none => .error "Authorization header must contain 'agent_id:signature'"
    | some (agentId, sigB64) =>
        if agentId = [] ∨ sigB64 = [] then .error "Empty agent_id or signature"
        else (Base64.b64decode (String.ofList sigB64)).map fun signature =>
          (String.ofList agentId, signature)

theorem parseAuthorizationHeader_signed {agentId : String} {signature : Bytes}
    (named : agentId ≠ "" ∧ ':' ∉ agentId.toList) (signed : signature ≠ []) :
    parseAuthorizationHeader s!"Signature {agentId}:{Base64.b64encode signature}" =
      .ok (agentId, signature) := by
  have text : (s!"Signature {agentId}:{Base64.b64encode signature}").toList =
      "Signature ".toList ++ (agentId.toList ++ ':' :: (Base64.b64encode signature).toList) := by
    simp [toString, String.toList_append]
  have start : "Signature ".toList.isPrefixOf
      ("Signature ".toList ++ (agentId.toList ++ ':' :: (Base64.b64encode signature).toList)) = true :=
    List.isPrefixOf_iff_prefix.mpr (List.prefix_append _ _)
  have agent : agentId.toList ≠ [] := by simpa using named.1
  have payload : (Base64.b64encode signature).toList ≠ [] := by
    simpa [Base64.b64encode_eq_empty] using signed
  rw [parseAuthorizationHeader, text, start, if_neg (by decide), List.drop_left' String.length_toList,
    cut_append named.2]
  simp only [agent, payload, or_self, if_false, String.ofList_toList, Base64.b64decode_b64encode]
  rfl

/-- A naive timestamp counts as UTC. -/
def validateTimestamp (now : Time) (timestampStr : String) : Except String Time :=
  match DateTime.fromisoformat timestampStr with
  | none => .error s!"Invalid timestamp format: {timestampStr}"
  | some ts =>
      if (now - ts.instantUtc).natAbs > replayWindow then
        .error s!"Timestamp {timestampStr} is outside the ±5 minute replay window"
      else .ok ts.instantUtc

/-- What a request presents: the agent and the signature of its authorization, and
the timestamp that was signed. -/
structure Presented where
  agentId : String
  signature : Bytes
  timestampStr : String

/-- The header and the timestamp, checked before anything is looked up. -/
def presented (now : Time) (req : Request) : Except AuthFailure Presented :=
  match req.authorization with
  | none => .error (authError "INVALID_SIGNATURE" "Missing Authorization header")
  | some authHeader =>
      match parseAuthorizationHeader authHeader with
      | .error e => .error (authError "INVALID_SIGNATURE" e)
      | .ok (agentId, signature) =>
          match req.fleetTimestamp with
          | none => .error (authError "INVALID_SIGNATURE" "Missing X-Fleet-Timestamp header")
          | some timestampStr =>
              match validateTimestamp now timestampStr with
              | .error e => .error (authError "TIMESTAMP_EXPIRED" e)
              | .ok _ => .ok { agentId, signature, timestampStr }

/-! ## The gate -/

/-- The gate only reads. -/
abbrev Gate := Prog Store Empty AuthFailure

abbrev Gate.wp {α : Type} (G : Store → Store → Prop) (p : Gate α)
    (Q : Except AuthFailure α → Store → Prop) (s : Store) : Prop :=
  Prog.wp (fun w _ => w.elim) G (fun _ w => w.elim) p Q s

/-- The key of an agent's row; the error is the `ValueError` of a key that cannot be
read. -/
def storedKey (C : Crypto) (s : Store) (agentId : String) : Except String (Option C.PublicKey) :=
  match s.agents.find? agentId with
  | none => .ok none
  | some agent => do
      let rawBytes ← Base64.b64decode agent.publicKey
      let key ← C.fromPublicBytes rawBytes
      return some key

def suspended (s : Store) (agentId : String) : Bool :=
  (s.agents.find? agentId).any fun agent => agent.status = .suspended

def getAgentPublicKey (C : Crypto) (agentId : String) : Gate (Option C.PublicKey) :=
  .read fun s =>
    match storedKey C s agentId with
    | .ok key => pure key
    | .error e => Prog.raise (.python e)

def isAgentSuspended (agentId : String) : Gate Bool := .read fun s => pure (suspended s agentId)

/-- The agent, its suspension and the signature, each against what is stored. -/
def authenticate (C : Crypto) (req : Request) (p : Presented) : Gate (AuthenticatedAgent C) := do
  match ← getAgentPublicKey C p.agentId with
  | none =>
      Prog.raise (authError "AGENT_NOT_REGISTERED" s!"Agent '{p.agentId}' is not registered")
  | some publicKey =>
      if ← isAgentSuspended p.agentId then
        Prog.raise (authError "NOT_AUTHORIZED" s!"Agent '{p.agentId}' is suspended" 403)
      else
        let signingString := buildSigningString C req.method req.url.target p.timestampStr req.body
        if verifySignature C publicKey signingString p.signature then
          return ⟨p.agentId, publicKey⟩
        else Prog.raise (authError "INVALID_SIGNATURE" "Signature verification failed")

def requireAuth (C : Crypto) (now : Time) (req : Request) : Gate (Option (AuthenticatedAgent C)) := do
  if req.url.path ∈ unprotectedPaths then return none
  let p ← .done (presented now req)
  return some (← authenticate C req p)

/-! ## What the gate lets through -/

section wp
variable {C : Crypto} {now : Time} {req : Request} {G : Store → Store → Prop} {s : Store}

@[simp] theorem wp_getAgentPublicKey (agentId : String)
    (Q : Except AuthFailure (Option C.PublicKey) → Store → Prop) :
    Gate.wp G (getAgentPublicKey C agentId) Q s ↔ ∀ s', G s s' →
      (∀ key, storedKey C s' agentId = .ok key → Q (.ok key) s') ∧
      ∀ e, storedKey C s' agentId = .error e → Q (.error (.python e)) s' := by
  refine forall_congr' fun s' => imp_congr_right fun _ => ?_
  cases stored : storedKey C s' agentId with
  | ok key => simp [stored]
  | error e => simp [stored]

@[simp] theorem wp_isAgentSuspended (agentId : String) (Q : Except AuthFailure Bool → Store → Prop) :
    Gate.wp G (isAgentSuspended agentId) Q s ↔ ∀ s', G s s' → Q (.ok (suspended s' agentId)) s' :=
  Iff.rfl

/-- The headers name an agent, a signature and a timestamp within the window. -/
structure Presents (now : Time) (req : Request) (p : Presented) : Prop where
  header : ∃ h, req.authorization = some h ∧
    parseAuthorizationHeader h = .ok (p.agentId, p.signature)
  timestamp : req.fleetTimestamp = some p.timestampStr
  fresh : ∃ ts, DateTime.fromisoformat p.timestampStr = some ts ∧
    (now - ts.instantUtc).natAbs ≤ replayWindow

theorem validateTimestamp_ok {timestampStr : String} {ts : Time} :
    validateTimestamp now timestampStr = .ok ts ↔
      ∃ d, DateTime.fromisoformat timestampStr = some d ∧
        (now - d.instantUtc).natAbs ≤ replayWindow ∧ ts = d.instantUtc := by
  unfold validateTimestamp
  cases DateTime.fromisoformat timestampStr with
  | none => simp
  | some d =>
      by_cases late : ((now - d.instantUtc).natAbs : Int) > replayWindow
      · simp only [if_pos late, reduceCtorEq, Option.some.injEq, exists_eq_left', false_iff, not_and]
        intro inside
        omega
      · simp only [late, if_false, Except.ok.injEq, Option.some.injEq, exists_eq_left', eq_comm,
          not_lt.mp late, true_and]

theorem presented_ok {p : Presented} : presented now req = .ok p ↔ Presents now req p := by
  unfold presented
  constructor
  · intro h
    split at h
    · cases h
    · rename_i header given
      split at h
      · cases h
      · rename_i agentId signature parsed
        split at h
        · cases h
        · rename_i timestampStr stamped
          split at h
          · cases h
          · rename_i ts valid
            cases h
            obtain ⟨d, read, fresh, _⟩ := validateTimestamp_ok.mp valid
            exact ⟨⟨header, given, parsed⟩, stamped, d, read, fresh⟩
  · rintro ⟨⟨header, given, parsed⟩, timestamp, d, read, fresh⟩
    have valid := validateTimestamp_ok.mpr ⟨d, read, fresh, rfl⟩
    simp only [given, parsed, timestamp, valid]

/-- The gate checked a presented signature against the key that one store held for
the agent, and the agent's status in that store or a later one. -/
structure Verified (C : Crypto) (req : Request) (p : Presented) (a : AuthenticatedAgent C)
    (atKey atStatus : Store) : Prop where
  agent : a.agentId = p.agentId
  registered : storedKey C atKey p.agentId = .ok (some a.publicKey)
  active : suspended atStatus p.agentId = false
  signed : verifySignature C a.publicKey
    (buildSigningString C req.method req.url.target p.timestampStr req.body) p.signature = true

/-- Whatever moves the store, an agent that is answered was verified, and one that
would be verified is answered. -/
theorem wp_authenticate (p : Presented) (Q : Except AuthFailure (AuthenticatedAgent C) → Store → Prop)
    (errors : ∀ e s', Q (.error e) s') :
    Gate.wp G (authenticate C req p) Q s ↔
      ∀ a atKey atStatus, G s atKey → G atKey atStatus → Verified C req p a atKey atStatus →
        Q (.ok a) atStatus := by
  simp only [authenticate, Gate.wp, Prog.wp_bind]
  rw [← Gate.wp, wp_getAgentPublicKey]
  constructor
  · rintro h ⟨agentId, key⟩ atKey atStatus first second ⟨agent, registered, active, signed⟩
    cases agent
    have read := (h atKey first).1 _ registered
    simp only [Prog.wp_bind] at read
    have answer := (wp_isAgentSuspended _ _).mp read atStatus second
    simpa [active, signed] using answer
  · intro h s' first
    refine ⟨fun key stored => ?_, fun e _ => errors _ _⟩
    cases key with
    | none => exact errors _ _
    | some key =>
        simp only [Prog.wp_bind]
        refine (wp_isAgentSuspended _ _).mpr fun s'' second => ?_
        simp only [Prog.wp_ite, Prog.wp_raise, Prog.wp_pure]
        refine ⟨fun _ => errors _ _, fun active => ⟨fun signed => ?_, fun _ => errors _ _⟩⟩
        exact h ⟨p.agentId, key⟩ s' s'' first second ⟨rfl, stored, by simpa using active, signed⟩

theorem wp_requireAuth (Q : Except AuthFailure (Option (AuthenticatedAgent C)) → Store → Prop)
    (errors : ∀ e s', Q (.error e) s') :
    Gate.wp G (requireAuth C now req) Q s ↔
      (req.url.path ∈ unprotectedPaths → Q (.ok none) s) ∧
      (req.url.path ∉ unprotectedPaths → ∀ p, Presents now req p →
        ∀ a atKey atStatus, G s atKey → G atKey atStatus → Verified C req p a atKey atStatus →
          Q (.ok (some a)) atStatus) := by
  simp only [← presented_ok]
  by_cases exempt : req.url.path ∈ unprotectedPaths
  · simp only [requireAuth, exempt, if_true, not_true_eq_false, false_imp_iff, and_true, true_imp_iff]
    exact Iff.rfl
  · simp only [requireAuth, exempt, if_false, false_imp_iff, true_and, not_false_eq_true, true_imp_iff,
      Gate.wp, Prog.wp_bind]
    cases presented now req with
    | error e =>
        constructor
        · intro _ p same
          cases same
        · intro _
          exact errors _ _
    | ok p =>
        simp only [Except.ok.injEq, forall_eq', Prog.wp_pure]
        exact wp_authenticate p _ fun e s' => errors e s'

theorem requireAuth_accepts {p : Presented} {key : C.PublicKey}
    (checked : req.url.path ∉ unprotectedPaths) (presents : Presents now req p)
    (registered : ∀ s₁, G s s₁ → storedKey C s₁ p.agentId = .ok (some key))
    (active : ∀ s₁ s₂, G s s₁ → G s₁ s₂ → suspended s₂ p.agentId = false)
    (signed : verifySignature C key
      (buildSigningString C req.method req.url.target p.timestampStr req.body) p.signature = true) :
    Gate.wp G (requireAuth C now req) (fun r _ => r = .ok (some ⟨p.agentId, key⟩)) s := by
  simp only [requireAuth, checked, if_false, presented_ok.mpr presents, authenticate, Gate.wp,
    Prog.wp_bind, Prog.wp]
  rw [← Gate.wp, wp_getAgentPublicKey]
  intro s₁ first
  rw [registered s₁ first]
  refine ⟨fun stored same => ?_, fun e same => by cases same⟩
  cases same
  simp only [Prog.wp_bind]
  refine (wp_isAgentSuspended _ _).mpr fun s₂ second => ?_
  simp [active s₁ s₂ first second, signed]

end wp
namespace Demo

/-- A scheme that accepts no signature. -/
def crypto : Crypto where
  PublicKey := Unit
  PrivateKey := Unit
  publicKey := id
  fromPublicBytes _ := .ok ()
  sign _ _ := []
  verify _ _ _ := false
  sha256 _ := ""

end Demo

end Fleet.Api
