/- What a client reads of a request that the gate turns away: the checks of the gate in
   their order, and the handlers that answer for its exceptions. -/
import Fleet.Api.Routes

namespace Fleet.Api
open Fleet.Lib

/-! ## The registered error handlers -/

structure HttpResponse where
  statusCode : Nat
  content : Dict

def HttpResponse.code? (r : HttpResponse) : Option Json := r.content.get? "code"

def fleetApiErrorHandler (e : FleetAPIError) : HttpResponse := ⟨e.code.httpStatus, e.toDict⟩

/-- `str` is Python's, of the detail of the exception. -/
def httpExceptionHandler (str : Json → String) (req : Request) (statusCode : Nat) (detail : Json) :
    HttpResponse :=
  if statusCode = 404 then
    -- an error of the base class, whose subclass no handler looks at
    let error : FleetAPIError := {
      kind := .notFound
      code := .endpointNotFound
      message := s!"No endpoint found at {req.method} {req.url.path}"
      suggestion := some "Check the URL and method. Use GET /manifest to discover endpoints."
      links := [("manifest", .obj [("href", .str "/manifest")])] }
    ⟨404, error.toDict⟩
  else
    let message := if detail.truthy then str detail else s!"HTTP {statusCode}"
    ⟨statusCode, [("error", .bool true), ("code", .str s!"HTTP_{statusCode}"), ("message", .str message)]⟩

def unhandledExceptionHandler : HttpResponse :=
  let error : FleetAPIError := {
    kind := .infrastructure
    code := .executionFailed
    message := "An internal error occurred."
    suggestion := some "This is a transient error. Retry after a short delay." }
  ⟨500, error.toDict⟩

/-- The detail that `auth_error` gives its exception. -/
def errorDetail (code message : String) : Json :=
  .obj [("error", .obj [("code", .str code), ("message", .str message)])]

def AuthFailure.response (str : Json → String) (req : Request) : AuthFailure → HttpResponse
  | .http statusCode code message => httpExceptionHandler str req statusCode (errorDetail code message)
  | .python _ => unhandledExceptionHandler

theorem fleetApiErrorHandler_code (e : FleetAPIError) :
    (fleetApiErrorHandler e).code? = some (.str e.code.value) ∧
      (fleetApiErrorHandler e).statusCode = e.code.httpStatus := ⟨e.toDict_code, rfl⟩

theorem httpExceptionHandler_code {str : Json → String} {req : Request} {statusCode : Nat}
    {detail : Json} :
    (httpExceptionHandler str req statusCode detail).code? =
      some (.str (if statusCode = 404 then ErrorCode.endpointNotFound.value else s!"HTTP_{statusCode}")) := by
  unfold httpExceptionHandler
  split <;> rfl

theorem unhandledExceptionHandler_code :
    unhandledExceptionHandler.code? = some (.str ErrorCode.executionFailed.value) := rfl

/-! ## The checks in their order -/

inductive Check where
  | header | timestampHeader | window | registered | active | signature
  deriving DecidableEq

namespace Check

/-- The documented order. -/
def documented : List Check := [header, timestampHeader, window, registered, active, signature]

def rank (c : Check) : Nat := documented.idxOf c

def code : Check → ErrorCode
  | header | timestampHeader | signature => .invalidSignature
  | window => .timestampExpired
  | registered => .agentNotRegistered
  | active => .notAuthorized

end Check

/-- What a well-formed authorization header names. -/
def Names (req : Request) (agentId : String) (signature : Bytes) : Prop :=
  ∃ h, req.authorization = some h ∧ parseAuthorizationHeader h = .ok (agentId, signature)

section checks
variable (C : Crypto) (now : Time) (req : Request) (atKey atStatus : Store)

/-- Whether a request passes a check; the agent's row is read once for its key and once
for its status. -/
def Check.Passes : Check → Prop
  | header => ∃ agentId signature, Names req agentId signature
  | timestampHeader => ∃ t, req.fleetTimestamp = some t
  | window => ∃ t ts, req.fleetTimestamp = some t ∧ DateTime.fromisoformat t = some ts ∧
      (now - ts.instantUtc).natAbs ≤ replayWindow
  | registered => ∃ agentId signature, Names req agentId signature ∧
      (atKey.agents.find? agentId).isSome
  | active => ∃ agentId signature, Names req agentId signature ∧ suspended atStatus agentId = false
  | signature => ∃ agentId signature t key, Names req agentId signature ∧
      req.fleetTimestamp = some t ∧ storedKey C atKey agentId = .ok (some key) ∧
      verifySignature C key (buildSigningString C req.method req.url.target t req.body) signature = true

/-- The first check, in the documented order, that a request fails. -/
def FirstFailing (c : Check) : Prop :=
  ¬ c.Passes C now req atKey atStatus ∧
    ∀ earlier : Check, earlier.rank < c.rank → earlier.Passes C now req atKey atStatus

/-- What the gate answers, with the stores that its two reads see. -/
def gateAnswer : Option (Except AuthFailure (Option (AuthenticatedAgent C))) :=
  (requireAuth C now req).readAt [atKey, atStatus]

/-- The gate answers the agent exactly when every check passes, and the response to a
request that fails one carries the code of the first. -/
def ReportsFirstFailing (str : Json → String) : Prop :=
  ((∃ a signature, Names req a.agentId signature ∧
      gateAnswer C now req atKey atStatus = some (.ok (some a))) ↔
    ∀ c : Check, c.Passes C now req atKey atStatus) ∧
  ∀ c, FirstFailing C now req atKey atStatus c →
    ∃ f, gateAnswer C now req atKey atStatus = some (.error f) ∧
      (f.response str req).code? = some (.str c.code.value)

end checks

section gate
variable {C : Crypto} {now : Time} {req : Request} {atKey atStatus : Store}

theorem Names.unique {agentId agentId' : String} {signature signature' : Bytes}
    (one : Names req agentId signature) (other : Names req agentId' signature') :
    agentId = agentId' ∧ signature = signature' := by
  obtain ⟨h, given, parsed⟩ := one
  obtain ⟨h', given', parsed'⟩ := other
  cases given.symm.trans given'
  cases parsed.symm.trans parsed'
  exact ⟨rfl, rfl⟩

theorem exists_firstFailing {c : Check} (fails : ¬ c.Passes C now req atKey atStatus) :
    ∃ first, FirstFailing C now req atKey atStatus first := by
  by_cases earliest : ∀ earlier : Check, earlier.rank < c.rank → earlier.Passes C now req atKey atStatus
  · exact ⟨c, fails, earliest⟩
  · simp only [not_forall] at earliest
    obtain ⟨earlier, before, also⟩ := earliest
    exact exists_firstFailing also
termination_by c.rank

theorem gateAnswer_eq (checked : req.url.path ∉ unprotectedPaths) :
    gateAnswer C now req atKey atStatus = some (
      match presented now req with
      | .error f => .error f
      | .ok p =>
          match storedKey C atKey p.agentId with
          | .error e => .error (.python e)
          | .ok none =>
              .error (authError "AGENT_NOT_REGISTERED" s!"Agent '{p.agentId}' is not registered")
          | .ok (some key) =>
              if suspended atStatus p.agentId then
                .error (authError "NOT_AUTHORIZED" s!"Agent '{p.agentId}' is suspended" 403)
              else if verifySignature C key
                  (buildSigningString C req.method req.url.target p.timestampStr req.body) p.signature then
                .ok (some ⟨p.agentId, key⟩)
              else .error (authError "INVALID_SIGNATURE" "Signature verification failed")) := by
  simp only [gateAnswer, requireAuth, checked, if_false, authenticate, getAgentPublicKey, isAgentSuspended]
  cases presented now req with
  | error f => rfl
  | ok p =>
      simp only [Prog.bind_eq, Prog.bind, Prog.readAt]
      cases storedKey C atKey p.agentId with
      | error e => rfl
      | ok key? =>
          cases key? with
          | none => rfl
          | some key =>
              simp only [Prog.pure_eq, Prog.bind, Prog.readAt]
              cases suspended atStatus p.agentId with
              | true => rfl
              | false =>
                  simp only [Bool.false_eq_true, if_false]
                  split <;> rfl

theorem presents_of_passes (header : Check.header.Passes C now req atKey atStatus)
    (window : Check.window.Passes C now req atKey atStatus) : ∃ p, Presents now req p := by
  obtain ⟨agentId, signature, names⟩ := header
  obtain ⟨t, ts, stamped, read, fresh⟩ := window
  exact ⟨⟨agentId, signature, t⟩, names, stamped, ts, read, fresh⟩

theorem storedKey_registered {agentId : String} {signature : Bytes}
    (names : Names req agentId signature)
    (registered : Check.registered.Passes C now req atKey atStatus) :
    (∃ e, storedKey C atKey agentId = .error e) ∨ ∃ key, storedKey C atKey agentId = .ok (some key) := by
  obtain ⟨agentId', signature', names', found⟩ := registered
  obtain ⟨rfl, rfl⟩ := names.unique names'
  obtain ⟨row, found⟩ := Option.isSome_iff_exists.mp found
  simp only [storedKey, found, bind, Except.bind]
  cases Base64.b64decode row.publicKey with
  | error e => exact .inl ⟨e, rfl⟩
  | ok rawBytes =>
      simp only
      cases C.fromPublicBytes rawBytes with
      | error e => exact .inl ⟨e, rfl⟩
      | ok key => exact .inr ⟨key, rfl⟩

theorem passes_iff : (∀ c : Check, c.Passes C now req atKey atStatus) ↔
    ∃ p a, Presents now req p ∧ Verified C req p a atKey atStatus := by
  constructor
  · intro all
    obtain ⟨agentId, signature, timestampStr, key, names, stamped, stored, signed⟩ := all .signature
    obtain ⟨t, ts, same, read, fresh⟩ := all .window
    obtain ⟨agentId', signature', names', active⟩ := all .active
    cases stamped.symm.trans same
    obtain ⟨rfl, rfl⟩ := names.unique names'
    exact ⟨⟨agentId, signature, timestampStr⟩, ⟨agentId, key⟩, ⟨names, stamped, ts, read, fresh⟩,
      rfl, stored, active, signed⟩
  · rintro ⟨p, a, ⟨names, stamped, ts, read, fresh⟩, ⟨_, stored, active, signed⟩⟩ c
    cases c with
    | header => exact ⟨_, _, names⟩
    | timestampHeader => exact ⟨_, stamped⟩
    | window => exact ⟨_, ts, stamped, read, fresh⟩
    | registered =>
        refine ⟨_, _, names, ?_⟩
        rw [storedKey] at stored
        cases found : atKey.agents.find? p.agentId with
        | none => rw [found] at stored; cases stored
        | some row => rfl
    | active => exact ⟨_, _, names, active⟩
    | signature => exact ⟨_, _, _, _, names, stamped, stored, signed⟩

theorem gateAnswer_ok (checked : req.url.path ∉ unprotectedPaths) {a : AuthenticatedAgent C} :
    gateAnswer C now req atKey atStatus = some (.ok (some a)) ↔
      ∃ p, Presents now req p ∧ Verified C req p a atKey atStatus := by
  simp only [gateAnswer_eq checked, ← presented_ok]
  cases presented now req with
  | error f => simp
  | ok p =>
      simp only [Except.ok.injEq, exists_eq_left', Option.some.injEq]
      constructor
      · intro given
        split at given
        · cases given
        · cases given
        · rename_i key stored
          split at given
          · cases given
          · rename_i active
            split at given
            · rename_i signed
              cases given
              exact ⟨rfl, stored, by simpa using active, signed⟩
            · cases given
      · obtain ⟨agentId, key⟩ := a
        rintro ⟨agent, stored, active, signed⟩
        cases agent
        simp [stored, active, signed]

/-- What the gate raises for a check; a key that cannot be read ends the gate before the
last two. -/
def Raises (c : Check) (f : AuthFailure) : Prop :=
  (∃ message, f = .http c.code.httpStatus c.code.value message) ∨
    ((c = .active ∨ c = .signature) ∧ ∃ message, f = .python message)

theorem gateAnswer_firstFailing (checked : req.url.path ∉ unprotectedPaths) {c : Check}
    (first : FirstFailing C now req atKey atStatus c) :
    ∃ f, Raises c f ∧ gateAnswer C now req atKey atStatus = some (.error f) := by
  obtain ⟨fails, earlier⟩ := first
  rw [gateAnswer_eq checked]
  cases c with
  | header =>
      cases given : req.authorization with
      | none => exact ⟨_, .inl ⟨_, rfl⟩, by simp only [presented, given]; rfl⟩
      | some h =>
          cases parsed : parseAuthorizationHeader h with
          | error e => exact ⟨_, .inl ⟨_, rfl⟩, by simp only [presented, given, parsed]; rfl⟩
          | ok named => exact absurd ⟨named.1, named.2, h, given, parsed⟩ fails
  | timestampHeader =>
      obtain ⟨agentId, signature, h, given, parsed⟩ := earlier .header (by decide)
      cases stamped : req.fleetTimestamp with
      | none => exact ⟨_, .inl ⟨_, rfl⟩, by simp only [presented, given, parsed, stamped]; rfl⟩
      | some t => exact absurd ⟨t, stamped⟩ fails
  | window =>
      obtain ⟨agentId, signature, h, given, parsed⟩ := earlier .header (by decide)
      obtain ⟨t, stamped⟩ := earlier .timestampHeader (by decide)
      cases valid : validateTimestamp now t with
      | error e =>
          exact ⟨_, .inl ⟨_, rfl⟩, by simp only [presented, given, parsed, stamped, valid]; rfl⟩
      | ok time =>
          obtain ⟨ts, read, fresh, _⟩ := validateTimestamp_ok.mp valid
          exact absurd ⟨t, ts, stamped, read, fresh⟩ fails
  | registered =>
      obtain ⟨p, presents⟩ := presents_of_passes (earlier .header (by decide)) (earlier .window (by decide))
      have unknown : atKey.agents.find? p.agentId = none := by
        by_contra known
        exact fails ⟨p.agentId, p.signature, presents.header, Option.isSome_iff_ne_none.mpr known⟩
      have stored : storedKey C atKey p.agentId = .ok none := by rw [storedKey, unknown]
      exact ⟨_, .inl ⟨_, rfl⟩, by simp only [presented_ok.mpr presents, stored]; rfl⟩
  | active =>
      obtain ⟨p, presents⟩ := presents_of_passes (earlier .header (by decide)) (earlier .window (by decide))
      have inactive : suspended atStatus p.agentId = true := by
        by_contra active
        exact fails ⟨p.agentId, p.signature, presents.header, by simpa using active⟩
      rcases storedKey_registered presents.header (earlier .registered (by decide)) with
        ⟨e, stored⟩ | ⟨key, stored⟩
      · exact ⟨.python e, .inr ⟨.inl rfl, e, rfl⟩, by simp only [presented_ok.mpr presents, stored]⟩
      · refine ⟨authError "NOT_AUTHORIZED" s!"Agent '{p.agentId}' is suspended" 403, .inl ⟨_, rfl⟩, ?_⟩
        simp only [presented_ok.mpr presents, stored, inactive, if_true]
  | signature =>
      obtain ⟨p, presents⟩ := presents_of_passes (earlier .header (by decide)) (earlier .window (by decide))
      obtain ⟨_, _, names, active⟩ := earlier .active (by decide)
      obtain ⟨rfl, rfl⟩ := names.unique presents.header
      rcases storedKey_registered presents.header (earlier .registered (by decide)) with
        ⟨e, stored⟩ | ⟨key, stored⟩
      · exact ⟨.python e, .inr ⟨.inr rfl, e, rfl⟩, by simp only [presented_ok.mpr presents, stored]⟩
      · have unsigned : ¬ verifySignature C key
            (buildSigningString C req.method req.url.target p.timestampStr req.body) p.signature = true :=
          fun signed => fails ⟨_, _, _, key, presents.header, presents.timestamp, stored, signed⟩
        refine ⟨authError "INVALID_SIGNATURE" "Signature verification failed", .inl ⟨_, rfl⟩, ?_⟩
        simp only [presented_ok.mpr presents, stored, active, unsigned, Bool.false_eq_true, if_false]

/-- The translation loses the code: whatever the gate raises for a check, the client reads
another one. -/
theorem Raises.code_lost {str : Json → String} {c : Check} {f : AuthFailure} (raises : Raises c f) :
    (f.response str req).code? ≠ some (.str c.code.value) := by
  rcases raises with ⟨message, rfl⟩ | ⟨last, message, rfl⟩
  · rw [AuthFailure.response, httpExceptionHandler_code]
    cases c <;> decide
  · rw [AuthFailure.response, unhandledExceptionHandler_code]
    rcases last with rfl | rfl <;> decide

/-- A request to a checked path has its first failing check reported only where none
fails. -/
theorem reportsFirstFailing_iff (str : Json → String) (checked : req.url.path ∉ unprotectedPaths) :
    ReportsFirstFailing C now req atKey atStatus str ↔
      ∀ c : Check, c.Passes C now req atKey atStatus := by
  have answered : (∃ a signature, Names req a.agentId signature ∧
      gateAnswer C now req atKey atStatus = some (.ok (some a))) ↔
        ∀ c : Check, c.Passes C now req atKey atStatus := by
    simp only [gateAnswer_ok checked, passes_iff]
    constructor
    · rintro ⟨a, _, _, p, presents, verified⟩
      exact ⟨p, a, presents, verified⟩
    · rintro ⟨p, a, presents, verified⟩
      exact ⟨a, p.signature, verified.agent ▸ presents.header, p, presents, verified⟩
  constructor
  · rintro ⟨_, reported⟩
    by_contra some_fails
    obtain ⟨c, fails⟩ := not_forall.mp some_fails
    obtain ⟨first, failing⟩ := exists_firstFailing fails
    obtain ⟨f, raises, raised⟩ := gateAnswer_firstFailing checked failing
    obtain ⟨f', raised', code⟩ := reported first failing
    cases raised.symm.trans raised'
    exact raises.code_lost code
  · intro all
    exact ⟨answered, fun c failing => absurd (all c) failing.1⟩

end gate

namespace Demo

def anonymous : Request := bare "/workflows" (by decide)

def detailText (_ : Json) : String :=
  "\x7b'error': \x7b'code': 'INVALID_SIGNATURE', 'message': 'Missing Authorization header'\x7d\x7d"

end Demo

theorem reportsFirstFailing_anonymous :
    ReportsFirstFailing Demo.crypto 0 Demo.anonymous Demo.store Demo.store Demo.detailText ↔
      ∀ c : Check, c.Passes Demo.crypto 0 Demo.anonymous Demo.store Demo.store :=
  reportsFirstFailing_iff Demo.detailText (by decide)

/-- The gate raises `INVALID_SIGNATURE` for the missing header; the client reads `HTTP_401`,
which is no error code's value. -/
theorem anonymous_not_reported :
    (∃ f, gateAnswer Demo.crypto 0 Demo.anonymous Demo.store Demo.store = some (.error f) ∧
      f = authError "INVALID_SIGNATURE" "Missing Authorization header" ∧
      (f.response Demo.detailText Demo.anonymous).statusCode = 401 ∧
      (f.response Demo.detailText Demo.anonymous).code? = some (.str "HTTP_401")) ∧
    (∀ c : ErrorCode, c.value ≠ "HTTP_401") ∧
    ¬ ReportsFirstFailing Demo.crypto 0 Demo.anonymous Demo.store Demo.store Demo.detailText := by
  have raised : gateAnswer Demo.crypto 0 Demo.anonymous Demo.store Demo.store =
      some (.error (authError "INVALID_SIGNATURE" "Missing Authorization header")) := rfl
  have code : ((authError "INVALID_SIGNATURE" "Missing Authorization header").response Demo.detailText
      Demo.anonymous).code? = some (.str "HTTP_401") := rfl
  refine ⟨⟨_, raised, rfl, rfl, code⟩, fun c => by cases c <;> decide, ?_⟩
  rintro ⟨_, reported⟩
  have missing : FirstFailing Demo.crypto 0 Demo.anonymous Demo.store Demo.store .header := by
    refine ⟨?_, fun earlier before => by cases earlier <;> simp [Check.rank, Check.documented] at before⟩
    rintro ⟨_, _, h, given, _⟩
    cases given
  obtain ⟨f, refused, named⟩ := reported .header missing
  cases raised.symm.trans refused
  exact absurd (code.symm.trans named) (by decide)

end Fleet.Api
