/- Sidecars that register themselves with the service, over a network that may fail: one that
   has returned is enrolled for good. -/
import Fleet.Agent.SelfRegistration
import Fleet.Api.Identifiers
import Fleet.System.Attribution

namespace Fleet.System
open Fleet.Lib Fleet.Api Fleet.Agent

/-! ## The status of a response -/

/-- By the registered handlers; a path that is routed under another method only is answered
405 where this says 404. -/
def failureStatus : ServiceFailure → Nat
  | .notFound => 404
  | .invalid => 422
  | .gate (.http statusCode _ _) => statusCode
  | .gate (.python _) => 500
  | .anonymous => 500
  | .api e => e.httpStatus
  | .catalog (.raised e) => e.httpStatus
  | .catalog _ => 500

def statusOf : Except ServiceFailure (Option HttpResponse) → Option Nat
  | .ok response => response.map HttpResponse.statusCode
  | .error e => some (failureStatus e)

def IsSuccess (r : Except ServiceFailure (Option HttpResponse)) : Prop :=
  statusOf r = some 200 ∨ statusOf r = some 201

theorem httpStatus_fails (e : Failure) : 300 ≤ e.httpStatus := by
  have code : ∀ c : ErrorCode, 300 ≤ c.httpStatus := fun c => by cases c <;> decide
  cases e with
  | api e => exact code e.code
  | db _ | schema _ | python _ => exact code .executionFailed

theorem catalog_fails (e : CatalogFailure) : ¬ IsSuccess (.error (.catalog e)) := by
  have status : 300 ≤ failureStatus (.catalog e) := by
    cases e with
    | raised e => exact httpStatus_fails e
    | _ => decide
  rintro (success | success)
  · rw [Option.some.inj success] at status
    exact absurd status (by decide)
  · rw [Option.some.inj success] at status
    exact absurd status (by decide)

/-! ## The sidecars -/

/-- A sidecar in `self_register`; `request` is where the service has the post in flight. -/
structure Newcomer (C : Crypto) where
  agentId : String
  privateKey : C.PrivateKey
  loop : SelfRegister
  request : Option Nat

section newcomers
variable {C : Crypto} (raw : C.PublicKey → Bytes)

def Newcomer.publicKeyB64 (n : Newcomer C) : String := Base64.b64encode (raw (C.publicKey n.privateKey))

def Newcomer.body (n : Newcomer C) : Bytes := registrationBody n.agentId (n.publicKeyB64 raw)

def Newcomer.headers (n : Newcomer C) (signedAt : Time) : SignedHeaders :=
  signRequest C signedAt "POST" "/agents/register" (n.body raw) n.privateKey n.agentId

theorem registerPath_plain : ∀ c ∈ "/agents/register".toList, c ≠ '\n' ∧ c ≠ '?' ∧ c ≠ '#' :=
  List.all_iff_forall_prop.mp (by decide)

theorem emptyQuery_plain : ∀ c ∈ "".toList, c ≠ '\n' ∧ c ≠ '#' :=
  List.all_iff_forall_prop.mp (by decide)

theorem post_plain : '\n' ∉ "POST".toList := by decide

theorem Newcomer.stamp_plain (n : Newcomer C) (signedAt : Time) (t : String)
    (stamped : some (n.headers raw signedAt).fleetTimestamp = some t) : '\n' ∉ t.toList := by
  cases stamped
  intro member
  rcases DateTime.isoformat_chars member with digit | mark
  · exact absurd digit (by decide)
  · exact absurd mark (by decide)

def Newcomer.post (n : Newcomer C) (signedAt : Time) : Request where
  method := "POST"
  path := "/agents/register"
  url := {
    path := "/agents/register"
    query := ""
    path_plain := registerPath_plain
    query_plain := emptyQuery_plain }
  authorization := some (n.headers raw signedAt).authorization
  fleetTimestamp := some (n.headers raw signedAt).fleetTimestamp
  body := n.body raw
  method_plain := post_plain
  timestamp_plain := n.stamp_plain raw signedAt

theorem Newcomer.post_body (n : Newcomer C) (signedAt : Time) :
    (n.post raw signedAt).body = registrationBody n.agentId (n.publicKeyB64 raw) := by
  simp only [Newcomer.post, Newcomer.body]

end newcomers

def KeyStored (s : Store) (agentId key : String) : Prop :=
  ∃ agent, s.agents.find? agentId = some agent ∧ agent.publicKey = key

theorem KeyStored.kept {s s' : Store} {agentId key : String} (h : KeyStored s agentId key)
    (keeps : Keeps s s') : KeyStored s' agentId key := by
  obtain ⟨agent, stored, rfl⟩ := h
  obtain ⟨agent', stored', same, -⟩ := keeps.agents agentId agent stored
  exact ⟨agent', stored', same⟩

/-- The service takes the id and has the key for it. -/
structure Known (s : Store) (agentId key : String) : Prop where
  accepted : AcceptsAgentId agentId
  stored : KeyStored s agentId key

theorem Known.kept {s s' : Store} {agentId key : String} (h : Known s agentId key) (keeps : Keeps s s') :
    Known s' agentId key :=
  ⟨h.accepted, h.stored.kept keeps⟩

/-- The framework reads the id and the key from the body of a registration. -/
def ReadsRegistration (srv : Server) : Prop :=
  ∀ (req : Request) (d : Dict) (body : RegisterAgentRequest), Json.loads req.body = .ok (.obj d) →
    srv.validate .registerAgent req = some body →
      d.get? "agent_id" = some (.str body.agentId) ∧ d.get? "public_key" = some (.str body.publicKey)

section registration
variable {srv : Server} {raw : srv.crypto.PublicKey → Bytes} {n : Newcomer srv.crypto} {d : Draws}
  {signedAt : Time}

/-- An endpoint that answers with success has the key of its body stored. -/
theorem wp_register (dump : Time → String) (now : Time) (body : RegisterAgentRequest) (s : Store) :
    (registerAgentEndpoint dump now body).wp (fun w s => s.flushAgent w) Keeps (fun _ _ => True)
      (fun r s' => (∃ response, r = .ok response) → KeyStored s' body.agentId body.publicKey) s := by
  simp only [registerAgentEndpoint, registerAgent, Agents.get, Agents.commit, Agents.refresh, Prog.wp_bind,
    Prog.wp_select]
  intro s₁ _
  cases found : s₁.agents.find? body.agentId with
  | some existing =>
      dsimp only
      split
      · rename_i same
        exact fun _ => ⟨existing, found, same⟩
      · rintro ⟨_, ⟨⟩⟩
  | none =>
      simp only [Prog.wp_bind, Prog.wp_submit, Prog.wp_select, Prog.wp_pure]
      refine fun s₂ _ => ⟨trivial, fun t committed s₃ keeps _ => ?_, fun e _ => ?_⟩
      · refine KeyStored.kept ⟨body.row now, ?_, rfl⟩ keeps
        simp only [Store.flushAgent] at committed
        split_ifs at committed
        split at committed
        · rename_i agents inserted
          cases committed
          exact (Table.find?_insert? inserted).trans (if_pos rfl)
        · cases committed
      · rintro ⟨_, ⟨⟩⟩

theorem wp_post (reads : ReadsRegistration srv) (s : Store) :
    (srv.serve (.request (n.post raw signedAt) d)).wp Store.flushService Keeps (fun _ _ => True)
      (fun r s' => IsSuccess r → Known s' n.agentId (n.publicKeyB64 raw)) s := by
  have routed : resolve (n.post raw signedAt).method (n.post raw signedAt).path = some (.registerAgent, []) :=
    (by decide : resolve "POST" "/agents/register" = some (.registerAgent, []))
  have unasked : srv.identify d.clk.now (n.post raw signedAt) .registerAgent = pure none := rfl
  simp only [Server.serve, routed, unasked, Prog.wp_bind, Prog.wp_pure]
  cases sent : srv.validate .registerAgent (n.post raw signedAt) with
  | none => exact fun success => absurd success (by simp [IsSuccess, statusOf, failureStatus])
  | some body =>
      obtain ⟨dict, read, id, key⟩ := registrationBody_read n.agentId (n.publicKeyB64 raw)
      rw [← n.post_body raw signedAt] at read
      obtain ⟨id', key'⟩ := reads (n.post raw signedAt) dict body read sent
      have agent : body.agentId = n.agentId := Json.str.inj (Option.some.inj (id'.symm.trans id))
      have own : body.publicKey = n.publicKeyB64 raw := Json.str.inj (Option.some.inj (key'.symm.trans key))
      simp only [Prog.wp_bind, Server.handle]
      refine Prog.wp_embed (fun _ _ => rfl) (fun _ _ _ => trivial) ?_
        (wp_register srv.dump d.clk.now body s)
      intro r s' stored
      cases r with
      | error e => exact fun success => absurd success (catalog_fails e)
      | ok response => exact fun _ => ⟨agent ▸ body.validId, agent ▸ own ▸ stored ⟨response, rfl⟩⟩

end registration

/-! ## The site -/

/-- What the network makes of a post where the service's answer does not arrive. -/
inductive Mishap where
  | gateway (statusCode : Nat) (other : statusCode ≠ 200 ∧ statusCode ≠ 201)
  | connectError
  | exception

def Mishap.posted : Mishap → Posted
  | .gateway statusCode _ => .response statusCode
  | .connectError => .connectError
  | .exception => .exception

/-- The service, and the sidecars that have started. -/
structure Site (C : Crypto) where
  service : Pool Store ServiceWork ServiceFailure (Option HttpResponse)
  newcomers : List (Newcomer C)

/-- A sidecar starts; its post arrives at the service; the response or something else comes
back; its wait is over; and the service has other requests, sweeps and statements to run. -/
inductive SiteMove (C : Crypto) where
  | boot (agentId : String) (privateKey : C.PrivateKey)
  | arrive (i : Nat) (signedAt : Time) (draws : Draws)
  | answer (i : Nat)
  | lose (i : Nat) (mishap : Mishap)
  | wake (i : Nat)
  | serve (move : ServiceMove)

section site
variable (srv : Server) (raw : srv.crypto.PublicKey → Bytes)

def Site.turn (w : Site srv.crypto) (t : Turn Store ServiceWork ServiceFailure (Option HttpResponse)) :
    Site srv.crypto :=
  { w with service := w.service.turn Store.flushService t }

def Site.proceed (w : Site srv.crypto) (i : Nat) (n : Newcomer srv.crypto) (loop : SelfRegister) :
    Site srv.crypto :=
  { w with newcomers := w.newcomers.set i { n with loop, request := none } }

/-- A move whose turn it is not changes nothing. -/
def Site.step (w : Site srv.crypto) : SiteMove srv.crypto → Site srv.crypto
  | .boot agentId privateKey =>
      { w with newcomers := w.newcomers ++ [⟨agentId, privateKey, .start, none⟩] }
  | .arrive i signedAt draws =>
      match w.newcomers[i]? with
      | some n =>
          match n.loop, n.request with
          | .posting _ _, none =>
              { w.turn srv (.start (srv.serve (.request (n.post raw signedAt) draws))) with
                newcomers := w.newcomers.set i { n with request := some w.service.requests.length } }
          | _, _ => w
      | none => w
  | .answer i =>
      match w.newcomers[i]? with
      | some n =>
          match n.loop, n.request.bind fun p => w.service.requests[p]? with
          | .posting attempt backoff, some (.done r) =>
              match statusOf r with
              | some statusCode => w.proceed srv i n (.posted attempt backoff (.response statusCode))
              | none => w
          | _, _ => w
      | none => w
  | .lose i mishap =>
      match w.newcomers[i]? with
      | some n =>
          match n.loop with
          | .posting attempt backoff => w.proceed srv i n (.posted attempt backoff mishap.posted)
          | _ => w
      | none => w
  | .wake i =>
      match w.newcomers[i]? with
      | some n =>
          match n.loop with
          | .sleeping attempt backoff => w.proceed srv i n (.wake attempt backoff)
          | _ => w
      | none => w
  | .serve move => w.turn srv (move.turn srv)

def site (s : Store) (moves : List (SiteMove srv.crypto)) : Site srv.crypto :=
  moves.foldl (Site.step srv raw) ⟨⟨s, []⟩, []⟩

end site

/-! ## What holds of every sidecar -/

section order
variable {srv : Server} {raw : srv.crypto.PublicKey → Bytes}

/-- The loop is on time, the post in flight promises what `wp_post` says, and a sidecar that
has returned has its key stored. -/
structure InOrder (raw : srv.crypto.PublicKey → Bytes)
    (c : Pool Store ServiceWork ServiceFailure (Option HttpResponse)) (n : Newcomer srv.crypto) : Prop where
  timed : n.loop.Timed
  awaits : ∀ p, n.request = some p → ∃ q, c.requests[p]? = some q ∧
    q.wp Store.flushService Keeps (fun _ _ => True)
      (fun r s => IsSuccess r → Known s n.agentId (n.publicKeyB64 raw)) c.store
  returned : n.loop = .returned → Known c.store n.agentId (n.publicKeyB64 raw)

theorem InOrder.turn {c : Pool Store ServiceWork ServiceFailure (Option HttpResponse)}
    {n : Newcomer srv.crypto} (h : InOrder raw c n)
    (t : Turn Store ServiceWork ServiceFailure (Option HttpResponse)) :
    InOrder raw (c.turn Store.flushService t) n where
  timed := h.timed
  awaits p flying := by
    obtain ⟨q, found, promised⟩ := h.awaits p flying
    exact (Pool.wp_turn Keeps.refl Keeps.trans Keeps.flushService
      (fun _ _ _ known keeps success => (known success).kept keeps) found promised t).1
  returned ended := (h.returned ended).kept (Pool.turn_grows Keeps.refl Keeps.flushService c t)

theorem InOrder.proceed {c : Pool Store ServiceWork ServiceFailure (Option HttpResponse)}
    {n : Newcomer srv.crypto} {loop : SelfRegister} (timed : loop.Timed)
    (returned : loop = .returned → Known c.store n.agentId (n.publicKeyB64 raw)) :
    InOrder raw c { n with loop, request := none } where
  timed := timed
  awaits _ flying := by cases flying
  returned := returned

def AllInOrder (raw : srv.crypto.PublicKey → Bytes) (w : Site srv.crypto) : Prop :=
  ∀ n ∈ w.newcomers, InOrder raw w.service n

theorem AllInOrder.set {w : Site srv.crypto} (h : AllInOrder raw w) (i : Nat) {n : Newcomer srv.crypto}
    (new : InOrder raw w.service n) : AllInOrder raw { w with newcomers := w.newcomers.set i n } := by
  intro m member
  rcases List.mem_or_eq_of_mem_set member with old | rfl
  · exact h m old
  · exact new

theorem AllInOrder.found {w : Site srv.crypto} (h : AllInOrder raw w) {i : Nat} {n : Newcomer srv.crypto}
    (there : w.newcomers[i]? = some n) : InOrder raw w.service n := h _ (List.mem_of_getElem? there)

theorem AllInOrder.boot {w : Site srv.crypto} (h : AllInOrder raw w) (agentId : String)
    (privateKey : srv.crypto.PrivateKey) : AllInOrder raw (w.step srv raw (.boot agentId privateKey)) := by
  intro m member
  rcases List.mem_append.mp member with old | new
  · exact h m old
  · rw [List.mem_singleton.mp new]
    exact ⟨SelfRegister.timed_start, fun _ flying => (by cases flying),
      fun ended => absurd ended (SelfRegister.again_ne_returned 0 SelfRegister.baseBackoffSeconds)⟩

theorem AllInOrder.arrive (reads : ReadsRegistration srv) {w : Site srv.crypto} (h : AllInOrder raw w)
    (i : Nat) (signedAt : Time) (draws : Draws) :
    AllInOrder raw (w.step srv raw (.arrive i signedAt draws)) := by
  simp only [Site.step]
  split
  · rename_i n there
    split
    · rename_i attempt backoff posting idle
      have begun : AllInOrder raw
          (w.turn srv (.start (srv.serve (.request (n.post raw signedAt) draws)))) :=
        fun m member => (h m member).turn (.start (srv.serve (.request (n.post raw signedAt) draws)))
      refine begun.set i ⟨(h.found there).timed, fun p flying => ?_, fun ended => ?_⟩
      · cases flying
        exact ⟨_, List.getElem?_concat_length, wp_post reads _⟩
      · exact absurd (posting.symm.trans ended) (fun impossible => by cases impossible)
    · exact h
  · exact h

/-- The answer that arrives is the one that was promised. -/
theorem AllInOrder.answer {w : Site srv.crypto} (h : AllInOrder raw w) (i : Nat) :
    AllInOrder raw (w.step srv raw (.answer i)) := by
  simp only [Site.step]
  split
  · rename_i n there
    split
    · rename_i attempt backoff r posting answered
      split
      · rename_i statusCode status
        obtain ⟨p, flying, done⟩ := Option.bind_eq_some_iff.mp answered
        obtain ⟨q, same, promised⟩ := (h.found there).awaits p flying
        cases done.symm.trans same
        have timed := (h.found there).timed
        rw [posting] at timed
        refine h.set i (.proceed (SelfRegister.timed_posted timed _) fun ended => promised ?_)
        rcases SelfRegister.posted_returned ended with success | success
        · exact .inl (status.trans (congrArg some (Posted.response.inj success)))
        · exact .inr (status.trans (congrArg some (Posted.response.inj success)))
      · exact h
    · exact h
  · exact h

theorem AllInOrder.lose {w : Site srv.crypto} (h : AllInOrder raw w) (i : Nat) (mishap : Mishap) :
    AllInOrder raw (w.step srv raw (.lose i mishap)) := by
  simp only [Site.step]
  split
  · rename_i n there
    split
    · rename_i attempt backoff posting
      have timed := (h.found there).timed
      rw [posting] at timed
      refine h.set i (.proceed (SelfRegister.timed_posted timed _) fun ended => ?_)
      have success := SelfRegister.posted_returned ended
      cases mishap with
      | gateway statusCode other =>
          rcases success with same | same
          · exact absurd (Posted.response.inj same) other.1
          · exact absurd (Posted.response.inj same) other.2
      | connectError => rcases success with same | same <;> cases same
      | exception => rcases success with same | same <;> cases same
    · exact h
  · exact h

theorem AllInOrder.wake {w : Site srv.crypto} (h : AllInOrder raw w) (i : Nat) :
    AllInOrder raw (w.step srv raw (.wake i)) := by
  simp only [Site.step]
  split
  · rename_i n there
    split
    · rename_i attempt backoff sleeping
      have timed := (h.found there).timed
      rw [sleeping] at timed
      exact h.set i (.proceed (SelfRegister.timed_wake timed)
        fun ended => absurd ended (SelfRegister.again_ne_returned _ _))
    · exact h
  · exact h

theorem AllInOrder.step (reads : ReadsRegistration srv) {w : Site srv.crypto} (h : AllInOrder raw w)
    (move : SiteMove srv.crypto) : AllInOrder raw (w.step srv raw move) := by
  cases move with
  | boot agentId privateKey => exact h.boot agentId privateKey
  | serve move => exact fun m member => (h m member).turn _
  | arrive i signedAt draws => exact h.arrive reads i signedAt draws
  | answer i => exact h.answer i
  | lose i mishap => exact h.lose i mishap
  | wake i => exact h.wake i

theorem site_inOrder (reads : ReadsRegistration srv) (s : Store) (moves : List (SiteMove srv.crypto)) :
    AllInOrder raw (site srv raw s moves) := by
  unfold site
  have start : AllInOrder raw (⟨⟨s, []⟩, []⟩ : Site srv.crypto) := fun n member => by cases member
  generalize (⟨⟨s, []⟩, []⟩ : Site srv.crypto) = w at start
  induction moves generalizing w with
  | nil => exact start
  | cons move moves ih => exact ih _ (start.step reads move)

end order

/-! ## Enrolment -/

section enrolled
variable {srv : Server} {raw : srv.crypto.PublicKey → Bytes}

theorem KeyStored.storedKey (faithful : ∀ key, srv.crypto.fromPublicBytes (raw key) = .ok key)
    {s : Store} {agentId : String} {key : srv.crypto.PublicKey}
    (h : KeyStored s agentId (Base64.b64encode (raw key))) :
    storedKey srv.crypto s agentId = .ok (some key) := by
  obtain ⟨agent, stored, own⟩ := h
  simp only [Api.storedKey, stored, own, Base64.b64decode_b64encode]
  exact congrArg (Except.map some) (faithful key)

theorem accepted_named {agentId : String} (accepted : AcceptsAgentId agentId) :
    agentId ≠ "" ∧ ':' ∉ agentId.toList := by
  have documented : ∀ id : String, Documented id → id ≠ "" ∧ ':' ∉ id.toList := by
    intro id h
    refine ⟨?_, h.plainSegment.absent (by decide)⟩
    rintro rfl
    exact absurd h.nonempty (by decide)
  rcases (acceptsAgentId_iff.mp accepted).1 with plain | ⟨id, plain, rfl⟩
  · exact documented agentId plain
  · obtain ⟨nonempty, unmarked⟩ := documented id plain
    refine ⟨fun empty => ?_, fun member => ?_⟩
    · have marked := congrArg String.toList empty
      simp at marked
    · rw [String.toList_append, List.mem_append] at member
      rcases member with inside | mark
      · exact unmarked inside
      · exact absurd mark (by decide)

/-- Whatever the network and the service do, a sidecar posts at most ten times, its waits
double up to a minute, and once it has returned the service has its key for its id and keeps
it: no other key returns for that id, and while the agent is not suspended every fresh
request that it signs passes the gate. -/
theorem newcomers_enrolled (srv : Server) (raw : srv.crypto.PublicKey → Bytes)
    (faithful : ∀ key, srv.crypto.fromPublicBytes (raw key) = .ok key) (reads : ReadsRegistration srv)
    (s : Store) (moves : List (SiteMove srv.crypto)) (n : Newcomer srv.crypto)
    (here : n ∈ (site srv raw s moves).newcomers) :
    n.loop.Timed ∧ (n.loop = .returned →
      Enrolled srv.crypto Keeps (site srv raw s moves).service.store n.agentId
        (srv.crypto.publicKey n.privateKey) ∧
      (∀ n' ∈ (site srv raw s moves).newcomers, n'.loop = .returned → n'.agentId = n.agentId →
        srv.crypto.publicKey n'.privateKey = srv.crypto.publicKey n.privateKey) ∧
      ∀ signedAt now req, srv.crypto.Ideal → Carries srv.crypto n.privateKey n.agentId signedAt req →
        DateTime.Representable signedAt → (now - signedAt).natAbs ≤ replayWindow →
        req.url.path ∉ unprotectedPaths →
        suspended (site srv raw s moves).service.store n.agentId = false →
        Gate.wp Keeps (requireAuth srv.crypto now req)
          (fun r _ => r = .ok (some ⟨n.agentId, srv.crypto.publicKey n.privateKey⟩))
          (site srv raw s moves).service.store) := by
  have settled : AllInOrder raw (site srv raw s moves) := site_inOrder reads s moves
  have keyed : ∀ m ∈ (site srv raw s moves).newcomers, m.loop = .returned →
      storedKey srv.crypto (site srv raw s moves).service.store m.agentId =
        .ok (some (srv.crypto.publicKey m.privateKey)) := fun m member ended =>
    KeyStored.storedKey faithful ((settled m member).returned ended).stored
  refine ⟨(settled n here).timed, fun ended => ⟨⟨keyed n here ended, ?_⟩, ?_, ?_⟩⟩
  · exact fun _ _ keeps stored => storedKey_keeps stored keeps
  · intro n' there ended' same
    have one := keyed n here ended
    have other := keyed n' there ended'
    rw [same, one] at other
    exact (Option.some.inj (Except.ok.inj other)).symm
  · intro signedAt now req ideal carries clock fresh checked free
    have named := accepted_named ((settled n here).returned ended).accepted
    obtain ⟨agent, stored, -⟩ := ((settled n here).returned ended).stored
    refine requireAuth_accepts checked (carries.presents ideal named clock fresh) ?_ ?_ ?_
    · exact fun _ later => storedKey_keeps (keyed n here ended) later
    · exact fun _ _ first second => suspended_keeps stored free (.trans _ _ _ first second)
    · exact ideal.correct n.privateKey _

end enrolled

/-! ### A sidecar that registers at its second post -/

namespace Demo

def enrolSignature : Bytes :=
  [245, 143, 18, 91, 118, 251, 64, 10, 104, 204, 251, 186, 161, 199, 105, 0, 140, 10, 196, 240,
    64, 78, 78, 101, 234, 164, 38, 204, 173, 153, 35, 91, 6, 34, 118, 245, 46, 31, 1, 88, 136, 120,
    0, 65, 30, 131, 201, 165, 38, 123, 62, 225, 216, 90, 192, 11, 193, 112, 185, 246, 31, 122, 139, 0]

def enrolDigest : String := "4f109d27d4bcbba84f3730e691d41ab7fed925ea7dce3f75ea7aa3fc254c50c8"

def enrolText : Bytes := utf8 ("POST\n/agents/register\n1970-01-01T00:00:03+00:00\n" ++ enrolDigest)

/-- Ed25519 on one key pair and one text, SHA-256 on one body; the keys are those of 32 bytes. -/
def enrolCrypto : Crypto where
  PublicKey := { key : Bytes // key.length = 32 }
  PrivateKey := Bytes
  publicKey _ := ⟨publicKey, by decide⟩
  fromPublicBytes raw :=
    if size : raw.length = 32 then .ok ⟨raw, size⟩ else .error "An Ed25519 public key is 32 bytes long"
  sign _ _ := enrolSignature
  verify key sig m := key.val = publicKey ∧ sig = enrolSignature ∧ m = enrolText
  sha256 _ := enrolDigest

def readRegistration (req : Request) : Option RegisterAgentRequest :=
  match Json.loads req.body with
  | .ok (.obj d) =>
      match Dict.get? d "agent_id", Dict.get? d "public_key" with
      | some (.str agentId), some (.str key) =>
          if valid : validateAgentId agentId = .ok agentId ∧ validatePublicKey key = .ok key then
            some {
              agentId
              publicKey := key
              capabilities := if Dict.get? d "capabilities" = some (.arr []) then some [] else none
              validId := valid.1
              validKey := valid.2 }
          else none
      | _, _ => none
  | _ => none

def enrolServer : Server where
  crypto := enrolCrypto
  env := Api.Demo.env
  backend := Api.Demo.backend
  dump := Api.Demo.isoformat
  validate e req := match e with
    | .registerAgent => readRegistration req
    | _ => none
  page _ := ⟨200, []⟩
  sqlValue _ t := priorityOrder t.priority
  heartbeatTimeoutSeconds := 90

def enrolMoves : List (SiteMove enrolCrypto) := [
  .boot "agent-1" privateKey, .lose 0 .connectError, .wake 0, .arrive 0 3000000 ⟨Api.Demo.at' 4, "e", 3⟩,
  .serve (.advance 0), .serve (.advance 0), .serve (.arrive (.sweep 5000000)), .serve (.advance 0), .answer 0]

theorem enrolServer_reads : ReadsRegistration enrolServer := by
  intro req d body read sent
  change readRegistration req = some body at sent
  simp only [readRegistration, read] at sent
  split at sent
  · rename_i agentId key id own
    split at sent
    · cases sent
      exact ⟨id, own⟩
    · cases sent
  · cases sent

end Demo

theorem newcomers_enrolled_second :
    ∃ n ∈ (site Demo.enrolServer Subtype.val Api.Demo.store Demo.enrolMoves).newcomers,
      n.loop = .returned ∧ Enrolled Demo.enrolCrypto Keeps
        (site Demo.enrolServer Subtype.val Api.Demo.store Demo.enrolMoves).service.store n.agentId
        (Demo.enrolCrypto.publicKey n.privateKey) := by
  have loops : (site Demo.enrolServer Subtype.val Api.Demo.store Demo.enrolMoves).newcomers.map Newcomer.loop =
      [.returned] := by decide +kernel
  have one : ∃ n ∈ (site Demo.enrolServer Subtype.val Api.Demo.store Demo.enrolMoves).newcomers,
      n.loop = .returned := List.mem_map.mp (by
    rw [loops]
    exact List.mem_singleton.mpr rfl)
  have faithful : ∀ key, Demo.enrolCrypto.fromPublicBytes (Subtype.val key) = .ok key := fun key =>
    dif_pos key.property
  exact one.imp fun n found => ⟨found.1, found.2, ((newcomers_enrolled Demo.enrolServer Subtype.val faithful
    Demo.enrolServer_reads Api.Demo.store Demo.enrolMoves n found.1).2 found.2).1⟩

end Fleet.System
