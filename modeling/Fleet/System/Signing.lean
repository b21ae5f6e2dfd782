/- The sidecar's signatures against the gate that checks them. -/
import Mathlib.Data.Bool.AllAny
import Fleet.Agent.Signing
import Fleet.Api.Routes

namespace Fleet.System
open Fleet.Lib Fleet.Api Fleet.Agent

section signing
variable {C : Crypto} {G : Store → Store → Prop} {s : Store} {agentId : String}
  {sk : C.PrivateKey} {signedAt now : Time} {req : Request}

/-- The request carries the headers that were made for its method, its target and its
body. -/
structure Carries (C : Crypto) (sk : C.PrivateKey) (agentId : String) (signedAt : Time)
    (req : Request) : Prop where
  authorization : req.authorization =
    some (signRequest C signedAt req.method req.url.target req.body sk agentId).authorization
  fleetTimestamp : req.fleetTimestamp =
    some (signRequest C signedAt req.method req.url.target req.body sk agentId).fleetTimestamp

/-- What is presented by a request with the headers of a signed one. -/
def signedAs (C : Crypto) (sk : C.PrivateKey) (agentId : String) (signedAt : Time) (req : Request) :
    Presented where
  agentId := agentId
  signature := C.sign sk
    (buildSigningString C req.method req.url.target (DateTime.isoformat signedAt) req.body)
  timestampStr := DateTime.isoformat signedAt

theorem Carries.presents (carries : Carries C sk agentId signedAt req) (ideal : C.Ideal)
    (named : agentId ≠ "" ∧ ':' ∉ agentId.toList) (clock : DateTime.Representable signedAt)
    (fresh : (now - signedAt).natAbs ≤ replayWindow) :
    Presents now req (signedAs C sk agentId signedAt req) where
  header := ⟨_, carries.authorization, parseAuthorizationHeader_signed named (ideal.nonempty _ _)⟩
  timestamp := carries.fleetTimestamp
  fresh := ⟨_, DateTime.fromisoformat_isoformat clock, by simpa [DateTime.Stamp.instantUtc] using fresh⟩

/-- Every store that a request can see holds the key for the agent. -/
structure Enrolled (C : Crypto) (G : Store → Store → Prop) (s : Store) (agentId : String)
    (key : C.PublicKey) : Prop where
  stored : storedKey C s agentId = .ok (some key)
  kept : ∀ a b, G a b → storedKey C a agentId = .ok (some key) →
    storedKey C b agentId = .ok (some key)

structure Active (G : Store → Store → Prop) (s : Store) (agentId : String) : Prop where
  now : suspended s agentId = false
  kept : ∀ a b, G a b → suspended a agentId = false → suspended b agentId = false

theorem Carries.accepted (carries : Carries C sk agentId signedAt req) (ideal : C.Ideal)
    (named : agentId ≠ "" ∧ ':' ∉ agentId.toList) (clock : DateTime.Representable signedAt)
    (fresh : (now - signedAt).natAbs ≤ replayWindow) (checked : req.url.path ∉ unprotectedPaths)
    (enrolled : Enrolled C G s agentId (C.publicKey sk)) (active : Active G s agentId) :
    Gate.wp G (requireAuth C now req) (fun r _ => r = .ok (some ⟨agentId, C.publicKey sk⟩)) s := by
  refine requireAuth_accepts checked (carries.presents ideal named clock fresh) ?_ ?_ ?_
  · intro s₁ first
    exact enrolled.kept _ _ first enrolled.stored
  · intro s₁ s₂ first second
    exact active.kept _ _ second (active.kept _ _ first active.now)
  · exact ideal.correct sk _

end signing

namespace Demo

def privateKey : Bytes :=
  [157, 97, 177, 157, 239, 253, 90, 96, 186, 132, 74, 244, 146, 236, 44, 196, 68, 73, 197,
    105, 123, 50, 105, 25, 112, 59, 172, 3, 28, 174, 127, 96]

def publicKey : Bytes :=
  [215, 90, 152, 1, 130, 177, 10, 183, 213, 75, 254, 211, 201, 100, 7, 58, 14, 225, 114, 243,
    218, 166, 35, 37, 175, 2, 26, 104, 247, 7, 81, 26]

def signature : Bytes :=
  [163, 204, 189, 133, 46, 183, 252, 238, 192, 55, 144, 199, 143, 89, 6, 57, 219, 77, 245,
    107, 58, 188, 182, 66, 66, 46, 9, 164, 221, 163, 61, 188, 37, 27, 101, 130, 26, 24, 42, 69,
    80, 239, 117, 88, 200, 164, 39, 132, 93, 114, 255, 124, 130, 149, 58, 62, 118, 75, 169, 14,
    254, 142, 36, 14]

def emptyDigest : String := "e3b0c44298fc1c149afbf4c8996fb92427ae41e4649b934ca495991b7852b855"

def signedString : Bytes :=
  utf8 ("GET\n/workflows?limit=1\n2026-03-07T00:00:00+00:00\n" ++ emptyDigest)

def publicOf (sk : Bytes) : Bytes := if sk = privateKey then publicKey else 0 :: sk

def privateOf (key : Bytes) : Bytes := if key = publicKey then privateKey else key.tail

def sign (sk m : Bytes) : Bytes := if sk = privateKey ∧ m = signedString then signature else 0 :: m

def digest (body : Bytes) : String :=
  if body = [] then emptyDigest else String.ofList (body.map fun b => Char.ofNat (256 + b.toNat))

/-- Ed25519 and SHA-256 on one key pair, one text and the empty body; elsewhere an
injective stand-in. -/
def crypto : Crypto where
  PublicKey := Bytes
  PrivateKey := Bytes
  publicKey := publicOf
  fromPublicBytes raw :=
    if raw.length = 32 then .ok raw else .error "An Ed25519 public key is 32 bytes long"
  sign := sign
  verify key sig m := sig = sign (privateOf key) m
  sha256 := digest

def agent : Agent := { Api.Demo.agent "agent-1" with publicKey := Base64.b64encode publicKey }

def store : Store where
  agents := ⟨[agent], by decide⟩
  workflows := .empty
  tasks := .empty
  events := .empty

theorem get_plain : '\n' ∉ "GET".toList := by decide

def listing : Request where
  method := "GET"
  path := "/workflows"
  url := {
    path := "/workflows"
    query := "limit=1"
    path_plain := List.all_iff_forall_prop.mp (by decide)
    query_plain := List.all_iff_forall_prop.mp (by decide) }
  authorization := some ("Signature agent-1:o8y9hS63/O7AN5DHj1kGOdtN9Ws6vLZCQi4JpN2j" ++
    "PbwlG2WCGhgqRVDvdVjIpCeEXXL/fIKVOj52S6kO/o4kDg==")
  fleetTimestamp := some "2026-03-07T00:00:00+00:00"
  body := []
  method_plain := get_plain
  timestamp_plain := by rintro _ ⟨⟩; decide

end Demo

end Fleet.System
