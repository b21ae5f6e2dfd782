/- `self_register`: the posts of a sidecar that starts, its waits, and when it gives up. -/
import Fleet.Lib.JsonRoundtrip
import Fleet.Agent.Signing

namespace Fleet.Agent
open Fleet.Lib

/-! ## The loop -/

/-- Where the loop stands, with its variables; it may have ended in its return, in the
`RuntimeError`, in the `SystemExit` or in an exception that it does not catch. -/
inductive SelfRegister where
  | posting (attempt backoff : Nat)
  | sleeping (attempt backoff : Nat)
  | returned
  | rejected (statusCode : Nat)
  | exited
  | raised
  deriving DecidableEq

inductive Posted where
  | response (statusCode : Nat)
  | connectError
  | exception

namespace SelfRegister

-- the floats of the source are whole numbers
def baseBackoffSeconds : Nat := 5

def maxBackoffSeconds : Nat := 60

def maxRetries : Nat := 10

/-- The top of the loop. -/
def again (attempt backoff : Nat) : SelfRegister :=
  if attempt + 1 > maxRetries then .exited else .posting (attempt + 1) backoff

def start : SelfRegister := again 0 baseBackoffSeconds

def posted (attempt backoff : Nat) : Posted → SelfRegister
  | .response statusCode =>
      if statusCode = 200 ∨ statusCode = 201 then .returned
      else if 400 ≤ statusCode ∧ statusCode < 500 then .rejected statusCode
      else .sleeping attempt backoff
  | .connectError => .sleeping attempt backoff
  | .exception => .raised

def wake (attempt backoff : Nat) : SelfRegister := again attempt (min (backoff * 2) maxBackoffSeconds)

def waitAfter (attempt : Nat) : Nat := min (baseBackoffSeconds * 2 ^ (attempt - 1)) maxBackoffSeconds

/-- At most ten posts, and each wait twice the one before up to a minute. -/
def Timed : SelfRegister → Prop
  | .posting attempt backoff | .sleeping attempt backoff =>
      1 ≤ attempt ∧ attempt ≤ maxRetries ∧ backoff = waitAfter attempt
  | _ => True

theorem timed_again {attempt backoff : Nat} (wait : backoff = waitAfter (attempt + 1)) :
    (again attempt backoff).Timed := by
  unfold again
  split
  · trivial
  · rename_i more
    exact ⟨Nat.succ_pos attempt, not_lt.mp more, wait⟩

theorem timed_start : start.Timed := timed_again rfl

theorem waitAfter_succ {attempt : Nat} (positive : 1 ≤ attempt) :
    min (waitAfter attempt * 2) maxBackoffSeconds = waitAfter (attempt + 1) := by
  obtain ⟨k, rfl⟩ := Nat.exists_eq_add_of_le' positive
  simp only [waitAfter, Nat.add_sub_cancel, Nat.pow_succ, ← Nat.mul_assoc]
  omega

theorem timed_wake {attempt backoff : Nat} (h : (SelfRegister.sleeping attempt backoff).Timed) :
    (wake attempt backoff).Timed := by
  obtain ⟨positive, -, rfl⟩ := h
  exact timed_again (waitAfter_succ positive)

theorem timed_posted {attempt backoff : Nat} (h : (SelfRegister.posting attempt backoff).Timed)
    (outcome : Posted) : (posted attempt backoff outcome).Timed := by
  cases outcome with
  | response statusCode =>
      simp only [posted]
      split_ifs
      · trivial
      · trivial
      · exact h
  | connectError => exact h
  | exception => trivial

theorem posted_returned {attempt backoff : Nat} {outcome : Posted}
    (h : posted attempt backoff outcome = .returned) :
    outcome = .response 200 ∨ outcome = .response 201 := by
  cases outcome with
  | response statusCode =>
      simp only [posted] at h
      split_ifs at h with success
      exact success.imp (congrArg Posted.response) (congrArg Posted.response)
  | connectError => cases h
  | exception => cases h

theorem again_ne_returned (attempt backoff : Nat) : again attempt backoff ≠ .returned := by
  unfold again
  split <;> exact fun h => by cases h

end SelfRegister

/-! ## The body -/

def registrationDict (agentId publicKeyB64 : String) : Dict :=
  [("agent_id", .str agentId), ("public_key", .str publicKeyB64), ("capabilities", .arr [])]

def registrationBody (agentId publicKeyB64 : String) : Bytes :=
  utf8 (Json.dumpsPlain (.obj (registrationDict agentId publicKeyB64)))

theorem registrationDict_proper (agentId publicKeyB64 : String) :
    Json.Proper (.obj (registrationDict agentId publicKeyB64)) := by
  refine .obj _ (by simp [registrationDict]) fun p member => ?_
  simp only [registrationDict, List.mem_cons, List.not_mem_nil, or_false] at member
  rcases member with rfl | rfl | rfl
  · exact .str agentId
  · exact .str publicKeyB64
  · exact .arr [] fun x inside => by cases inside

theorem registrationBody_read (agentId publicKeyB64 : String) :
    ∃ d : Dict, Json.loads (registrationBody agentId publicKeyB64) = .ok (.obj d) ∧
      d.get? "agent_id" = some (.str agentId) ∧ d.get? "public_key" = some (.str publicKeyB64) := by
  obtain ⟨v, parsed, same⟩ := Json.parse_dumpsPlain (registrationDict_proper agentId publicKeyB64)
  have start : (registrationBody agentId publicKeyB64).head? ≠ some 0xEF := by
    rw [registrationBody, Json.dumpsPlain, Json.plain, Json.utf8_brace]
    decide
  have read : Json.loads (registrationBody agentId publicKeyB64) = .ok v := by
    rw [Json.loads, registrationBody, Json.decodeUtf8_utf8 start, Option.bind_some, parsed]
  cases same with
  | @obj _ d keys each =>
      have written : ∀ k s, (registrationDict agentId publicKeyB64).get? k = some (.str s) →
          d.get? k = some (.str s) := by
        intro k s stored
        have there := keys k
        rw [Dict.has, stored, Dict.has] at there
        obtain ⟨v', found⟩ := Option.isSome_iff_exists.mp there.symm
        have alike := each k _ _ stored found
        cases alike
        exact found
      exact ⟨d, read, written _ _ rfl, written _ _ rfl⟩

end Fleet.Agent
