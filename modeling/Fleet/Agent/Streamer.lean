/- The event streamer: the numbering of one stream and the retries of each post. -/
import Fleet.Agent.Models

namespace Fleet.Agent
open Fleet.Lib

def maxRetries : Nat := 4

/-- An event being posted: the retries used so far, the status code the service
answered the current attempt with, and whether an attempt was ever processed. -/
structure Post where
  event : TaskEvent
  attempt : Nat := 0
  answer : Option Nat := none
  reached : Bool := false

/-- How the client call of an attempt ends. -/
inductive Outcome where
  | response | connectError | raised
  deriving DecidableEq

/-- What `_post_event` does next: try again, return, or let an exception through. -/
inductive Settled where
  | again (post : Post)
  | returned
  | raised

/-- After the last retry the event is dropped and the streamer goes on. -/
def Post.retry (p : Post) : Settled :=
  if p.attempt < maxRetries then .again { p with attempt := p.attempt + 1, answer := none } else .returned

/-- An answer below 500 is final, be it a refusal. Only a failed connection and a
server error are retried; any other exception is not caught. -/
def Post.settle (p : Post) : Outcome → Option Settled
  | .response => p.answer.map fun code => if code < 500 then .returned else p.retry
  | .connectError => if p.answer.isNone then some p.retry else none
  | .raised => some .raised

/-- The number last given and the post under way. -/
structure Stream where
  sequence : Int
  posting : Option Post

/-- Every call of `stream` begins with this event, numbered from one again. -/
def runningEvent : TaskEvent where
  eventType := "status"
  data := some [("status", .str "running")]
  sequence := 1

def Stream.start : Stream where
  sequence := 1
  posting := some { event := runningEvent }

def Stream.post (s : Stream) (event : TaskEvent) : Stream where
  sequence := s.sequence + 1
  posting := some { event := { event with sequence := s.sequence + 1 } }

def Stream.settled (s : Stream) : Stream := { s with posting := none }

theorem Post.settle_again {p p' : Post} {o : Outcome} (h : p.settle o = some (.again p')) :
    p' = { p with attempt := p.attempt + 1, answer := none } := by
  have retried : ∀ {q}, p.retry = .again q → q = { p with attempt := p.attempt + 1, answer := none } := by
    intro q eq
    unfold Post.retry at eq
    split at eq <;> cases eq
    rfl
  cases o with
  | response =>
      obtain ⟨code, _, eq⟩ := Option.map_eq_some_iff.mp h
      split at eq
      · cases eq
      · exact retried eq
  | connectError =>
      simp only [settle] at h
      split at h
      · exact retried (Option.some.inj h)
      · cases h
  | raised => cases h

theorem Post.retry_ne_raised (p : Post) : p.retry ≠ .raised := by
  unfold retry
  split <;> nofun

theorem Post.settle_raised {p : Post} {o : Outcome} (h : p.settle o = some .raised) : o = .raised := by
  cases o with
  | raised => rfl
  | response =>
      obtain ⟨code, _, eq⟩ := Option.map_eq_some_iff.mp h
      split at eq
      · cases eq
      · exact absurd eq p.retry_ne_raised
  | connectError =>
      simp only [settle] at h
      split at h
      · exact absurd (Option.some.inj h) p.retry_ne_raised
      · cases h

theorem Post.settle_returned {p : Post} {o : Outcome} (h : p.settle o = some .returned)
    (kept : p.attempt < maxRetries ∨ o = .raised ∨ ∃ code ∈ p.answer, code < 500) :
    ∃ code ∈ p.answer, code < 500 := by
  have spent : p.retry = .returned → ¬ p.attempt < maxRetries := by
    intro eq left
    simp only [retry, left, if_true] at eq
    cases eq
  cases o with
  | raised => cases h
  | response =>
      obtain ⟨code, answered, eq⟩ := Option.map_eq_some_iff.mp h
      split at eq
      · exact ⟨code, answered, ‹_›⟩
      · exact (kept.resolve_left (spent eq)).resolve_left nofun
  | connectError =>
      simp only [settle] at h
      split at h
      · exact (kept.resolve_left (spent (Option.some.inj h))).resolve_left nofun
      · cases h

end Fleet.Agent
