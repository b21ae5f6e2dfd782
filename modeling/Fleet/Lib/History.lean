/- Append-only logs from which a state can be replayed. -/
import Mathlib.Data.List.Basic
import Mathlib.Tactic.Common

namespace Fleet.Lib

/-- How to read a log: the state an entry reports, if it reports one, the number
of an entry, the first state and the permitted changes of state. -/
structure Reading (ε σ : Type) where
  report : ε → Option σ
  number : ε → Int
  first : σ
  step : σ → σ → Prop

namespace Reading
variable {ε σ : Type} (R : Reading ε σ)

/-- The state after one more entry. -/
def advance (current : Option σ) (e : ε) : Option σ := (R.report e).or current

def replay (es : List ε) : Option σ := es.foldl R.advance none

/-- A log grown entry by entry: numbered from one upwards, every reported state a
permitted change of the one before. -/
inductive History : List ε → σ → Prop
  | start (e : ε) (number : R.number e = 1) (report : R.report e = some R.first) :
      History [e] R.first
  | moved {es : List ε} {a b : σ} (h : History es a) (e : ε) (later : ∀ x ∈ es, R.number x < R.number e)
      (report : R.report e = some b) (step : R.step a b) : History (es ++ [e]) b
  | noted {es : List ε} {a : σ} (h : History es a) (e : ε) (later : ∀ x ∈ es, R.number x < R.number e)
      (silent : R.report e = none) : History (es ++ [e]) a

/-- Where the replayed state changes, it appears as the first state or changes as
permitted. -/
def Changes (es : List ε) : Prop :=
  ∀ before e after, es = before ++ e :: after → R.replay (before ++ [e]) ≠ R.replay before →
    (before = [] ∧ R.replay (before ++ [e]) = some R.first) ∨
      ∃ a b, R.replay before = some a ∧ R.replay (before ++ [e]) = some b ∧ R.step a b

variable {R}

theorem replay_append (es : List ε) (e : ε) : R.replay (es ++ [e]) = R.advance (R.replay es) e := by
  rw [replay, List.foldl_append]
  rfl

namespace History
variable {es : List ε} {a : σ}

theorem replay (h : R.History es a) : R.replay es = some a := by
  induction h with
  | start e number report => simp [Reading.replay, advance, report]
  | moved h e later report step ih => simp [replay_append, advance, report]
  | noted h e later silent ih => simp [replay_append, advance, silent, ih]

theorem head (h : R.History es a) : ∃ e rest, es = e :: rest ∧ R.number e = 1 := by
  induction h with
  | start e number report => exact ⟨e, [], rfl, number⟩
  | moved h e later report step ih | noted h e later silent ih =>
      obtain ⟨x, rest, rfl, one⟩ := ih
      exact ⟨x, rest ++ [e], rfl, one⟩

theorem increasing (h : R.History es a) : (es.map R.number).Pairwise (· < ·) := by
  have grow : ∀ {es e}, (es.map R.number).Pairwise (· < ·) → (∀ x ∈ es, R.number x < R.number e) →
      ((es ++ [e]).map R.number).Pairwise (· < ·) := by
    intro es e old later
    rw [List.map_append, List.pairwise_append]
    refine ⟨old, List.pairwise_singleton _ _, fun m member n last => ?_⟩
    obtain ⟨x, old, rfl⟩ := List.mem_map.mp member
    rw [List.map_singleton, List.mem_singleton] at last
    rw [last]
    exact later x old
  induction h with
  | start e number report => exact List.pairwise_singleton _ _
  | moved h e later report step ih => exact grow ih later
  | noted h e later silent ih => exact grow ih later

theorem split_append {es before after : List ε} {last e : ε}
    (eq : es ++ [last] = before ++ e :: after) :
    (es = before ∧ last = e) ∨ ∃ after', es = before ++ e :: after' := by
  rcases List.eq_nil_or_concat after with rfl | ⟨after', x, rfl⟩
  · have := List.append_inj_left' eq rfl
    have := List.append_inj_right' eq rfl
    simp_all
  · rw [List.concat_eq_append, ← List.cons_append, ← List.append_assoc] at eq
    exact .inr ⟨after', List.append_inj_left' eq rfl⟩

theorem changes (h : R.History es a) : R.Changes es := by
  induction h with
  | start e number report =>
      intro before x after eq _
      cases before with
      | nil =>
          have same : e = x := (List.cons.inj eq).1
          exact .inl ⟨rfl, by simp [Reading.replay, advance, ← same, report]⟩
      | cons y ys => simp at eq
  | @moved es a b h e later report step ih =>
      intro before x after eq differs
      rcases split_append eq with ⟨rfl, rfl⟩ | ⟨after', earlier⟩
      · exact .inr ⟨a, b, h.replay, by simp [replay_append, advance, report], step⟩
      · exact ih before x after' earlier differs
  | @noted es a h e later silent ih =>
      intro before x after eq differs
      rcases split_append eq with ⟨rfl, rfl⟩ | ⟨after', earlier⟩
      · exact absurd (by simp [replay_append, advance, silent]) differs
      · exact ih before x after' earlier differs

end History
end Reading
end Fleet.Lib
