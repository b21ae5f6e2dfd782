/- Progress under fairness: a rank that drops whenever something fires leads to a goal. -/
import Mathlib.Data.Prod.Lex
import Mathlib.Order.WellFounded
import Mathlib.Tactic.Common

namespace Fleet.Lib

/-- It happens again after every moment. -/
def InfinitelyOften (fires : Nat → Prop) : Prop := ∀ n, ∃ m, n ≤ m ∧ fires m

namespace Fairness
variable {ρ : Type*} {lt : ρ → ρ → Prop} {fires goal : Nat → Prop} {rank : Nat → ρ} {start : Nat}

/-- What keeps the rank between two firings keeps it up to the next one. -/
theorem next_firing (idle : ∀ n, start ≤ n → ¬ fires n → ¬ goal n → rank (n + 1) = rank n)
    {n k : Nat} (later : start ≤ n) (fired : fires (n + k)) :
    ∃ m, n ≤ m ∧ (goal m ∨ (fires m ∧ rank m = rank n)) := by
  induction k generalizing n with
  | zero => exact ⟨n, Nat.le_refl n, .inr ⟨fired, rfl⟩⟩
  | succ k ih =>
      by_cases reached : goal n
      · exact ⟨n, Nat.le_refl n, .inl reached⟩
      by_cases now : fires n
      · exact ⟨n, Nat.le_refl n, .inr ⟨now, rfl⟩⟩
      have next : fires (n + 1 + k) := by
        rwa [Nat.add_assoc, Nat.add_comm 1 k]
      obtain ⟨m, after, outcome⟩ := ih (by omega) next
      refine ⟨m, by omega, ?_⟩
      rwa [idle n later now reached] at outcome

/-- Each firing reaches the goal or lowers the rank, and there is always another firing. -/
theorem eventually (rank : Nat → ρ) (start : Nat) (wf : WellFounded lt) (often : InfinitelyOften fires)
    (idle : ∀ n, start ≤ n → ¬ fires n → ¬ goal n → rank (n + 1) = rank n)
    (drops : ∀ n, start ≤ n → fires n → ¬ goal n → goal (n + 1) ∨ lt (rank (n + 1)) (rank n))
    {n : Nat} (later : start ≤ n) : ∃ m, n ≤ m ∧ goal m := by
  induction same : rank n using wf.induction generalizing n with
  | h r ih =>
      obtain ⟨m, after, fired⟩ := often n
      obtain ⟨k, rfl⟩ := Nat.exists_eq_add_of_le after
      obtain ⟨m, between, reached | ⟨fired, kept⟩⟩ := next_firing idle later fired
      · exact ⟨m, between, reached⟩
      by_cases reached : goal m
      · exact ⟨m, between, reached⟩
      rcases drops m (by omega) fired reached with reached | lower
      · exact ⟨m + 1, by omega, reached⟩
      · rw [kept, same] at lower
        obtain ⟨last, beyond, reached⟩ := ih (rank (m + 1)) lower (by omega) rfl
        exact ⟨last, by omega, reached⟩

end Fairness
end Fleet.Lib
