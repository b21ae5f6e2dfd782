/- Machines that report what they do: runs, invariants over the state and the log,
   and the order of what was reported. -/
import Mathlib.Data.List.Basic
import Mathlib.Tactic.Common

namespace Fleet.Lib

/-- Every action is defined in every state; one that is not enabled there changes
nothing and reports nothing. -/
structure Machine (σ α ω : Type) where
  step : σ → α → σ × List ω

namespace Machine
variable {σ α ω : Type} (M : Machine σ α ω)

def run : σ → List α → σ × List ω
  | s, [] => (s, [])
  | s, a :: as =>
      let (last, later) := run (M.step s a).1 as
      (last, (M.step s a).2 ++ later)

/-- Each action of the run meets the condition in the state it is taken in. -/
def Along (P : σ → α → Prop) : σ → List α → Prop
  | _, [] => True
  | s, a :: as => P s a ∧ Along P (M.step s a).1 as

instance Along.decidable (P : σ → α → Prop) [∀ s a, Decidable (P s a)] :
    ∀ s as, Decidable (M.Along P s as)
  | _, [] => isTrue trivial
  | s, a :: as => @instDecidableAnd _ _ _ (Along.decidable P (M.step s a).1 as)

variable {M}

theorem run_append (s : σ) (as bs : List α) :
    M.run s (as ++ bs) =
      ((M.run (M.run s as).1 bs).1, (M.run s as).2 ++ (M.run (M.run s as).1 bs).2) := by
  induction as generalizing s with
  | nil => rfl
  | cons a as ih => simp only [List.cons_append, run, ih, List.append_assoc]

theorem run_snoc (s : σ) (as : List α) (a : α) :
    M.run s (as ++ [a]) =
      ((M.step (M.run s as).1 a).1, (M.run s as).2 ++ (M.step (M.run s as).1 a).2) := by
  rw [run_append]
  simp [run]

/-- What every step keeps, given the log so far, every run keeps. -/
theorem run_invariant {I : σ → List ω → Prop} {P : σ → α → Prop}
    (keeps : ∀ s log a, I s log → P s a → I (M.step s a).1 (log ++ (M.step s a).2))
    {s : σ} {log : List ω} (start : I s log) {as : List α} (along : M.Along P s as) :
    I (M.run s as).1 (log ++ (M.run s as).2) := by
  induction as generalizing s log with
  | nil => simpa only [run, List.append_nil] using start
  | cons a as ih =>
      obtain ⟨condition, rest⟩ := along
      have kept := ih (keeps s log a start condition) rest
      rw [List.append_assoc] at kept
      exact kept

/-- The same from an empty log on. -/
theorem run_establishes {I : σ → List ω → Prop} {P : σ → α → Prop}
    (keeps : ∀ s log a, I s log → P s a → I (M.step s a).1 (log ++ (M.step s a).2))
    {s : σ} (start : I s []) {as : List α} (along : M.Along P s as) :
    I (M.run s as).1 (M.run s as).2 := by
  have kept := run_invariant keeps start along
  rw [List.nil_append] at kept
  exact kept

theorem along_append {P : σ → α → Prop} {s : σ} {as bs : List α} :
    M.Along P s (as ++ bs) ↔ M.Along P s as ∧ M.Along P (M.run s as).1 bs := by
  induction as generalizing s with
  | nil => simp [Along, run]
  | cons a as ih => simp only [List.cons_append, Along, ih, run, and_assoc]

theorem along_of_forall {P : σ → α → Prop} {as : List α} (all : ∀ a ∈ as, ∀ s, P s a) (s : σ) :
    M.Along P s as := by
  induction as generalizing s with
  | nil => trivial
  | cons a as ih =>
      exact ⟨all a List.mem_cons_self s, ih (fun b member => all b (List.mem_cons_of_mem a member)) _⟩

theorem along_congr {R P Q : σ → α → Prop} (same : ∀ s a, R s a → (P s a ↔ Q s a)) {s : σ}
    {as : List α} (along : M.Along R s as) : M.Along P s as ↔ M.Along Q s as := by
  induction as generalizing s with
  | nil => exact Iff.rfl
  | cons a as ih => exact and_congr (same s a along.1) (ih along.2)

theorem along_true (s : σ) (as : List α) : M.Along (fun _ _ => True) s as :=
  along_of_forall (fun _ _ _ => trivial) s

theorem Along.and {P Q : σ → α → Prop} {s : σ} {as : List α} (h : M.Along P s as) (k : M.Along Q s as) :
    M.Along (fun s a => P s a ∧ Q s a) s as := by
  induction as generalizing s with
  | nil => trivial
  | cons a as ih => exact ⟨⟨h.1, k.1⟩, ih h.2 k.2⟩

theorem run_keeps {I : σ → Prop} (keeps : ∀ s a, I s → I (M.step s a).1) {s : σ} (start : I s)
    (as : List α) : I (M.run s as).1 :=
  run_establishes (I := fun s _ => I s) (fun s _ a old _ => keeps s a old) start (along_true s as)

/-- Where each step is followed by a run of the other machine, every run is. -/
theorem run_follows {τ β ψ : Type} {N : Machine τ β ψ} {R : σ → τ → Prop} {P : σ → α → Prop}
    (follows : ∀ s t a, R s t → P s a → ∃ bs, R (M.step s a).1 (N.run t bs).1) {s : σ} {t : τ}
    (start : R s t) {as : List α} (along : M.Along P s as) : ∃ bs, R (M.run s as).1 (N.run t bs).1 := by
  induction as generalizing s t with
  | nil => exact ⟨[], start⟩
  | cons a as ih =>
      obtain ⟨condition, rest⟩ := along
      obtain ⟨first, reached⟩ := follows s t a start condition
      obtain ⟨later, last⟩ := ih reached rest
      refine ⟨first ++ later, ?_⟩
      rw [run_append]
      exact last

end Machine

/-! ## The order of reports -/

section order
variable {ω : Type} {P Q : ω → Prop} {log new : List ω}

/-- Every report with `P` comes after one with `Q`. -/
def Preceded (P Q : ω → Prop) (log : List ω) : Prop :=
  ∀ before o after, log = before ++ o :: after → P o → ∃ x ∈ before, Q x

theorem Preceded.nil : Preceded P Q [] := by
  intro before o after eq
  simp at eq

theorem Preceded.append (h : Preceded P Q log) (announced : ∀ o ∈ new, P o → ∃ x ∈ log, Q x) :
    Preceded P Q (log ++ new) := by
  intro before o after eq holds
  rcases List.append_eq_append_iff.mp eq.symm with ⟨tail, rest, shape⟩ | ⟨tail, rest, shape⟩
  · cases tail with
    | nil =>
        obtain rfl : log = before := by simpa using rest
        exact announced o (by rw [← List.nil_append new, ← shape]; simp) holds
    | cons x tail =>
        obtain ⟨rfl, _⟩ := List.cons.inj shape
        exact h before o tail rest holds
  · obtain ⟨x, member, found⟩ := announced o (by rw [shape]; simp) holds
    exact ⟨x, by rw [rest]; exact List.mem_append_left _ member, found⟩

/-- Two kinds of reports that both need the other first never come. -/
theorem Preceded.circular (h : Preceded P Q log) (k : Preceded Q P log) : ∀ o ∈ log, ¬ P o := by
  have never : ∀ n before o after, before.length = n → log = before ++ o :: after →
      ¬ P o ∧ ¬ Q o := by
    intro n
    induction n using Nat.strongRecOn with
    | ind n ih =>
        intro before o after length eq
        have earlier : ∀ x ∈ before, ¬ P x ∧ ¬ Q x := by
          intro x member
          obtain ⟨first, second, rfl⟩ := List.append_of_mem member
          refine ih first.length ?_ first x (second ++ o :: after) rfl ?_
          · rw [← length, List.length_append, List.length_cons]
            omega
          · rw [eq, List.append_assoc, List.cons_append]
        refine ⟨fun holds => ?_, fun holds => ?_⟩
        · obtain ⟨x, member, found⟩ := h before o after eq holds
          exact (earlier x member).2 found
        · obtain ⟨x, member, found⟩ := k before o after eq holds
          exact (earlier x member).1 found
  intro o member
  obtain ⟨before, after, eq⟩ := List.append_of_mem member
  exact (never _ before o after rfl eq).1

end order
end Fleet.Lib
