/- Texts cut at their first mark, and what joined texts determine. -/
import Mathlib.Data.List.Basic
import Mathlib.Tactic.Common

namespace Fleet.Lib

/-- What stands before the first `mark` and what stands after it. -/
def cut (mark : Char) : List Char → Option (List Char × List Char)
  | [] => none
  | c :: rest => if c = mark then some ([], rest) else (cut mark rest).map fun p => (c :: p.1, p.2)

theorem cut_append {mark : Char} {front : List Char} (absent : mark ∉ front) (rest : List Char) :
    cut mark (front ++ mark :: rest) = some (front, rest) := by
  induction front with
  | nil => simp [cut]
  | cons c front ih =>
      rw [List.mem_cons, not_or] at absent
      obtain ⟨other, later⟩ := absent
      rw [List.cons_append, cut, if_neg (Ne.symm other), ih later]
      rfl

theorem cut_eq_none {mark : Char} {text : List Char} : cut mark text = none ↔ mark ∉ text := by
  induction text with
  | nil => simp [cut]
  | cons c rest ih =>
      rw [cut, List.mem_cons, not_or, ← ih]
      by_cases same : c = mark
      · simp [same]
      · simp [same, Ne.symm same]

theorem cut_eq_some {mark : Char} {text front rest : List Char} :
    cut mark text = some (front, rest) ↔ mark ∉ front ∧ text = front ++ mark :: rest := by
  constructor
  · intro found
    induction text generalizing front with
    | nil => cases found
    | cons c text ih =>
        rw [cut] at found
        split at found
        · rename_i same
          cases found
          exact ⟨List.not_mem_nil, by rw [same]; rfl⟩
        · rename_i other
          obtain ⟨halves, later, shape⟩ := Option.map_eq_some_iff.mp found
          cases shape
          obtain ⟨absent, rfl⟩ := ih later
          exact ⟨by simp [Ne.symm other, absent], rfl⟩
  · rintro ⟨absent, rfl⟩
    exact cut_append absent rest

/-- A joint at the first mark can be undone. -/
theorem append_mark_inj {mark : Char} {a a' b b' : List Char} (absent : mark ∉ a)
    (absent' : mark ∉ a') (same : a ++ mark :: b = a' ++ mark :: b') : a = a' ∧ b = b' := by
  have halves := cut_append absent b
  rw [same, cut_append absent' b', Option.some.injEq, Prod.mk.injEq] at halves
  exact ⟨halves.1.symm, halves.2.symm⟩

end Fleet.Lib
