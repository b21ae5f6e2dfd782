/- Requests that see and write a part of a store only: whatever happens beside them in the
   other parts, their answers and their part are the same. -/
import Mathlib.Data.List.Forall2
import Fleet.Lib.Services
import Fleet.Lib.Table

namespace Fleet.Lib

namespace Prog
variable {σ ω ε ω' ε' α β : Type}

/-! ## Confined requests -/

/-- Stores related by `V` look alike to every read of the request, `R` holds of every write
set that it hands over, and `Q` of its answer. -/
def Confined (V : σ → σ → Prop) (R : ω → Prop) : Prog σ ω ε α → (α → Prop) → Prop
  | .done (.ok a), Q => Q a
  | .done (.error _), _ => True
  | .read k, Q => ∀ s s', V s s' → k s = k s' ∧ (k s).Confined V R Q
  | .commit w k, Q => R w ∧ k.Confined V R Q

variable {V : σ → σ → Prop} {R : ω → Prop} {Q : α → Prop}

@[simp] theorem confined_pure (a : α) : (pure a : Prog σ ω ε α).Confined V R Q ↔ Q a := Iff.rfl

@[simp] theorem confined_raise (e : ε) : (raise e : Prog σ ω ε α).Confined V R Q := trivial

@[simp] theorem confined_submit (w : ω) (Q : Unit → Prop) :
    (commit w (pure ()) : Prog σ ω ε Unit).Confined V R Q ↔ R w ∧ Q () := Iff.rfl

theorem confined_select {q : σ → α} (alike : ∀ s s', V s s' → q s = q s' ∧ Q (q s)) :
    (read fun s => pure (q s) : Prog σ ω ε α).Confined V R Q :=
  fun s s' related => ⟨congrArg pure (alike s s' related).1, (alike s s' related).2⟩

theorem Confined.mono {Q' : α → Prop} {p : Prog σ ω ε α} (h : p.Confined V R Q) (more : ∀ a, Q a → Q' a) :
    p.Confined V R Q' := by
  induction p with
  | done r =>
      cases r with
      | ok a => exact more a h
      | error e => trivial
  | read k ih => exact fun s s' related => ⟨(h s s' related).1, ih s (h s s' related).2⟩
  | commit w k ih => exact ⟨h.1, ih h.2⟩

theorem Confined.bind {p : Prog σ ω ε α} {f : α → Prog σ ω ε β} {Q' : β → Prop} (h : p.Confined V R Q)
    (rest : ∀ a, Q a → (f a).Confined V R Q') : (p >>= f).Confined V R Q' := by
  rw [bind_eq]
  induction p with
  | done r =>
      cases r with
      | ok a => exact rest a h
      | error e => trivial
  | read k ih =>
      exact fun s s' related =>
        ⟨congrArg (fun p => p.bind f) (h s s' related).1, ih s (h s s' related).2⟩
  | commit w k ih => exact ⟨h.1, ih h.2⟩

theorem Confined.embed {R' : ω' → Prop} {f : ω → ω'} {g : ε → ε'} {p : Prog σ ω ε α} (h : p.Confined V R Q)
    (promised : ∀ w, R w → R' (f w)) : (p.embed f g).Confined V R' Q := by
  induction p with
  | done r => cases r <;> exact h
  | read k ih =>
      exact fun s s' related =>
        ⟨congrArg (fun p => p.embed f g) (h s s' related).1, ih s (h s s' related).2⟩
  | commit w k ih => exact ⟨promised w h.1, ih h.2⟩

theorem Confined.narrow {V' : σ → σ → Prop} {R' : ω → Prop} {p : Prog σ ω ε α} (h : p.Confined V R Q)
    (narrower : ∀ s s', V' s s' → V s s') (promised : ∀ w, R w → R' w) : p.Confined V' R' Q := by
  induction p with
  | done r => cases r <;> exact h
  | read k ih =>
      intro s s' related
      obtain ⟨same, rest⟩ := h s s' (narrower s s' related)
      exact ⟨same, ih s rest⟩
  | commit w k ih => exact ⟨promised w h.1, ih h.2⟩

theorem Reads.confined {p : Prog σ ω ε α} (h : p.Reads) (same : ∀ s s', V s s' → s = s') :
    p.Confined V R fun _ => True := by
  induction p with
  | done r => cases r <;> trivial
  | read k ih => exact fun s s' related => ⟨congrArg k (same s s' related), ih s (h s)⟩
  | commit w k _ => exact h.elim

end Prog

/-! ## Two pools side by side -/

section beside
variable {σ ω ε α : Type}

/-- Both fail alike, or both succeed with related stores. -/
inductive SameOutcome (V : σ → σ → Prop) : Except ε σ → Except ε σ → Prop
  | ok {t t' : σ} (related : V t t') : SameOutcome V (.ok t) (.ok t')
  | error (e : ε) : SameOutcome V (.error e) (.error e)

theorem SameOutcome.mapError {V : σ → σ → Prop} {ε' : Type} {r r' : Except ε σ} {f : ε → ε'}
    (h : SameOutcome V r r') : SameOutcome V (r.mapError f) (r'.mapError f) := by
  cases h with
  | ok related => exact .ok related
  | error e => exact .error (f e)

/-- Write sets in `R` act alike on related stores and leave them related. -/
def Mirrored (flush : ω → σ → Except ε σ) (V : σ → σ → Prop) (R : ω → Prop) : Prop :=
  ∀ w s s', R w → V s s' → SameOutcome V (flush w s) (flush w s')

/-- Write sets in `R` leave a store related to what it was related to. -/
def Apart (flush : ω → σ → Except ε σ) (V : σ → σ → Prop) (R : ω → Prop) : Prop :=
  ∀ w s s' t, R w → V s s' → flush w s = .ok t → V t s'

/-- The same request, confined to what is related; or two requests that write apart from it. -/
def Alike (V : σ → σ → Prop) (R : ω → Prop) (V' : σ → σ → Prop) (R' : ω → Prop) (p p' : Prog σ ω ε α) : Prop :=
  (p = p' ∧ p.Confined V R fun _ => True) ∨
    (p.Confined V' R' fun _ => True) ∧ p'.Confined V' R' fun _ => True

namespace Turn

/-- The same turn, or the arrival of one or another of the others' requests. -/
inductive Beside (V : σ → σ → Prop) (R : ω → Prop) (V' : σ → σ → Prop) (R' : ω → Prop) :
    Turn σ ω ε α → Turn σ ω ε α → Prop
  | start {p p' : Prog σ ω ε α} (alike : Alike V R V' R' p p') : Beside V R V' R' (.start p) (.start p')
  | advance (i : Nat) : Beside V R V' R' (.advance i) (.advance i)

end Turn

namespace Pool

structure Beside (V : σ → σ → Prop) (R : ω → Prop) (V' : σ → σ → Prop) (R' : ω → Prop) (c c' : Pool σ ω ε α) :
    Prop where
  view : V c.store c'.store
  requests : List.Forall₂ (Alike V R V' R') c.requests c'.requests

variable {flush : ω → σ → Except ε σ} {V : σ → σ → Prop} {R : ω → Prop} {V' : σ → σ → Prop} {R' : ω → Prop}

theorem forall₂_set {α β : Type} {P : α → β → Prop} {l : List α} {l' : List β} (h : List.Forall₂ P l l')
    {i : Nat} {a : α} {b : β} (new : P a b) : List.Forall₂ P (l.set i a) (l'.set i b) := by
  induction h generalizing i with
  | nil => exact .nil
  | cons head tail ih =>
      cases i with
      | zero => exact .cons new tail
      | succ i => exact .cons head ih

theorem forall₂_getElem? {α β : Type} {P : α → β → Prop} {l : List α} {l' : List β} (h : List.Forall₂ P l l')
    (i : Nat) : (l[i]? = none ∧ l'[i]? = none) ∨ ∃ a b, l[i]? = some a ∧ l'[i]? = some b ∧ P a b := by
  induction h generalizing i with
  | nil => exact .inl ⟨rfl, rfl⟩
  | @cons a b _ _ head tail ih =>
      cases i with
      | zero => exact .inr ⟨a, b, rfl, rfl, head⟩
      | succ i => exact ih i

theorem set_found {α : Type} {l : List α} {i : Nat} {a : α} (found : l[i]? = some a) : l.set i a = l := by
  obtain ⟨inside, rfl⟩ := List.getElem?_eq_some_iff.mp found
  exact List.set_getElem_self inside

theorem confined_advance (mirrored : Mirrored flush V R) {c c' : Pool σ ω ε α} {i : Nat} {p : Prog σ ω ε α}
    (found : c.requests[i]? = some p) (found' : c'.requests[i]? = some p)
    (confined : p.Confined V R fun _ => True) (view : V c.store c'.store) :
    V (c.turn flush (.advance i)).store (c'.turn flush (.advance i)).store ∧
      ∃ q, (c.turn flush (.advance i)).requests = c.requests.set i q ∧
        (c'.turn flush (.advance i)).requests = c'.requests.set i q ∧ q.Confined V R fun _ => True := by
  cases p with
  | done r =>
      refine ⟨by simpa only [Pool.turn, found, found'] using view, .done r, ?_, ?_, confined⟩
      · simp only [Pool.turn, found]
        exact (set_found found).symm
      · simp only [Pool.turn, found']
        exact (set_found found').symm
  | read k =>
      obtain ⟨same, rest⟩ := confined _ _ view
      simp only [Pool.turn, found, found', ← same]
      exact ⟨view, k c.store, rfl, rfl, rest⟩
  | commit w k =>
      have outcome := mirrored w _ _ confined.1 view
      simp only [Pool.turn, found, found']
      generalize flush w c.store = left, flush w c'.store = right at outcome
      cases outcome with
      | ok after => exact ⟨after, k, rfl, rfl, confined.2⟩
      | error e => exact ⟨view, .done (.error e), rfl, rfl, trivial⟩

/-- The next statement of another's request leaves what is related. -/
theorem foreign_advance (apart : Apart flush V R') {c : Pool σ ω ε α} {s' : σ}
    (seen : V c.store s' → V' c.store c.store) {i : Nat} {p : Prog σ ω ε α}
    (found : c.requests[i]? = some p) (foreign : p.Confined V' R' fun _ => True)
    (view : V c.store s') :
    V (c.turn flush (.advance i)).store s' ∧
      ∃ q, (c.turn flush (.advance i)).requests = c.requests.set i q ∧ q.Confined V' R' fun _ => True := by
  cases p with
  | done r =>
      refine ⟨by simpa only [Pool.turn, found] using view, .done r, ?_, foreign⟩
      simp only [Pool.turn, found]
      exact (set_found found).symm
  | read k =>
      simp only [Pool.turn, found]
      exact ⟨view, k c.store, rfl, (foreign _ _ (seen view)).2⟩
  | commit w k =>
      simp only [Pool.turn, found]
      cases eq : flush w c.store with
      | ok t => exact ⟨apart w _ _ t foreign.1 view eq, k, rfl, foreign.2⟩
      | error e => exact ⟨view, .done (.error e), rfl, trivial⟩

section turns
variable (mirrored : Mirrored flush V R) (apart : Apart flush V R') (symm : ∀ s s', V s s' → V s' s)
  (seen : ∀ s s', V s s' → V' s s)
include mirrored apart symm seen

/-- One turn keeps what is related, whoever takes it. -/
theorem Beside.turn {c c' : Pool σ ω ε α} (h : Beside V R V' R' c c') {t t' : Turn σ ω ε α}
    (beside : t.Beside V R V' R' t') : Beside V R V' R' (c.turn flush t) (c'.turn flush t') := by
  obtain ⟨view, requests⟩ := h
  cases beside with
  | start alike => exact ⟨view, List.rel_append requests (.cons alike .nil)⟩
  | advance i =>
      rcases forall₂_getElem? requests i with ⟨here, here'⟩ | ⟨p, p', here, here', alike⟩
      · simp only [Pool.turn, here, here']
        exact ⟨view, requests⟩
      rcases alike with ⟨rfl, confined⟩ | ⟨foreign, foreign'⟩
      · obtain ⟨after, q, next, next', rest⟩ := confined_advance mirrored here here' confined view
        refine ⟨after, ?_⟩
        rw [next, next']
        exact forall₂_set requests (.inl ⟨rfl, rest⟩)
      · obtain ⟨half, q, next, rest⟩ := foreign_advance apart (seen _ _) here foreign view
        obtain ⟨full, q', next', rest'⟩ := foreign_advance apart (seen _ _) here' foreign' (symm _ _ half)
        refine ⟨symm _ _ full, ?_⟩
        rw [next, next']
        exact forall₂_set requests (.inr ⟨rest, rest'⟩)

omit apart symm seen in
theorem Beside.turn_same {c c' : Pool σ ω ε α} (h : Beside V R V' R' c c') {t t' : Turn σ ω ε α}
    (beside : t.Beside V R V' R' t') {i : Nat} {p : Prog σ ω ε α} (found : c.requests[i]? = some p)
    (found' : c'.requests[i]? = some p) (confined : p.Confined V R fun _ => True) :
    ∃ q, (c.turn flush t).requests[i]? = some q ∧ (c'.turn flush t').requests[i]? = some q ∧
      q.Confined V R fun _ => True := by
  have inside := (List.getElem?_eq_some_iff.mp found).1
  have inside' := (List.getElem?_eq_some_iff.mp found').1
  cases beside with
  | start alike =>
      refine ⟨p, ?_, ?_, confined⟩
      · rw [Pool.turn, List.getElem?_append_left inside, found]
      · rw [Pool.turn, List.getElem?_append_left inside', found']
  | advance j =>
      by_cases own : j = i
      · subst own
        obtain ⟨-, q, next, next', rest⟩ := confined_advance mirrored found found' confined h.view
        refine ⟨q, ?_, ?_, rest⟩
        · rw [next, List.getElem?_set_self inside]
        · rw [next', List.getElem?_set_self inside']
      · exact ⟨p, by rw [advance_other own, found], by rw [advance_other own, found'], confined⟩

/-- Over a whole run: what is related stays related. -/
theorem Beside.turns {c c' : Pool σ ω ε α} (h : Beside V R V' R' c c') {ts ts' : List (Turn σ ω ε α)}
    (beside : List.Forall₂ (Turn.Beside V R V' R') ts ts') :
    Beside V R V' R' (c.turns flush ts) (c'.turns flush ts') := by
  induction beside generalizing c c' with
  | nil => exact h
  | cons first _ ih => exact ih (h.turn mirrored apart symm seen first)

theorem Beside.turns_same {c c' : Pool σ ω ε α} (h : Beside V R V' R' c c') {ts ts' : List (Turn σ ω ε α)}
    (beside : List.Forall₂ (Turn.Beside V R V' R') ts ts') {i : Nat} {p : Prog σ ω ε α}
    (found : c.requests[i]? = some p) (found' : c'.requests[i]? = some p)
    (confined : p.Confined V R fun _ => True) :
    (c.turns flush ts).requests[i]? = (c'.turns flush ts').requests[i]? := by
  induction beside generalizing c c' p with
  | nil => exact found.trans found'.symm
  | cons first _ ih =>
      obtain ⟨q, next, next', rest⟩ := h.turn_same mirrored first found found' confined
      exact ih (h.turn mirrored apart symm seen first) next next' rest

theorem Beside.arrived_same {c c' : Pool σ ω ε α} (h : Beside V R V' R' c c') {ts ts' : List (Turn σ ω ε α)}
    (beside : List.Forall₂ (Turn.Beside V R V' R') ts ts') {j : Nat} {p : Prog σ ω ε α}
    (arrives : (arrivals ts)[j]? = some p) (arrives' : (arrivals ts')[j]? = some p)
    (confined : p.Confined V R fun _ => True) :
    (c.turns flush ts).requests[c.requests.length + j]? =
      (c'.turns flush ts').requests[c.requests.length + j]? := by
  induction beside generalizing c c' j with
  | nil => simp [arrivals] at arrives
  | cons first rest ih =>
      have next := h.turn mirrored apart symm seen first
      cases first with
      | @start q q' alike =>
          cases j with
          | zero =>
              obtain rfl : q = p := by simpa [arrivals] using arrives
              obtain rfl : q' = q := by simpa [arrivals] using arrives'
              refine next.turns_same (p := q') mirrored apart symm seen rest ?_ ?_ confined
              · exact List.getElem?_concat_length
              · rw [Nat.add_zero, h.requests.length_eq]
                exact List.getElem?_concat_length
          | succ j =>
              have shift : (c.turn flush (.start q)).requests.length + j = c.requests.length + (j + 1) := by
                simp only [Pool.turn, List.length_append, List.length_singleton]
                omega
              have later := ih next (by simpa [arrivals] using arrives) (by simpa [arrivals] using arrives')
              rw [shift] at later
              exact later
      | advance i =>
          have later := ih next (by simpa [arrivals] using arrives) (by simpa [arrivals] using arrives')
          rw [advance_length] at later
          exact later

end turns

end Pool
end beside

/-! ## Parts of a table -/

theorem filter_part {α : Type} {l : List α} {p q : α → Bool} (inside : ∀ a ∈ l, q a = true → p a = true) :
    l.filter q = (l.filter p).filter q := by
  rw [List.filter_filter]
  refine List.filter_congr fun a member => ?_
  cases here : q a with
  | false => rfl
  | true => exact (inside a member here).symm

theorem find?_part {α : Type} {l : List α} {p q : α → Bool} (inside : ∀ a ∈ l, q a = true → p a = true) :
    l.find? q = (l.filter p).find? q := by
  rw [← List.head?_filter, filter_part inside, List.head?_filter]

namespace Table
variable {κ ρ : Type} {key : ρ → κ}

def part (p : ρ → Bool) (t : Table κ ρ key) : List ρ := t.rows.filter p

variable [DecidableEq κ] {p : ρ → Bool} {t u : Table κ ρ key}

theorem find?_of_part {k : κ} (inside : ∀ r ∈ t, key r = k → p r = true) :
    t.find? k = (t.part p).find? fun r => decide (key r = k) :=
  find?_part fun r member own => inside r member (of_decide_eq_true own)

theorem part_insert? {r : ρ} (inserted : t.insert? r = some u) :
    u.part p = t.part p ++ if p r then [r] else [] := by
  rw [part, (insert?_eq_some.mp inserted).2, List.filter_append, part, List.filter_singleton]
  cases p r <;> rfl

theorem part_modify {k : κ} {f : ρ → ρ} {keeps : ∀ r, key (f r) = key r} (same : ∀ r, p (f r) = p r) :
    (t.modify k f keeps).part p = (t.part p).map fun r => if key r = k then f r else r := by
  rw [part, modify, List.filter_map, part]
  congr 1
  refine List.filter_congr fun r _ => ?_
  simp only [Function.comp_apply]
  split
  · exact same r
  · rfl

end Table
end Fleet.Lib
