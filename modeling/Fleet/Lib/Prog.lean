/- Requests as sequences of database statements: run alone, reasoned about by a
   weakest precondition, and interleaved in a pool. -/
import Mathlib.Logic.Relation
import Mathlib.Data.List.Basic
import Mathlib.Tactic.Common

namespace Fleet.Lib

/-- A request against a store of type `σ`. A read sees the store of its own
moment; a commit hands over a write set, and nothing else is ever persisted. -/
inductive Prog (σ ω ε α : Type) where
  | done (r : Except ε α)
  | read (k : σ → Prog σ ω ε α)
  | commit (w : ω) (k : Prog σ ω ε α)

namespace Prog
variable {σ ω ε α β : Type}

def raise (e : ε) : Prog σ ω ε α := .done (.error e)

def bind : Prog σ ω ε α → (α → Prog σ ω ε β) → Prog σ ω ε β
  | .done (.ok a), f => f a
  | .done (.error e), _ => .done (.error e)
  | .read k, f => .read (fun s => (k s).bind f)
  | .commit w k, f => .commit w (k.bind f)

instance : Monad (Prog σ ω ε) where
  pure a := .done (.ok a)
  bind := bind

theorem pure_eq (a : α) : (pure a : Prog σ ω ε α) = .done (.ok a) := rfl

theorem bind_eq (p : Prog σ ω ε α) (f : α → Prog σ ω ε β) : (p >>= f) = p.bind f := rfl

/-! ## Running alone -/

section run
variable (flush : ω → σ → Except ε σ)

/-- No other request runs in between. A refused commit ends the request and
leaves the store; a raise after a commit leaves what was committed. -/
def run : Prog σ ω ε α → σ → Except ε α × σ
  | .done r, s => (r, s)
  | .read k, s => (k s).run s
  | .commit w k, s =>
      match flush w s with
      | .ok s' => k.run s'
      | .error e => (.error e, s)

theorem run_bind (p : Prog σ ω ε α) (f : α → Prog σ ω ε β) (s : σ) :
    (p >>= f).run flush s =
      match p.run flush s with
      | (.ok a, s') => (f a).run flush s'
      | (.error e, s') => (.error e, s') := by
  rw [bind_eq]
  induction p generalizing s with
  | done r => cases r <;> rfl
  | read k ih => exact ih s s
  | commit w k ih =>
      simp only [bind, run]
      cases flush w s with
      | ok s' => exact ih s'
      | error e => rfl

end run

/-! ## Weakest preconditions

`G` is what other requests may do to the store between two statements, `R` what
this request promises about every write set it commits. With `G` the equality
the request runs alone. -/

section wp
variable (flush : ω → σ → Except ε σ) (G : σ → σ → Prop) (R : σ → ω → Prop)

def wp : Prog σ ω ε α → (Except ε α → σ → Prop) → σ → Prop
  | .done r, Q, s => Q r s
  | .read k, Q, s => ∀ s', G s s' → (k s').wp Q s'
  | .commit w k, Q, s => ∀ s', G s s' → R s' w ∧
      match flush w s' with
      | .ok t => k.wp Q t
      | .error e => Q (.error e) s'

@[simp] theorem wp_pure (a : α) (Q : Except ε α → σ → Prop) (s : σ) :
    (pure a : Prog σ ω ε α).wp flush G R Q s ↔ Q (.ok a) s := Iff.rfl

@[simp] theorem wp_raise (e : ε) (Q : Except ε α → σ → Prop) (s : σ) :
    (raise e : Prog σ ω ε α).wp flush G R Q s ↔ Q (.error e) s := Iff.rfl

@[simp] theorem wp_bind (p : Prog σ ω ε α) (f : α → Prog σ ω ε β)
    (Q : Except ε β → σ → Prop) (s : σ) :
    (p >>= f).wp flush G R Q s ↔
      p.wp flush G R (fun r s' =>
        match r with
        | .ok a => (f a).wp flush G R Q s'
        | .error e => Q (.error e) s') s := by
  rw [bind_eq]
  induction p generalizing s with
  | done r => cases r <;> rfl
  | read k ih => exact forall_congr' fun s' => imp_congr_right fun _ => ih s' s'
  | commit w k ih =>
      refine forall_congr' fun s' => imp_congr_right fun _ => and_congr_right fun _ => ?_
      cases flush w s' with
      | ok t => exact ih t
      | error e => exact Iff.rfl

@[simp] theorem wp_ite (c : Prop) [Decidable c] (p q : Prog σ ω ε α)
    (Q : Except ε α → σ → Prop) (s : σ) :
    (if c then p else q).wp flush G R Q s ↔
      (c → p.wp flush G R Q s) ∧ (¬ c → q.wp flush G R Q s) := by
  by_cases h : c <;> simp [h]

variable {flush G R}

theorem wp_mono {R' : σ → ω → Prop} {Q Q' : Except ε α → σ → Prop} {p : Prog σ ω ε α} {s : σ}
    (h : p.wp flush G R Q s) (guarantee : ∀ s w, R s w → R' s w)
    (post : ∀ r s, Q r s → Q' r s) : p.wp flush G R' Q' s := by
  induction p generalizing s with
  | done r => exact post r s h
  | read k ih => exact fun s' rely => ih s' (h s' rely)
  | commit w k ih =>
      intro s' rely
      obtain ⟨promised, rest⟩ := h s' rely
      refine ⟨guarantee s' w promised, ?_⟩
      cases eq : flush w s' with
      | ok t => rw [eq] at rest; exact ih rest
      | error e => rw [eq] at rest; exact post _ _ rest

/-- A request keeps its precondition while others act within `G`. -/
theorem wp_stable {Q : Except ε α → σ → Prop} {p : Prog σ ω ε α} {s s' : σ}
    (trans : ∀ a b c, G a b → G b c → G a c) (stable : ∀ r a b, Q r a → G a b → Q r b)
    (h : p.wp flush G R Q s) (rely : G s s') : p.wp flush G R Q s' := by
  cases p with
  | done r => exact stable r s s' h rely
  | read k => exact fun t more => h t (trans _ _ _ rely more)
  | commit w k => exact fun t more => h t (trans _ _ _ rely more)

/-- Alone, the postcondition holds of the result and of the store left behind. -/
theorem wp_run {Q : Except ε α → σ → Prop} {p : Prog σ ω ε α} {s : σ}
    (h : p.wp flush Eq R Q s) : Q (p.run flush s).1 (p.run flush s).2 := by
  induction p generalizing s with
  | done r => exact h
  | read k ih => exact ih s (h s rfl)
  | commit w k ih =>
      obtain ⟨_, rest⟩ := h s rfl
      simp only [run]
      cases eq : flush w s with
      | ok t => rw [eq] at rest; exact ih rest
      | error e => rw [eq] at rest; exact rest

/-- What every promised commit preserves, the whole request preserves. -/
theorem run_invariant {I : σ → Prop} {Q : Except ε α → σ → Prop} {p : Prog σ ω ε α} {s : σ}
    (commits : ∀ s w t, I s → R s w → flush w s = .ok t → I t)
    (h : p.wp flush Eq R Q s) (start : I s) : I (p.run flush s).2 := by
  induction p generalizing s with
  | done r => exact start
  | read k ih => exact ih s (h s rfl) start
  | commit w k ih =>
      obtain ⟨promised, rest⟩ := h s rfl
      simp only [run]
      cases eq : flush w s with
      | ok t => rw [eq] at rest; exact ih rest (commits s w t start promised eq)
      | error e => exact start

end wp

theorem run_keeps {flush : ω → σ → Except ε σ} {I : σ → Prop}
    (commits : ∀ s w t, I s → flush w s = .ok t → I t) (p : Prog σ ω ε α) {s : σ} (start : I s) :
    I (p.run flush s).2 := by
  induction p generalizing s with
  | done r => exact start
  | read k ih => exact ih s start
  | commit w k ih =>
      simp only [run]
      cases eq : flush w s with
      | ok t => exact ih (commits s w t start eq)
      | error e => exact start

/-- The write set a request hands over first when no other runs in between. -/
def offered : Prog σ ω ε α → σ → Option ω
  | .done _, _ => none
  | .read k, s => (k s).offered s
  | .commit w _, _ => some w

theorem wp_offered {flush : ω → σ → Except ε σ} {R : σ → ω → Prop} {Q : Except ε α → σ → Prop}
    {p : Prog σ ω ε α} {s : σ} (h : p.wp flush Eq R Q s) {w : ω} (offers : p.offered s = some w) :
    R s w := by
  induction p generalizing s with
  | done r => cases offers
  | read k ih => exact ih s (h s rfl) offers
  | commit w' k _ =>
      cases offers
      exact (h s rfl).1

theorem run_refused {flush : ω → σ → Except ε σ} {p : Prog σ ω ε α} {s : σ} {w : ω} {e : ε}
    (offers : p.offered s = some w) (refused : flush w s = .error e) :
    p.run flush s = (.error e, s) := by
  induction p with
  | done r => cases offers
  | read k ih => exact ih s offers
  | commit w' k _ =>
      cases offers
      rw [run, refused]

/-- The result of a request that commits nothing, each read of which sees the next of
the given stores. -/
def readAt : Prog σ ω ε α → List σ → Option (Except ε α)
  | .done r, _ => some r
  | .read k, s :: later => (k s).readAt later
  | .read _, [] => none
  | .commit _ _, _ => none

end Prog

/-! ## Requests interleaved statement by statement -/

/-- A store shared by requests that have each executed some of their statements. -/
structure Pool (σ ω ε α : Type) where
  store : σ
  requests : List (Prog σ ω ε α)

/-- A request arrives, or the request at a position executes its next statement. -/
inductive Turn (σ ω ε α : Type) where
  | start (p : Prog σ ω ε α)
  | advance (i : Nat)

namespace Pool
variable {σ ω ε α : Type} (flush : ω → σ → Except ε σ)

def committed (c : Pool σ ω ε α) : Turn σ ω ε α → Option (ω × σ)
  | .start _ => none
  | .advance i =>
      match c.requests[i]? with
      | some (.commit w _) =>
          match flush w c.store with
          | .ok s' => some (w, s')
          | .error _ => none
      | _ => none

def turn (c : Pool σ ω ε α) : Turn σ ω ε α → Pool σ ω ε α
  | .start p => { c with requests := c.requests ++ [p] }
  | .advance i =>
      match c.requests[i]? with
      | some (.read k) => { c with requests := c.requests.set i (k c.store) }
      | some (.commit w k) =>
          match flush w c.store with
          | .ok s' => ⟨s', c.requests.set i k⟩
          | .error e => { c with requests := c.requests.set i (.done (.error e)) }
      | _ => c

def turns (c : Pool σ ω ε α) (ts : List (Turn σ ω ε α)) : Pool σ ω ε α := ts.foldl (turn flush) c

def history (c : Pool σ ω ε α) : List (Turn σ ω ε α) → List (σ × ω)
  | [] => []
  | t :: ts =>
      let rest := (c.turn flush t).history ts
      match c.committed flush t with
      | some (w, _) => (c.store, w) :: rest
      | none => rest

variable {flush} {G : σ → σ → Prop} {R : σ → ω → Prop}

theorem committed_eq_some {c : Pool σ ω ε α} {t : Turn σ ω ε α} {w : ω} {s' : σ} :
    c.committed flush t = some (w, s') ↔
      ∃ i k, t = .advance i ∧ c.requests[i]? = some (.commit w k) ∧ flush w c.store = .ok s' := by
  cases t with
  | start p => simp [committed]
  | advance i =>
      simp only [committed]
      constructor
      · intro h
        split at h
        · rename_i w' k found
          split at h
          · rename_i s'' ok
            obtain ⟨rfl, rfl⟩ : w' = w ∧ s'' = s' := by simpa using h
            exact ⟨i, k, rfl, found, ok⟩
          · cases h
        · cases h
      · intro given
        obtain ⟨j, k, same, found, ok⟩ := given
        cases same
        simp [found, ok]

/-- The store changes only by a commit. -/
theorem turn_store {c : Pool σ ω ε α} {t : Turn σ ω ε α} :
    (c.committed flush t = none ∧ (c.turn flush t).store = c.store) ∨
      ∃ w s', c.committed flush t = some (w, s') ∧ (c.turn flush t).store = s' := by
  cases t with
  | start p => exact .inl ⟨rfl, rfl⟩
  | advance i =>
      simp only [committed, turn]
      cases c.requests[i]? with
      | none => exact .inl ⟨rfl, rfl⟩
      | some p =>
          cases p with
          | done r => exact .inl ⟨rfl, rfl⟩
          | read k => exact .inl ⟨rfl, rfl⟩
          | commit w k =>
              cases eq : flush w c.store with
              | ok s' => exact .inr ⟨w, s', by simp [eq], by simp [eq]⟩
              | error e => exact .inl ⟨by simp [eq], by simp [eq]⟩

/-- Every pending request meets its precondition at the current store. -/
def Sound (flush : ω → σ → Except ε σ) (G : σ → σ → Prop) (R : σ → ω → Prop)
    (c : Pool σ ω ε α) : Prop :=
  ∀ p ∈ c.requests, p.wp flush G R (fun _ _ => True) c.store

def Admissible (flush : ω → σ → Except ε σ) (G : σ → σ → Prop) (R : σ → ω → Prop) :
    Turn σ ω ε α → Prop
  | .start p => ∀ s, p.wp flush G R (fun _ _ => True) s
  | .advance _ => True

theorem Sound.committed {c : Pool σ ω ε α} (sound : c.Sound flush G R) (refl : ∀ s, G s s)
    {t : Turn σ ω ε α} {w : ω} {s' : σ} (h : c.committed flush t = some (w, s')) :
    R c.store w := by
  obtain ⟨i, k, _, found, _⟩ := committed_eq_some.mp h
  exact (sound _ (List.mem_of_getElem? found) c.store (refl _)).1

/-- Parallel composition: if every promised commit stays within what the others
rely on, each request keeps its precondition through every turn. -/
theorem Sound.turn {c : Pool σ ω ε α} (sound : c.Sound flush G R) (refl : ∀ s, G s s)
    (trans : ∀ a b d, G a b → G b d → G a d)
    (guarantee : ∀ s w s', R s w → flush w s = .ok s' → G s s')
    {t : Turn σ ω ε α} (admissible : Admissible flush G R t) : (c.turn flush t).Sound flush G R := by
  have move : ∀ {s'}, G c.store s' → ∀ p ∈ c.requests, p.wp flush G R (fun _ _ => True) s' :=
    fun rely p member => Prog.wp_stable trans (fun _ _ _ _ _ => trivial) (sound p member) rely
  cases t with
  | start p =>
      intro q member
      rcases List.mem_append.mp member with old | new
      · exact sound q old
      · rw [List.mem_singleton.mp new]
        exact admissible c.store
  | advance i =>
      simp only [Pool.turn]
      cases found : c.requests[i]? with
      | none => exact sound
      | some p =>
          have own := sound p (List.mem_of_getElem? found)
          cases p with
          | done r => exact sound
          | read k =>
              intro q member
              rcases List.mem_or_eq_of_mem_set member with old | rfl
              · exact sound q old
              · exact own c.store (refl _)
          | commit w k =>
              obtain ⟨promised, rest⟩ := own c.store (refl _)
              cases eq : flush w c.store with
              | ok s' =>
                  rw [eq] at rest
                  simp only [eq]
                  intro q member
                  rcases List.mem_or_eq_of_mem_set member with old | rfl
                  · exact move (guarantee _ _ _ promised eq) q old
                  · exact rest
              | error e =>
                  simp only [eq]
                  intro q member
                  rcases List.mem_or_eq_of_mem_set member with old | rfl
                  · exact sound q old
                  · exact trivial

section run
variable {c : Pool σ ω ε α} (refl : ∀ s, G s s) (trans : ∀ a b d, G a b → G b d → G a d)
  (guarantee : ∀ s w s', R s w → flush w s = .ok s' → G s s')

include refl trans guarantee

/-- Every write set of a run was promised at the store it was applied to. -/
theorem Sound.history (sound : c.Sound flush G R) (ts : List (Turn σ ω ε α))
    (admissible : ∀ t ∈ ts, Admissible flush G R t) :
    ∀ e ∈ c.history flush ts, R e.1 e.2 := by
  induction ts generalizing c with
  | nil => intro e member; cases member
  | cons t ts ih =>
      have later := ih (sound.turn refl trans guarantee (admissible t List.mem_cons_self))
        fun t' member => admissible t' (List.mem_cons_of_mem _ member)
      intro e member
      simp only [history] at member
      cases commit : c.committed flush t with
      | none => rw [commit] at member; exact later e member
      | some ws =>
          rw [commit] at member
          rcases List.mem_cons.mp member with rfl | old
          · exact sound.committed refl commit
          · exact later e old

omit refl trans guarantee in
theorem turns_invariant {I : σ → Prop} (start : I c.store) (ts : List (Turn σ ω ε α))
    (commits : ∀ e ∈ c.history flush ts, ∀ s', I e.1 → flush e.2 e.1 = .ok s' → I s') :
    I (c.turns flush ts).store := by
  induction ts generalizing c with
  | nil => exact start
  | cons t ts ih =>
      refine ih ?_ fun e member => commits e ?_
      · rcases @turn_store _ _ _ _ flush c t with ⟨_, same⟩ | ⟨w, s', commit, now⟩
        · rw [same]
          exact start
        · obtain ⟨_, _, _, _, ok⟩ := committed_eq_some.mp commit
          rw [now]
          refine commits (c.store, w) ?_ s' start ok
          simp [history, commit]
      · simp only [history]
        split
        · exact List.mem_cons_of_mem _ member
        · exact member

end run

end Pool
end Fleet.Lib
