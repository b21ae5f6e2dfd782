/- Requests made of parts that write and fail each in its own way, and what every request
   of a pool promises of its own commits. -/
import Fleet.Lib.Transactions

namespace Fleet.Lib

theorem mapError_ok {ε ε' α : Type} {f : ε → ε'} {r : Except ε α} {a : α} (h : r.mapError f = .ok a) :
    r = .ok a := by
  cases r with
  | error e => cases h
  | ok b => exact congrArg Except.ok (Except.ok.inj h)

namespace Prog
variable {σ ω ω' ε ε' α β γ : Type}

/-! ## Parts of a service -/

/-- A part of a service: its write sets and its errors are some of the service's. -/
def embed (f : ω → ω') (g : ε → ε') : Prog σ ω ε α → Prog σ ω' ε' α
  | .done (.ok a) => .done (.ok a)
  | .done (.error e) => .done (.error (g e))
  | .read k => .read fun s => (k s).embed f g
  | .commit w k => .commit (f w) (k.embed f g)

/-- A part that meets its postcondition meets it as a part, if the service commits its
write sets as the part does. -/
theorem wp_embed {flush : ω → σ → Except ε σ} {flush' : ω' → σ → Except ε' σ} {f : ω → ω'} {g : ε → ε'}
    (agrees : ∀ w s, flush' (f w) s = (flush w s).mapError g) {G : σ → σ → Prop} {R : σ → ω → Prop}
    {R' : σ → ω' → Prop} (promised : ∀ s w, R s w → R' s (f w)) {Q : Except ε α → σ → Prop}
    {Q' : Except ε' α → σ → Prop} (post : ∀ r s, Q r s → Q' (r.mapError g) s) {p : Prog σ ω ε α} {s : σ}
    (h : p.wp flush G R Q s) : (p.embed f g).wp flush' G R' Q' s := by
  induction p generalizing s with
  | done r => cases r <;> exact post _ s h
  | read k ih => exact fun s' rely => ih s' (h s' rely)
  | commit w k ih =>
      intro s' rely
      obtain ⟨own, rest⟩ := h s' rely
      refine ⟨promised s' w own, ?_⟩
      rw [agrees]
      cases eq : flush w s' with
      | ok t =>
          rw [eq] at rest
          exact ih rest
      | error e =>
          rw [eq] at rest
          exact post _ s' rest

def Reads : Prog σ ω ε α → Prop
  | .done _ => True
  | .read k => ∀ s, (k s).Reads
  | .commit _ _ => False

@[simp] theorem reads_pure (a : α) : (pure a : Prog σ ω ε α).Reads := trivial

@[simp] theorem reads_select (q : σ → α) : (read fun s => pure (q s) : Prog σ ω ε α).Reads := fun _ => trivial

theorem Reads.bind {p : Prog σ ω ε α} {f : α → Prog σ ω ε β} (h : p.Reads) (rest : ∀ a, (f a).Reads) :
    (p >>= f).Reads := by
  rw [bind_eq]
  induction p with
  | done r =>
      cases r with
      | ok a => exact rest a
      | error e => trivial
  | read k ih => exact fun s => ih s (h s)
  | commit w k _ => exact h.elim

theorem Reads.embed {f : ω → ω'} {g : ε → ε'} {p : Prog σ ω ε α} (h : p.Reads) :
    (p.embed f g).Reads := by
  induction p with
  | done r => cases r <;> trivial
  | read k ih => exact fun s => ih s (h s)
  | commit w k _ => exact h.elim

theorem Reads.wp {flush : ω → σ → Except ε σ} {G : σ → σ → Prop} {R : σ → ω → Prop}
    {Q : Except ε α → σ → Prop} {p : Prog σ ω ε α} (h : p.Reads) (post : ∀ r s, Q r s) (s : σ) :
    p.wp flush G R Q s := by
  induction p generalizing s with
  | done r => exact post r s
  | read k ih => exact fun s' _ => ih s' (h s') s'
  | commit w k _ => exact h.elim

/-- A part without write sets. -/
theorem reads_of_empty (p : Prog σ Empty ε α) : p.Reads := by
  induction p with
  | done r => trivial
  | read k ih => exact ih
  | commit w k _ => exact w.elim

theorem Reads.run {flush : ω → σ → Except ε σ} {p : Prog σ ω ε α} (h : p.Reads) (s : σ) :
    (p.run flush s).2 = s := by
  induction p with
  | done r => rfl
  | read k ih => exact ih s (h s)
  | commit w k _ => exact h.elim

/-! ### What is left of a run without its answer -/

section effects
variable (flush : ω → σ → Except ε σ)

/-- Whether a request succeeds alone, its error if it does not, and the store it leaves. -/
def effect (p : Prog σ ω ε α) (s : σ) : Except ε Unit × σ :=
  ((p.run flush s).1.map fun _ => (), (p.run flush s).2)

/-- A part that reads and always answers. -/
def Answers : Prog σ ω ε α → Prop
  | .done (.ok _) => True
  | .done (.error _) => False
  | .read k => ∀ s, (k s).Answers
  | .commit _ _ => False

theorem answers_pure (a : α) : (pure a : Prog σ ω ε α).Answers := trivial

theorem Answers.bind {p : Prog σ ω ε α} {f : α → Prog σ ω ε β} (h : p.Answers) (rest : ∀ a, (f a).Answers) :
    (p >>= f).Answers := by
  rw [bind_eq]
  induction p with
  | done r =>
      cases r with
      | ok a => exact rest a
      | error e => exact h.elim
  | read k ih => exact fun s => ih s (h s)
  | commit w k _ => exact h.elim

variable {flush}

theorem Answers.run {p : Prog σ ω ε α} (h : p.Answers) (s : σ) : ∃ a, p.run flush s = (.ok a, s) := by
  induction p with
  | done r =>
      cases r with
      | ok a => exact ⟨a, rfl⟩
      | error e => exact h.elim
  | read k ih => exact ih s (h s)
  | commit w k _ => exact h.elim

theorem effect_bind {p : Prog σ ω ε α} {f : α → Prog σ ω ε β} (rest : ∀ a, (f a).Answers) (s : σ) :
    (p >>= f).effect flush s = p.effect flush s := by
  rw [effect, run_bind, effect]
  cases run : p.run flush s with
  | mk r s' =>
      cases r with
      | error e => rfl
      | ok a =>
          obtain ⟨b, answered⟩ := @Answers.run _ _ _ _ flush _ (rest a) s'
          simp only [answered]
          rfl

theorem effect_after {p : Prog σ ω ε α} {f : α → Prog σ ω ε β} {s s' : σ} {a : α}
    (ran : p.run flush s = (.ok a, s')) : (p >>= f).effect flush s = (f a).effect flush s' := by
  rw [effect, run_bind, ran, effect]

theorem run_embed {flush' : ω' → σ → Except ε' σ} {f : ω → ω'} {g : ε → ε'}
    (agrees : ∀ w s, flush' (f w) s = (flush w s).mapError g) (p : Prog σ ω ε α) (s : σ) :
    (p.embed f g).run flush' s = ((p.run flush s).1.mapError g, (p.run flush s).2) := by
  induction p generalizing s with
  | done r => cases r <;> rfl
  | read k ih => exact ih s s
  | commit w k ih =>
      simp only [embed, run, agrees]
      cases flush w s with
      | ok s' => exact ih s'
      | error e => rfl

theorem effect_embed {flush' : ω' → σ → Except ε' σ} {f : ω → ω'} {g : ε → ε'}
    (agrees : ∀ w s, flush' (f w) s = (flush w s).mapError g) (p : Prog σ ω ε α) (s : σ) :
    (p.embed f g).effect flush' s = ((p.effect flush s).1.mapError g, (p.effect flush s).2) := by
  rw [effect, run_embed agrees, effect]
  cases (p.run flush s).1 <;> rfl

end effects

/-! ### Statements -/

section statements
variable {flush : ω → σ → Except ε σ} {G : σ → σ → Prop} {R : σ → ω → Prop}

@[simp] theorem wp_select (q : σ → α) (Q : Except ε α → σ → Prop) (s : σ) :
    (read fun s => pure (q s) : Prog σ ω ε α).wp flush G R Q s ↔ ∀ s', G s s' → Q (.ok (q s')) s' := Iff.rfl

@[simp] theorem wp_submit (w : ω) (Q : Except ε Unit → σ → Prop) (s : σ) :
    (commit w (pure ()) : Prog σ ω ε Unit).wp flush G R Q s ↔ ∀ s', G s s' → R s' w ∧
      (∀ t, flush w s' = .ok t → Q (.ok ()) t) ∧ (∀ e, flush w s' = .error e → Q (.error e) s') := by
  refine forall_congr' fun s' => imp_congr_right fun _ => and_congr_right fun _ => ?_
  cases flush w s' with
  | ok t => simp
  | error e => simp

end statements

theorem wp_then {flush : ω → σ → Except ε σ} {G : σ → σ → Prop} {R : σ → ω → Prop}
    {p : Prog σ ω ε α} {f : α → Prog σ ω ε β} {s : σ} (h : p.wp flush G R (fun _ _ => True) s)
    (rest : ∀ a s', (f a).wp flush G R (fun _ _ => True) s') :
    (p >>= f).wp flush G R (fun _ _ => True) s := by
  rw [wp_bind]
  refine wp_mono h (fun _ _ promised => promised) fun r s' _ => ?_
  cases r with
  | ok a => exact rest a s'
  | error e => trivial

theorem wp_alone {flush : ω → σ → Except ε σ} {G : σ → σ → Prop} {R : σ → ω → Prop}
    {Q : Except ε α → σ → Prop} (refl : ∀ s, G s s) {p : Prog σ ω ε α} {s : σ} (h : p.wp flush G R Q s) :
    p.wp flush Eq R Q s := by
  induction p generalizing s with
  | done r => exact h
  | read k ih =>
      rintro s' rfl
      exact ih s (h s (refl s))
  | commit w k ih =>
      rintro s' rfl
      obtain ⟨promised, rest⟩ := h s (refl s)
      refine ⟨promised, ?_⟩
      cases eq : flush w s with
      | ok t =>
          rw [eq] at rest
          exact ih rest
      | error e =>
          rw [eq] at rest
          exact rest

/-- Two parts that begin alike promise alike, if one of them only reads afterwards. -/
theorem wp_alike {flush : ω → σ → Except ε σ} {G : σ → σ → Prop} {R : σ → ω → Prop} {p : Prog σ ω ε α}
    {f : α → Prog σ ω ε β} {g : α → Prog σ ω ε γ} {s : σ}
    (h : (p >>= f).wp flush G R (fun _ _ => True) s) (reads : ∀ a, (g a).Reads) :
    (p >>= g).wp flush G R (fun _ _ => True) s := by
  rw [wp_bind] at h ⊢
  refine wp_mono h (fun _ _ promised => promised) fun r s' _ => ?_
  cases r with
  | ok a => exact (reads a).wp (fun _ _ => trivial) s'
  | error e => trivial

/-- What a request promises of its commits in every one of several ways, it promises of
them in all these ways. -/
theorem wp_all {flush : ω → σ → Except ε σ} {G : σ → σ → Prop} {P : (σ → ω → Prop) → Prop}
    {p : Prog σ ω ε α} {s : σ} (h : ∀ R, P R → p.wp flush G R (fun _ _ => True) s) :
    p.wp flush G (fun s w => ∀ R, P R → R s w) (fun _ _ => True) s := by
  induction p generalizing s with
  | done r => trivial
  | read k ih => exact fun s' rely => ih s' fun R promised => h R promised s' rely
  | commit w k ih =>
      refine fun s' rely => ⟨fun R promised => (h R promised s' rely).1, ?_⟩
      cases eq : flush w s' with
      | error e => trivial
      | ok t =>
          refine ih fun R promised => ?_
          have rest := (h R promised s' rely).2
          rw [eq] at rest
          exact rest

/-- Every commit of a request comes after what the request has seen. -/
theorem wp_since {flush : ω → σ → Except ε σ} {G : σ → σ → Prop} {R : σ → ω → Prop}
    (trans : ∀ a b d, G a b → G b d → G a d) (grows : ∀ w s s', flush w s = .ok s' → G s s')
    {Q : Except ε α → σ → Prop} {p : Prog σ ω ε α} {s₀ s : σ} (before : G s₀ s)
    (h : p.wp flush G R Q s) : p.wp flush G (fun s' w => R s' w ∧ G s₀ s') Q s := by
  induction p generalizing s with
  | done r => exact h
  | read k ih => exact fun s' rely => ih s' (trans _ _ _ before rely) (h s' rely)
  | commit w k ih =>
      intro s' rely
      obtain ⟨promised, rest⟩ := h s' rely
      have after := trans _ _ _ before rely
      refine ⟨⟨promised, after⟩, ?_⟩
      cases eq : flush w s' with
      | ok t =>
          rw [eq] at rest
          exact ih (trans _ _ _ after (grows w s' t eq)) rest
      | error e =>
          rw [eq] at rest
          exact rest

end Prog

/-! ## What a request promises of its own commits -/

namespace Pool
variable {σ ω ε α : Type} (flush : ω → σ → Except ε σ)

/-- The write sets committed for the request at position `i`, each with the store it was
applied to. -/
def historyOf (i : Nat) (c : Pool σ ω ε α) : List (Turn σ ω ε α) → List (σ × ω)
  | [] => []
  | t :: ts =>
      (c.committedBy flush i t).toList.map (fun w => (c.store, w)) ++ historyOf i (c.turn flush t) ts

variable {flush} {G : σ → σ → Prop} {R : σ → ω → Prop} {Q : Except ε α → σ → Prop}

theorem historyOf_idle {i : Nat} {c : Pool σ ω ε α} {t : Turn σ ω ε α} {ts : List (Turn σ ω ε α)}
    (idle : c.committedBy flush i t = none) :
    c.historyOf flush i (t :: ts) = (c.turn flush t).historyOf flush i ts := by
  rw [historyOf, idle, Option.toList_none, List.map_nil, List.nil_append]

/-- What holds of the first store and not of the last was broken by a commit. -/
theorem broken_by {I : σ → Prop} {c : Pool σ ω ε α} (start : I c.store) (ts : List (Turn σ ω ε α))
    (broken : ¬ I (c.turns flush ts).store) :
    ∃ e ∈ c.history flush ts, ∃ s', I e.1 ∧ flush e.2 e.1 = .ok s' ∧ ¬ I s' := by
  by_contra none
  refine broken (turns_invariant start ts fun e member s' before committed => ?_)
  by_contra after
  exact none ⟨e, member, s', before, committed, after⟩

theorem historyOf_complete {c : Pool σ ω ε α} {ts : List (Turn σ ω ε α)} {e : σ × ω}
    (member : e ∈ c.history flush ts) : ∃ i, e ∈ c.historyOf flush i ts := by
  induction ts generalizing c with
  | nil => cases member
  | cons t ts ih =>
      simp only [history] at member
      cases commit : c.committed flush t with
      | none =>
          rw [commit] at member
          obtain ⟨i, later⟩ := ih member
          exact ⟨i, List.mem_append_right _ later⟩
      | some ws =>
          obtain ⟨w, s'⟩ := ws
          rw [commit] at member
          rcases List.mem_cons.mp member with rfl | later
          · obtain ⟨i, k, rfl, found, ok⟩ := committed_eq_some.mp commit
            refine ⟨i, List.mem_append_left _ ?_⟩
            simp [committedBy, commit]
          · obtain ⟨i, rest⟩ := ih later
            exact ⟨i, List.mem_append_right _ rest⟩

theorem historyOf_arrived {c : Pool σ ω ε α} {i : Nat} {ts : List (Turn σ ω ε α)} {e : σ × ω}
    (own : e ∈ c.historyOf flush i ts) : i < c.requests.length + (arrivals ts).length := by
  induction ts generalizing c with
  | nil => cases own
  | cons t ts ih =>
      rcases List.mem_append.mp own with now | later
      · obtain ⟨w, mine, -⟩ := List.mem_map.mp now
        obtain ⟨rfl, s', commit⟩ := committedBy_eq_some (Option.mem_toList.mp mine)
        obtain ⟨_, k, same, found, _⟩ := committed_eq_some.mp commit
        cases same
        exact Nat.lt_add_right _ (List.getElem?_eq_some_iff.mp found).1
      · have bound := ih later
        cases t with
        | start q =>
            simp only [turn, List.length_append, List.length_singleton] at bound
            simp only [arrivals, List.length_cons]
            omega
        | advance j =>
            rw [advance_length] at bound
            exact bound

section promises
variable (refl : ∀ s, G s s) (trans : ∀ a b d, G a b → G b d → G a d)
  (grows : ∀ w s s', flush w s = .ok s' → G s s') (stable : ∀ r a b, Q r a → G a b → Q r b)

include refl trans grows stable

theorem wp_turn {c : Pool σ ω ε α} {i : Nat} {p : Prog σ ω ε α} (found : c.requests[i]? = some p)
    (h : p.wp flush G R Q c.store) (t : Turn σ ω ε α) :
    (∃ p', (c.turn flush t).requests[i]? = some p' ∧ p'.wp flush G R Q (c.turn flush t).store) ∧
      ∀ w, c.committedBy flush i t = some w → R c.store w := by
  have inside : i < c.requests.length := (List.getElem?_eq_some_iff.mp found).1
  have others : (c.turn flush t).requests[i]? = some p →
      ∃ p', (c.turn flush t).requests[i]? = some p' ∧ p'.wp flush G R Q (c.turn flush t).store :=
    fun same => ⟨p, same, Prog.wp_stable trans stable h (turn_grows refl grows c t)⟩
  cases t with
  | start q =>
      refine ⟨others ?_, fun w own => by cases own⟩
      rw [turn, List.getElem?_append_left inside, found]
  | advance j =>
      by_cases own : j = i
      · subst own
        cases p with
        | done r =>
            refine ⟨others ?_, fun w commits => ?_⟩
            · simp only [turn, found]
            · simp [committedBy, committed, found] at commits
        | read k =>
            refine ⟨⟨k c.store, ?_, ?_⟩, fun w commits => ?_⟩
            · simp only [turn, found]
              exact List.getElem?_set_self inside
            · simp only [turn, found]
              exact h c.store (refl _)
            · simp [committedBy, committed, found] at commits
        | commit w k =>
            obtain ⟨promised, rest⟩ := h c.store (refl _)
            cases eq : flush w c.store with
            | ok s' =>
                rw [eq] at rest
                refine ⟨⟨k, ?_, ?_⟩, fun w' commits => ?_⟩
                · simp only [turn, found, eq]
                  exact List.getElem?_set_self inside
                · simp only [turn, found, eq]
                  exact rest
                · obtain rfl : w = w' := by simpa [committedBy, committed, found, eq] using commits
                  exact promised
            | error e =>
                rw [eq] at rest
                refine ⟨⟨.done (.error e), ?_, ?_⟩, fun w' commits => ?_⟩
                · simp only [turn, found, eq]
                  exact List.getElem?_set_self inside
                · simp only [turn, found, eq]
                  exact rest
                · simp [committedBy, committed, found, eq] at commits
      · refine ⟨others ?_, fun w commits => by simp [committedBy, own] at commits⟩
        rw [advance_other own, found]

theorem wp_turns {c : Pool σ ω ε α} {i : Nat} {p : Prog σ ω ε α} (found : c.requests[i]? = some p)
    (h : p.wp flush G R Q c.store) (ts : List (Turn σ ω ε α)) :
    (∃ p', (c.turns flush ts).requests[i]? = some p' ∧ p'.wp flush G R Q (c.turns flush ts).store) ∧
      ∀ e ∈ c.historyOf flush i ts, R e.1 e.2 := by
  induction ts generalizing c p with
  | nil => exact ⟨⟨p, found, h⟩, fun e member => by cases member⟩
  | cons t ts ih =>
      obtain ⟨⟨p', found', h'⟩, promised⟩ := wp_turn refl trans grows stable found h t
      obtain ⟨rest, later⟩ := ih found' h'
      refine ⟨rest, fun e member => ?_⟩
      rcases List.mem_append.mp member with now | after
      · obtain ⟨w, own, rfl⟩ := List.mem_map.mp now
        exact promised w (Option.mem_toList.mp own)
      · exact later e after

theorem wp_arrived {c : Pool σ ω ε α} {j : Nat} {p : Prog σ ω ε α} {ts : List (Turn σ ω ε α)}
    (arrives : (arrivals ts)[j]? = some p) (h : ∀ s, p.wp flush G R Q s) :
    (∃ p', (c.turns flush ts).requests[c.requests.length + j]? = some p' ∧
        p'.wp flush G R Q (c.turns flush ts).store) ∧
      ∀ e ∈ c.historyOf flush (c.requests.length + j) ts, R e.1 e.2 := by
  induction ts generalizing c j with
  | nil => simp [arrivals] at arrives
  | cons t ts ih =>
      cases t with
      | start q =>
          have grown : (c.turn flush (.start q)).requests = c.requests ++ [q] := rfl
          cases j with
          | zero =>
              obtain rfl : q = p := by simpa [arrivals] using arrives
              have found : (c.turn flush (.start q)).requests[c.requests.length]? = some q := by
                simp [grown]
              rw [historyOf_idle rfl]
              exact wp_turns refl trans grows stable found (h _) ts
          | succ j =>
              have later : (arrivals ts)[j]? = some p := by simpa [arrivals] using arrives
              have shift : (c.turn flush (.start q)).requests.length + j =
                  c.requests.length + (j + 1) := by
                simp only [grown, List.length_append, List.length_singleton]
                omega
              have rest := ih (c := c.turn flush (.start q)) later
              rw [shift] at rest
              rw [historyOf_idle rfl]
              exact rest
      | advance i =>
          have later : (arrivals ts)[j]? = some p := by simpa [arrivals] using arrives
          -- a request that has not arrived commits nothing
          have idle : c.committedBy flush (c.requests.length + j) (.advance i) = none := by
            by_cases here : i = c.requests.length + j
            · subst here
              simp [committedBy, committed]
            · simp [committedBy, here]
          have rest := ih (c := c.turn flush (.advance i)) later
          rw [advance_length] at rest
          rw [historyOf_idle idle]
          exact rest

end promises

end Pool
end Fleet.Lib
