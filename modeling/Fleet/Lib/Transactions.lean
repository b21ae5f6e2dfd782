/- Requests that commit at most once: what a result tells of the request's own commit,
   alone or among others. -/
import Fleet.Lib.Prog

namespace Fleet.Lib

namespace Prog
variable {σ ω ε α β : Type} (flush : ω → σ → Except ε σ) (I : σ → Prop)

/-- Whatever stores with `I` it reads, the request commits at most one write set, and
`post` relates that write set to its result. -/
def Once (post : Option ω → Except ε α → Prop) : Option ω → Prog σ ω ε α → Prop
  | own, .done r => post own r
  | own, .read k => ∀ s, I s → Once post own (k s)
  | own, .commit w k => own = none ∧ Once post (some w) k ∧
      ∀ s e, flush w s = .error e → post none (.error e)

variable {flush I} {post : Option ω → Except ε α → Prop} {own : Option ω}

@[simp] theorem once_pure (a : α) :
    Once flush I post own (pure a : Prog σ ω ε α) ↔ post own (.ok a) := Iff.rfl

@[simp] theorem once_raise (e : ε) :
    Once flush I post own (raise e : Prog σ ω ε α) ↔ post own (.error e) := Iff.rfl

@[simp] theorem once_ite (c : Prop) [Decidable c] (p q : Prog σ ω ε α) :
    Once flush I post own (if c then p else q) ↔
      (c → Once flush I post own p) ∧ (¬ c → Once flush I post own q) := by
  by_cases h : c <;> simp [h]

@[simp] theorem once_bind (p : Prog σ ω ε α) (f : α → Prog σ ω ε β)
    (post : Option ω → Except ε β → Prop) (own : Option ω) :
    Once flush I post own (p >>= f) ↔
      Once flush I (fun own r =>
        match r with
        | .ok a => Once flush I post own (f a)
        | .error e => post own (.error e)) own p := by
  rw [bind_eq]
  induction p generalizing own with
  | done r => cases r <;> rfl
  | read k ih => exact forall_congr' fun s => imp_congr_right fun _ => ih s own
  | commit w k ih => exact and_congr_right fun _ => and_congr_left fun _ => ih (some w)

end Prog

namespace Pool
variable {σ ω ε α : Type} (flush : ω → σ → Except ε σ)

def arrivals : List (Turn σ ω ε α) → List (Prog σ ω ε α)
  | [] => []
  | .start p :: ts => p :: arrivals ts
  | .advance _ :: ts => arrivals ts

def committedBy (i : Nat) (c : Pool σ ω ε α) (t : Turn σ ω ε α) : Option ω :=
  match t with
  | .advance j => if j = i then (c.committed flush t).map Prod.fst else none
  | .start _ => none

def commitsOf (i : Nat) (c : Pool σ ω ε α) : List (Turn σ ω ε α) → List ω
  | [] => []
  | t :: ts => (c.committedBy flush i t).toList ++ commitsOf i (c.turn flush t) ts

def Visits (I : σ → Prop) (c : Pool σ ω ε α) : List (Turn σ ω ε α) → Prop
  | [] => I c.store
  | t :: ts => I c.store ∧ Visits I (c.turn flush t) ts

variable {flush} {I : σ → Prop} {post : Option ω → Except ε α → Prop}

theorem Visits.start {c : Pool σ ω ε α} {ts : List (Turn σ ω ε α)} (h : c.Visits flush I ts) :
    I c.store := by
  cases ts with
  | nil => exact h
  | cons t ts => exact h.1

theorem turn_committed {c : Pool σ ω ε α} {t : Turn σ ω ε α} {w : ω} {s' : σ}
    (commit : c.committed flush t = some (w, s')) :
    flush w c.store = .ok s' ∧ (c.turn flush t).store = s' := by
  obtain ⟨i, k, rfl, found, ok⟩ := committed_eq_some.mp commit
  exact ⟨ok, by simp [turn, found, ok]⟩

theorem advance_length {c : Pool σ ω ε α} {i : Nat} :
    (c.turn flush (.advance i)).requests.length = c.requests.length := by
  simp only [turn]
  split
  · exact List.length_set
  · split <;> exact List.length_set
  · rfl

theorem advance_other {c : Pool σ ω ε α} {i j : Nat} (other : j ≠ i) :
    (c.turn flush (.advance j)).requests[i]? = c.requests[i]? := by
  simp only [turn]
  split
  · rw [List.getElem?_set_ne other]
  · split <;> rw [List.getElem?_set_ne other]
  · rfl

theorem committedBy_eq_some {c : Pool σ ω ε α} {t : Turn σ ω ε α} {i : Nat} {w : ω}
    (own : c.committedBy flush i t = some w) :
    t = .advance i ∧ ∃ s', c.committed flush t = some (w, s') := by
  cases t with
  | start p => cases own
  | advance j =>
      simp only [committedBy] at own
      split at own
      · rename_i same
        obtain ⟨⟨_, s'⟩, commit, rfl⟩ := Option.map_eq_some_iff.mp own
        exact ⟨congrArg _ same, s', commit⟩
      · cases own

theorem mem_commitsOf {i : Nat} {c : Pool σ ω ε α} {ts : List (Turn σ ω ε α)} {w : ω}
    (own : w ∈ c.commitsOf flush i ts) : ∃ s, (s, w) ∈ c.history flush ts := by
  induction ts generalizing c with
  | nil => cases own
  | cons t ts ih =>
      simp only [history]
      rcases List.mem_append.mp own with now | later
      · obtain ⟨_, s', commit⟩ := committedBy_eq_some (Option.mem_toList.mp now)
        rw [commit]
        exact ⟨c.store, List.mem_cons_self⟩
      · obtain ⟨s, member⟩ := ih later
        refine ⟨s, ?_⟩
        split
        · exact List.mem_cons_of_mem _ member
        · exact member

/-- One turn of the run takes a request to a request that still commits at most once. -/
theorem once_turn {c : Pool σ ω ε α} {i : Nat} {p : Prog σ ω ε α} {own : Option ω}
    (found : c.requests[i]? = some p) (once : p.Once flush I post own) (reads : I c.store)
    (t : Turn σ ω ε α) :
    ∃ p' own', (c.turn flush t).requests[i]? = some p' ∧ p'.Once flush I post own' ∧
      own'.toList = own.toList ++ (c.committedBy flush i t).toList := by
  cases t with
  | start q =>
      refine ⟨p, own, ?_, once, by simp [committedBy]⟩
      have inside : i < c.requests.length := (List.getElem?_eq_some_iff.mp found).1
      rw [turn, List.getElem?_append_left inside, found]
  | advance j =>
      by_cases same : j = i
      · subst same
        have inside : j < c.requests.length := (List.getElem?_eq_some_iff.mp found).1
        cases p with
        | done r => exact ⟨_, own, by simp [turn, found], once, by simp [committedBy, committed, found]⟩
        | read k =>
            refine ⟨k c.store, own, ?_, once c.store reads, by simp [committedBy, committed, found]⟩
            simp only [turn, found]
            exact List.getElem?_set_self inside
        | commit w k =>
            obtain ⟨rfl, rest, refused⟩ := once
            cases eq : flush w c.store with
            | ok s' =>
                refine ⟨k, some w, ?_, rest, by simp [committedBy, committed, found, eq]⟩
                simp only [turn, found, eq]
                exact List.getElem?_set_self inside
            | error e =>
                refine ⟨.done (.error e), none, ?_, refused _ e eq, ?_⟩
                · simp only [turn, found, eq]
                  exact List.getElem?_set_self inside
                · simp [committedBy, committed, found, eq]
      · refine ⟨p, own, ?_, once, by simp [committedBy, same]⟩
        simp only [turn]
        split
        · rw [List.getElem?_set_ne same, found]
        · split
          · rw [List.getElem?_set_ne same, found]
          · rw [List.getElem?_set_ne same, found]
        · exact found

theorem once_turns {c : Pool σ ω ε α} {i : Nat} {p : Prog σ ω ε α} {own : Option ω}
    {ts : List (Turn σ ω ε α)} (visits : c.Visits flush I ts)
    (found : c.requests[i]? = some p) (once : p.Once flush I post own) :
    ∃ p' own', (c.turns flush ts).requests[i]? = some p' ∧ p'.Once flush I post own' ∧
      own'.toList = own.toList ++ c.commitsOf flush i ts := by
  induction ts generalizing c p own with
  | nil => exact ⟨p, own, found, once, by simp [commitsOf]⟩
  | cons t ts ih =>
      obtain ⟨p', own', found', once', first⟩ := once_turn found once visits.start t
      obtain ⟨p'', own'', found'', once'', rest⟩ := ih visits.2 found' once'
      refine ⟨p'', own'', found'', once'', ?_⟩
      rw [rest, first, commitsOf, List.append_assoc]

theorem arrived_turns {c : Pool σ ω ε α} {j : Nat} {p : Prog σ ω ε α}
    {ts : List (Turn σ ω ε α)} (visits : c.Visits flush I ts)
    (arrives : (arrivals ts)[j]? = some p) (once : p.Once flush I post none) :
    ∃ p' own, (c.turns flush ts).requests[c.requests.length + j]? = some p' ∧
      p'.Once flush I post own ∧ own.toList = c.commitsOf flush (c.requests.length + j) ts := by
  induction ts generalizing c j with
  | nil => simp [arrivals] at arrives
  | cons t ts ih =>
      cases t with
      | start q =>
          have grown : (c.turn flush (.start q)).requests = c.requests ++ [q] := rfl
          cases j with
          | zero =>
              obtain rfl : q = p := by simpa [arrivals] using arrives
              have found : (c.turn flush (.start q)).requests[c.requests.length]? = some q := by
                simp [grown]
              obtain ⟨p', own, found', once', commits⟩ := once_turns visits.2 found once
              exact ⟨p', own, found', once', by simpa [commitsOf, committedBy] using commits⟩
          | succ j =>
              have later : (arrivals ts)[j]? = some p := by simpa [arrivals] using arrives
              obtain ⟨p', own, found', once', commits⟩ := ih visits.2 later
              have shift : (c.turn flush (.start q)).requests.length + j =
                  c.requests.length + (j + 1) := by
                simp only [grown, List.length_append, List.length_singleton]
                omega
              rw [shift] at found' commits
              exact ⟨p', own, found', once', by simpa [commitsOf, committedBy] using commits⟩
      | advance i =>
          have later : (arrivals ts)[j]? = some p := by simpa [arrivals] using arrives
          obtain ⟨p', own, found', once', commits⟩ := ih visits.2 later
          rw [advance_length] at found' commits
          refine ⟨p', own, found', once', ?_⟩
          -- a request that has not arrived commits nothing
          have idle : c.committedBy flush (c.requests.length + j) (.advance i) = none := by
            by_cases here : i = c.requests.length + j
            · subst here
              simp [committedBy, committed]
            · simp [committedBy, here]
          rw [commits, commitsOf, idle]
          rfl

theorem done_turns {c : Pool σ ω ε α} {i : Nat} {r : Except ε α} (ts : List (Turn σ ω ε α))
    (found : c.requests[i]? = some (.done r)) : (c.turns flush ts).requests[i]? = some (.done r) := by
  induction ts generalizing c with
  | nil => exact found
  | cons t ts ih =>
      apply ih
      cases t with
      | start q =>
          have inside : i < c.requests.length := (List.getElem?_eq_some_iff.mp found).1
          rw [turn, List.getElem?_append_left inside, found]
      | advance j =>
          by_cases same : j = i
          · subst same
            simp only [turn, found]
          · simp only [turn]
            split
            · rw [List.getElem?_set_ne same, found]
            · split
              · rw [List.getElem?_set_ne same, found]
              · rw [List.getElem?_set_ne same, found]
            · exact found

/-! ### Stores that only grow -/

section growth
variable {G : σ → σ → Prop} (refl : ∀ s, G s s) (trans : ∀ a b d, G a b → G b d → G a d)
  (grows : ∀ w s s', flush w s = .ok s' → G s s')

include refl grows

theorem turn_grows (c : Pool σ ω ε α) (t : Turn σ ω ε α) : G c.store (c.turn flush t).store := by
  rcases @turn_store _ _ _ _ flush c t with ⟨_, same⟩ | ⟨w, s', commit, now⟩
  · rw [same]
    exact refl _
  · rw [now]
    exact grows w _ _ (turn_committed commit).1

include trans

theorem turns_grow (c : Pool σ ω ε α) (ts : List (Turn σ ω ε α)) :
    G c.store (c.turns flush ts).store := by
  induction ts generalizing c with
  | nil => exact refl _
  | cons t ts ih => exact trans _ _ _ (turn_grows refl grows c t) (ih (c.turn flush t))

theorem visits_before (c : Pool σ ω ε α) (ts : List (Turn σ ω ε α)) :
    c.Visits flush (fun s => G s (c.turns flush ts).store) ts := by
  induction ts generalizing c with
  | nil => exact refl _
  | cons t ts ih => exact ⟨turns_grow refl trans grows c (t :: ts), ih (c.turn flush t)⟩

theorem history_between (c : Pool σ ω ε α) (ts : List (Turn σ ω ε α)) :
    ∀ e ∈ c.history flush ts, G c.store e.1 ∧
      ∃ s', flush e.2 e.1 = .ok s' ∧ G s' (c.turns flush ts).store := by
  induction ts generalizing c with
  | nil => intro e member; cases member
  | cons t ts ih =>
      intro e member
      have later : e ∈ (c.turn flush t).history flush ts → G c.store e.1 ∧
          ∃ s', flush e.2 e.1 = .ok s' ∧ G s' (c.turns flush (t :: ts)).store := by
        intro old
        obtain ⟨after, rest⟩ := ih (c.turn flush t) e old
        exact ⟨trans _ _ _ (turn_grows refl grows c t) after, rest⟩
      simp only [history] at member
      cases commit : c.committed flush t with
      | none =>
          rw [commit] at member
          exact later member
      | some ws =>
          obtain ⟨w, s'⟩ := ws
          rw [commit] at member
          rcases List.mem_cons.mp member with rfl | old
          · obtain ⟨ok, now⟩ := turn_committed commit
            refine ⟨refl _, s', ok, ?_⟩
            rw [← now]
            exact turns_grow refl trans grows (c.turn flush t) ts
          · exact later old

theorem commits_ordered {i j : Nat} (other : i ≠ j) {v w : ω} (c : Pool σ ω ε α)
    (ts : List (Turn σ ω ε α)) (first : v ∈ c.commitsOf flush i ts) (last : w ∈ c.commitsOf flush j ts) :
    ∃ s s₁ s₂ s₃, G s₁ s₂ ∧ ((flush v s = .ok s₁ ∧ flush w s₂ = .ok s₃) ∨
      (flush w s = .ok s₁ ∧ flush v s₂ = .ok s₃)) := by
  induction ts generalizing c with
  | nil => cases first
  | cons t ts ih =>
      -- a commit of this turn is followed by every commit of the rest of the run
      have follows : ∀ {m n : Nat} {v w : ω}, v ∈ (c.committedBy flush m t).toList →
          w ∈ (c.turn flush t).commitsOf flush n ts →
            ∃ s s₁ s₂ s₃, G s₁ s₂ ∧ flush v s = .ok s₁ ∧ flush w s₂ = .ok s₃ := by
        intro m n v w now later
        obtain ⟨s₂, member⟩ := mem_commitsOf later
        obtain ⟨after, s₃, ok, _⟩ := history_between refl trans grows _ ts _ member
        obtain ⟨_, s₁, commit⟩ := committedBy_eq_some (Option.mem_toList.mp now)
        obtain ⟨done, left⟩ := turn_committed commit
        exact ⟨c.store, s₁, s₂, s₃, left ▸ after, done, ok⟩
      rw [commitsOf, List.mem_append] at first last
      rcases first with now | later
      · rcases last with now' | later'
        · obtain ⟨rfl, _⟩ := committedBy_eq_some (Option.mem_toList.mp now)
          obtain ⟨same, _⟩ := committedBy_eq_some (Option.mem_toList.mp now')
          cases same
          exact absurd rfl other
        · obtain ⟨s, s₁, s₂, s₃, after, ok, ok'⟩ := follows now later'
          exact ⟨s, s₁, s₂, s₃, after, .inl ⟨ok, ok'⟩⟩
      · rcases last with now' | later'
        · obtain ⟨s, s₁, s₂, s₃, after, ok, ok'⟩ := follows now' later
          exact ⟨s, s₁, s₂, s₃, after, .inr ⟨ok, ok'⟩⟩
        · exact ih _ later later'

end growth

end Pool
end Fleet.Lib
