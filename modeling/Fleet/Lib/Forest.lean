/- Forests given by parent links: walking up from a node lists its ancestors. -/
import Mathlib.Data.List.Basic
import Mathlib.Data.List.Nodup
import Mathlib.Logic.Relation
import Mathlib.Tactic.Common

namespace Fleet.Lib

/-- Nodes with a parent link and a depth. The links stay inside the nodes, and a
depth that grows by one along every link rules out cycles. -/
structure Forest (α : Type) where
  node : α → Prop
  parent : α → Option α
  depth : α → Nat
  closed : ∀ a b, node a → parent a = some b → node b
  top : ∀ a, node a → parent a = none → depth a = 0
  below : ∀ a b, node a → parent a = some b → depth a = depth b + 1

namespace Forest
variable {α : Type} (F : Forest α)

/-- At most `n` ancestors, nearest first. -/
def climb : Nat → α → List α
  | 0, _ => []
  | n + 1, a =>
      match F.parent a with
      | none => []
      | some b => b :: climb n b

def Ancestor : α → α → Prop := Relation.TransGen (fun b a => F.parent a = some b)

variable {F}

theorem ancestor_cases {a b : α} : F.Ancestor b a ↔
    ∃ p, F.parent a = some p ∧ (b = p ∨ F.Ancestor b p) := by
  constructor
  · intro h
    rcases Relation.TransGen.tail'_iff.mp h with ⟨p, up, link⟩
    refine ⟨p, link, ?_⟩
    rcases Relation.reflTransGen_iff_eq_or_transGen.mp up with same | far
    · exact .inl same.symm
    · exact .inr far
  · intro given
    obtain ⟨p, link, rfl | far⟩ := given
    · exact .single link
    · exact .tail far link

theorem depth_ancestor {a b : α} (inside : F.node a) (h : F.Ancestor b a) :
    F.depth b < F.depth a := by
  induction h with
  | single link => rw [F.below _ _ inside link]; exact Nat.lt_succ_self _
  | tail _ link ih =>
      have := ih (F.closed _ _ inside link)
      have := F.below _ _ inside link
      omega

theorem exists_parent {a : α} {n : Nat} (inside : F.node a) (size : F.depth a = n + 1) :
    ∃ p, F.parent a = some p ∧ F.node p ∧ F.depth p = n := by
  cases link : F.parent a with
  | none =>
      have := F.top a inside link
      omega
  | some p =>
      have := F.below a p inside link
      exact ⟨p, rfl, F.closed a p inside link, by omega⟩

theorem mem_climb {a b : α} (inside : F.node a) :
    b ∈ F.climb (F.depth a) a ↔ F.Ancestor b a := by
  generalize size : F.depth a = n
  induction n generalizing a with
  | zero =>
      rw [ancestor_cases]
      simp only [climb, List.not_mem_nil, false_iff, not_exists, not_and]
      intro p link
      have := F.below a p inside link
      omega
  | succ n ih =>
      obtain ⟨p, link, above, shallower⟩ := exists_parent inside size
      rw [ancestor_cases]
      simp only [climb, link, List.mem_cons, Option.some.injEq, exists_eq_left']
      rw [ih above shallower]

theorem climb_length {a : α} (inside : F.node a) : (F.climb (F.depth a) a).length = F.depth a := by
  generalize size : F.depth a = n
  induction n generalizing a with
  | zero => rfl
  | succ n ih =>
      obtain ⟨p, link, above, shallower⟩ := exists_parent inside size
      simp only [climb, link, List.length_cons]
      rw [ih above shallower]

theorem climb_linked (n : Nat) (a : α) :
    List.IsChain (fun a b => F.parent a = some b) (a :: F.climb n a) := by
  induction n generalizing a with
  | zero => exact .singleton a
  | succ n ih =>
      cases link : F.parent a with
      | none => simp [climb, link]
      | some p =>
          simp only [climb, link, List.isChain_cons_cons, true_and]
          exact ih p

theorem climb_nodup {a : α} (inside : F.node a) : (a :: F.climb (F.depth a) a).Nodup := by
  generalize size : F.depth a = n
  induction n generalizing a with
  | zero => exact List.nodup_singleton a
  | succ n ih =>
      obtain ⟨p, link, above, shallower⟩ := exists_parent inside size
      have rest := ih above shallower
      simp only [climb, link]
      refine List.nodup_cons.mpr ⟨fun again => ?_, rest⟩
      have up : F.Ancestor a a := by
        rw [← mem_climb inside, size]
        simpa [climb, link] using again
      exact Nat.lt_irrefl _ (depth_ancestor inside up)

/-- Every node below the top has exactly one ancestor without a parent. -/
theorem exists_unique_top {a : α} (inside : F.node a) (child : F.parent a ≠ none) :
    ∃ r, (F.Ancestor r a ∧ F.parent r = none) ∧
      ∀ r', F.Ancestor r' a → F.parent r' = none → r' = r := by
  generalize size : F.depth a = n
  induction n generalizing a with
  | zero =>
      obtain ⟨p, link⟩ := Option.ne_none_iff_exists'.mp child
      have := F.below a p inside link
      omega
  | succ n ih =>
      obtain ⟨p, link⟩ := Option.ne_none_iff_exists'.mp child
      have deeper := F.below a p inside link
      have inside' := F.closed a p inside link
      cases up : F.parent p with
      | none =>
          refine ⟨p, ⟨.single link, up⟩, fun r' far _ => ?_⟩
          obtain ⟨p', link', near | far⟩ := ancestor_cases.mp far
          · rw [link] at link'; cases link'; exact near
          · obtain ⟨q, link'', _⟩ := ancestor_cases.mp far
            rw [link] at link'
            cases link'
            rw [up] at link''
            cases link''
      | some q =>
          obtain ⟨r, ⟨far, top⟩, only⟩ := ih inside' (by rw [up]; exact Option.some_ne_none q) (by omega)
          refine ⟨r, ⟨.tail far link, top⟩, fun r' above top' => ?_⟩
          obtain ⟨p', link', near | far'⟩ := ancestor_cases.mp above
          · rw [link] at link'
            cases link'
            rw [near, up] at top'
            cases top'
          · rw [link] at link'
            cases link'
            exact only r' far' top'

end Forest
end Fleet.Lib
