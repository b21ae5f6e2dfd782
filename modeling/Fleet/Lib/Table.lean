/- Keyed tables: a row list whose primary key is unique by construction. -/
import Mathlib.Data.List.Basic
import Mathlib.Data.List.Nodup
import Mathlib.Tactic.Common

namespace Fleet.Lib

/-- Rows in insertion order. The key constraint is a field, so a table with two
rows of one key cannot be built. -/
structure Table (κ ρ : Type*) (key : ρ → κ) where
  rows : List ρ
  nodup : (rows.map key).Nodup

namespace Table
variable {κ ρ : Type*} {key : ρ → κ}

def empty : Table κ ρ key := ⟨[], List.nodup_nil⟩

instance : Inhabited (Table κ ρ key) := ⟨empty⟩

instance : Membership ρ (Table κ ρ key) := ⟨fun t r => r ∈ t.rows⟩

@[ext] theorem ext {t u : Table κ ρ key} (h : t.rows = u.rows) : t = u := by
  cases t; cases u; cases h; rfl

theorem mem_rows {t : Table κ ρ key} {r : ρ} : r ∈ t.rows ↔ r ∈ t := Iff.rfl

theorem eq_of_key {t : Table κ ρ key} {r r' : ρ} (h : r ∈ t) (h' : r' ∈ t)
    (same : key r = key r') : r = r' :=
  List.inj_on_of_nodup_map t.nodup h h' same

variable [DecidableEq κ]

def find? (t : Table κ ρ key) (k : κ) : Option ρ := t.rows.find? (fun r => decide (key r = k))

theorem find?_eq_some {t : Table κ ρ key} {k : κ} {r : ρ} :
    t.find? k = some r ↔ r ∈ t ∧ key r = k := by
  constructor
  · intro found
    exact ⟨List.mem_of_find?_eq_some found, by simpa using List.find?_some found⟩
  · intro given
    obtain ⟨member, rfl⟩ := given
    obtain ⟨r', found⟩ : ∃ r', t.find? (key r) = some r' := by
      rw [← Option.isSome_iff_exists, find?, List.find?_isSome]
      exact ⟨r, member, by simp⟩
    have same : key r' = key r := by simpa using List.find?_some found
    rw [found, eq_of_key (List.mem_of_find?_eq_some found) member same]

theorem find?_mem {t : Table κ ρ key} {r : ρ} (member : r ∈ t) : t.find? (key r) = some r :=
  find?_eq_some.mpr ⟨member, rfl⟩

theorem find?_eq_none {t : Table κ ρ key} {k : κ} : t.find? k = none ↔ ∀ r ∈ t, key r ≠ k := by
  simp only [find?, List.find?_eq_none, decide_eq_true_eq]
  rfl

/-- Insertion is refused when the key is taken. -/
def insert? (t : Table κ ρ key) (r : ρ) : Option (Table κ ρ key) :=
  if absent : key r ∉ t.rows.map key then
    some ⟨t.rows ++ [r], by
      rw [List.map_append, List.map_singleton]
      exact t.nodup.append (List.nodup_singleton _) (by simpa using absent)⟩
  else none

theorem insert?_eq_some {t u : Table κ ρ key} {r : ρ} :
    t.insert? r = some u ↔ t.find? (key r) = none ∧ u.rows = t.rows ++ [r] := by
  have absent_iff : key r ∉ t.rows.map key ↔ t.find? (key r) = none := by
    rw [find?_eq_none]
    constructor
    · intro absent r' member same
      exact absent (List.mem_map.mpr ⟨r', member, same⟩)
    · intro fresh taken
      obtain ⟨r', member, same⟩ := List.mem_map.mp taken
      exact fresh r' member same
  unfold insert?
  split
  · rename_i absent
    simp only [Option.some.injEq, absent_iff.mp absent, true_and]
    constructor
    · rintro rfl; rfl
    · intro same; exact Table.ext same.symm
  · rename_i taken
    simp only [reduceCtorEq, false_iff, not_and]
    intro fresh
    exact absurd (absent_iff.mpr fresh) taken

theorem mem_insert? {t u : Table κ ρ key} {r x : ρ} (inserted : t.insert? r = some u) :
    x ∈ u ↔ x ∈ t ∨ x = r := by
  rw [← mem_rows, (insert?_eq_some.mp inserted).2, List.mem_append, List.mem_singleton, mem_rows]

theorem find?_insert? {t u : Table κ ρ key} {r : ρ} {k : κ} (inserted : t.insert? r = some u) :
    u.find? k = if key r = k then some r else t.find? k := by
  obtain ⟨fresh, rows⟩ := insert?_eq_some.mp inserted
  unfold find? at fresh ⊢
  rw [rows, List.find?_append]
  by_cases same : key r = k
  · subst same
    simp [fresh]
  · simp [same]

/-- In-place update of the row of one key; the update may not touch the key. -/
def modify (t : Table κ ρ key) (k : κ) (f : ρ → ρ) (keeps : ∀ r, key (f r) = key r) :
    Table κ ρ key :=
  ⟨t.rows.map (fun r => if key r = k then f r else r), by
    have same : (t.rows.map (fun r => if key r = k then f r else r)).map key = t.rows.map key := by
      rw [List.map_map]
      apply List.map_congr_left
      intro r _
      simp only [Function.comp_apply]
      split
      · exact keeps r
      · rfl
    rw [same]
    exact t.nodup⟩

theorem mem_modify {t : Table κ ρ key} {k : κ} {f : ρ → ρ} {keeps : ∀ r, key (f r) = key r}
    {x : ρ} : x ∈ t.modify k f keeps ↔ ∃ r ∈ t, x = if key r = k then f r else r := by
  rw [← mem_rows, modify, List.mem_map]
  constructor
  · rintro ⟨r, member, rfl⟩; exact ⟨r, member, rfl⟩
  · rintro ⟨r, member, rfl⟩; exact ⟨r, member, rfl⟩

theorem find?_modify {t : Table κ ρ key} {k : κ} {f : ρ → ρ} {keeps : ∀ r, key (f r) = key r}
    {k' : κ} : (t.modify k f keeps).find? k' =
      if k' = k then (t.find? k').map f else t.find? k' := by
  cases found : t.find? k' with
  | none =>
      rw [find?_eq_none] at found
      simp only [Option.map_none, ite_self]
      rw [find?_eq_none]
      intro x member
      obtain ⟨r, old, rfl⟩ := mem_modify.mp member
      split
      · rw [keeps]; exact found r old
      · exact found r old
  | some r =>
      obtain ⟨member, rfl⟩ := find?_eq_some.mp found
      split
      · rename_i same
        rw [Option.map_some, find?_eq_some]
        exact ⟨mem_modify.mpr ⟨r, member, by simp [same]⟩, keeps r⟩
      · rename_i other
        rw [find?_eq_some]
        exact ⟨mem_modify.mpr ⟨r, member, by simp [other]⟩, rfl⟩

/-- An update of all rows that satisfy a condition. -/
def updateWhere (t : Table κ ρ key) (p : ρ → Bool) (f : ρ → ρ) (keeps : ∀ r, key (f r) = key r) :
    Table κ ρ key :=
  ⟨t.rows.map (fun r => if p r then f r else r), by
    have same : (t.rows.map (fun r => if p r then f r else r)).map key = t.rows.map key := by
      rw [List.map_map]
      apply List.map_congr_left
      intro r _
      simp only [Function.comp_apply]
      split
      · exact keeps r
      · rfl
    rw [same]
    exact t.nodup⟩

theorem find?_updateWhere {t : Table κ ρ key} {p : ρ → Bool} {f : ρ → ρ}
    {keeps : ∀ r, key (f r) = key r} (k : κ) :
    (t.updateWhere p f keeps).find? k = (t.find? k).map (fun r => if p r then f r else r) := by
  have same : ∀ r, key (if p r then f r else r) = key r := by
    intro r
    split
    · exact keeps r
    · rfl
  rw [find?, updateWhere, List.find?_map]
  congr 2
  funext r
  simp [same]

def put (t : Table κ ρ key) (r : ρ) : Table κ ρ key :=
  ⟨t.rows.map (fun x => if key x = key r then r else x), by
    have same : (t.rows.map (fun x => if key x = key r then r else x)).map key = t.rows.map key := by
      rw [List.map_map]
      apply List.map_congr_left
      intro x _
      simp only [Function.comp_apply]
      split
      · rename_i own; exact own.symm
      · rfl
    rw [same]
    exact t.nodup⟩

theorem mem_put {t : Table κ ρ key} {r x : ρ} (member : x ∈ t.put r) :
    x = r ∨ (x ∈ t ∧ key x ≠ key r) := by
  rw [← mem_rows, put, List.mem_map] at member
  obtain ⟨y, old, rfl⟩ := member
  split
  · exact .inl rfl
  · rename_i other; exact .inr ⟨old, other⟩

def erase (t : Table κ ρ key) (k : κ) : Table κ ρ key :=
  ⟨t.rows.filter (fun r => key r ≠ k), t.nodup.sublist (List.filter_sublist.map key)⟩

theorem mem_erase {t : Table κ ρ key} {k : κ} {r : ρ} : r ∈ t.erase k ↔ r ∈ t ∧ key r ≠ k := by
  rw [← mem_rows, erase, List.mem_filter, decide_eq_true_eq]
  exact Iff.rfl

theorem find?_put {t : Table κ ρ key} {r : ρ} {k : κ} :
    (t.put r).find? k = if k = key r then (t.find? k).map (fun _ => r) else t.find? k := by
  cases found : t.find? k with
  | none =>
      rw [Option.map_none, ite_self, find?_eq_none]
      rw [find?_eq_none] at found
      intro x member
      obtain ⟨y, old, rfl⟩ := List.mem_map.mp member
      split
      · rename_i own
        rw [← own]
        exact found y old
      · exact found y old
  | some x =>
      obtain ⟨member, rfl⟩ := find?_eq_some.mp found
      have image : (if key x = key r then r else x) ∈ t.put r :=
        List.mem_map.mpr ⟨x, member, rfl⟩
      split
      · rename_i own
        rw [if_pos own] at image
        exact find?_eq_some.mpr ⟨image, own.symm⟩
      · rename_i other
        rw [if_neg other] at image
        exact find?_eq_some.mpr ⟨image, rfl⟩

theorem find?_erase {t : Table κ ρ key} {k k' : κ} :
    (t.erase k).find? k' = if k' = k then none else t.find? k' := by
  split
  · rename_i own
    rw [find?_eq_none]
    intro r member
    rw [own]
    exact (mem_erase.mp member).2
  · rename_i other
    cases found : t.find? k' with
    | none =>
        rw [find?_eq_none] at found ⊢
        exact fun r member => found r (mem_erase.mp member).1
    | some r =>
        obtain ⟨member, rfl⟩ := find?_eq_some.mp found
        exact find?_eq_some.mpr ⟨mem_erase.mpr ⟨member, other⟩, rfl⟩

/-! ## Rows by position -/

theorem insert?_eq_none {t : Table κ ρ key} {r : ρ} : t.insert? r = none ↔ key r ∈ t.rows.map key := by
  unfold insert?
  split
  · rename_i absent
    exact iff_of_false nofun absent
  · rename_i taken
    exact iff_of_true rfl (not_not.mp taken)

theorem insert?_isSome {t : Table κ ρ key} {r : ρ} :
    (∃ u, t.insert? r = some u) ↔ t.find? (key r) = none := by
  refine ⟨fun ⟨u, inserted⟩ => (insert?_eq_some.mp inserted).1, fun fresh => ?_⟩
  cases inserted : t.insert? r with
  | some u => exact ⟨u, rfl⟩
  | none =>
      obtain ⟨r', member, same⟩ := List.mem_map.mp (insert?_eq_none.mp inserted)
      exact absurd same (find?_eq_none.mp fresh r' member)

theorem erase_rows {t : Table κ ρ key} {r : ρ} {i : Nat} (found : t.rows[i]? = some r) :
    (t.erase (key r)).rows = t.rows.eraseIdx i := by
  obtain ⟨rows, nodup⟩ := t
  simp only [erase] at found ⊢
  induction rows generalizing i with
  | nil => cases found
  | cons x rows ih =>
      obtain ⟨fresh, nodup⟩ := List.nodup_cons.mp nodup
      cases i with
      | zero =>
          obtain rfl : x = r := Option.some.inj found
          rw [List.filter_cons_of_neg (by simp), List.eraseIdx_zero, List.tail_cons]
          refine List.filter_eq_self.mpr fun y member => decide_eq_true fun same => fresh ?_
          exact same ▸ List.mem_map_of_mem member
      | succ i =>
          have other : key x ≠ key r := fun same =>
            fresh (same ▸ List.mem_map_of_mem (List.mem_of_getElem? found))
          rw [List.filter_cons_of_pos (by simpa using other), List.eraseIdx_cons_succ, ih nodup found]

theorem put_rows {t : Table κ ρ key} {r r' : ρ} {i : Nat} (found : t.rows[i]? = some r)
    (own : key r' = key r) : (t.put r').rows = t.rows.set i r' := by
  obtain ⟨rows, nodup⟩ := t
  simp only [put] at found ⊢
  induction rows generalizing i with
  | nil => cases found
  | cons x rows ih =>
      obtain ⟨fresh, nodup⟩ := List.nodup_cons.mp nodup
      cases i with
      | zero =>
          obtain rfl : x = r := Option.some.inj found
          have others : ∀ y ∈ rows, (if key y = key r' then r' else y) = id y := fun y member =>
            if_neg fun (same : key y = key r') => fresh (same.trans own ▸ List.mem_map_of_mem member)
          rw [List.map_cons, if_pos own.symm, List.set_cons_zero, List.map_congr_left others, List.map_id]
      | succ i =>
          have other : key x ≠ key r' := fun same =>
            fresh (same.trans own ▸ List.mem_map_of_mem (List.mem_of_getElem? found))
          rw [List.map_cons, if_neg other, List.set_cons_succ, ih nodup found]

end Table
end Fleet.Lib
