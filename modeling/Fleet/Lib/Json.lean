/- JSON values as a Python process holds them, and dictionaries over them. -/
import Mathlib.Data.List.Basic
import Mathlib.Tactic.Common

namespace Fleet.Lib

/-- `null` is Python's `None`. A non-integral number is kept as its decimal
mantissa and exponent; an object keeps its keys in insertion order. -/
inductive Json where
  | null
  | bool (b : Bool)
  | num (n : Int)
  | real (mantissa exponent : Int)
  | str (s : String)
  | arr (xs : List Json)
  | obj (d : List (String × Json))

abbrev Dict := List (String × Json)

namespace Json

mutual
def decEq : (a b : Json) → Decidable (a = b)
  | .null, .null => isTrue rfl
  | .bool a, .bool b => decidable_of_iff (a = b) (by simp)
  | .num a, .num b => decidable_of_iff (a = b) (by simp)
  | .real m e, .real m' e' => decidable_of_iff (m = m' ∧ e = e') (by simp)
  | .str a, .str b => decidable_of_iff (a = b) (by simp)
  | .arr xs, .arr ys => @decidable_of_iff _ (xs = ys) (by simp) (decEqList xs ys)
  | .obj d, .obj d' => @decidable_of_iff _ (d = d') (by simp) (decEqDict d d')
  | .null, .bool _ | .null, .num _ | .null, .real _ _ | .null, .str _ | .null, .arr _
  | .null, .obj _ | .bool _, .null | .bool _, .num _ | .bool _, .real _ _ | .bool _, .str _
  | .bool _, .arr _ | .bool _, .obj _ | .num _, .null | .num _, .bool _ | .num _, .real _ _
  | .num _, .str _ | .num _, .arr _ | .num _, .obj _ | .real _ _, .null | .real _ _, .bool _
  | .real _ _, .num _ | .real _ _, .str _ | .real _ _, .arr _ | .real _ _, .obj _
  | .str _, .null | .str _, .bool _ | .str _, .num _ | .str _, .real _ _ | .str _, .arr _
  | .str _, .obj _ | .arr _, .null | .arr _, .bool _ | .arr _, .num _ | .arr _, .real _ _
  | .arr _, .str _ | .arr _, .obj _ | .obj _, .null | .obj _, .bool _ | .obj _, .num _
  | .obj _, .real _ _ | .obj _, .str _ | .obj _, .arr _ => isFalse (by simp)
def decEqList : (a b : List Json) → Decidable (a = b)
  | [], [] => isTrue rfl
  | [], _ :: _ | _ :: _, [] => isFalse (by simp)
  | x :: xs, y :: ys =>
      match decEq x y, decEqList xs ys with
      | isTrue h, isTrue t => isTrue (by rw [h, t])
      | isFalse h, _ => isFalse (by simp [h])
      | _, isFalse t => isFalse (by simp [t])
def decEqDict : (a b : List (String × Json)) → Decidable (a = b)
  | [], [] => isTrue rfl
  | [], _ :: _ | _ :: _, [] => isFalse (by simp)
  | (k, x) :: xs, (k', y) :: ys =>
      match decEq x y, decEqDict xs ys, (inferInstance : Decidable (k = k')) with
      | isTrue h, isTrue t, isTrue e => isTrue (by rw [h, t, e])
      | isFalse h, _, _ => isFalse (by simp [h])
      | _, isFalse t, _ => isFalse (by simp [t])
      | _, _, isFalse e => isFalse (by simp [e])
end

instance : DecidableEq Json := decEq

/-- Python's truth value: empty strings, containers and zeros are false. -/
def truthy : Json → Bool
  | .null => false
  | .bool b => b
  | .num n => n != 0
  | .real m _ => m != 0
  | .str s => s != ""
  | .arr xs => !xs.isEmpty
  | .obj d => !d.isEmpty

def str? : Json → Option String
  | .str s => some s
  | _ => none

def ofOption : Option String → Json
  | some s => .str s
  | none => .null

theorem lookup_cons_ite {α : Type} (x k : String) (a : α) (l : List (String × α)) :
    ((k, a) :: l).lookup x = if x = k then some a else l.lookup x := by
  rw [List.lookup_cons]
  by_cases own : x = k
  · simp [own]
  · have other : (x == k) = false := by simpa using own
    simp [other, own]

end Json

namespace Dict

def get? (d : Dict) (k : String) : Option Json := d.lookup k

theorem get?_nil (k : String) : get? [] k = none := rfl

theorem get?_cons (d : Dict) (k : String) (v : Json) (x : String) :
    get? ((k, v) :: d) x = if x = k then some v else d.get? x := Json.lookup_cons_ite x k v d

theorem get?_append (d e : Dict) (k : String) : get? (d ++ e) k = (get? d k).or (get? e k) := by
  induction d with
  | nil => rfl
  | cons item d ih =>
      rw [List.cons_append, get?_cons, get?_cons, ih]
      split <;> rfl

theorem get?_optional {α : Type} (a : Option α) (f : α → Json) {key k : String} (other : k ≠ key) :
    get? (a.toList.map fun x => (key, f x)) k = none := by
  cases a with
  | none => rfl
  | some x =>
      rw [Option.toList_some, List.map_singleton, get?_cons, if_neg other]
      rfl

/-- `d.get(k)`, with `None` for a missing key. -/
def get (d : Dict) (k : String) : Json := (d.get? k).getD .null

def has (d : Dict) (k : String) : Bool := (d.get? k).isSome

/-- `d[k] = v`: an existing key keeps its place, a new one goes last. -/
def set : Dict → String → Json → Dict
  | [], k, v => [(k, v)]
  | (k', v') :: d, k, v => if k' = k then (k, v) :: d else (k', v') :: set d k v

def update (d e : Dict) : Dict := e.foldl (fun d kv => d.set kv.1 kv.2) d

/-- The value under a key; a key that is written twice has the value written last. -/
def last? (d : Dict) (k : String) : Option Json := get? d.reverse k

theorem get?_set (d : Dict) (k : String) (v : Json) (x : String) :
    (d.set k v).get? x = if x = k then some v else d.get? x := by
  induction d with
  | nil => exact get?_cons [] k v x
  | cons item d ih =>
      obtain ⟨k', v'⟩ := item
      rw [set]
      by_cases own : k' = k
      · rw [if_pos own, get?_cons, get?_cons, own]
        split <;> rfl
      · rw [if_neg own, get?_cons, get?_cons, ih]
        by_cases first : x = k'
        · have other : x ≠ k := fun same => own (first.symm.trans same)
          rw [if_pos first, if_neg other, if_pos first]
        · rw [if_neg first, if_neg first]

theorem last?_cons (d : Dict) (k : String) (v : Json) (x : String) :
    last? ((k, v) :: d) x = (last? d x).or (if x = k then some v else none) := by
  rw [last?, List.reverse_cons, get?_append, get?_cons]
  rfl

/-- An update replaces the values under its keys, and only those. -/
theorem get?_update (d e : Dict) (x : String) : (d.update e).get? x = (last? e x).or (d.get? x) := by
  induction e generalizing d with
  | nil => rfl
  | cons item e ih =>
      have step : d.update (item :: e) = (d.set item.1 item.2).update e := rfl
      rw [step, ih, get?_set, last?_cons, Option.or_assoc]
      split <;> rfl

/-- Several updates: under each key, the last of them that has it. -/
theorem get?_updates (d : Dict) (es : List Dict) (x : String) :
    (es.foldl update d).get? x = (es.reverse.findSome? fun e => last? e x).or (d.get? x) := by
  induction es generalizing d with
  | nil => rfl
  | cons e es ih =>
      rw [List.foldl_cons, ih, get?_update, List.reverse_cons, List.findSome?_append, Option.or_assoc]
      simp

end Dict
end Fleet.Lib
