/- The equality of JSON values that a Python process compares. -/
import Fleet.Lib.JsonText

namespace Fleet.Lib

/-! ## Floating numbers -/

namespace Double

/-- `n / d` divided by a power of two, as a fraction. -/
def scaled (n d : Nat) (k : Int) : Nat × Nat :=
  if 0 ≤ k then (n, d * 2 ^ k.toNat) else (n * 2 ^ (-k).toNat, d)

/-- The whole number next to `n / d`; of two as near as each other the even one. -/
def roundHalfEven (n d : Nat) : Nat :=
  let low := n / d
  let rest := 2 * (n % d)
  if rest < d ∨ rest = d ∧ low % 2 = 0 then low else low + 1

/-- `n / d` lies from this power of two on and below the next. -/
def magnitude (n d : Nat) : Int :=
  let k : Int := Nat.log2 n - Nat.log2 d
  let (x, y) := scaled n d k
  if x < y then k - 1 else k

/-- The floating number next to `n / d`: 53 binary digits, fewer where the number is small. -/
def nearest (n d : Nat) : ℚ :=
  if n = 0 then 0
  else
    let k := max (magnitude n d - 52) (-1074)
    let (x, y) := scaled n d k
    let digits := roundHalfEven x y
    if 0 ≤ k then (digits * 2 ^ k.toNat : Nat) else mkRat digits (2 ^ (-k).toNat)

/-- The floating number that a mantissa and a decimal exponent stand for. -/
def ofDecimal (m e : Int) : ℚ :=
  let value := nearest (m.natAbs * 10 ^ e.toNat) (10 ^ (-e).toNat)
  if m < 0 then -value else value

end Double

/-! ## Equality -/

namespace Json

/-- A truth value is a number too, and a floating number is the one next to its decimals. -/
def number? : Json → Option ℚ
  | .bool b => some (if b then 1 else 0)
  | .num n => some n
  | .real m e => some (Double.ofDecimal m e)
  | _ => none

mutual
/-- `a == b`: numbers by their value, dictionaries whatever the order of their keys. -/
def equal : (a b : Json) → Bool
  | .null, .null => true
  | .str s, .str t => s = t
  | .arr xs, .arr ys => equalList xs ys
  | .obj d, .obj d' => d'.all (fun item => Dict.has d item.1) && equalItems d d'
  | a, b => a.number?.isSome && a.number? = b.number?
def equalList : (xs ys : List Json) → Bool
  | [], [] => true
  | x :: xs, y :: ys => equal x y && equalList xs ys
  | _, _ => false
def equalItems : (items : List (String × Json)) → (d : Dict) → Bool
  | [], _ => true
  | (k, x) :: items, d => (match Dict.get? d k with
      | some y => equal x y
      | none => false) && equalItems items d
end

example : equal (.obj [("a", .num 1), ("b", .arr [.bool false])])
    (.obj [("b", .arr [.num 0]), ("a", .bool true)]) = true := by decide +kernel

example : equal (.num 1) (.str "1") = false ∧ equal (.num (10 ^ 23)) (.real 1 23) = false := by decide +kernel

end Json

end Fleet.Lib
