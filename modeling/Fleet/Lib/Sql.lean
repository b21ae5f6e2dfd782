/- The types of an SQL condition, as far as the database resolves its operators. -/
import Mathlib.Tactic.Common

namespace Fleet.Lib.Sql

inductive SqlType where
  | boolean | varchar | enum | timestamp | timestamptz | interval | jsonb
  deriving DecidableEq

inductive Operator where
  | equal | atLeast | minus | contains
  deriving DecidableEq

/-- The operators of PostgreSQL on these types; where two times differ in their zone, the
one without takes that of the session. -/
def Operator.result : Operator → SqlType → SqlType → Option SqlType
  | .minus, .timestamptz, .interval => some .timestamptz
  | .minus, .timestamptz, .timestamptz | .minus, .timestamptz, .timestamp => some .interval
  | .atLeast, .timestamptz, .timestamp => some .boolean
  | .contains, .jsonb, .jsonb => some .boolean
  | .equal, a, b | .atLeast, a, b => if a = b then some .boolean else none
  | _, _, _ => none

/-- A column or a bound value is as good as its type. -/
inductive Expr where
  | value (type : SqlType)
  | isNotNull (e : Expr)
  | apply (op : Operator) (left right : Expr)

/-- `none` where an operator does not exist. -/
def Expr.type? : Expr → Option SqlType
  | .value type => some type
  | .isNotNull e => e.type?.map fun _ => .boolean
  | .apply op left right => do op.result (← left.type?) (← right.type?)

/-- No text holds the character with the code zero. -/
def storable (text : String) : Bool := Char.ofNat 0 ∉ text.toList

/-- Every condition of the `WHERE` is a truth value. -/
def resolves (conditions : List Expr) : Bool := conditions.all fun e => e.type? = some .boolean

end Fleet.Lib.Sql
