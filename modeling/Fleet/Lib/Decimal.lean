/- The shortest decimal text of a floating number, and the number it stands for. -/
import Mathlib.Algebra.Order.Field.Basic
import Mathlib.Algebra.Order.Field.Power
import Mathlib.Algebra.Order.Ring.Rat
import Mathlib.Data.List.TakeWhile
import Mathlib.Tactic.Common
import Mathlib.Tactic.Ring

namespace Fleet.Lib.Decimal

/-- The number with this mantissa and this decimal exponent. -/
def value (m e : Int) : ℚ := m * 10 ^ e

theorem value_scale (m : Int) (k : Nat) (e : Int) : value (m * 10 ^ k) e = value m (e + k) := by
  have ten : (10 : ℚ) ≠ 0 := by decide
  rw [value, value, zpow_add₀ ten, zpow_natCast]
  push_cast
  ring

/-! ## The text -/

def strip : Nat → Nat → Int → Nat × Int
  | 0, m, e => (m, e)
  | fuel + 1, m, e => if m % 10 = 0 then strip fuel (m / 10) (e + 1) else (m, e)

def fixedText (digits : List Char) (point : Int) : List Char :=
  if point ≤ 0 then '0' :: '.' :: (List.replicate (-point).toNat '0' ++ digits)
  else if point < digits.length then digits.take point.toNat ++ '.' :: digits.drop point.toNat
  else digits ++ List.replicate (point.toNat - digits.length) '0' ++ '.' :: ['0']

/-- At least two digits follow the sign. -/
def exponentText (x : Int) : List Char :=
  'e' :: (if x < 0 then '-' else '+') ::
    (if x.natAbs < 10 then '0' :: Nat.toDigits 10 x.natAbs else Nat.toDigits 10 x.natAbs)

def scientificText (digits : List Char) (point : Int) : List Char :=
  (match digits with
    | d :: d' :: rest => [d] ++ '.' :: (d' :: rest)
    | short => short) ++ exponentText (point - 1)

/-- `point` digits stand before the decimal point. -/
def unsignedText (m : Nat) (e : Int) : List Char :=
  if m = 0 then '0' :: '.' :: ['0']
  else
    let (m, e) := strip m m e
    let digits := Nat.toDigits 10 m
    let point := digits.length + e
    if -4 < point ∧ point ≤ 16 then fixedText digits point else scientificText digits point

/-- `float.__repr__`. -/
def floatText (m e : Int) : List Char :=
  if m < 0 then '-' :: unsignedText m.natAbs e else unsignedText m.natAbs e

example : String.ofList (floatText (-1250) (-2)) = "-12.5" := by decide

example : String.ofList (floatText 15 (-8)) = "1.5e-07" := by decide

/-! ## Normal mantissas -/

theorem strip_value (fuel m : Nat) (e : Int) :
    value (strip fuel m e).1 (strip fuel m e).2 = value m e := by
  induction fuel generalizing m e with
  | zero => rfl
  | succ fuel ih =>
      unfold strip
      split
      · rename_i zero
        have split : (m : Int) = (m / 10 : Nat) * 10 ^ 1 := by omega
        rw [ih, split, value_scale]
        rfl
      · rfl

theorem strip_last (fuel m : Nat) (e : Int) (pos : 0 < m) (enough : m ≤ fuel) :
    (strip fuel m e).1 % 10 ≠ 0 := by
  induction fuel generalizing m e with
  | zero => omega
  | succ fuel ih =>
      unfold strip
      split
      · exact ih _ _ (by omega) (by omega)
      · assumption

/-- Equal numbers have the same mantissa and exponent once the zeros are stripped. -/
theorem normal_unique {m m' : Nat} {e e' : Int} (last : m % 10 ≠ 0) (last' : m' % 10 ≠ 0)
    (same : value m e = value m' e') : m = m' ∧ e = e' := by
  have reduce : ∀ {m m' : Nat} {e e' : Int}, m % 10 ≠ 0 → e ≤ e' → value m e = value m' e' →
      m = m' ∧ e = e' := by
    intro m m' e e' last le same
    obtain ⟨k, rfl⟩ := Int.le.dest le
    rw [← value_scale, value, value] at same
    have power : (10 : ℚ) ^ e ≠ 0 := zpow_ne_zero _ (by decide)
    have ints : (m : Int) = m' * 10 ^ k := by exact_mod_cast mul_right_cancel₀ power same
    have nats : m = m' * 10 ^ k := by exact_mod_cast ints
    cases k with
    | zero => exact ⟨by simpa using nats, by simp⟩
    | succ k =>
        rw [pow_succ, ← Nat.mul_assoc] at nats
        omega
  rcases Int.le_total e e' with le | le
  · exact reduce last le same
  · obtain ⟨m_eq, e_eq⟩ := reduce last' le same.symm
    exact ⟨m_eq.symm, e_eq.symm⟩

/-! ## Reading the number back -/

def readExponent : List Char → Int
  | _ :: sign :: digits =>
      if sign = '-' then -(Nat.ofDigitChars 10 digits 0) else Nat.ofDigitChars 10 digits 0
  | _ => 0

def readUnsigned (t : List Char) : ℚ :=
  let mantissa := t.takeWhile (· ≠ 'e')
  let decimals := (mantissa.dropWhile (· ≠ '.')).length - 1
  value (Nat.ofDigitChars 10 (mantissa.filter (· ≠ '.')) 0)
    (readExponent (t.dropWhile (· ≠ 'e')) - decimals)

/-- Neither a point nor an exponent mark. -/
def Plain (digits : List Char) : Prop := ∀ c ∈ digits, c ≠ '.' ∧ c ≠ 'e'

theorem plain_toDigits (n : Nat) : Plain (Nat.toDigits 10 n) := by
  intro c member
  have digit := Nat.isDigit_of_mem_toDigits (by decide) (by decide) member
  constructor
  · rintro rfl
    exact absurd digit (by decide)
  · rintro rfl
    exact absurd digit (by decide)

theorem plain_append {a b : List Char} (ha : Plain a) (hb : Plain b) : Plain (a ++ b) := by
  intro c member
  rcases List.mem_append.mp member with h | h
  · exact ha c h
  · exact hb c h

theorem plain_zero : Plain ['0'] := by
  intro c member
  rw [List.mem_singleton.mp member]
  decide

theorem plain_zeros (k : Nat) : Plain (List.replicate k '0') := by
  intro c member
  rw [List.eq_of_mem_replicate member]
  decide

/-- Nothing, or an exponent. -/
def Tail (t : List Char) : Prop := t = [] ∨ ∃ rest, t = 'e' :: rest

theorem read_point {a b t : List Char} (ha : Plain a) (hb : Plain b) (ht : Tail t) :
    readUnsigned (a ++ '.' :: b ++ t) =
      value (Nat.ofDigitChars 10 (a ++ b) 0) (readExponent t - b.length) := by
  have before : ∀ c ∈ a ++ '.' :: b, decide (c ≠ 'e') = true := by
    intro c member
    simp only [List.mem_append, List.mem_cons] at member
    rcases member with h | rfl | h
    · simpa using (ha c h).2
    · decide
    · simpa using (hb c h).2
  have stop : t.takeWhile (· ≠ 'e') = [] ∧ t.dropWhile (· ≠ 'e') = t := by
    rcases ht with rfl | ⟨rest, rfl⟩ <;> simp
  have mantissa : (a ++ '.' :: b ++ t).takeWhile (· ≠ 'e') = a ++ '.' :: b := by
    rw [List.takeWhile_append_of_pos before, stop.1, List.append_nil]
  have exponent : (a ++ '.' :: b ++ t).dropWhile (· ≠ 'e') = t := by
    rw [List.dropWhile_append_of_pos before, stop.2]
  have plain : ∀ {l}, Plain l → l.filter (· ≠ '.') = l := by
    intro l hl
    rw [List.filter_eq_self]
    exact fun c member => by simpa using (hl c member).1
  have decimals : (a ++ '.' :: b).dropWhile (· ≠ '.') = '.' :: b := by
    rw [List.dropWhile_append_of_pos (fun c member => by simpa using (ha c member).1)]
    simp
  have digits : (a ++ '.' :: b).filter (· ≠ '.') = a ++ b := by
    rw [List.filter_append, plain ha, List.filter_cons_of_neg (by simp), plain hb]
  simp only [readUnsigned, mantissa, exponent, decimals, digits, List.length_cons,
    Nat.add_sub_cancel]

theorem read_plain {a t : List Char} (ha : Plain a) (ht : Tail t) :
    readUnsigned (a ++ t) = value (Nat.ofDigitChars 10 a 0) (readExponent t) := by
  have stop : t.takeWhile (· ≠ 'e') = [] ∧ t.dropWhile (· ≠ 'e') = t := by
    rcases ht with rfl | ⟨rest, rfl⟩ <;> simp
  have before : ∀ c ∈ a, decide (c ≠ 'e') = true := fun c member => by simpa using (ha c member).2
  have points : ∀ c ∈ a, decide (c ≠ '.') = true := fun c member => by simpa using (ha c member).1
  have mantissa : (a ++ t).takeWhile (· ≠ 'e') = a := by
    rw [List.takeWhile_append_of_pos before, stop.1, List.append_nil]
  have exponent : (a ++ t).dropWhile (· ≠ 'e') = t := by
    rw [List.dropWhile_append_of_pos before, stop.2]
  have decimals : a.dropWhile (· ≠ '.') = [] := List.dropWhile_eq_nil_iff.mpr points
  have digits : a.filter (· ≠ '.') = a := List.filter_eq_self.mpr points
  simp only [readUnsigned, mantissa, exponent, decimals, digits]
  simp

theorem tail_exponentText (x : Int) : Tail (exponentText x) := .inr ⟨_, rfl⟩

theorem readExponent_exponentText (x : Int) : readExponent (exponentText x) = x := by
  have padded : ∀ n : Nat, Nat.ofDigitChars 10
      (if n < 10 then '0' :: Nat.toDigits 10 n else Nat.toDigits 10 n) 0 = n := by
    intro n
    split
    · rw [Nat.ofDigitChars_cons]
      exact Nat.ofDigitChars_ten_toDigits
    · exact Nat.ofDigitChars_ten_toDigits
  simp only [exponentText, readExponent]
  by_cases negative : x < 0
  · simp only [negative, if_true, padded]
    omega
  · simp only [negative, if_false, padded]
    simp only [show ('+' = '-') = False from by decide, if_false]
    omega

theorem tail_nil : Tail [] := .inl rfl

theorem read_fixedText (n : Nat) (e : Int) :
    readUnsigned (fixedText (Nat.toDigits 10 n) ((Nat.toDigits 10 n).length + e)) = value n e := by
  have digits := plain_toDigits n
  have whole := @Nat.ofDigitChars_ten_toDigits n
  generalize Nat.toDigits 10 n = ds at digits whole
  have exponent : readExponent [] = 0 := rfl
  unfold fixedText
  split
  · -- the whole mantissa stands behind the point
    rename_i small
    have text : '0' :: '.' :: (List.replicate (-(ds.length + e)).toNat '0' ++ ds) =
        ['0'] ++ '.' :: (List.replicate (-(ds.length + e)).toNat '0' ++ ds) ++ [] := by simp
    have number : Nat.ofDigitChars 10
        (['0'] ++ (List.replicate (-(ds.length + e)).toNat '0' ++ ds)) 0 = n := by
      rw [Nat.ofDigitChars_append, Nat.ofDigitChars_append]
      simp [Nat.ofDigitChars_cons, whole]
    rw [text, read_point plain_zero (plain_append (plain_zeros _) digits) tail_nil, number, exponent]
    congr 1
    simp only [List.length_append, List.length_replicate]
    omega
  · split
    · -- the point stands between two digits
      have text : ds.take (ds.length + e).toNat ++ '.' :: ds.drop (ds.length + e).toNat =
          ds.take (ds.length + e).toNat ++ '.' :: ds.drop (ds.length + e).toNat ++ [] := by simp
      have left : Plain (ds.take (ds.length + e).toNat) :=
        fun c member => digits c (List.mem_of_mem_take member)
      have right : Plain (ds.drop (ds.length + e).toNat) :=
        fun c member => digits c (List.mem_of_mem_drop member)
      rw [text, read_point left right tail_nil, List.take_append_drop, whole, exponent]
      congr 1
      rw [List.length_drop]
      omega
    · -- zeros fill up to the point
      have text : ds ++ List.replicate ((ds.length + e).toNat - ds.length) '0' ++ '.' :: ['0'] =
          ds ++ List.replicate ((ds.length + e).toNat - ds.length) '0' ++ '.' :: ['0'] ++ [] := by
        simp
      have zeros : ds ++ List.replicate ((ds.length + e).toNat - ds.length) '0' ++ ['0'] =
          ds ++ List.replicate ((ds.length + e).toNat - ds.length + 1) '0' := by
        rw [List.append_assoc, List.replicate_succ']
      have number : Nat.ofDigitChars 10
          (ds ++ List.replicate ((ds.length + e).toNat - ds.length) '0' ++ ['0']) 0 =
            n * 10 ^ ((ds.length + e).toNat - ds.length + 1) := by
        rw [zeros, Nat.ofDigitChars_append, whole, Nat.ofDigitChars_replicate_zero, Nat.mul_comm]
      rw [text, read_point (plain_append digits (plain_zeros _)) plain_zero tail_nil, number, exponent]
      push_cast
      rw [value_scale]
      congr 1
      simp only [List.length_singleton]
      omega

theorem read_scientificText (n : Nat) (e : Int) :
    readUnsigned (scientificText (Nat.toDigits 10 n) ((Nat.toDigits 10 n).length + e)) =
      value n e := by
  have digits := plain_toDigits n
  have whole := @Nat.ofDigitChars_ten_toDigits n
  have some := @Nat.toDigits_ne_nil n 10
  generalize Nat.toDigits 10 n = ds at digits whole some
  unfold scientificText
  match ds, digits, whole, some with
  | [d], digits, whole, _ =>
      simp only [read_plain digits (tail_exponentText _), whole, readExponent_exponentText]
      congr 1
      simp only [List.length_singleton]
      omega
  | d :: d' :: rest, digits, whole, _ =>
      have left : Plain [d] := fun c member => digits c (by simp_all)
      have right : Plain (d' :: rest) := fun c member => digits c (List.mem_cons_of_mem _ member)
      simp only [read_point left right (tail_exponentText _), readExponent_exponentText]
      rw [List.singleton_append, whole]
      congr 1
      simp only [List.length_cons]
      omega

theorem read_unsignedText (m : Nat) (e : Int) : readUnsigned (unsignedText m e) = value m e := by
  unfold unsignedText
  split
  · rename_i zero
    rw [zero]
    have text : '0' :: '.' :: ['0'] = ['0'] ++ '.' :: ['0'] ++ [] := rfl
    rw [text, read_point plain_zero plain_zero tail_nil]
    simp [Nat.ofDigitChars_cons, value]
  · rw [← strip_value m m e]
    dsimp only
    split
    · exact read_fixedText _ _
    · exact read_scientificText _ _

/-! ## Equal texts are equal numbers -/

theorem unsignedText_head (m : Nat) (e : Int) :
    ∃ c rest, unsignedText m e = c :: rest ∧ c.isDigit = true := by
  have first : ∀ n, ∃ c rest, Nat.toDigits 10 n = c :: rest ∧ c.isDigit = true := by
    intro n
    obtain ⟨c, rest, shape⟩ := List.exists_cons_of_ne_nil (@Nat.toDigits_ne_nil n 10)
    have member : c ∈ Nat.toDigits 10 n := by simp [shape]
    exact ⟨c, rest, shape, Nat.isDigit_of_mem_toDigits (by decide) (by decide) member⟩
  unfold unsignedText
  split
  · exact ⟨'0', _, rfl, by decide⟩
  · dsimp only
    obtain ⟨c, rest, shape, digit⟩ := first (strip m m e).1
    rw [shape]
    split
    · unfold fixedText
      split
      · exact ⟨'0', _, rfl, by decide⟩
      · split
        · rename_i large _
          obtain ⟨k, eq⟩ := Nat.exists_eq_succ_of_ne_zero
            (n := ((c :: rest).length + (strip m m e).2).toNat) (by omega)
          rw [eq]
          exact ⟨c, _, rfl, digit⟩
        · exact ⟨c, _, rfl, digit⟩
    · unfold scientificText
      cases rest with
      | nil => exact ⟨c, _, rfl, digit⟩
      | cons d rest => exact ⟨c, _, rfl, digit⟩

theorem floatText_head (m e : Int) :
    ∃ c rest, floatText m e = c :: rest ∧ (c.isDigit = true ∨ c = '-') := by
  unfold floatText
  split
  · exact ⟨'-', _, rfl, .inr rfl⟩
  · obtain ⟨c, rest, shape, digit⟩ := unsignedText_head m.natAbs e
    exact ⟨c, rest, shape, .inl digit⟩

theorem value_natAbs (m e : Int) : value m.natAbs e = |value m e| := by
  have pos : (0 : ℚ) < 10 ^ e := zpow_pos (by decide) e
  rw [value, value, abs_mul, abs_of_pos pos, ← Int.cast_abs, Int.abs_eq_natAbs]

theorem value_neg_iff (m e : Int) : value m e < 0 ↔ m < 0 := by
  have pos : (0 : ℚ) < 10 ^ e := zpow_pos (by decide) e
  rw [value, ← not_le, mul_nonneg_iff_of_pos_right pos, not_le]
  exact Int.cast_lt_zero

theorem unsignedText_congr {m m' : Nat} {e e' : Int} (same : value m e = value m' e') :
    unsignedText m e = unsignedText m' e' := by
  have nonzero : ∀ x : Int, (10 : ℚ) ^ x ≠ 0 := fun x => zpow_ne_zero x (by decide)
  unfold unsignedText
  by_cases zero : m = 0
  · have zero' : m' = 0 := by
      rw [zero, value, value, Nat.cast_zero, Int.cast_zero, zero_mul] at same
      have := (mul_eq_zero.mp same.symm).resolve_right (nonzero e')
      exact_mod_cast this
    rw [if_pos zero, if_pos zero']
  · have zero' : m' ≠ 0 := by
      rintro rfl
      rw [value, value, Nat.cast_zero, Int.cast_zero, zero_mul] at same
      have := (mul_eq_zero.mp same).resolve_right (nonzero e)
      exact zero (by exact_mod_cast this)
    rw [if_neg zero, if_neg zero']
    have normal := normal_unique (strip_last m m e (by omega) le_rfl)
      (strip_last m' m' e' (by omega) le_rfl) (by rw [strip_value, strip_value, same])
    rw [Prod.ext normal.1 normal.2]

/-- Two floating numbers have one text exactly when they are equal. -/
theorem floatText_eq_iff (m e m' e' : Int) :
    floatText m e = floatText m' e' ↔ value m e = value m' e' := by
  have unsigned : ∀ {a b : Nat} {x y : Int}, unsignedText a x = unsignedText b y →
      value a x = value b y := by
    intro a b x y same
    rw [← read_unsignedText, same, read_unsignedText]
  have apart : ∀ (a b : Nat) (x y : Int), '-' :: unsignedText a x ≠ unsignedText b y := by
    intro a b x y same
    obtain ⟨c, rest, shape, digit⟩ := unsignedText_head b y
    rw [shape] at same
    have sign : '-' = c := (List.cons.inj same).1
    rw [← sign] at digit
    exact absurd digit (by decide)
  constructor
  · intro same
    unfold floatText at same
    split at same <;> split at same
    · rename_i neg neg'
      have sizes := unsigned (List.cons.inj same).2
      rw [value_natAbs, value_natAbs, abs_of_neg ((value_neg_iff m e).mpr neg),
        abs_of_neg ((value_neg_iff m' e').mpr neg')] at sizes
      exact neg_injective sizes
    · exact absurd same (apart _ _ _ _)
    · exact absurd same.symm (apart _ _ _ _)
    · rename_i pos pos'
      have sizes := unsigned same
      rwa [value_natAbs, value_natAbs, abs_of_nonneg, abs_of_nonneg] at sizes
      · exact not_lt.mp fun neg => pos' ((value_neg_iff m' e').mp neg)
      · exact not_lt.mp fun neg => pos ((value_neg_iff m e).mp neg)
  · intro same
    have signs : m < 0 ↔ m' < 0 := by rw [← value_neg_iff m e, same, value_neg_iff]
    have sizes : value m.natAbs e = value m'.natAbs e' := by
      rw [value_natAbs, value_natAbs, same]
    unfold floatText
    by_cases neg : m < 0
    · rw [if_pos neg, if_pos (signs.mp neg), unsignedText_congr sizes]
    · rw [if_neg neg, if_neg fun neg' => neg (signs.mpr neg'), unsignedText_congr sizes]

/-! ## The characters of a text -/

def numeric (c : Char) : Bool := c.isDigit || c ∈ ['-', '+', '.', 'e']

theorem numeric_digits (n : Nat) : ∀ c ∈ Nat.toDigits 10 n, numeric c = true := by
  intro c member
  simp [numeric, Nat.isDigit_of_mem_toDigits (by decide) (by decide) member]

theorem numeric_zeros (k : Nat) : ∀ c ∈ List.replicate k '0', numeric c = true := by
  intro c member
  rw [List.eq_of_mem_replicate member]
  decide

theorem numeric_exponentText (x : Int) : ∀ c ∈ exponentText x, numeric c = true := by
  intro c member
  have zero : numeric '0' = true := by decide
  simp only [exponentText, List.mem_cons] at member
  rcases member with rfl | rfl | member
  · decide
  · split <;> decide
  · split at member
    · rcases List.mem_cons.mp member with rfl | member
      · exact zero
      · exact numeric_digits _ c member
    · exact numeric_digits _ c member

theorem unsignedText_chars (m : Nat) (e : Int) :
    (∀ c ∈ unsignedText m e, numeric c = true) ∧ ∃ c ∈ unsignedText m e, c = '.' ∨ c = 'e' := by
  have point : numeric '.' = true := by decide
  have zero : numeric '0' = true := by decide
  unfold unsignedText
  split
  · exact ⟨by simp [zero, point], '.', by decide, .inl rfl⟩
  · dsimp only
    have digits := numeric_digits (strip m m e).1
    generalize Nat.toDigits 10 (strip m m e).1 = ds at digits
    split
    · unfold fixedText
      split
      · refine ⟨fun c member => ?_, '.', by simp, .inl rfl⟩
        simp only [List.mem_cons, List.mem_append] at member
        rcases member with rfl | rfl | member | member
        · exact zero
        · exact point
        · exact numeric_zeros _ c member
        · exact digits c member
      · split
        · refine ⟨fun c member => ?_, '.', by simp, .inl rfl⟩
          simp only [List.mem_cons, List.mem_append] at member
          rcases member with member | rfl | member
          · exact digits c (List.mem_of_mem_take member)
          · exact point
          · exact digits c (List.mem_of_mem_drop member)
        · refine ⟨fun c member => ?_, '.', by simp, .inl rfl⟩
          simp only [List.mem_append, List.mem_cons, List.not_mem_nil, or_false] at member
          rcases member with (member | member) | rfl | rfl
          · exact digits c member
          · exact numeric_zeros _ c member
          · exact point
          · exact zero
    · unfold scientificText
      refine ⟨fun c member => ?_, 'e', by simp [exponentText], .inr rfl⟩
      rcases List.mem_append.mp member with member | member
      · split at member
        · simp only [List.singleton_append, List.mem_cons] at member
          rcases member with rfl | rfl | member
          · exact digits c (by simp)
          · exact point
          · exact digits c (by simp [member])
        · exact digits c member
      · exact numeric_exponentText _ c member

theorem floatText_chars (m e : Int) :
    (∀ c ∈ floatText m e, numeric c = true) ∧ ∃ c ∈ floatText m e, c = '.' ∨ c = 'e' := by
  obtain ⟨all, c, member, mark⟩ := unsignedText_chars m.natAbs e
  unfold floatText
  split
  · refine ⟨fun c member => ?_, c, List.mem_cons_of_mem _ member, mark⟩
    rcases List.mem_cons.mp member with rfl | member
    · decide
    · exact all c member
  · exact ⟨all, c, member, mark⟩

/-! ## Integers -/

def intText (n : Int) : List Char :=
  if n < 0 then '-' :: Nat.toDigits 10 n.natAbs else Nat.toDigits 10 n.natAbs

theorem intText_chars (n : Int) : ∀ c ∈ intText n, numeric c = true ∧ c ≠ '.' ∧ c ≠ 'e' := by
  have digits : ∀ c ∈ Nat.toDigits 10 n.natAbs, numeric c = true ∧ c ≠ '.' ∧ c ≠ 'e' :=
    fun c member => ⟨numeric_digits _ c member, plain_toDigits _ c member⟩
  intro c member
  unfold intText at member
  split at member
  · rcases List.mem_cons.mp member with rfl | member
    · decide
    · exact digits c member
  · exact digits c member

theorem intText_head (n : Int) :
    ∃ c rest, intText n = c :: rest ∧ (c.isDigit = true ∨ c = '-') := by
  unfold intText
  split
  · exact ⟨'-', _, rfl, .inr rfl⟩
  · obtain ⟨c, rest, shape⟩ := List.exists_cons_of_ne_nil (@Nat.toDigits_ne_nil n.natAbs 10)
    have member : c ∈ Nat.toDigits 10 n.natAbs := by simp [shape]
    exact ⟨c, rest, shape, .inl (Nat.isDigit_of_mem_toDigits (by decide) (by decide) member)⟩

theorem toDigits_injective {m n : Nat} (same : Nat.toDigits 10 m = Nat.toDigits 10 n) : m = n := by
  rw [← @Nat.ofDigitChars_ten_toDigits m, same, Nat.ofDigitChars_ten_toDigits]

theorem intText_injective {m n : Int} (same : intText m = intText n) : m = n := by
  have apart : ∀ a b : Nat, '-' :: Nat.toDigits 10 a ≠ Nat.toDigits 10 b := by
    intro a b same
    have member : '-' ∈ Nat.toDigits 10 b := by rw [← same]; exact List.mem_cons_self
    exact absurd (Nat.isDigit_of_mem_toDigits (by decide) (by decide) member) (by decide)
  unfold intText at same
  split at same <;> split at same
  · have sizes := toDigits_injective (List.cons.inj same).2
    omega
  · exact absurd same (apart _ _)
  · exact absurd same.symm (apart _ _)
  · have sizes := toDigits_injective same
    omega

theorem intText_ne_floatText (n m e : Int) : intText n ≠ floatText m e := by
  intro same
  obtain ⟨_, c, member, mark⟩ := floatText_chars m e
  rw [← same] at member
  have plain := (intText_chars n c member).2
  rcases mark with point | exponent
  · exact plain.1 point
  · exact plain.2 exponent

end Fleet.Lib.Decimal
