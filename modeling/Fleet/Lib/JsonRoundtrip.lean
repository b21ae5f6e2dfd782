/- What is written of a JSON value is read back as an equal value. -/
import Mathlib.Data.List.Forall2
import Fleet.Lib.JsonRead

namespace Fleet.Lib.Json
open Decimal (exponentText fixedText floatText intText numeric scientificText unsignedText)

/-- A value of a Python process that can be written: the keys of a dictionary are distinct,
and an integer has no more digits than `str` converts. -/
inductive Proper : Json → Prop
  | null : Proper .null
  | bool (b : Bool) : Proper (.bool b)
  | num (n : Int) (short : (Nat.toDigits 10 n.natAbs).length ≤ maxDigits) : Proper (.num n)
  | real (m e : Int) : Proper (.real m e)
  | str (s : String) : Proper (.str s)
  | arr (xs : List Json) (each : ∀ x ∈ xs, Proper x) : Proper (.arr xs)
  | obj (d : Dict) (distinct : (d.map Prod.fst).Nodup) (each : ∀ p ∈ d, Proper p.2) : Proper (.obj d)

/-! ## Numbers -/

def Digits (l : List Char) : Prop := ∀ c ∈ l, c.isDigit = true

/-- The text goes on with no digit and no point. -/
def Past (rest : List Char) : Prop := ∀ c, rest.head? = some c → c.isDigit = false ∧ c ≠ '.'

def exponentPart : Option Int → List Char
  | none => []
  | some x => exponentText x

def fractionPart (fraction : List Char) : List Char := if fraction = [] then [] else '.' :: fraction

/-- The number without its sign. -/
def numberText (digits fraction : List Char) (exponent : Option Int) : List Char :=
  digits ++ (fractionPart fraction ++ exponentPart exponent)

/-- No zero stands before other digits. -/
structure NumberParts (digits fraction : List Char) : Prop where
  shown : digits ≠ []
  whole : Digits digits
  lead : digits = ['0'] ∨ digits.head? ≠ some '0'
  rest : Digits fraction

section number
variable {digits fraction rest : List Char} {exponent : Option Int}

theorem Digits.span (all : Digits digits) (past : ∀ c, rest.head? = some c → c.isDigit = false) :
    (digits ++ rest).takeWhile Char.isDigit = digits ∧ (digits ++ rest).dropWhile Char.isDigit = rest := by
  have stop : rest.takeWhile Char.isDigit = [] ∧ rest.dropWhile Char.isDigit = rest := by
    cases rest with
    | nil => exact ⟨rfl, rfl⟩
    | cons c rest =>
        have other := past c rfl
        exact ⟨List.takeWhile_cons_of_neg (by simp [other]), List.dropWhile_cons_of_neg (by simp [other])⟩
  rw [List.takeWhile_append_of_pos all, List.dropWhile_append_of_pos all, stop.1, stop.2, List.append_nil]
  exact ⟨rfl, rfl⟩

theorem digits_toDigits (n : Nat) : Digits (Nat.toDigits 10 n) :=
  fun _ member => Nat.isDigit_of_mem_toDigits (by decide) (by decide) member

theorem digitsValue_eq (digits : List Char) : digitsValue digits = Nat.ofDigitChars 10 digits 0 := by
  have all : ∀ n, digits.foldl (fun n c => n * 10 + (c.toNat - 48)) n = Nat.ofDigitChars 10 digits n := by
    induction digits with
    | nil => intro n; rfl
    | cons c digits ih =>
        intro n
        rw [List.foldl_cons, ih, Nat.ofDigitChars_cons, Nat.mul_comm]
        rfl
  exact all 0

theorem past_ends (ends : Ends rest) : Past rest := by
  rintro c start
  rcases ends with rfl | ⟨d, tail, rfl, stop⟩
  · cases start
  · cases start
    simp only [List.mem_cons, List.not_mem_nil, or_false] at stop
    rcases stop with rfl | rfl | rfl <;> decide

theorem past_exponentPart (ends : Ends rest) : Past (exponentPart exponent ++ rest) := by
  cases exponent with
  | none => exact past_ends ends
  | some x =>
      intro c start
      cases start
      decide

theorem exponentText_parts (x : Int) : ∃ padded, exponentText x = 'e' :: (if x < 0 then '-' else '+') :: padded ∧
    Digits padded ∧ padded ≠ [] ∧ digitsValue padded = x.natAbs := by
  have digits := digits_toDigits x.natAbs
  have value := @Nat.ofDigitChars_ten_toDigits x.natAbs
  refine ⟨_, rfl, ?_⟩
  split
  · refine ⟨?_, List.cons_ne_nil _ _, ?_⟩
    · intro c member
      rcases List.mem_cons.mp member with rfl | member
      · decide
      · exact digits c member
    · rw [digitsValue_eq, Nat.ofDigitChars_cons]
      exact value
  · exact ⟨digits, Nat.toDigits_ne_nil, by rw [digitsValue_eq, value]⟩

theorem scanExponent_exponentPart (ends : Ends rest) :
    scanExponent (exponentPart exponent ++ rest) = (exponent, rest) := by
  cases exponent with
  | none =>
      have mark : rest.head? ≠ some 'e' ∧ rest.head? ≠ some 'E' := by
        rcases ends with rfl | ⟨d, tail, rfl, stop⟩
        · simp
        · simp only [List.mem_cons, List.not_mem_nil, or_false] at stop
          rcases stop with rfl | rfl | rfl <;> simp
      simp [exponentPart, scanExponent, mark.1, mark.2]
  | some x =>
      obtain ⟨padded, shape, whole, shown, size⟩ := exponentText_parts x
      obtain ⟨d, tail, rfl⟩ := List.exists_cons_of_ne_nil shown
      have digit := whole d List.mem_cons_self
      have span := whole.span fun c start => (past_ends ends c start).1
      rw [List.cons_append] at span
      by_cases negative : x < 0
      · have sign : -(digitsValue (d :: tail) : Int) = x := by omega
        simp [exponentPart, shape, negative, scanExponent, scanSign, digit, span.1, span.2, sign]
      · have sign : (digitsValue (d :: tail) : Int) = x := by omega
        simp [exponentPart, shape, negative, scanExponent, scanSign, digit, span.1, span.2, sign]

theorem fractionPart_past (past : Past rest) (c : Char)
    (start : (fractionPart fraction ++ rest).head? = some c) : c.isDigit = false := by
  unfold fractionPart at start
  split at start
  · exact (past c start).1
  · cases start
    decide

theorem scanFraction_fractionPart (all : Digits fraction) (past : Past rest) :
    scanFraction (fractionPart fraction ++ rest) = (fraction, rest) := by
  cases fraction with
  | nil =>
      cases rest with
      | nil => rfl
      | cons c rest =>
          have other := (past c rfl).2
          unfold scanFraction
          split
          · rename_i same
            cases same
            exact absurd rfl other
          · rfl
  | cons d fraction =>
      have span := all.span fun c start => (past c start).1
      rw [List.cons_append] at span
      simp [fractionPart, scanFraction, all d List.mem_cons_self, span.1, span.2]

theorem NumberParts.integer (parts : NumberParts digits fraction)
    (past : ∀ c, rest.head? = some c → c.isDigit = false) :
    (if (digits ++ rest).head? = some '0' then ['0'] else (digits ++ rest).takeWhile Char.isDigit) = digits := by
  rw [(parts.whole.span past).1]
  rcases parts.lead with rfl | other
  · rfl
  · rw [List.head?_append_of_ne_nil _ parts.shown, if_neg other]

theorem scanNumber_numberText (negative : Bool) (parts : NumberParts digits fraction) (ends : Ends rest) :
    scanNumber ((if negative then ['-'] else []) ++ (numberText digits fraction exponent ++ rest)) =
      if fraction = [] ∧ exponent = none then
        if digits.length ≤ maxDigits then
          some (.num ((if negative then -1 else 1) * digitsValue digits), rest)
        else none
      else some (.real ((if negative then -1 else 1) * digitsValue (digits ++ fraction))
        (exponent.getD 0 - fraction.length), rest) := by
  have past := @past_exponentPart rest exponent ends
  have integer := @NumberParts.integer digits fraction (fractionPart fraction ++ (exponentPart exponent ++ rest))
    parts (fractionPart_past past)
  have body : numberText digits fraction exponent ++ rest =
      digits ++ (fractionPart fraction ++ (exponentPart exponent ++ rest)) := by
    simp only [numberText, List.append_assoc]
  have sign : (digits ++ (fractionPart fraction ++ (exponentPart exponent ++ rest))).head? ≠ some '-' := by
    obtain ⟨d, tail, rfl⟩ := List.exists_cons_of_ne_nil parts.shown
    have digit := parts.whole d List.mem_cons_self
    rintro ⟨⟩
    exact absurd digit (by decide)
  rw [body]
  cases negative with
  | true =>
      simp only [if_true, List.singleton_append, scanNumber, List.head?_cons, List.tail_cons, integer,
        List.drop_left, scanFraction_fractionPart parts.rest past, scanExponent_exponentPart ends,
        if_neg parts.shown]
  | false =>
      simp only [Bool.false_eq_true, if_false, List.nil_append, scanNumber, sign, integer,
        List.drop_left, scanFraction_fractionPart parts.rest past, scanExponent_exponentPart ends,
        if_neg parts.shown]

/-! ### The texts that are written -/

theorem toDigits_head {n : Nat} (pos : 0 < n) : (Nat.toDigits 10 n).head? ≠ some '0' := by
  induction n using Nat.strong_induction_on with
  | _ n ih =>
      by_cases small : n < 10
      · have all : ∀ n : Fin 10, 0 < n.val → (Nat.toDigits 10 n.val).head? ≠ some '0' := by decide
        exact all ⟨n, small⟩ pos
      · rw [Nat.toDigits_of_base_le (by decide) (by omega), List.head?_append_of_ne_nil _ Nat.toDigits_ne_nil]
        exact ih (n / 10) (by omega) (by omega)

theorem toDigits_lead (n : Nat) : Nat.toDigits 10 n = ['0'] ∨ (Nat.toDigits 10 n).head? ≠ some '0' := by
  rcases Nat.eq_zero_or_pos n with rfl | pos
  · exact .inl rfl
  · exact .inr (toDigits_head pos)

theorem scanNumber_intText {n : Int} (short : (Nat.toDigits 10 n.natAbs).length ≤ maxDigits)
    (ends : Ends rest) : scanNumber (intText n ++ rest) = some (.num n, rest) := by
  have parts : NumberParts (Nat.toDigits 10 n.natAbs) [] :=
    ⟨Nat.toDigits_ne_nil, digits_toDigits _, toDigits_lead _, fun _ member => (List.not_mem_nil member).elim⟩
  have text : intText n ++ rest = (if decide (n < 0) then ['-'] else []) ++
      (numberText (Nat.toDigits 10 n.natAbs) [] none ++ rest) := by
    unfold intText numberText fractionPart exponentPart
    by_cases negative : n < 0 <;> simp [negative]
  have size : (digitsValue (Nat.toDigits 10 n.natAbs) : Int) = n.natAbs := by
    rw [digitsValue_eq, Nat.ofDigitChars_ten_toDigits]
  rw [text, scanNumber_numberText _ parts ends, if_pos ⟨rfl, rfl⟩, if_pos short, size]
  congr 3
  by_cases negative : n < 0
  · simp only [negative, decide_true, if_true]
    omega
  · simp only [negative, decide_false, Bool.false_eq_true, if_false]
    omega

theorem digits_zeros (k : Nat) : Digits (List.replicate k '0') := by
  intro c member
  rw [List.eq_of_mem_replicate member]
  decide

theorem Digits.append {a b : List Char} (ha : Digits a) (hb : Digits b) : Digits (a ++ b) := by
  intro c member
  rcases List.mem_append.mp member with h | h
  · exact ha c h
  · exact hb c h

/-- The text of a number with a fraction or an exponent. -/
structure RealParts (text digits fraction : List Char) (exponent : Option Int) : Prop where
  shape : text = numberText digits fraction exponent
  parts : NumberParts digits fraction
  mark : ¬ (fraction = [] ∧ exponent = none)

theorem fixedText_parts {ds : List Char} (whole : Digits ds) (shown : ds ≠ []) (lead : ds.head? ≠ some '0')
    (point : Int) : ∃ digits fraction, RealParts (fixedText ds point) digits fraction none := by
  have zero : Digits ['0'] := digits_zeros 1
  unfold fixedText
  split_ifs with small inside
  · have other : List.replicate (-point).toNat '0' ++ ds ≠ [] := by simp [shown]
    refine ⟨['0'], List.replicate (-point).toNat '0' ++ ds, ?_, ?_, fun none => other none.1⟩
    · simp [numberText, fractionPart, exponentPart, shown]
    · exact ⟨List.cons_ne_nil _ _, zero, .inl rfl, (digits_zeros _).append whole⟩
  · have later : ds.drop point.toNat ≠ [] := by
      rw [Ne, List.drop_eq_nil_iff]
      omega
    obtain ⟨k, first⟩ : ∃ k, point.toNat = k + 1 := ⟨point.toNat - 1, by omega⟩
    obtain ⟨d, tail, rfl⟩ := List.exists_cons_of_ne_nil shown
    refine ⟨(d :: tail).take point.toNat, (d :: tail).drop point.toNat, ?_, ?_, fun none => later none.1⟩
    · simp [numberText, fractionPart, exponentPart, later]
    · refine ⟨by simp [first], fun c member => whole c (List.mem_of_mem_take member), .inr ?_,
        fun c member => whole c (List.mem_of_mem_drop member)⟩
      rw [first]
      exact lead
  · refine ⟨ds ++ List.replicate (point.toNat - ds.length) '0', ['0'], ?_, ?_, by simp⟩
    · simp [numberText, fractionPart, exponentPart]
    · refine ⟨by simp [shown], whole.append (digits_zeros _), .inr ?_, zero⟩
      rw [List.head?_append_of_ne_nil _ shown]
      exact lead

theorem scientificText_parts {ds : List Char} (whole : Digits ds) (shown : ds ≠ [])
    (lead : ds.head? ≠ some '0') (point : Int) :
    ∃ digits fraction, RealParts (scientificText ds point) digits fraction (some (point - 1)) := by
  match ds, whole, shown, lead with
  | [d], whole, _, lead =>
      exact ⟨[d], [], by simp [scientificText, numberText, fractionPart, exponentPart],
        ⟨List.cons_ne_nil _ _, whole, .inr lead, fun _ member => (List.not_mem_nil member).elim⟩, by simp⟩
  | d :: d' :: tail, whole, _, lead =>
      refine ⟨[d], d' :: tail, by simp [scientificText, numberText, fractionPart, exponentPart],
        ⟨List.cons_ne_nil _ _, ?_, .inr lead, fun c member => whole c (List.mem_cons_of_mem _ member)⟩, by simp⟩
      intro c member
      rw [List.mem_singleton.mp member]
      exact whole d List.mem_cons_self

theorem unsignedText_parts (m : Nat) (e : Int) :
    ∃ digits fraction exponent, RealParts (unsignedText m e) digits fraction exponent := by
  unfold unsignedText
  split_ifs with zero
  · have one : Digits ['0'] := digits_zeros 1
    exact ⟨['0'], ['0'], none, rfl, ⟨List.cons_ne_nil _ _, one, .inl rfl, one⟩, by simp⟩
  · have last := Decimal.strip_last m m e (by omega) le_rfl
    have lead := @toDigits_head (Decimal.strip m m e).1 (by omega)
    have whole := digits_toDigits (Decimal.strip m m e).1
    dsimp only
    split
    · obtain ⟨digits, fraction, parts⟩ := fixedText_parts whole Nat.toDigits_ne_nil lead
        ((Nat.toDigits 10 (Decimal.strip m m e).1).length + (Decimal.strip m m e).2)
      exact ⟨digits, fraction, none, parts⟩
    · obtain ⟨digits, fraction, parts⟩ := scientificText_parts whole Nat.toDigits_ne_nil lead
        ((Nat.toDigits 10 (Decimal.strip m m e).1).length + (Decimal.strip m m e).2)
      exact ⟨digits, fraction, _, parts⟩

theorem RealParts.value {m : Nat} {e : Int} (h : RealParts (unsignedText m e) digits fraction exponent) :
    Decimal.value (digitsValue (digits ++ fraction)) (exponent.getD 0 - fraction.length) =
      Decimal.value m e := by
  have plain : ∀ {l}, Digits l → Decimal.Plain l := by
    intro l all c member
    have digit := all c member
    constructor
    · rintro rfl
      exact absurd digit (by decide)
    · rintro rfl
      exact absurd digit (by decide)
  have tail : Decimal.Tail (exponentPart exponent) ∧
      Decimal.readExponent (exponentPart exponent) = exponent.getD 0 := by
    cases exponent with
    | none => exact ⟨Decimal.tail_nil, rfl⟩
    | some x => exact ⟨Decimal.tail_exponentText x, Decimal.readExponent_exponentText x⟩
  rw [← Decimal.read_unsignedText m e, h.shape, digitsValue_eq, ← tail.2]
  by_cases empty : fraction = []
  · rw [empty, numberText, fractionPart, if_pos rfl, List.nil_append, List.append_nil,
      Decimal.read_plain (plain h.parts.whole) tail.1]
    simp
  · have point := Decimal.read_point (plain h.parts.whole) (plain h.parts.rest) tail.1
    rw [List.append_assoc] at point
    rw [numberText, fractionPart, if_neg empty]
    exact point.symm

theorem scanNumber_floatText (m e : Int) (ends : Ends rest) : ∃ m' e',
    scanNumber (floatText m e ++ rest) = some (.real m' e', rest) ∧ Decimal.value m e = Decimal.value m' e' := by
  obtain ⟨digits, fraction, exponent, parts⟩ := unsignedText_parts m.natAbs e
  have text : floatText m e ++ rest = (if decide (m < 0) then ['-'] else []) ++
      (numberText digits fraction exponent ++ rest) := by
    unfold floatText
    rw [parts.shape]
    by_cases negative : m < 0 <;> simp [negative]
  refine ⟨_, _, by rw [text, scanNumber_numberText _ parts.parts ends, if_neg parts.mark], ?_⟩
  have opposite : ∀ a x, Decimal.value (-1 * a) x = -Decimal.value a x := by
    intro a x
    simp [Decimal.value]
  by_cases negative : m < 0
  · have sign : m = -1 * (m.natAbs : Int) := by omega
    simp only [negative, decide_true, if_true]
    rw [opposite, parts.value, ← opposite, ← sign]
  · have sign : m = (m.natAbs : Int) := by omega
    simp only [negative, decide_false, Bool.false_eq_true, if_false, one_mul]
    rw [parts.value, ← sign]

end number

/-! ## Values -/

section value
variable {rest : List Char} {fuel : Nat}

theorem ne_of_number {c d : Char} (start : c.isDigit = true ∨ c = '-')
    (other : ¬ (d.isDigit = true ∨ d = '-')) : c ≠ d := by
  rintro rfl
  exact other start

theorem scanValue_number {c : Char} {tail : List Char} (start : c.isDigit = true ∨ c = '-') :
    scanValue (fuel + 1) (c :: tail) = scanNumber (c :: tail) := by
  have quoted := @ne_of_number c '\x22' start (by decide)
  have brace := @ne_of_number c '{' start (by decide)
  have bracket := @ne_of_number c '[' start (by decide)
  have null := @ne_of_number c 'n' start (by decide)
  have true' := @ne_of_number c 't' start (by decide)
  have false' := @ne_of_number c 'f' start (by decide)
  simp [scanValue, quoted, brace, bracket, keyword?, null.symm, true'.symm, false'.symm]

/-- A text that starts with no blank and no closing bracket. -/
def Opens (text : List Char) : Prop := ∃ c tail, text = c :: tail ∧ isBlank c = false ∧ c ∉ [']', '}']

theorem Opens.append {text : List Char} (h : Opens text) (rest : List Char) : Opens (text ++ rest) := by
  obtain ⟨c, tail, rfl, shown, other⟩ := h
  exact ⟨c, tail ++ rest, rfl, shown, other⟩

theorem Opens.skipBlanks {text : List Char} (h : Opens text) : skipBlanks text = text := by
  obtain ⟨c, tail, rfl, shown, -⟩ := h
  exact List.dropWhile_cons_of_neg (by simp [shown])

theorem opens_joined {t : List Char} (h : Opens t) (ts : List (List Char)) : Opens (joined (t :: ts)) := by
  cases ts with
  | nil => exact h
  | cons u ts => exact h.append _

theorem opens_plain (v : Json) : Opens (plain v) := by
  have number : ∀ c : Char, c.isDigit = true ∨ c = '-' → isBlank c = false ∧ c ∉ [']', '}'] := by
    intro c start
    simp [isBlank, ne_of_number start]
  cases v with
  | null => exact ⟨'n', _, rfl, rfl, by decide⟩
  | bool b => cases b <;> exact ⟨_, _, rfl, rfl, by decide⟩
  | num n =>
      obtain ⟨c, tail, shape, start⟩ := Decimal.intText_head n
      exact ⟨c, tail, shape, number c start⟩
  | real m e =>
      obtain ⟨c, tail, shape, start⟩ := Decimal.floatText_head m e
      exact ⟨c, tail, shape, number c start⟩
  | str s => exact ⟨'\x22', _, rfl, rfl, by decide⟩
  | arr xs => exact ⟨'[', _, rfl, rfl, by decide⟩
  | obj d => exact ⟨'{', _, rfl, rfl, by decide⟩

/-- A value is read back from its text, whatever ends it. -/
def Reads (v : Json) : Prop :=
  ∀ fuel rest, (plain v).length < fuel → Ends rest →
    ∃ v', scanValue fuel (plain v ++ rest) = some (v', rest) ∧ Same v v'

theorem reads_num {n : Int} (short : (Nat.toDigits 10 n.natAbs).length ≤ maxDigits) : Reads (.num n) := by
  rintro (_ | fuel) rest enough ends
  · cases enough
  · obtain ⟨c, tail, shape, start⟩ := Decimal.intText_head n
    have read := scanNumber_intText short ends
    refine ⟨.num n, ?_, .num n⟩
    rw [shape, List.cons_append] at read
    rw [plain, shape, List.cons_append, scanValue_number start, read]

theorem reads_real (m e : Int) : Reads (.real m e) := by
  rintro (_ | fuel) rest enough ends
  · cases enough
  · obtain ⟨c, tail, shape, start⟩ := Decimal.floatText_head m e
    obtain ⟨m', e', read, equal⟩ := scanNumber_floatText m e ends
    refine ⟨.real m' e', ?_, .real equal⟩
    rw [shape, List.cons_append] at read
    rw [plain, shape, List.cons_append, scanValue_number start, read]

theorem reads_str (s : String) : Reads (.str s) := by
  rintro (_ | fuel) rest enough -
  · cases enough
  · exact ⟨.str s, scanValue_quote fuel s rest, .str s⟩

theorem reads_null : Reads .null := by
  rintro (_ | fuel) rest enough -
  · cases enough
  · exact ⟨.null, rfl, .null⟩

theorem reads_bool (b : Bool) : Reads (.bool b) := by
  rintro (_ | fuel) rest enough -
  · cases enough
  · cases b <;> exact ⟨_, rfl, .bool _⟩

/-! ### Arrays -/

theorem ends_cons {c : Char} (stop : c ∈ [',', ']', '}']) (tail : List Char) : Ends (c :: tail) :=
  .inr ⟨c, tail, rfl, stop⟩

theorem joined_cons (t : List Char) {ts : List (List Char)} (more : ts ≠ []) :
    joined (t :: ts) = t ++ ',' :: ' ' :: joined ts := by
  obtain ⟨u, us, rfl⟩ := List.exists_cons_of_ne_nil more
  rfl

theorem plains_eq_map (xs : List Json) : plains xs = xs.map plain := by
  induction xs with
  | nil => rfl
  | cons x xs ih => rw [plains, ih, List.map_cons]

/-- By induction on the elements, each of which is read back. -/
theorem scanElements_plain {x : Json} {xs : List Json} (each : ∀ y ∈ x :: xs, Reads y) (acc : List Json)
    (enough : (joined ((x :: xs).map plain)).length + 1 < fuel) (rest : List Char) :
    ∃ ys, scanElements fuel acc (joined ((x :: xs).map plain) ++ ']' :: rest) = some (.arr (acc ++ ys), rest) ∧
      List.Forall₂ Same (x :: xs) ys := by
  obtain ⟨fuel, rfl⟩ := Nat.exists_eq_succ_of_ne_zero (Nat.ne_zero_of_lt enough)
  induction xs generalizing x acc fuel with
  | nil =>
      obtain ⟨x', read, same⟩ := each x List.mem_cons_self fuel (']' :: rest)
        (by simp [joined] at enough; omega) (ends_cons (by simp) rest)
      refine ⟨[x'], ?_, .cons same .nil⟩
      simp only [joined, List.map_cons, List.map_nil, scanElements, read, Option.bind_eq_bind,
        Option.bind_some]
      rfl
  | cons y xs ih =>
      have shape : joined ((x :: y :: xs).map plain) = plain x ++ ',' :: ' ' :: joined ((y :: xs).map plain) :=
        joined_cons _ (by simp)
      rw [shape] at enough
      simp only [List.length_append, List.length_cons] at enough
      obtain ⟨x', read, same⟩ := each x List.mem_cons_self fuel
        (',' :: ' ' :: (joined ((y :: xs).map plain) ++ ']' :: rest)) (by omega) (ends_cons (by simp) _)
      obtain ⟨fuel, rfl⟩ : ∃ k, fuel = k + 1 := ⟨fuel - 1, by omega⟩
      obtain ⟨ys, later, sames⟩ := ih (fun z member => each z (List.mem_cons_of_mem _ member)) (acc ++ [x'])
        fuel (by omega)
      refine ⟨x' :: ys, ?_, .cons same sames⟩
      have text : joined ((x :: y :: xs).map plain) ++ ']' :: rest =
          plain x ++ ',' :: ' ' :: (joined ((y :: xs).map plain) ++ ']' :: rest) := by
        rw [shape]
        simp
      have comma : skipBlanks (',' :: ' ' :: (joined ((y :: xs).map plain) ++ ']' :: rest)) =
          ',' :: ' ' :: (joined ((y :: xs).map plain) ++ ']' :: rest) := rfl
      have next : skipBlanks (' ' :: (joined ((y :: xs).map plain) ++ ']' :: rest)) =
          joined ((y :: xs).map plain) ++ ']' :: rest :=
        ((opens_joined (opens_plain y) _).append _).skipBlanks
      rw [text, scanElements]
      simp only [read, Option.bind_eq_bind, Option.bind_some, comma, next, later, List.append_assoc,
        List.singleton_append]

theorem same_arr {xs ys : List Json} (sames : List.Forall₂ Same xs ys) : Same (.arr xs) (.arr ys) := by
  refine .arr sames.length_eq fun i x y here there => ?_
  obtain ⟨left, rfl⟩ := List.getElem?_eq_some_iff.mp here
  obtain ⟨right, rfl⟩ := List.getElem?_eq_some_iff.mp there
  exact sames.get left right

theorem reads_arr {xs : List Json} (each : ∀ x ∈ xs, Reads x) : Reads (.arr xs) := by
  rintro (_ | fuel) rest enough ends
  · cases enough
  · cases xs with
    | nil => exact ⟨.arr [], rfl, same_arr .nil⟩
    | cons x xs =>
        have text : plain (.arr (x :: xs)) ++ rest = '[' :: (joined ((x :: xs).map plain) ++ ']' :: rest) := by
          rw [plain, plains_eq_map]
          simp
        have size : (joined ((x :: xs).map plain)).length + 1 < fuel := by
          rw [plain, plains_eq_map] at enough
          simp only [List.length_cons, List.length_append, List.length_nil] at enough
          omega
        obtain ⟨ys, read, sames⟩ := scanElements_plain each [] size rest
        refine ⟨.arr ys, ?_, same_arr sames⟩
        have opens := (opens_joined (opens_plain x) (xs.map plain)).append (']' :: rest)
        have first := opens.skipBlanks
        rw [← List.map_cons] at opens first
        rw [text, scanValue, first]
        obtain ⟨c, tail, shape, -, other⟩ := opens
        rw [shape] at read ⊢
        split
        · rename_i close
          cases close
          exact absurd List.mem_cons_self other
        · exact read

/-! ### Objects -/

def entryText (entry : String × Json) : List Char := itemText (entry.1, plain entry.2)

theorem plainItems_map (d : Dict) : (plainItems d).map itemText = d.map entryText := by
  induction d with
  | nil => rfl
  | cons entry d ih => rw [plainItems, List.map_cons, List.map_cons, ih, entryText]

theorem opens_entryText (entry : String × Json) : Opens (entryText entry) := ⟨'\x22', _, rfl, rfl, by decide⟩

theorem scanItems_entry {entry : String × Json} (reads : Reads entry.2) (acc : Dict)
    (enough : (plain entry.2).length < fuel) (ends : Ends rest) :
    ∃ v, Same entry.2 v ∧ scanItems (fuel + 1) acc (entryText entry ++ rest) =
      match skipBlanks rest with
      | '}' :: rest => some (.obj (acc.set entry.1 v), rest)
      | ',' :: rest => scanItems fuel (acc.set entry.1 v) (skipBlanks rest)
      | _ => none := by
  obtain ⟨v, read, same⟩ := reads fuel rest enough ends
  refine ⟨v, same, ?_⟩
  have blank : skipBlanks (' ' :: (plain entry.2 ++ rest)) = plain entry.2 ++ rest :=
    ((opens_plain entry.2).append rest).skipBlanks
  have shape : entryText entry ++ rest = quote entry.1 ++ ':' :: ' ' :: (plain entry.2 ++ rest) := by
    simp [entryText, itemText]
  rw [shape]
  exact scanItems_value blank read acc entry.1

def SameEntry (p q : String × Json) : Prop := p.1 = q.1 ∧ Same p.2 q.2

/-- By induction on the entries, each of which is read back under a new key. -/
theorem scanItems_plain {entry : String × Json} {d : Dict} (each : ∀ p ∈ entry :: d, Reads p.2) {acc : Dict}
    (distinct : (acc.map Prod.fst ++ (entry :: d).map Prod.fst).Nodup)
    (enough : (joined ((entry :: d).map entryText)).length + 1 < fuel) (rest : List Char) :
    ∃ d', scanItems fuel acc (joined ((entry :: d).map entryText) ++ '}' :: rest) = some (.obj (acc ++ d'), rest) ∧
      List.Forall₂ SameEntry (entry :: d) d' := by
  obtain ⟨fuel, rfl⟩ := Nat.exists_eq_succ_of_ne_zero (Nat.ne_zero_of_lt enough)
  have inside : ∀ p : String × Json, (plain p.2).length ≤ (entryText p).length := by
    intro p
    simp only [entryText, itemText, List.length_append, List.length_cons]
    omega
  have own := inside entry
  induction d generalizing entry acc fuel with
  | nil =>
      obtain ⟨v, same, read⟩ := scanItems_entry (each entry List.mem_cons_self) acc
        (show _ < fuel by simp [joined] at enough; omega) (ends_cons (show '}' ∈ _ by simp) rest)
      refine ⟨[(entry.1, v)], ?_, .cons ⟨rfl, same⟩ .nil⟩
      change scanItems (fuel + 1) acc (entryText entry ++ '}' :: rest) = _
      rw [read, set_absent (Dict.absent_key distinct)]
      rfl
  | cons next d ih =>
      have shape : joined ((entry :: next :: d).map entryText) =
          entryText entry ++ ',' :: ' ' :: joined ((next :: d).map entryText) := joined_cons _ (by simp)
      rw [shape] at enough
      simp only [List.length_append, List.length_cons] at enough
      obtain ⟨v, same, read⟩ := scanItems_entry (each entry List.mem_cons_self) acc
        (show _ < fuel by omega) (ends_cons (show ',' ∈ _ by simp)
          (' ' :: (joined ((next :: d).map entryText) ++ '}' :: rest)))
      obtain ⟨fuel, rfl⟩ : ∃ k, fuel = k + 1 := ⟨fuel - 1, by omega⟩
      have moved : ((acc ++ [(entry.1, v)]).map Prod.fst ++ (next :: d).map Prod.fst).Nodup := by
        simpa using distinct
      obtain ⟨d', later, sames⟩ := ih (fun p member => each p (List.mem_cons_of_mem _ member)) moved
        fuel (by omega) (inside next)
      refine ⟨(entry.1, v) :: d', ?_, .cons ⟨rfl, same⟩ sames⟩
      have text : joined ((entry :: next :: d).map entryText) ++ '}' :: rest =
          entryText entry ++ ',' :: ' ' :: (joined ((next :: d).map entryText) ++ '}' :: rest) := by
        rw [shape]
        simp
      have comma : skipBlanks (',' :: ' ' :: (joined ((next :: d).map entryText) ++ '}' :: rest)) =
          ',' :: ' ' :: (joined ((next :: d).map entryText) ++ '}' :: rest) := rfl
      have blank : skipBlanks (' ' :: (joined ((next :: d).map entryText) ++ '}' :: rest)) =
          joined ((next :: d).map entryText) ++ '}' :: rest :=
        ((opens_joined (opens_entryText next) _).append _).skipBlanks
      rw [text, read, comma]
      simp only [blank, set_absent (Dict.absent_key distinct), later, List.append_assoc, List.singleton_append]

theorem same_obj {d d' : Dict} (sames : List.Forall₂ SameEntry d d') : Same (.obj d) (.obj d') := by
  have each : ∀ k, (d.get? k = none ∧ d'.get? k = none) ∨
      ∃ v v', d.get? k = some v ∧ d'.get? k = some v' ∧ Same v v' := by
    intro k
    induction sames with
    | nil => exact .inl ⟨rfl, rfl⟩
    | @cons p q d d' same _ ih =>
        obtain ⟨key, value⟩ := same
        rw [Dict.get?_cons d p.1 p.2, Dict.get?_cons d' q.1 q.2, ← key]
        split_ifs
        · exact .inr ⟨_, _, rfl, rfl, value⟩
        · exact ih
  refine .obj (fun k => ?_) fun k v v' here there => ?_
  · rcases each k with ⟨none, none'⟩ | ⟨v, v', found, found', -⟩
    · rw [Dict.has, Dict.has, none, none']
    · rw [Dict.has, Dict.has, found, found']
      rfl
  · rcases each k with ⟨none, -⟩ | ⟨w, w', found, found', same⟩
    · cases here.symm.trans none
    · cases here.symm.trans found
      cases there.symm.trans found'
      exact same

theorem reads_obj {d : Dict} (distinct : (d.map Prod.fst).Nodup) (each : ∀ p ∈ d, Reads p.2) :
    Reads (.obj d) := by
  rintro (_ | fuel) rest enough ends
  · cases enough
  · cases d with
    | nil => exact ⟨.obj [], rfl, same_obj .nil⟩
    | cons entry d =>
        have text : plain (.obj (entry :: d)) ++ rest =
            '{' :: (joined ((entry :: d).map entryText) ++ '}' :: rest) := by
          rw [plain, plainItems_map]
          simp
        have size : (joined ((entry :: d).map entryText)).length + 1 < fuel := by
          rw [plain, plainItems_map] at enough
          simp only [List.length_cons, List.length_append, List.length_nil] at enough
          omega
        obtain ⟨d', read, sames⟩ := scanItems_plain each
          (show (([] : Dict).map Prod.fst ++ _).Nodup by simpa using distinct) size rest
        refine ⟨.obj d', ?_, same_obj sames⟩
        have opens := (opens_joined (opens_entryText entry) (d.map entryText)).append ('}' :: rest)
        have first := opens.skipBlanks
        rw [← List.map_cons] at opens first
        rw [text, scanValue, first]
        obtain ⟨c, tail, shape, -, other⟩ := opens
        rw [shape] at read ⊢
        split
        · rename_i close
          cases close
          exact absurd (by simp) other
        · exact read

/-- By induction on the value. -/
theorem Proper.reads {v : Json} (h : Proper v) : Reads v := by
  induction h with
  | null => exact reads_null
  | bool b => exact reads_bool b
  | num n short => exact reads_num short
  | real m e => exact reads_real m e
  | str s => exact reads_str s
  | arr xs each ih => exact reads_arr ih
  | obj d distinct each ih => exact reads_obj distinct ih

end value

/-- `json.loads` reads back what `json.dumps` writes. -/
theorem parse_dumpsPlain {v : Json} (proper : Proper v) : ∃ v', parse (dumpsPlain v) = some v' ∧ Same v v' := by
  obtain ⟨v', read, same⟩ := proper.reads ((plain v).length + 1) [] (Nat.lt_succ_self _) (.inl rfl)
  refine ⟨v', ?_, same⟩
  rw [List.append_nil] at read
  rw [parse, dumpsPlain, String.toList_ofList, (opens_plain v).skipBlanks, read]
  rfl

/-! ## The characters of a text -/

def Printable (c : Char) : Prop := 32 ≤ c.toNat ∧ c.toNat ≤ 126

instance (c : Char) : Decidable (Printable c) := instDecidableAnd

theorem printable_quote (s : String) : ∀ c ∈ quote s, Printable c := by
  intro c member
  rcases mem_quote member with ⟨-, printable⟩ | mark
  · exact printable
  · exact List.all_iff_forall_prop.mp (by decide) c mark

theorem printable_numeric {c : Char} (h : numeric c = true) : Printable c := by
  rw [numeric, Bool.or_eq_true, decide_eq_true_eq] at h
  rcases h with digit | mark
  · obtain ⟨low, high⟩ := Char.isDigit_iff_toNat.mp digit
    exact ⟨le_trans (by decide) low, le_trans high (by decide)⟩
  · simp only [List.mem_cons, List.not_mem_nil, or_false] at mark
    rcases mark with rfl | rfl | rfl | rfl <;> decide

theorem printable_joined {ts : List (List Char)} (each : ∀ t ∈ ts, ∀ c ∈ t, Printable c) :
    ∀ c ∈ joined ts, Printable c := by
  intro c member
  rcases mem_joined member with rfl | rfl | ⟨t, inside, shown⟩
  · decide
  · decide
  · exact each t inside c shown

theorem printable_between {first last : Char} {t : List Char} (open' : Printable first)
    (inner : ∀ c ∈ t, Printable c) (close : Printable last) : ∀ c ∈ first :: (t ++ [last]), Printable c := by
  intro c member
  simp only [List.mem_cons, List.mem_append, List.not_mem_nil, or_false] at member
  rcases member with rfl | inside | rfl
  · exact open'
  · exact inner c inside
  · exact close

theorem Proper.printable {v : Json} (h : Proper v) : ∀ c ∈ plain v, Printable c := by
  induction h with
  | null => exact List.all_iff_forall_prop.mp (by decide)
  | bool b => cases b <;> exact List.all_iff_forall_prop.mp (by decide)
  | num n => exact fun c member => printable_numeric (Decimal.intText_chars n c member).1
  | real m e => exact fun c member => printable_numeric ((Decimal.floatText_chars m e).1 c member)
  | str s => exact printable_quote s
  | arr xs each ih =>
      rw [plain, plains_eq_map]
      refine printable_between (by decide) (printable_joined fun t member => ?_) (by decide)
      obtain ⟨x, inside, rfl⟩ := List.mem_map.mp member
      exact ih x inside
  | obj d distinct each ih =>
      rw [plain, plainItems_map]
      refine printable_between (by decide) (printable_joined fun t member => ?_) (by decide)
      obtain ⟨p, inside, rfl⟩ := List.mem_map.mp member
      intro c shown
      simp only [entryText, itemText, List.mem_append, List.mem_cons] at shown
      rcases shown with key | rfl | rfl | value
      · exact printable_quote p.1 c key
      · decide
      · decide
      · exact ih p inside c value

end Fleet.Lib.Json
