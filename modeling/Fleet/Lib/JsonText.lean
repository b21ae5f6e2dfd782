/- The text of a JSON value with sorted keys, and when two values have one text. -/
import Mathlib.Data.Bool.AllAny
import Mathlib.Data.String.Basic
import Fleet.Lib.Decimal
import Fleet.Lib.Json

namespace Fleet.Lib
open Decimal (floatText intText numeric)

/-! ## Strings -/

def escapeUnit (n : Nat) : List Char :=
  ['\x5c', 'u', (n / 4096 % 16).digitChar, (n / 256 % 16).digitChar, (n / 16 % 16).digitChar,
    (n % 16).digitChar]

/-- Only printable ASCII stands for itself; what lies beyond the first plane is
written as two surrogates. -/
def escapeChar (c : Char) : List Char :=
  if c = '\x22' then ['\x5c', '\x22']
  else if c = '\x5c' then ['\x5c', '\x5c']
  else if c = '\n' then ['\x5c', 'n']
  else if c = '\r' then ['\x5c', 'r']
  else if c = '\t' then ['\x5c', 't']
  else if c = '\x0c' then ['\x5c', 'f']
  else if c = '\x08' then ['\x5c', 'b']
  else if 32 ≤ c.toNat ∧ c.toNat ≤ 126 then [c]
  else if c.toNat < 65536 then escapeUnit c.toNat
  else escapeUnit (55296 + (c.toNat - 65536) / 1024) ++ escapeUnit (56320 + (c.toNat - 65536) % 1024)

def quote (s : String) : List Char := '\x22' :: (s.toList.flatMap escapeChar ++ ['\x22'])

/-! ### The ways to write a character -/

/-- The character after a backslash, and what it stands for. -/
def shortEscapes : List (Char × Char) :=
  [('\x22', '\x22'), ('\x5c', '\x5c'), ('n', '\n'), ('r', '\r'), ('t', '\t'), ('f', '\x0c'), ('b', '\x08')]

/-- The text of a character: a short escape, the character itself, one unit or a surrogate pair. -/
inductive Escape (c : Char) : List Char → Prop
  | short (mark : Char) (known : (mark, c) ∈ shortEscapes) : Escape c ['\x5c', mark]
  | itself (quoted : c ≠ '\x22') (slash : c ≠ '\x5c') (printable : 32 ≤ c.toNat ∧ c.toNat ≤ 126) : Escape c [c]
  | unit (plane : c.toNat < 65536) (range : c.toNat < 55296 ∨ 57344 ≤ c.toNat) : Escape c (escapeUnit c.toNat)
  | pair (high low : Nat) (first : 55296 ≤ high ∧ high < 56320) (second : 56320 ≤ low ∧ low < 57344)
      (code : 65536 + (high - 55296) * 1024 + (low - 56320) = c.toNat) :
      Escape c (escapeUnit high ++ escapeUnit low)

theorem escape_char (c : Char) : Escape c (escapeChar c) := by
  unfold escapeChar
  split_ifs with quoted slash line back tab form erase printable plane
  iterate 7 · subst c; exact .short _ (by decide)
  · exact .itself quoted slash printable
  · refine .unit plane ?_
    rcases c.valid with low | ⟨high, _⟩
    · exact .inl low
    · exact .inr high
  · have bound : c.toNat < 1114112 := by
      rcases c.valid with low | ⟨_, high⟩
      · exact Nat.lt_trans low (by decide)
      · exact high
    exact .pair _ _ (by omega) (by omega) (by omega)

/-! ### The characters of a quoted text -/

/-- The quotation mark and the characters that escapes are written with. -/
def escapeMarks : List Char := "\"\\nrtfbu0123456789abcdef".toList

theorem mem_escapeUnit {n : Nat} {d : Char} (member : d ∈ escapeUnit n) : d ∈ escapeMarks := by
  have digit : ∀ k, (k % 16).digitChar ∈ escapeMarks := by
    intro k
    have all : ∀ k : Fin 16, Nat.digitChar k ∈ escapeMarks := by decide
    exact all ⟨k % 16, Nat.mod_lt k (by decide)⟩
  simp only [escapeUnit, List.mem_cons, List.not_mem_nil, or_false] at member
  rcases member with rfl | rfl | rfl | rfl | rfl | rfl
  · decide
  · decide
  all_goals exact digit _

theorem mem_escapeChar {c d : Char} (member : d ∈ escapeChar c) :
    (d = c ∧ 32 ≤ d.toNat ∧ d.toNat ≤ 126) ∨ d ∈ escapeMarks := by
  have way := escape_char c
  generalize escapeChar c = text at member way
  cases way with
  | short mark known =>
      have marks : shortEscapes.all (·.1 ∈ escapeMarks) = true := by decide
      rcases List.mem_pair.mp member with rfl | rfl
      · exact .inr (by decide)
      · exact .inr (List.all_iff_forall_prop.mp marks _ known)
  | itself quoted slash printable =>
      obtain rfl := List.mem_singleton.mp member
      exact .inl ⟨rfl, printable⟩
  | unit => exact .inr (mem_escapeUnit member)
  | pair => exact .inr ((List.mem_append.mp member).elim mem_escapeUnit mem_escapeUnit)

theorem mem_quote {s : String} {d : Char} (member : d ∈ quote s) :
    (d ∈ s.toList ∧ 32 ≤ d.toNat ∧ d.toNat ≤ 126) ∨ d ∈ escapeMarks := by
  simp only [quote, List.mem_cons, List.mem_append, List.mem_flatMap, List.not_mem_nil, or_false] at member
  rcases member with rfl | ⟨c, inside, escaped⟩ | rfl
  · exact .inr (by decide)
  · rcases mem_escapeChar escaped with ⟨rfl, printable⟩ | mark
    · exact .inl ⟨inside, printable⟩
    · exact .inr mark
  · exact .inr (by decide)

/-! ### Reading a character back -/

def hexValue (c : Char) : Nat := if c.isDigit then c.toNat - 48 else c.toNat - 87

theorem hexValue_digitChar {n : Nat} (small : n < 16) : hexValue n.digitChar = n := by
  have all : ∀ n : Fin 16, hexValue (Nat.digitChar n) = n := by decide
  exact all ⟨n, small⟩

def unitValue (a b c d : Char) : Nat :=
  ((hexValue a * 16 + hexValue b) * 16 + hexValue c) * 16 + hexValue d

theorem unitValue_escapeUnit {n : Nat} (small : n < 65536) :
    unitValue (n / 4096 % 16).digitChar (n / 256 % 16).digitChar (n / 16 % 16).digitChar
      (n % 16).digitChar = n := by
  have digit : ∀ k, hexValue (k % 16).digitChar = k % 16 :=
    fun k => hexValue_digitChar (Nat.mod_lt k (by decide))
  simp only [unitValue, digit]
  omega

def unescape (c : Char) : Char :=
  if c = 'n' then '\n' else if c = 'r' then '\r' else if c = 't' then '\t'
  else if c = 'f' then '\x0c' else if c = 'b' then '\x08' else c

def readUnit : List Char → Option (Nat × List Char)
  | _ :: _ :: a :: b :: c :: d :: rest => some (unitValue a b c d, rest)
  | _ => none

def readUnits (t : List Char) : Option (Char × List Char) := do
  let (high, after) ← readUnit t
  if high < 55296 ∨ 57344 ≤ high then some (Char.ofNat high, after)
  else
    let (low, after) ← readUnit after
    some (Char.ofNat (65536 + (high - 55296) * 1024 + (low - 56320)), after)

/-- The character a text of escaped characters starts with, and the rest. -/
def readChar (t : List Char) : Option (Char × List Char) :=
  match t with
  | [] => none
  | c :: rest =>
      if c ≠ '\x5c' then some (c, rest)
      else
        match rest with
        | [] => none
        | k :: rest' =>
            if k ≠ 'u' then some (unescape k, rest') else readUnits t

theorem readUnit_escapeUnit {n : Nat} (small : n < 65536) (rest : List Char) :
    readUnit (escapeUnit n ++ rest) = some (n, rest) := by
  simp only [escapeUnit, List.cons_append, List.nil_append, readUnit, unitValue_escapeUnit small]

theorem readUnits_single {n : Nat} (small : n < 65536) (range : n < 55296 ∨ 57344 ≤ n)
    (rest : List Char) : readUnits (escapeUnit n ++ rest) = some (Char.ofNat n, rest) := by
  rw [readUnits, readUnit_escapeUnit small]
  exact if_pos range

theorem readUnits_pair {high low : Nat} (first : 55296 ≤ high ∧ high < 57344) (second : low < 65536)
    (rest : List Char) : readUnits (escapeUnit high ++ (escapeUnit low ++ rest)) =
      some (Char.ofNat (65536 + (high - 55296) * 1024 + (low - 56320)), rest) := by
  have range : ¬ (high < 55296 ∨ 57344 ≤ high) := by omega
  rw [readUnits, readUnit_escapeUnit (by omega)]
  refine (if_neg range).trans ?_
  rw [readUnit_escapeUnit second]
  rfl

theorem readChar_escapeUnit (n : Nat) (rest : List Char) :
    readChar (escapeUnit n ++ rest) = readUnits (escapeUnit n ++ rest) := by
  simp [escapeUnit, readChar]

theorem readChar_escapeChar (c : Char) (rest : List Char) :
    readChar (escapeChar c ++ rest) = some (c, rest) := by
  have way := escape_char c
  generalize escapeChar c = text at way ⊢
  cases way with
  | short mark known =>
      have marks : shortEscapes.all (fun p => p.1 ≠ 'u' ∧ unescape p.1 = p.2) = true := by decide
      obtain ⟨other, same⟩ := List.all_iff_forall_prop.mp marks _ known
      simp [readChar, other, same]
  | itself quoted slash => simp [readChar, slash]
  | unit plane range => rw [readChar_escapeUnit, readUnits_single plane range, Char.ofNat_toNat]
  | pair high low first second code =>
      rw [List.append_assoc, readChar_escapeUnit, readUnits_pair (by omega) (by omega), code, Char.ofNat_toNat]

/-- An escaped character is told from the end of its string. -/
theorem escapeChar_head (c : Char) : ∃ d rest, escapeChar c = d :: rest ∧ d ≠ '\x22' := by
  have way := escape_char c
  generalize escapeChar c = text at way ⊢
  cases way with
  | itself quoted => exact ⟨c, [], rfl, quoted⟩
  | short | unit | pair => exact ⟨'\x5c', _, rfl, by decide⟩

theorem escaped_split (a b r r' : List Char)
    (same : a.flatMap escapeChar ++ '\x22' :: r = b.flatMap escapeChar ++ '\x22' :: r') :
    a = b ∧ r = r' := by
  induction a generalizing b with
  | nil =>
      cases b with
      | nil => exact ⟨rfl, (List.cons.inj same).2⟩
      | cons d b =>
          obtain ⟨x, rest, shape, other⟩ := escapeChar_head d
          rw [List.flatMap_cons, shape] at same
          exact absurd (List.cons.inj same).1.symm other
  | cons c a ih =>
      cases b with
      | nil =>
          obtain ⟨x, rest, shape, other⟩ := escapeChar_head c
          rw [List.flatMap_cons, shape] at same
          exact absurd (List.cons.inj same).1 other
      | cons d b =>
          rw [List.flatMap_cons, List.flatMap_cons, List.append_assoc, List.append_assoc] at same
          have read := congrArg readChar same
          rw [readChar_escapeChar, readChar_escapeChar] at read
          obtain ⟨rfl, rest⟩ := Prod.mk.inj (Option.some.inj read)
          obtain ⟨rfl, tail⟩ := ih b rest
          exact ⟨rfl, tail⟩

theorem quote_split {s s' : String} {r r' : List Char} (same : quote s ++ r = quote s' ++ r') :
    s = s' ∧ r = r' := by
  simp only [quote, List.cons_append, List.append_assoc, List.nil_append] at same
  obtain ⟨chars, tail⟩ := escaped_split _ _ _ _ (List.cons.inj same).2
  exact ⟨String.toList_inj.mp chars, tail⟩

/-! ## Values -/

def joined : List (List Char) → List Char
  | [] => []
  | [t] => t
  | t :: u :: ts => t ++ ',' :: ' ' :: joined (u :: ts)

def insertItem (k : String) (t : List Char) : List (String × List Char) → List (String × List Char)
  | [] => [(k, t)]
  | (k', t') :: rest =>
      if k < k' then (k, t) :: (k', t') :: rest
      else if k = k' then (k, t) :: rest
      else (k', t') :: insertItem k t rest

def itemText (item : String × List Char) : List Char := quote item.1 ++ ':' :: ' ' :: item.2

namespace Json

mutual
/-- `json.dumps(value, sort_keys=True)`. -/
def text : Json → List Char
  | .null => ['n', 'u', 'l', 'l']
  | .bool true => ['t', 'r', 'u', 'e']
  | .bool false => ['f', 'a', 'l', 's', 'e']
  | .num n => intText n
  | .real m e => floatText m e
  | .str s => quote s
  | .arr xs => '[' :: (joined (texts xs) ++ [']'])
  | .obj d => '{' :: (joined ((items d).map itemText) ++ ['}'])
def texts : List Json → List (List Char)
  | [] => []
  | x :: xs => text x :: texts xs
def items : List (String × Json) → List (String × List Char)
  | [] => []
  | (k, v) :: d => insertItem k (text v) (items d)
end

def dumps (value : Json) : String := String.ofList (text value)

example : dumps (.obj [("b", .arr [.num 1, .real 15 (-1), .null]), ("a", .str "x\n")]) =
    "\x7b\"a\": \"x\\n\", \"b\": [1, 1.5, null]\x7d" := by decide

mutual
/-- `json.dumps(value)`: the keys stay in their order. -/
def plain : Json → List Char
  | .null => ['n', 'u', 'l', 'l']
  | .bool true => ['t', 'r', 'u', 'e']
  | .bool false => ['f', 'a', 'l', 's', 'e']
  | .num n => intText n
  | .real m e => floatText m e
  | .str s => quote s
  | .arr xs => '[' :: (joined (plains xs) ++ [']'])
  | .obj d => '{' :: (joined ((plainItems d).map itemText) ++ ['}'])
def plains : List Json → List (List Char)
  | [] => []
  | x :: xs => plain x :: plains xs
def plainItems : List (String × Json) → List (String × List Char)
  | [] => []
  | (k, v) :: d => (k, plain v) :: plainItems d
end

def dumpsPlain (value : Json) : String := String.ofList (plain value)

/-- Equal up to the order of keys; an object is what it answers for each key. -/
inductive Same : Json → Json → Prop
  | null : Same .null .null
  | bool (b : Bool) : Same (.bool b) (.bool b)
  | num (n : Int) : Same (.num n) (.num n)
  | real {m e m' e' : Int} (equal : Decimal.value m e = Decimal.value m' e') :
      Same (.real m e) (.real m' e')
  | str (s : String) : Same (.str s) (.str s)
  | arr {xs ys : List Json} (size : xs.length = ys.length)
      (each : ∀ (i : Nat) x y, xs[i]? = some x → ys[i]? = some y → Same x y) :
      Same (.arr xs) (.arr ys)
  | obj {d d' : Dict} (keys : ∀ k, d.has k = d'.has k)
      (each : ∀ k v v', d.get? k = some v → d'.get? k = some v' → Same v v') :
      Same (.obj d) (.obj d')

/-! ### Objects as sorted entries -/

theorem texts_eq_map (xs : List Json) : texts xs = xs.map text := by
  induction xs with
  | nil => rfl
  | cons x xs ih => rw [texts, ih, List.map_cons]

theorem lookup_insertItem (k : String) (t : List Char) (l : List (String × List Char)) (x : String) :
    (insertItem k t l).lookup x = if x = k then some t else l.lookup x := by
  induction l with
  | nil => rw [insertItem, lookup_cons_ite]
  | cons item rest ih =>
      obtain ⟨k', t'⟩ := item
      unfold insertItem
      by_cases before : k < k'
      · rw [if_pos before, lookup_cons_ite]
      · rw [if_neg before]
        by_cases same : k = k'
        · subst same
          rw [if_pos rfl, lookup_cons_ite, lookup_cons_ite]
          by_cases own : x = k <;> simp [own]
        · rw [if_neg same, lookup_cons_ite, lookup_cons_ite, ih]
          by_cases own : x = k
          · simp [own, same]
          · simp [own]

theorem lookup_items (d : Dict) (k : String) : (items d).lookup k = (d.get? k).map text := by
  induction d with
  | nil => rfl
  | cons item d ih =>
      obtain ⟨k', v⟩ := item
      rw [items, lookup_insertItem, ih, Dict.get?, Dict.get?, lookup_cons_ite]
      by_cases own : k = k' <;> simp [own]

def Sorted {α : Type} (l : List (String × α)) : Prop := l.Pairwise (fun a b => a.1 < b.1)

theorem mem_insertItem {k : String} {t : List Char} {l : List (String × List Char)}
    {item : String × List Char} (member : item ∈ insertItem k t l) : item = (k, t) ∨ item ∈ l := by
  induction l with
  | nil => exact .inl (List.mem_singleton.mp member)
  | cons first rest ih =>
      obtain ⟨k', t'⟩ := first
      unfold insertItem at member
      split_ifs at member
      · exact List.mem_cons.mp member
      · exact (List.mem_cons.mp member).imp_right fun old => List.mem_cons_of_mem _ old
      · rcases List.mem_cons.mp member with rfl | later
        · exact .inr List.mem_cons_self
        · exact (ih later).imp_right fun old => List.mem_cons_of_mem _ old

theorem sorted_insertItem {k : String} {t : List Char} {l : List (String × List Char)}
    (sorted : Sorted l) : Sorted (insertItem k t l) := by
  induction l with
  | nil => exact List.pairwise_singleton _ _
  | cons first rest ih =>
      obtain ⟨k', t'⟩ := first
      obtain ⟨above, tail⟩ := List.pairwise_cons.mp sorted
      unfold insertItem
      split_ifs with before same
      · refine List.pairwise_cons.mpr ⟨fun item member => ?_, sorted⟩
        rcases List.mem_cons.mp member with rfl | later
        · exact before
        · exact lt_trans before (above item later)
      · subst same
        exact List.pairwise_cons.mpr ⟨above, tail⟩
      · refine List.pairwise_cons.mpr ⟨fun item member => ?_, ih tail⟩
        rcases mem_insertItem member with rfl | old
        · exact lt_of_le_of_ne (not_lt.mp before) (Ne.symm same)
        · exact above item old

theorem sorted_items (d : Dict) : Sorted (items d) := by
  induction d with
  | nil => exact List.Pairwise.nil
  | cons item d ih => exact sorted_insertItem ih

theorem lookup_below {α : Type} {l : List (String × α)} {k : String}
    (above : ∀ item ∈ l, k < item.1) : l.lookup k = none := by
  rw [List.lookup_eq_none_iff]
  intro item member
  simpa using (above item member).ne

/-- A sorted list is determined by what it answers for each key. -/
theorem sorted_ext {α : Type} {l l' : List (String × α)} (sorted : Sorted l) (sorted' : Sorted l')
    (same : ∀ k, l.lookup k = l'.lookup k) : l = l' := by
  induction l generalizing l' with
  | nil =>
      cases l' with
      | nil => rfl
      | cons item rest =>
          obtain ⟨k, a⟩ := item
          simpa [lookup_cons_ite] using same k
  | cons item rest ih =>
      obtain ⟨k, a⟩ := item
      obtain ⟨above, tail⟩ := List.pairwise_cons.mp sorted
      cases l' with
      | nil => simpa [lookup_cons_ite] using same k
      | cons item' rest' =>
          obtain ⟨k', a'⟩ := item'
          obtain ⟨above', tail'⟩ := List.pairwise_cons.mp sorted'
          have own : k = k' := by
            rcases lt_trichotomy k k' with less | equal | greater
            · have missing := lookup_below (l := (k', a') :: rest') (k := k) (by
                intro item member
                rcases List.mem_cons.mp member with rfl | later
                · exact less
                · exact lt_trans less (above' item later))
              rw [← same] at missing
              simp at missing
            · exact equal
            · have missing := lookup_below (l := (k, a) :: rest) (k := k') (by
                intro item member
                rcases List.mem_cons.mp member with rfl | later
                · exact greater
                · exact lt_trans greater (above item later))
              rw [same] at missing
              simp at missing
          subst own
          have value : a = a' := by simpa [lookup_cons_ite] using same k
          subst value
          congr 1
          apply ih tail tail'
          intro x
          by_cases first : x = k
          · rw [first, lookup_below above, lookup_below above']
          · simpa [lookup_cons_ite, first] using same x

theorem items_eq_iff (d d' : Dict) :
    items d = items d' ↔ ∀ k, (d.get? k).map text = (d'.get? k).map text := by
  constructor
  · intro same k
    rw [← lookup_items, ← lookup_items, same]
  · intro same
    apply sorted_ext (sorted_items d) (sorted_items d')
    intro k
    rw [lookup_items, lookup_items, same]

theorem text_of_same {a b : Json} (same : Same a b) : text a = text b := by
  induction same with
  | null | bool | num | str => rfl
  | real equal => exact (Decimal.floatText_eq_iff _ _ _ _).mpr equal
  | @arr xs ys size each ih =>
      have all : xs.map text = ys.map text := by
        apply List.ext_getElem (by simpa using size)
        intro i hx hy
        rw [List.length_map] at hx hy
        rw [List.getElem_map, List.getElem_map]
        exact ih i _ _ (List.getElem?_eq_getElem hx) (List.getElem?_eq_getElem hy)
      rw [text, text, texts_eq_map, texts_eq_map, all]
  | @obj d d' keys each ih =>
      have all : items d = items d' := by
        rw [items_eq_iff]
        intro k
        have known := keys k
        cases found : d.get? k with
        | none =>
            cases found' : d'.get? k with
            | none => rfl
            | some v' => simp [Dict.has, found, found'] at known
        | some v =>
            cases found' : d'.get? k with
            | none => simp [Dict.has, found, found'] at known
            | some v' => rw [Option.map_some, Option.map_some, ih k v v' found found']
      rw [text, text, all]

/-! ### Texts are told apart -/

/-- What may follow a value: nothing, or the next item or the end of a container. -/
def Ends (r : List Char) : Prop := r = [] ∨ ∃ c rest, r = c :: rest ∧ c ∈ [',', ']', '}']

/-- Where one text ends is told from what follows. -/
def Token (t u : List Char) : Prop :=
  ∀ r r', Ends r → Ends r' → t ++ r = u ++ r' → t = u ∧ r = r'

theorem numeric_token {t u : List Char} (ht : ∀ c ∈ t, numeric c = true)
    (hu : ∀ c ∈ u, numeric c = true) : Token t u := by
  have stop : ∀ {r}, Ends r → r.takeWhile numeric = [] := by
    rintro r (rfl | ⟨c, rest, rfl, member⟩)
    · rfl
    · have plain : numeric c = false := by
        simp only [List.mem_cons, List.not_mem_nil, or_false] at member
        rcases member with rfl | rfl | rfl <;> decide
      rw [List.takeWhile_cons_of_neg (by simp [plain])]
  have whole : ∀ {t r}, (∀ c ∈ t, numeric c = true) → Ends r → (t ++ r).takeWhile numeric = t := by
    intro t r ht hr
    rw [List.takeWhile_append_of_pos ht, stop hr, List.append_nil]
  intro r r' hr hr' same
  have equal : t = u := by rw [← whole ht hr, same, whole hu hr']
  subst equal
  exact ⟨rfl, List.append_cancel_left same⟩

theorem joined_split {close : Char} {r r' : List Char} (closes : close ∈ [']', '}'])
    {ts us : List (List Char)} (tokens : ∀ t ∈ ts, ∀ u ∈ us, Token t u)
    (opens : ∀ t ∈ ts ++ us, ∃ c rest, t = c :: rest ∧ c ≠ close)
    (same : joined ts ++ close :: r = joined us ++ close :: r') : ts = us ∧ r = r' := by
  have ending : ∀ {r}, Ends (close :: r) := fun {r} =>
    .inr ⟨close, r, rfl, List.mem_cons_of_mem _ closes⟩
  have comma : ∀ {r}, Ends (',' :: r) := fun {r} => .inr ⟨',', r, rfl, by decide⟩
  have other : close ≠ ',' := by
    rintro rfl
    exact absurd closes (by decide)
  -- the text of a nonempty list starts with an item
  have starts : ∀ {t : List Char} {ts x y}, (∃ c rest, t = c :: rest ∧ c ≠ close) →
      close :: x ≠ joined (t :: ts) ++ y := by
    rintro t ts x y ⟨c, rest, rfl, open'⟩ clash
    cases ts with
    | nil => exact open' (List.cons.inj clash).1.symm
    | cons => exact open' (List.cons.inj clash).1.symm
  induction ts generalizing us with
  | nil =>
      cases us with
      | nil => exact ⟨rfl, (List.cons.inj same).2⟩
      | cons u us => exact absurd same (starts (opens u (by simp)))
  | cons t ts ih =>
      cases us with
      | nil => exact absurd same.symm (starts (opens t (by simp)))
      | cons u us =>
          have token := tokens t List.mem_cons_self u List.mem_cons_self
          cases ts with
          | nil =>
              cases us with
              | nil =>
                  obtain ⟨rfl, tail⟩ := token _ _ ending ending same
                  exact ⟨rfl, (List.cons.inj tail).2⟩
              | cons u' us =>
                  rw [joined, joined, List.append_assoc, List.cons_append] at same
                  obtain ⟨_, tail⟩ := token _ _ ending comma same
                  exact absurd (List.cons.inj tail).1 other
          | cons t' ts =>
              rw [joined, List.append_assoc, List.cons_append] at same
              cases us with
              | nil =>
                  obtain ⟨_, tail⟩ := token _ _ comma ending same
                  exact absurd (List.cons.inj tail).1.symm other
              | cons u' us =>
                  rw [joined, List.append_assoc, List.cons_append] at same
                  obtain ⟨rfl, tail⟩ := token _ _ comma comma same
                  obtain ⟨rest, rfl⟩ := ih
                    (fun x hx y hy => tokens x (List.mem_cons_of_mem _ hx) y (List.mem_cons_of_mem _ hy))
                    (fun x hx => opens x (by simp only [List.mem_append, List.mem_cons] at hx ⊢; grind))
                    (List.cons.inj (List.cons.inj tail).2).2
                  exact ⟨by rw [rest], rfl⟩

/-- The kind of value a text starts. -/
def kindOf (c : Char) : Nat :=
  if c = '"' then 1 else if c = '[' then 2 else if c = '{' then 3
  else if c = 'n' then 4 else if c = 't' then 5 else if c = 'f' then 6 else 0

def kind : Json → Nat
  | .null => 4
  | .bool true => 5
  | .bool false => 6
  | .num _ | .real _ _ => 0
  | .str _ => 1
  | .arr _ => 2
  | .obj _ => 3

theorem text_head (a : Json) :
    ∃ c rest, text a = c :: rest ∧ kindOf c = a.kind ∧ c ∉ [']', '}'] := by
  have number : ∀ c : Char, c.isDigit = true ∨ c = '-' → kindOf c = 0 ∧ c ∉ [']', '}'] := by
    intro c start
    have apart : ∀ d, (d.isDigit = true ∨ d = '-') = False → c ≠ d := by
      rintro d none rfl
      exact none ▸ start
    have kinds : kindOf c = 0 := by
      simp only [kindOf, apart '"' (by decide), apart '[' (by decide), apart '{' (by decide),
        apart 'n' (by decide), apart 't' (by decide), apart 'f' (by decide), if_false]
    refine ⟨kinds, fun member => ?_⟩
    simp only [List.mem_cons, List.not_mem_nil, or_false] at member
    rcases member with h | h
    · exact apart ']' (by decide) h
    · exact apart '}' (by decide) h
  cases a with
  | null => exact ⟨'n', _, rfl, rfl, by decide⟩
  | bool b => cases b <;> exact ⟨_, _, rfl, rfl, by decide⟩
  | num n =>
      obtain ⟨c, rest, shape, start⟩ := Decimal.intText_head n
      exact ⟨c, rest, shape, number c start⟩
  | real m e =>
      obtain ⟨c, rest, shape, start⟩ := Decimal.floatText_head m e
      exact ⟨c, rest, shape, number c start⟩
  | str s => exact ⟨'"', _, rfl, rfl, by decide⟩
  | arr xs => exact ⟨'[', _, rfl, rfl, by decide⟩
  | obj d => exact ⟨'{', _, rfl, rfl, by decide⟩

theorem kind_eq {a b : Json} {r r' : List Char} (same : text a ++ r = text b ++ r') :
    a.kind = b.kind := by
  obtain ⟨c, rest, shape, kind, _⟩ := text_head a
  obtain ⟨c', rest', shape', kind', _⟩ := text_head b
  rw [shape, shape'] at same
  rw [← kind, ← kind', (List.cons.inj same).1]

theorem mem_items {d : Dict} {k : String} {t : List Char} (member : (k, t) ∈ items d) :
    ∃ v, (k, v) ∈ d ∧ t = text v := by
  induction d with
  | nil => cases member
  | cons item d ih =>
      obtain ⟨k', v⟩ := item
      rcases mem_insertItem member with same | old
      · obtain ⟨rfl, rfl⟩ := Prod.mk.inj same
        exact ⟨v, List.mem_cons_self, rfl⟩
      · obtain ⟨v', inside, same⟩ := ih old
        exact ⟨v', List.mem_cons_of_mem _ inside, same⟩

theorem mem_of_get? {d : Dict} {k : String} {v : Json} (found : d.get? k = some v) :
    (k, v) ∈ d := by
  induction d with
  | nil => cases found
  | cons item d ih =>
      obtain ⟨k', v'⟩ := item
      rw [Dict.get?, lookup_cons_ite] at found
      split at found
      · rename_i own
        cases found
        rw [own]
        exact List.mem_cons_self
      · exact List.mem_cons_of_mem _ (ih found)

theorem sizeOf_item {d : Dict} {k : String} {v : Json} (member : (k, v) ∈ d) :
    sizeOf v < sizeOf (Json.obj d) := by
  have inside := List.sizeOf_lt_of_mem member
  simp only [Prod.mk.sizeOf_spec] at inside
  simp only [Json.obj.sizeOf_spec]
  omega

theorem sizeOf_element {xs : List Json} {x : Json} (member : x ∈ xs) :
    sizeOf x < sizeOf (Json.arr xs) := by
  have inside := List.sizeOf_lt_of_mem member
  simp only [Json.arr.sizeOf_spec]
  omega

theorem token_itemText {i j : String × List Char} (values : Token i.2 j.2) :
    Token (itemText i) (itemText j) := by
  intro r r' hr hr' same
  simp only [itemText, List.append_assoc, List.cons_append] at same
  obtain ⟨key, tail⟩ := quote_split same
  obtain ⟨value, rest⟩ := values r r' hr hr' (List.cons.inj (List.cons.inj tail).2).2
  exact ⟨by rw [itemText, itemText, key, value], rest⟩

theorem itemText_injective {i j : String × List Char} (same : itemText i = itemText j) : i = j := by
  simp only [itemText] at same
  obtain ⟨key, tail⟩ := quote_split same
  exact Prod.ext key (List.cons.inj (List.cons.inj tail).2).2

theorem arr_split {xs ys : List Json} {r r' : List Char}
    (tokens : ∀ x ∈ xs, ∀ y ∈ ys, Token (text x) (text y))
    (same : text (.arr xs) ++ r = text (.arr ys) ++ r') : texts xs = texts ys ∧ r = r' := by
  simp only [text, List.cons_append, List.append_assoc, List.nil_append] at same
  apply joined_split (by decide) ?_ ?_ (List.cons.inj same).2
  · intro t ht u hu
    rw [texts_eq_map] at ht hu
    obtain ⟨x, hx, rfl⟩ := List.mem_map.mp ht
    obtain ⟨y, hy, rfl⟩ := List.mem_map.mp hu
    exact tokens x hx y hy
  · intro t ht
    rw [texts_eq_map, texts_eq_map, ← List.map_append] at ht
    obtain ⟨x, _, rfl⟩ := List.mem_map.mp ht
    obtain ⟨c, rest, shape, _, apart⟩ := text_head x
    exact ⟨c, rest, shape, fun close => apart (by simp [close])⟩

theorem obj_split {d d' : Dict} {r r' : List Char}
    (tokens : ∀ k v, (k, v) ∈ d → ∀ k' v', (k', v') ∈ d' → Token (text v) (text v'))
    (same : text (.obj d) ++ r = text (.obj d') ++ r') : items d = items d' ∧ r = r' := by
  simp only [text, List.cons_append, List.append_assoc, List.nil_append] at same
  have texts : (items d).map itemText = (items d').map itemText ∧ r = r' := by
    apply joined_split (by decide) ?_ ?_ (List.cons.inj same).2
    · intro t ht u hu
      obtain ⟨⟨k, t⟩, hx, rfl⟩ := List.mem_map.mp ht
      obtain ⟨⟨k', u⟩, hy, rfl⟩ := List.mem_map.mp hu
      obtain ⟨v, inside, rfl⟩ := mem_items hx
      obtain ⟨v', inside', rfl⟩ := mem_items hy
      exact token_itemText (tokens k v inside k' v' inside')
    · intro t ht
      rw [← List.map_append] at ht
      obtain ⟨i, _, rfl⟩ := List.mem_map.mp ht
      exact ⟨'"', _, rfl, by decide⟩
  exact ⟨List.map_injective_iff.mpr (fun _ _ => itemText_injective) texts.1, texts.2⟩

/-- By induction on the size of the first value; the second one has its kind. -/
theorem text_token (a b : Json) : Token (text a) (text b) := by
  induction size : sizeOf a using Nat.strong_induction_on generalizing a b with
  | _ n ih =>
  have smaller : ∀ x y, sizeOf x < sizeOf a → Token (text x) (text y) :=
    fun x y less => ih _ (size ▸ less) x y rfl
  clear ih size
  intro r r' hr hr' same
  have kinds := kind_eq same
  have alike : ∀ {t : List Char}, t ++ r = t ++ r' → t = t ∧ r = r' :=
    fun same => ⟨rfl, List.append_cancel_left same⟩
  have ints := fun n c member => (Decimal.intText_chars n c member).1
  have reals := fun m e => (Decimal.floatText_chars m e).1
  match a, b with
  | .null, .null | .bool true, .bool true | .bool false, .bool false => exact alike same
  | .num m, .num n => exact numeric_token (ints m) (ints n) r r' hr hr' same
  | .num n, .real m e => exact numeric_token (ints n) (reals m e) r r' hr hr' same
  | .real m e, .num n => exact numeric_token (reals m e) (ints n) r r' hr hr' same
  | .real m e, .real m' e' => exact numeric_token (reals m e) (reals m' e') r r' hr hr' same
  | .str s, .str s' =>
      obtain ⟨rfl, rest⟩ := quote_split same
      exact ⟨rfl, rest⟩
  | .arr xs, .arr ys =>
      obtain ⟨all, rest⟩ := arr_split (fun x hx y _ => smaller x y (sizeOf_element hx)) same
      exact ⟨by rw [text, text, all], rest⟩
  | .obj d, .obj d' =>
      obtain ⟨all, rest⟩ := obj_split (fun k v inside k' v' _ => smaller v v' (sizeOf_item inside)) same
      exact ⟨by rw [text, text, all], rest⟩

theorem same_of_text (a b : Json) (equal : text a = text b) : Same a b := by
  induction size : sizeOf a using Nat.strong_induction_on generalizing a b with
  | _ n ih =>
  have smaller : ∀ x y, sizeOf x < sizeOf a → text x = text y → Same x y :=
    fun x y less same => ih _ (size ▸ less) x y same rfl
  clear ih size
  have padded : text a ++ [] = text b ++ [] := congrArg (· ++ []) equal
  have kinds := kind_eq padded
  match a, b with
  | .null, .null => exact .null
  | .bool true, .bool true => exact .bool true
  | .bool false, .bool false => exact .bool false
  | .num m, .num n => exact Decimal.intText_injective equal ▸ .num m
  | .num n, .real m e => exact absurd equal (Decimal.intText_ne_floatText n m e)
  | .real m e, .num n => exact absurd equal.symm (Decimal.intText_ne_floatText n m e)
  | .real m e, .real m' e' => exact .real ((Decimal.floatText_eq_iff m e m' e').mp equal)
  | .str s, .str s' =>
      obtain ⟨rfl, _⟩ := quote_split padded
      exact .str s
  | .arr xs, .arr ys =>
      obtain ⟨all, _⟩ := arr_split (fun x _ y _ => text_token x y) padded
      rw [texts_eq_map, texts_eq_map] at all
      refine .arr (by simpa using congrArg List.length all) fun i x y hx hy => ?_
      apply smaller x y (sizeOf_element (List.mem_of_getElem? hx))
      have entry := congrArg (fun l => l[i]?) all
      simpa [List.getElem?_map, hx, hy] using entry
  | .obj d, .obj d' =>
      obtain ⟨all, _⟩ := obj_split (fun _ v _ _ v' _ => text_token v v') padded
      rw [items_eq_iff] at all
      refine .obj (fun k => ?_) fun k v v' hv hv' => ?_
      · have known := congrArg Option.isSome (all k)
        simpa [Dict.has] using known
      · apply smaller v v' (sizeOf_item (mem_of_get? hv))
        simpa [hv, hv'] using all k

/-- A text stands for one value, up to the order of keys. -/
theorem text_eq_iff (a b : Json) : text a = text b ↔ Same a b :=
  ⟨same_of_text a b, text_of_same⟩

theorem Same.refl (a : Json) : Same a a := (text_eq_iff a a).mp rfl

theorem dumps_eq_iff (a b : Json) : dumps a = dumps b ↔ Same a b := by
  rw [dumps, dumps, String.ofList_inj, text_eq_iff]

end Json
end Fleet.Lib
