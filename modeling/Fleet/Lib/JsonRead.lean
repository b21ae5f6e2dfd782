/- Reading JSON texts, and the objects of texts that are read back. -/
import Fleet.Lib.Base64
import Fleet.Lib.JsonText

namespace Fleet.Lib

inductive PyError where
  | valueError
  | keyError
  | typeError (message : String)
  deriving DecidableEq, Repr

namespace Json

/-! ## Strings -/

def hexDigit? (c : Char) : Option Nat :=
  if c.isDigit then some (c.toNat - 48)
  else if 'a' ≤ c ∧ c ≤ 'f' then some (c.toNat - 87)
  else if 'A' ≤ c ∧ c ≤ 'F' then some (c.toNat - 55)
  else none

def scanUnit : List Char → Option (Nat × List Char)
  | a :: b :: c :: d :: rest => do
      let a ← hexDigit? a
      let b ← hexDigit? b
      let c ← hexDigit? c
      let d ← hexDigit? d
      some (((a * 16 + b) * 16 + c) * 16 + d, rest)
  | _ => none

/-- One unit or a surrogate pair. A text holds no surrogate that stands alone. -/
def scanUnits (text : List Char) : Option (Char × List Char) := do
  let (high, after) ← scanUnit text
  if 55296 ≤ high ∧ high < 56320 then
    match after with
    | '\x5c' :: 'u' :: more =>
        let (low, rest) ← scanUnit more
        if 56320 ≤ low ∧ low < 57344 then
          some (Char.ofNat (65536 + (high - 55296) * 1024 + (low - 56320)), rest)
        else none
    | _ => none
  else if 56320 ≤ high ∧ high < 57344 then none
  else some (Char.ofNat high, after)

def escaped? (c : Char) : Option Char :=
  if c = '\x22' ∨ c = '\x5c' ∨ c = '/' then some c
  else if c = 'n' then some '\n'
  else if c = 'r' then some '\r'
  else if c = 't' then some '\t'
  else if c = 'f' then some '\x0c'
  else if c = 'b' then some '\x08'
  else none

/-- The next character of a string; a control character has to be escaped. -/
def scanChar : List Char → Option (Char × List Char)
  | [] => none
  | c :: rest =>
      if c.toNat < 32 then none
      else if c ≠ '\x5c' then some (c, rest)
      else
        match rest with
        | [] => none
        | k :: after => if k = 'u' then scanUnits after else (escaped? k).map fun c => (c, after)

def scanChars : Nat → List Char → Option (List Char × List Char)
  | 0, _ => none
  | fuel + 1, text => do
      if text.head? = some '\x22' then return ([], text.tail)
      let (c, rest) ← scanChar text
      let (cs, rest) ← scanChars fuel rest
      some (c :: cs, rest)

def scanString (text : List Char) : Option (String × List Char) :=
  (scanChars (text.length + 1) text).map fun p => (String.ofList p.1, p.2)

/-! ## Numbers -/

def digitsValue (digits : List Char) : Nat := digits.foldl (fun n c => n * 10 + (c.toNat - 48)) 0

def scanFraction : List Char → List Char × List Char
  | '.' :: rest =>
      if rest.head?.any Char.isDigit then (rest.takeWhile Char.isDigit, rest.dropWhile Char.isDigit)
      else ([], '.' :: rest)
  | text => ([], text)

def scanSign : List Char → Int × List Char
  | '-' :: rest => (-1, rest)
  | '+' :: rest => (1, rest)
  | text => (1, text)

def scanExponent (text : List Char) : Option Int × List Char :=
  let (sign, digits) := scanSign text.tail
  if (text.head? = some 'e' ∨ text.head? = some 'E') ∧ digits.head?.any Char.isDigit then
    (some (sign * digitsValue (digits.takeWhile Char.isDigit)), digits.dropWhile Char.isDigit)
  else (none, text)

/-- The digits of an integer that `int` converts, at most. -/
def maxDigits : Nat := 4300

/-- A number without a fraction and an exponent is an integer. -/
def scanNumber (text : List Char) : Option (Json × List Char) :=
  let negative := text.head? = some '-'
  let text := if negative then text.tail else text
  let digits := if text.head? = some '0' then ['0'] else text.takeWhile Char.isDigit
  let (fraction, rest) := scanFraction (text.drop digits.length)
  let (exponent, rest) := scanExponent rest
  let sign : Int := if negative then -1 else 1
  if digits = [] then none
  else if fraction = [] ∧ exponent = none then
    if digits.length ≤ maxDigits then some (.num (sign * digitsValue digits), rest) else none
  else some (.real (sign * digitsValue (digits ++ fraction)) (exponent.getD 0 - fraction.length), rest)

/-! ## Values -/

def isBlank (c : Char) : Bool := c = ' ' || c = '\t' || c = '\n' || c = '\r'

def skipBlanks (text : List Char) : List Char := text.dropWhile isBlank

def keyword? (word : String) (value : Json) (text : List Char) : Option (Json × List Char) :=
  if word.toList.isPrefixOf text then some (value, text.drop word.length) else none

mutual
def scanValue : Nat → List Char → Option (Json × List Char)
  | 0, _ => none
  | fuel + 1, text =>
      match text with
      | '\x22' :: rest => (scanString rest).map fun p => (.str p.1, p.2)
      | '{' :: rest =>
          match skipBlanks rest with
          | '}' :: rest => some (.obj [], rest)
          | rest => scanItems fuel [] rest
      | '[' :: rest =>
          match skipBlanks rest with
          | ']' :: rest => some (.arr [], rest)
          | rest => scanElements fuel [] rest
      | text =>
          (((keyword? "null" .null text).or (keyword? "true" (.bool true) text)).or
            (keyword? "false" (.bool false) text)).or (scanNumber text)
/-- The entries of an object after those read so far; a repeated key keeps its last value. -/
def scanItems : Nat → Dict → List Char → Option (Json × List Char)
  | 0, _, _ => none
  | fuel + 1, d, text =>
      match text with
      | '\x22' :: rest => do
          let (key, rest) ← scanString rest
          match skipBlanks rest with
          | ':' :: rest =>
              let (value, rest) ← scanValue fuel (skipBlanks rest)
              match skipBlanks rest with
              | '}' :: rest => some (.obj (d.set key value), rest)
              | ',' :: rest => scanItems fuel (d.set key value) (skipBlanks rest)
              | _ => none
          | _ => none
      | _ => none
def scanElements : Nat → List Json → List Char → Option (Json × List Char)
  | 0, _, _ => none
  | fuel + 1, xs, text => do
      let (x, rest) ← scanValue fuel text
      match skipBlanks rest with
      | ']' :: rest => some (.arr (xs ++ [x]), rest)
      | ',' :: rest => scanElements fuel (xs ++ [x]) (skipBlanks rest)
      | _ => none
end

/-- A text is one value, with blanks around it. Each step of the scanner reads a
character, so the length of the text is fuel enough. -/
def parse (text : String) : Option Json :=
  match scanValue (text.toList.length + 1) (skipBlanks text.toList) with
  | some (value, rest) => if skipBlanks rest = [] then some value else none
  | none => none

/-- `data.decode()`, without the mark that may stand before a text. -/
def decodeUtf8 (data : Bytes) : Option String :=
  let data := if [0xEF, 0xBB, 0xBF].isPrefixOf data then data.drop 3 else data
  String.fromUTF8? ⟨data.toArray⟩

/-- `json.loads(data)`. -/
def loads (data : Bytes) : Except PyError Json :=
  match (decodeUtf8 data).bind parse with
  | some value => .ok value
  | none => .error .valueError

def subscript (value : Json) (key : String) : Except PyError Json :=
  match value with
  | .obj d =>
      match Dict.get? d key with
      | some v => .ok v
      | none => .error .keyError
  | .arr _ => .error (.typeError "list indices must be integers or slices, not str")
  | .str _ => .error (.typeError "string indices must be integers, not 'str'")
  | .null => .error (.typeError "'NoneType' object is not subscriptable")
  | .bool _ => .error (.typeError "'bool' object is not subscriptable")
  | .num _ => .error (.typeError "'int' object is not subscriptable")
  | .real _ _ => .error (.typeError "'float' object is not subscriptable")

/-! ## Objects of texts

What `dumps` writes of such an object is read back. -/

theorem hexDigit?_digitChar {n : Nat} (small : n < 16) : hexDigit? n.digitChar = some n := by
  have all : ∀ n : Fin 16, hexDigit? (Nat.digitChar n) = some n.val := by decide
  exact all ⟨n, small⟩

theorem scanUnit_digits {n : Nat} (small : n < 65536) (rest : List Char) :
    scanUnit ((n / 4096 % 16).digitChar :: (n / 256 % 16).digitChar :: (n / 16 % 16).digitChar ::
      (n % 16).digitChar :: rest) = some (n, rest) := by
  have digit : ∀ k, hexDigit? (k % 16).digitChar = some (k % 16) :=
    fun k => hexDigit?_digitChar (Nat.mod_lt k (by decide))
  have whole : ((n / 4096 % 16 * 16 + n / 256 % 16) * 16 + n / 16 % 16) * 16 + n % 16 = n := by omega
  simp only [scanUnit, digit, Option.bind_eq_bind, Option.bind_some, whole]

theorem scanChar_unit (n : Nat) (rest : List Char) :
    scanChar (escapeUnit n ++ rest) = scanUnits ((escapeUnit n).drop 2 ++ rest) := by
  simp [escapeUnit, scanChar]

theorem scanUnit_escapeUnit {n : Nat} (small : n < 65536) (rest : List Char) :
    scanUnit ((escapeUnit n).drop 2 ++ rest) = some (n, rest) := scanUnit_digits small rest

theorem scanUnits_single {n : Nat} (small : n < 65536) (range : n < 55296 ∨ 57344 ≤ n)
    (rest : List Char) : scanUnits ((escapeUnit n).drop 2 ++ rest) = some (Char.ofNat n, rest) := by
  have first : ¬ (55296 ≤ n ∧ n < 56320) := by omega
  have second : ¬ (56320 ≤ n ∧ n < 57344) := by omega
  rw [scanUnits, scanUnit_escapeUnit small]
  exact (if_neg first).trans (if_neg second)

theorem scanUnits_pair {high low : Nat} (first : 55296 ≤ high ∧ high < 56320)
    (second : 56320 ≤ low ∧ low < 57344) (rest : List Char) :
    scanUnits ((escapeUnit high).drop 2 ++ (escapeUnit low ++ rest)) =
      some (Char.ofNat (65536 + (high - 55296) * 1024 + (low - 56320)), rest) := by
  have shape : escapeUnit low ++ rest = '\x5c' :: 'u' :: ((escapeUnit low).drop 2 ++ rest) := rfl
  rw [scanUnits, scanUnit_escapeUnit (by omega), shape]
  refine (if_pos first).trans ?_
  simp only [scanUnit_escapeUnit (show low < 65536 by omega), Option.bind_eq_bind, Option.bind_some]
  exact if_pos second

theorem scanChar_escapeChar (c : Char) (rest : List Char) :
    scanChar (escapeChar c ++ rest) = some (c, rest) := by
  have way := escape_char c
  generalize escapeChar c = text at way ⊢
  cases way with
  | short mark known =>
      have marks : shortEscapes.all (fun p => p.1 ≠ 'u' ∧ escaped? p.1 = some p.2) = true := by decide
      obtain ⟨other, same⟩ := List.all_iff_forall_prop.mp marks _ known
      simp [scanChar, other, same]
  | itself quoted slash printable =>
      have shown : ¬ c.toNat < 32 := by omega
      simp [scanChar, shown, slash]
  | unit plane range => rw [scanChar_unit, scanUnits_single plane range, Char.ofNat_toNat]
  | pair high low first second code =>
      rw [List.append_assoc, scanChar_unit, scanUnits_pair first second, code, Char.ofNat_toNat]

/-- By induction on the string: no escaped character is the closing quote. -/
theorem scanChars_escaped (s rest : List Char) (fuel : Nat) (enough : s.length < fuel) :
    scanChars fuel (s.flatMap escapeChar ++ '\x22' :: rest) = some (s, rest) := by
  induction s generalizing fuel with
  | nil =>
      obtain ⟨fuel, rfl⟩ := Nat.exists_eq_succ_of_ne_zero (Nat.ne_zero_of_lt enough)
      simp [scanChars]
  | cons c s ih =>
      obtain ⟨fuel, rfl⟩ := Nat.exists_eq_succ_of_ne_zero (Nat.ne_zero_of_lt enough)
      obtain ⟨d, tail, shape, other⟩ := escapeChar_head c
      have read := scanChar_escapeChar c (s.flatMap escapeChar ++ '\x22' :: rest)
      have open' : (escapeChar c ++ (s.flatMap escapeChar ++ '\x22' :: rest)).head? ≠ some '\x22' := by
        rw [shape, List.cons_append, List.head?_cons]
        exact fun same => other (Option.some.inj same)
      have later := ih fuel (by simpa using enough)
      rw [List.flatMap_cons, List.append_assoc, scanChars, if_neg open', read]
      simp [later]

theorem length_le_escaped (s : List Char) : s.length ≤ (s.flatMap escapeChar).length := by
  induction s with
  | nil => simp
  | cons c s ih =>
      obtain ⟨d, tail, shape, _⟩ := escapeChar_head c
      rw [List.flatMap_cons, List.length_append, shape, List.length_cons, List.length_cons]
      omega

theorem scanString_quote (s : String) (rest : List Char) :
    scanString (s.toList.flatMap escapeChar ++ '\x22' :: rest) = some (s, rest) := by
  have size := length_le_escaped s.toList
  rw [scanString, scanChars_escaped s.toList rest _ (by rw [List.length_append, List.length_cons]; omega)]
  simp

def record (fields : List (String × String)) : Dict := fields.map fun f => (f.1, .str f.2)

def fieldText (field : String × String) : List Char := quote field.1 ++ ':' :: ' ' :: quote field.2

theorem plain_record (fields : List (String × String)) :
    plain (.obj (record fields)) = '{' :: (joined (fields.map fieldText) ++ ['}']) := by
  have items : (plainItems (record fields)).map itemText = fields.map fieldText := by
    induction fields with
    | nil => rfl
    | cons f fields ih =>
        obtain ⟨k, v⟩ := f
        change itemText (k, quote v) :: (plainItems (record fields)).map itemText = _
        rw [ih]
        rfl
  rw [plain, items]

theorem set_absent {d : Dict} {k : String} (absent : k ∉ d.map Prod.fst) (v : Json) :
    d.set k v = d ++ [(k, v)] := by
  induction d with
  | nil => rfl
  | cons item d ih =>
      obtain ⟨k', v'⟩ := item
      rw [List.map_cons, List.mem_cons, not_or] at absent
      rw [Dict.set, if_neg (Ne.symm absent.1), ih absent.2, List.cons_append]

theorem Dict.absent_key {d : Dict} {key : String} {keys : List String}
    (distinct : (d.map Prod.fst ++ key :: keys).Nodup) : key ∉ d.map Prod.fst :=
  fun member => (List.nodup_append.mp distinct).2.2 _ member _ List.mem_cons_self rfl

theorem scanValue_quote (fuel : Nat) (s : String) (rest : List Char) :
    scanValue (fuel + 1) (quote s ++ rest) = some (.str s, rest) := by
  simp only [quote, List.cons_append, List.append_assoc, List.nil_append, scanValue,
    scanString_quote, Option.map_some]

theorem skipBlanks_quote (s : String) (rest : List Char) :
    skipBlanks (' ' :: (quote s ++ rest)) = quote s ++ rest := rfl

theorem scanItems_value {fuel : Nat} {text rest : List Char} {v : Json} (blank : skipBlanks (' ' :: text) = text)
    (read : scanValue fuel text = some (v, rest)) (d : Dict) (key : String) :
    scanItems (fuel + 1) d (quote key ++ ':' :: ' ' :: text) =
      match skipBlanks rest with
      | '}' :: rest => some (.obj (d.set key v), rest)
      | ',' :: rest => scanItems fuel (d.set key v) (skipBlanks rest)
      | _ => none := by
  have colon : skipBlanks (':' :: ' ' :: text) = ':' :: ' ' :: text := rfl
  have shape : quote key ++ ':' :: ' ' :: text =
      '\x22' :: (key.toList.flatMap escapeChar ++ '\x22' :: ':' :: ' ' :: text) := by
    simp [quote]
  rw [shape, scanItems]
  simp only [scanString_quote, Option.bind_eq_bind, Option.bind_some, colon, blank, read]

theorem scanItems_field (fuel : Nat) (d : Dict) (f : String × String) (rest : List Char) :
    scanItems (fuel + 2) d (fieldText f ++ rest) =
      match skipBlanks rest with
      | '}' :: rest => some (.obj (d.set f.1 (.str f.2)), rest)
      | ',' :: rest => scanItems (fuel + 1) (d.set f.1 (.str f.2)) (skipBlanks rest)
      | _ => none := by
  have shape : fieldText f ++ rest = quote f.1 ++ ':' :: ' ' :: (quote f.2 ++ rest) := by
    simp [fieldText]
  rw [shape]
  exact scanItems_value (skipBlanks_quote f.2 rest) (scanValue_quote fuel f.2 rest) d f.1

theorem scanItems_record (fields : List (String × String)) (f : String × String) {d : Dict}
    (distinct : (d.map Prod.fst ++ (f :: fields).map Prod.fst).Nodup) (fuel : Nat)
    (enough : fields.length + 1 < fuel) (rest : List Char) :
    scanItems fuel d (joined ((f :: fields).map fieldText) ++ '}' :: rest) =
      some (.obj (d ++ record (f :: fields)), rest) := by
  obtain ⟨fuel, rfl⟩ : ∃ n, fuel = n + 2 := ⟨fuel - 2, by omega⟩
  induction fields generalizing f d fuel with
  | nil =>
      change scanItems (fuel + 2) d (fieldText f ++ '}' :: rest) = _
      rw [scanItems_field, set_absent (Dict.absent_key distinct)]
      rfl
  | cons g fields ih =>
      have shape : joined ((f :: g :: fields).map fieldText) ++ '}' :: rest =
          fieldText f ++ ',' :: ' ' :: (joined ((g :: fields).map fieldText) ++ '}' :: rest) := by
        simp [joined]
      have next : skipBlanks (' ' :: (joined ((g :: fields).map fieldText) ++ '}' :: rest)) =
          joined ((g :: fields).map fieldText) ++ '}' :: rest := by
        cases fields <;> rfl
      have moved : ((d ++ [(f.1, Json.str f.2)]).map Prod.fst ++ (g :: fields).map Prod.fst).Nodup := by
        simpa using distinct
      have comma : skipBlanks (',' :: ' ' :: (joined ((g :: fields).map fieldText) ++ '}' :: rest)) =
          ',' :: ' ' :: (joined ((g :: fields).map fieldText) ++ '}' :: rest) := rfl
      obtain ⟨fuel, rfl⟩ : ∃ n, fuel = n + 1 := ⟨fuel - 1, by simp at enough; omega⟩
      rw [shape, scanItems_field, comma]
      simp only [next, set_absent (Dict.absent_key distinct)]
      rw [ih g moved fuel (by simp at enough ⊢; omega)]
      simp [record]

theorem length_le_joined {texts : List (List Char)} (shown : ∀ t ∈ texts, t ≠ []) :
    texts.length ≤ (joined texts).length := by
  induction texts with
  | nil => simp
  | cons t texts ih =>
      have own := List.length_pos_iff.mpr (shown t List.mem_cons_self)
      have later := ih fun u member => shown u (List.mem_cons_of_mem _ member)
      cases texts with
      | nil => exact own
      | cons u texts =>
          rw [joined, List.length_append]
          simp only [List.length_cons] at later ⊢
          omega

theorem parse_record {fields : List (String × String)} (distinct : (fields.map Prod.fst).Nodup) :
    parse (dumpsPlain (.obj (record fields))) = some (.obj (record fields)) := by
  have size : fields.length ≤ (joined (fields.map fieldText)).length := by
    rw [← List.length_map (f := fieldText)]
    apply length_le_joined
    intro t member
    obtain ⟨f, _, rfl⟩ := List.mem_map.mp member
    exact List.cons_ne_nil _ _
  rw [parse, dumpsPlain, plain_record, String.toList_ofList]
  cases fields with
  | nil => rfl
  | cons f fields =>
      have read := scanItems_record fields f (d := []) (by simpa using distinct)
        ((joined ((f :: fields).map fieldText) ++ ['}']).length + 1)
        (by rw [List.length_append]; simp at size ⊢; omega) []
      have start : skipBlanks ('{' :: (joined ((f :: fields).map fieldText) ++ ['}'])) =
          '{' :: (joined ((f :: fields).map fieldText) ++ ['}']) := rfl
      have quoted : ∃ rest, joined ((f :: fields).map fieldText) ++ ['}'] = '\x22' :: rest := by
        cases fields <;> exact ⟨_, rfl⟩
      obtain ⟨rest, shape⟩ := quoted
      rw [shape] at read start ⊢
      rw [start, List.length_cons, scanValue]
      change (match scanItems (('\x22' :: rest).length + 1) [] ('\x22' :: rest) with
        | some (value, rest) => if skipBlanks rest = [] then some value else none
        | none => none) = _
      rw [read]
      rfl

theorem decodeUtf8_utf8 {text : String} (plain : (utf8 text).head? ≠ some 0xEF) :
    decodeUtf8 (utf8 text) = some text := by
  have marked : ¬ ([0xEF, 0xBB, 0xBF].isPrefixOf (utf8 text) = true) := by
    intro start
    obtain ⟨rest, shape⟩ := List.isPrefixOf_iff_prefix.mp start
    rw [← shape] at plain
    exact plain rfl
  have bytes : (⟨(utf8 text).toArray⟩ : ByteArray) = text.toByteArray := by
    unfold utf8
    rw [Array.toArray_toList]
  rw [decodeUtf8, if_neg marked, bytes, String.fromUTF8?, dif_pos text.isValidUTF8]
  rfl

theorem utf8_brace (rest : List Char) : (utf8 (String.ofList ('{' :: rest))).head? = some 123 := by
  unfold utf8
  rw [String.toByteArray_ofList, List.utf8Encode_cons, List.utf8Encode_singleton,
    ByteArray.data_append, Array.toList_append, List.data_toByteArray]
  rfl

theorem loads_record {fields : List (String × String)} (distinct : (fields.map Prod.fst).Nodup) :
    loads (utf8 (dumpsPlain (.obj (record fields)))) = .ok (.obj (record fields)) := by
  have start : (utf8 (dumpsPlain (.obj (record fields)))).head? ≠ some 0xEF := by
    rw [dumpsPlain, plain_record, utf8_brace]
    decide
  rw [loads, decodeUtf8_utf8 start, Option.bind_some, parse_record distinct]

/-! ### The characters of a written object -/

/-- The ASCII characters whose byte leaves no `+` in a base64 text. -/
def PlainChar (c : Char) : Prop := c.toNat < 128 ∧ c ≠ '>' ∧ c ≠ '~'

instance (c : Char) : Decidable (PlainChar c) := instDecidableAnd

theorem quote_plain {s : String} (other : ∀ c ∈ s.toList, c ≠ '>' ∧ c ≠ '~') :
    ∀ d ∈ quote s, PlainChar d := by
  intro d member
  rcases mem_quote member with ⟨inside, -, high⟩ | mark
  · exact ⟨by omega, other d inside⟩
  · exact List.all_iff_forall_prop.mp (by decide) d mark

theorem mem_joined {texts : List (List Char)} {c : Char} (member : c ∈ joined texts) :
    c = ',' ∨ c = ' ' ∨ ∃ t ∈ texts, c ∈ t := by
  induction texts with
  | nil => cases member
  | cons t texts ih =>
      cases texts with
      | nil => exact .inr (.inr ⟨t, List.mem_cons_self, member⟩)
      | cons u texts =>
          rw [joined, List.mem_append, List.mem_cons, List.mem_cons] at member
          rcases member with first | rfl | rfl | later
          · exact .inr (.inr ⟨t, List.mem_cons_self, first⟩)
          · exact .inl rfl
          · exact .inr (.inl rfl)
          · refine (ih later).imp_right (Or.imp_right ?_)
            rintro ⟨t', inside, shown⟩
            exact ⟨t', List.mem_cons_of_mem _ inside, shown⟩

theorem record_plain {fields : List (String × String)}
    (other : ∀ f ∈ fields, ∀ c ∈ f.1.toList ++ f.2.toList, c ≠ '>' ∧ c ≠ '~') :
    ∀ d ∈ (dumpsPlain (.obj (record fields))).toList, PlainChar d := by
  intro d member
  rw [dumpsPlain, plain_record, String.toList_ofList] at member
  simp only [List.mem_cons, List.mem_append, List.not_mem_nil, or_false] at member
  rcases member with rfl | inner | rfl
  · decide
  · rcases mem_joined inner with rfl | rfl | ⟨t, inside, shown⟩
    · decide
    · decide
    · obtain ⟨f, known, rfl⟩ := List.mem_map.mp inside
      simp only [fieldText, List.mem_append, List.mem_cons] at shown
      rcases shown with key | rfl | rfl | value
      · exact quote_plain (fun c named => other f known c (List.mem_append_left _ named)) d key
      · decide
      · decide
      · exact quote_plain (fun c named => other f known c (List.mem_append_right _ named)) d value
  · decide

theorem encode_record (fields : List (String × String))
    (other : ∀ f ∈ fields, ∀ c ∈ f.1.toList ++ f.2.toList, c ≠ '>' ∧ c ≠ '~') :
    ∀ c ∈ (Base64.b64encode (utf8 (dumpsPlain (.obj (record fields))))).toList, c ∉ ['+', '%', '&'] := by
  have plain := record_plain other
  rw [Base64.b64encode, String.toList_ofList]
  apply Base64.encode_unmarked
  rw [← String.ofList_toList (s := dumpsPlain (.obj (record fields))),
    utf8_ascii fun c member => (plain c member).1]
  intro b member
  obtain ⟨c, inside, rfl⟩ := List.mem_map.mp member
  obtain ⟨ascii, arrow, tilde⟩ := plain c inside
  have value : (UInt8.ofNat c.toNat).toNat = c.toNat := by
    rw [UInt8.toNat_ofNat']
    omega
  have first : c.toNat ≠ 62 := fun same => arrow (by rw [← Char.ofNat_toNat c, same])
  have second : c.toNat ≠ 126 := fun same => tilde (by rw [← Char.ofNat_toNat c, same])
  rw [Base64.PlusFree, value]
  omega

theorem encode_record_ne_empty (fields : List (String × String)) :
    Base64.b64encode (utf8 (dumpsPlain (.obj (record fields)))) ≠ "" := by
  rw [ne_eq, Base64.b64encode_eq_empty]
  intro empty
  have start := utf8_brace (joined (fields.map fieldText) ++ ['}'])
  rw [← plain_record] at start
  rw [dumpsPlain] at empty
  rw [empty] at start
  cases start

end Json
end Fleet.Lib
