/- What the reader makes of the bytes a handler writes, over any reader of JSON texts. -/
import Fleet.Agent.Executor
import Fleet.Lib.JsonRead
import Fleet.Lib.Lines

namespace Fleet.Agent
open Fleet.Lib

/-- What `json.loads` does with a text: it gives a value, raises a `JSONDecodeError`, or
raises another exception, such as the `ValueError` of a number with too many digits. -/
inductive Loaded (V : Type) where
  | value (v : V)
  | decodeError
  | raised

/-- What the reader uses of Python and of the event model. The `none` of `members` stands for
a value that is not an object, which has no `get`. -/
structure LineReader where
  Value : Type
  loads : String → Loaded Value
  members : Value → Option (String → Option Value)
  null : Value
  log : Value
  isNull : Value → Bool
  isStr : Value → Bool
  /-- `TaskEvent` takes them as its `event_type` and its `data`. -/
  accepts : Value → Value → Bool
  blank : loads "" = .decodeError
  log_isStr : isStr log = true
  null_isNull : isNull null = true
  sound : ∀ eventType data, accepts eventType data = true →
    isStr eventType = true ∧ (isNull data = true ∨ (members data).isSome = true)

namespace LineReader

structure Event (r : LineReader) where
  eventType : r.Value
  data : r.Value
  sequence : Int

/-- What the reader does with one line. -/
inductive Outcome (r : LineReader) where
  | skipped
  | yields (eventType data : r.Value)
  | raised

/-- The events yielded, and whether an exception ended them. -/
@[ext] structure Output (r : LineReader) where
  events : List r.Event
  raised : Bool

def streamLimit : Nat := 65536

variable (r : LineReader)

/-- `line.decode(errors="replace").strip()`. -/
def lineText (line : Bytes) : String := String.ofList (strip (decodeReplace line))

def eventType (get : String → Option r.Value) : r.Value := (get "event_type").getD r.log

def data (get : String → Option r.Value) : r.Value := (get "data").getD r.null

def readLine (line : Bytes) : r.Outcome :=
  if streamLimit < (chomp line).length then .raised
  else if lineText line = "" then .skipped
  else
    match r.loads (lineText line) with
    | .decodeError => .skipped
    | .raised => .raised
    | .value v =>
        match r.members v with
        | none => .raised
        | some get =>
            if r.accepts (r.eventType get) (r.data get) then .yields (r.eventType get) (r.data get)
            else .raised

/-- `_read_events` on the lines of its process, with no signals pending. -/
def readEvents : Int → List Bytes → r.Output
  | _, [] => { events := [], raised := false }
  | sequence, line :: lines =>
      match r.readLine line with
      | .skipped => readEvents sequence lines
      | .raised => { events := [], raised := true }
      | .yields eventType data =>
          let rest := readEvents (sequence + 1) lines
          { rest with events := { eventType, data, sequence := sequence + 1 } :: rest.events }

/-! ## What the lines say -/

/-- The fields of a line that is an object with a text or no `event_type`, and an object,
null or no `data`. -/
def fields? (line : Bytes) : Option (r.Value × r.Value) :=
  match r.loads (lineText line) with
  | .value v =>
      match r.members v with
      | some get =>
          if r.isStr (r.eventType get) ∧
              (r.isNull (r.data get) = true ∨ (r.members (r.data get)).isSome = true) then
            some (r.eventType get, r.data get)
          else none
      | none => none
  | _ => none

def numbered : Int → List (r.Value × r.Value) → List r.Event
  | _, [] => []
  | sequence, (eventType, data) :: rest =>
      { eventType, data, sequence := sequence + 1 } :: numbered (sequence + 1) rest

/-- Nothing is raised; each line that is such an object is an event, and no other is. -/
def Unbroken (sequence : Int) (lines : List Bytes) : Prop :=
  r.readEvents sequence lines = { events := r.numbered sequence (lines.filterMap r.fields?), raised := false }

/-- The line is no JSON, or its fields are those of an event that the model takes. -/
def Harmless (line : Bytes) : Prop :=
  r.loads (lineText line) = .decodeError ∨
    ∃ v get, r.loads (lineText line) = .value v ∧ r.members v = some get ∧
      r.accepts (r.eventType get) (r.data get) = true

section line
variable {r} {line : Bytes}

theorem readLine_harmless (within : (chomp line).length ≤ streamLimit) (harmless : r.Harmless line) :
    r.readLine line = match r.fields? line with
      | some f => .yields f.1 f.2
      | none => .skipped := by
  rcases harmless with broken | ⟨v, get, loaded, members, accepted⟩
  · simp [readLine, fields?, broken, Nat.not_lt.mpr within]
  · have shown : lineText line ≠ "" := by
      intro empty
      rw [empty, r.blank] at loaded
      cases loaded
    obtain ⟨text, object⟩ := r.sound _ _ accepted
    simp [readLine, fields?, Nat.not_lt.mpr within, shown, loaded, members, accepted, text, object]

theorem readLine_harmful (harmful : ¬ r.Harmless line) : r.readLine line = .raised := by
  unfold Harmless at harmful
  unfold readLine
  split_ifs with overrun empty
  · rfl
  · rw [empty] at harmful
    exact absurd (.inl r.blank) harmful
  · split
    · rename_i broken
      exact absurd (.inl broken) harmful
    · rfl
    · rename_i v loaded
      split
      · rfl
      · rename_i get members
        split_ifs with accepted
        · exact absurd (.inr ⟨v, get, loaded, members, accepted⟩) harmful
        · rfl

end line

theorem unbroken_lines (sequence : Int) {lines : List Bytes}
    (within : ∀ line ∈ lines, (chomp line).length ≤ streamLimit) :
    r.Unbroken sequence lines ↔ ∀ line ∈ lines, r.Harmless line := by
  unfold Unbroken
  induction lines generalizing sequence with
  | nil => simp [readEvents, numbered]
  | cons line lines ih =>
      obtain ⟨short, within⟩ := List.forall_mem_cons.mp within
      rw [List.forall_mem_cons, readEvents]
      by_cases harmless : r.Harmless line
      · rw [readLine_harmless short harmless]
        cases fields : r.fields? line with
        | none =>
            rw [List.filterMap_cons_none fields]
            simpa [harmless] using ih sequence within
        | some f =>
            rw [List.filterMap_cons_some fields]
            have rest := ih (sequence + 1) within
            rw [Output.ext_iff] at rest
            simpa [harmless, numbered] using rest
      · rw [readLine_harmful harmless]
        simp [harmless]

/-- The output of a handler never breaks the reader if and only if each of its lines is no
JSON or has the fields of an event. -/
theorem unbroken_iff (sequence : Int) (out : Bytes)
    (within : ∀ line ∈ splitLines out, (chomp line).length ≤ streamLimit) :
    r.Unbroken sequence (splitLines out) ↔ ∀ line ∈ splitLines out, r.Harmless line :=
  r.unbroken_lines sequence within

end LineReader

/-! ## The reader of the executor -/

/-- The values of the JSON reader: no NaN, no infinity and no lone surrogate is one. -/
def jsonReader : LineReader where
  Value := Json
  loads text := match Json.parse text with
    | some v => .value v
    | none => .decodeError
  members
    | .obj d => some (Dict.get? d)
    | _ => none
  null := .null
  log := .str "log"
  isNull v := v = .null
  isStr v := v.str?.isSome
  accepts eventType data := eventType.str?.isSome && (optionalDict (some data)).isSome
  blank := rfl
  log_isStr := rfl
  null_isNull := rfl
  sound eventType data accepted := by
    obtain ⟨text, object⟩ := Bool.and_eq_true_iff.mp accepted
    refine ⟨text, ?_⟩
    cases data with
    | null => exact .inl rfl
    | obj d => exact .inr rfl
    | bool | num | real | str | arr => cases object

def lineOf (line : Bytes) : Line :=
  if LineReader.streamLimit < (chomp line).length then .overrun
  else if LineReader.lineText line = "" then .skipped
  else
    match Json.parse (LineReader.lineText line) with
    | some v => .value v
    | none => .skipped

theorem lineFields_obj (d : Dict) : lineFields (.obj d) =
    ((Dict.get? d "event_type").getD (.str "log")).str?.bind fun eventType =>
      (optionalDict (some ((Dict.get? d "data").getD .null))).map fun data => (eventType, data) := by
  have absent : optionalDict (Dict.get? d "data") = optionalDict (some ((Dict.get? d "data").getD .null)) := by
    cases Dict.get? d "data" <;> rfl
  rw [← absent]
  simp only [lineFields]
  generalize ((Dict.get? d "event_type").getD (.str "log")).str? = eventType
  generalize optionalDict (Dict.get? d "data") = data
  cases eventType <;> cases data <;> rfl

theorem eq_of_str? {v : Json} {text : String} (h : v.str? = some text) : v = .str text := by
  cases v <;> cases h
  rfl

/-- The turn does what the reader does with the line. -/
inductive Mirrors (x : Execution) : jsonReader.Outcome → Turn → Prop
  | skipped : Mirrors x .skipped (.awaits (x.moveTo .check))
  | raised : Mirrors x .raised (.ends .raised)
  | yields (text : String) (v : Json) (data : Option Dict) (object : optionalDict (some v) = some data) :
      Mirrors x (.yields (.str text) v)
        (x.yield (fun sequence => { eventType := text, data, sequence }) .check)

theorem onLine_mirrors (x : Execution) (line : Bytes) :
    Mirrors x (jsonReader.readLine line) (x.onLine (lineOf line)) := by
  unfold LineReader.readLine lineOf
  split_ifs with overrun empty
  · exact .raised
  · exact .skipped
  · simp only [jsonReader, LineReader.eventType, LineReader.data]
    cases parsed : Json.parse (LineReader.lineText line) with
    | none => exact .skipped
    | some v =>
        cases v with
        | null | bool | num | real | str | arr => exact .raised
        | obj d =>
            simp only [Execution.onLine, lineFields_obj]
            rcases Option.eq_none_or_eq_some ((Dict.get? d "event_type").getD (.str "log")).str? with
              absent | ⟨text, given⟩
            · simp only [absent, Option.isSome_none, Bool.false_and]
              exact .raised
            · rcases Option.eq_none_or_eq_some (optionalDict (some ((Dict.get? d "data").getD .null))) with
                other | ⟨data, object⟩
              · simp only [given, other, Option.isSome_none, Bool.and_false]
                exact .raised
              · simp only [object, eq_of_str? given]
                exact .yields text _ data object

theorem jsonReader_decodeError {text : String} (broken : Json.parse text = none) :
    jsonReader.loads text = .decodeError := by
  simp only [jsonReader, broken]

theorem jsonReader_value {text : String} {v : Json} (parsed : Json.parse text = some v) :
    jsonReader.loads text = .value v := by
  simp only [jsonReader, parsed]

namespace Demo

def written (text : String) : Bytes := utf8 (text ++ "\n")

theorem lineText_written {text : String} (bare : strip (text ++ "\n").toList = text.toList) :
    LineReader.lineText (written text) = text := by
  rw [LineReader.lineText, written, decodeReplace_utf8, bare, String.ofList_toList]

def object : String := "\x7b\"event_type\": \"log\"\x7d"

def talks : Bytes := written "starting" ++ written object

theorem talks_lines : splitLines talks = [written "starting", written object] := by decide +kernel

end Demo

theorem unbroken_talks : jsonReader.Unbroken 0 (splitLines Demo.talks) := by
  refine (jsonReader.unbroken_iff 0 Demo.talks (by decide +kernel)).mpr ?_
  rw [Demo.talks_lines]
  intro line member
  rcases List.mem_pair.mp member with rfl | rfl
  · refine .inl ?_
    rw [Demo.lineText_written (by decide +kernel)]
    exact jsonReader_decodeError (by decide +kernel)
  · refine .inr ⟨.obj [("event_type", .str "log")], Dict.get? [("event_type", .str "log")], ?_, rfl, rfl⟩
    rw [Demo.lineText_written (by decide +kernel)]
    exact jsonReader_value (by decide +kernel)

/-- The text of the line is JSON, but no object. -/
theorem array_line_raises : ¬ jsonReader.Unbroken 0 (splitLines (Demo.written "[1]")) := by
  have one : splitLines (Demo.written "[1]") = [Demo.written "[1]"] := by decide +kernel
  have loaded : jsonReader.loads (LineReader.lineText (Demo.written "[1]")) = .value (.arr [.num 1]) := by
    rw [Demo.lineText_written (by decide +kernel)]
    exact jsonReader_value (by decide +kernel)
  have within : ∀ line ∈ [Demo.written "[1]"], (chomp line).length ≤ LineReader.streamLimit := by
    decide +kernel
  rw [one, LineReader.unbroken_lines _ _ within]
  intro harmless
  rcases harmless _ List.mem_cons_self with broken | ⟨v, get, value, object, -⟩
  · cases loaded.symm.trans broken
  · cases loaded.symm.trans value
    cases object

end Fleet.Agent
