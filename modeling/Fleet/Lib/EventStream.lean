/- The event stream format: how a client reads a stream, and the frames of messages. -/
import Fleet.Lib.Text

namespace Fleet.Lib.EventStream

structure Message where
  id : List Char
  event : List Char
  data : List Char
  deriving DecidableEq, Repr

/-! ## Reading -/

/-- The text between the line ends: a line feed, a carriage return, or the two together. -/
def splitEnds : List Char → List (List Char)
  | [] => [[]]
  | '\r' :: '\n' :: rest => [] :: splitEnds rest
  | c :: rest =>
      if c = '\n' ∨ c = '\r' then [] :: splitEnds rest
      else
        match splitEnds rest with
        | line :: lines => (c :: line) :: lines
        | [] => [[c]]

/-- What follows the last line end is no line. -/
def lines (text : List Char) : List (List Char) := (splitEnds text).dropLast

structure Buffers where
  id : List Char := []
  event : List Char := []
  data : List Char := []

/-- Other names are ignored, and so is an `id` with a null character. -/
def Buffers.field (b : Buffers) (name value : List Char) : Buffers :=
  if name = ['e', 'v', 'e', 'n', 't'] then { b with event := value }
  else if name = ['d', 'a', 't', 'a'] then { b with data := b.data ++ value ++ ['\n'] }
  else if name = ['i', 'd'] then if '\x00' ∈ value then b else { b with id := value }
  else b

/-- A line that starts with a colon is a comment; one space after the colon is dropped. -/
def Buffers.readLine (b : Buffers) (line : List Char) : Buffers :=
  if line.head? = some ':' then b
  else
    match cut ':' line with
    | none => b.field line []
    | some (name, value) => b.field name (if value.head? = some ' ' then value.tail else value)

/-- A blank line dispatches the message, unless it has no data. What no blank line ends is
not dispatched. -/
def messages : Buffers → List (List Char) → List Message
  | _, [] => []
  | b, line :: rest =>
      if line ≠ [] then messages (b.readLine line) rest
      else if b.data = [] then messages { b with event := [] } rest
      else
        { id := b.id
          event := if b.event = [] then ['m', 'e', 's', 's', 'a', 'g', 'e'] else b.event
          data := b.data.dropLast } :: messages { b with event := [], data := [] } rest

/-- One byte order mark may stand before a stream. -/
def parse (text : List Char) : List Message :=
  messages {} (lines (if text.head? = some '\ufeff' then text.tail else text))

/-! ## Frames -/

def fieldLine (name value : List Char) : List Char := name ++ ':' :: ' ' :: value

def frame (m : Message) : List Char :=
  fieldLine ['i', 'd'] m.id ++ '\n' :: (fieldLine ['e', 'v', 'e', 'n', 't'] m.event ++
    '\n' :: (fieldLine ['d', 'a', 't', 'a'] m.data ++ ['\n', '\n']))

/-- No character ends a line. -/
def OneLine (text : List Char) : Prop := ∀ c ∈ text, c ≠ '\n' ∧ c ≠ '\r'

instance (text : List Char) : Decidable (OneLine text) := List.decidableBAll _ text

/-- A message whose frame is read as the message. -/
structure Framed (m : Message) : Prop where
  id : OneLine m.id
  event : OneLine m.event
  data : OneLine m.data
  named : m.event ≠ []
  noNull : '\x00' ∉ m.id

section lines
variable {line : List Char}

theorem splitEnds_ne_nil (text : List Char) : splitEnds text ≠ [] := by
  unfold splitEnds
  split
  · simp
  · simp
  · split
    · simp
    · split <;> simp

theorem splitEnds_newline (rest : List Char) : splitEnds ('\n' :: rest) = [] :: splitEnds rest := by
  rw [splitEnds]
  · simp
  · rintro _ ⟨⟩

theorem splitEnds_cons {c : Char} (plain : c ≠ '\n' ∧ c ≠ '\r') {rest first : List Char}
    {more : List (List Char)} (shape : splitEnds rest = first :: more) :
    splitEnds (c :: rest) = (c :: first) :: more := by
  rw [splitEnds, if_neg (by simp [plain]), shape]
  intro rest' same
  exact absurd same plain.2

theorem splitEnds_line (plain : OneLine line) (rest : List Char) :
    splitEnds (line ++ '\n' :: rest) = line :: splitEnds rest := by
  induction line with
  | nil => exact splitEnds_newline rest
  | cons c line ih =>
      obtain ⟨first, plain⟩ := List.forall_mem_cons.mp plain
      exact splitEnds_cons first (ih plain)

theorem lines_line (plain : OneLine line) (rest : List Char) :
    lines (line ++ '\n' :: rest) = line :: lines rest := by
  rw [lines, splitEnds_line plain, List.dropLast_cons_of_ne_nil (splitEnds_ne_nil rest), lines]

end lines

section frames
variable {b : Buffers} {m : Message} {name value : List Char}

theorem readLine_field (absent : ':' ∉ name) (shown : name ≠ []) :
    b.readLine (fieldLine name value) = b.field name value := by
  obtain ⟨c, tail, rfl⟩ := List.exists_cons_of_ne_nil shown
  have first : c ≠ ':' := fun same => absent (same ▸ List.mem_cons_self)
  have comment : (fieldLine (c :: tail) value).head? ≠ some ':' := by simpa [fieldLine] using first
  rw [Buffers.readLine, if_neg comment, fieldLine, cut_append absent]
  rfl

theorem messages_field (absent : ':' ∉ name) (shown : name ≠ []) (more : List (List Char)) :
    messages b (fieldLine name value :: more) = messages (b.field name value) more := by
  rw [messages, if_pos (by simp [fieldLine]), readLine_field absent shown]

theorem oneLine_fieldLine (hn : OneLine name) (hv : OneLine value) : OneLine (fieldLine name value) := by
  intro c member
  simp only [fieldLine, List.mem_append, List.mem_cons] at member
  rcases member with named | rfl | rfl | inside
  · exact hn c named
  · decide
  · decide
  · exact hv c inside

theorem lines_frame (h : Framed m) (rest : List Char) : lines (frame m ++ rest) =
    fieldLine ['i', 'd'] m.id :: fieldLine ['e', 'v', 'e', 'n', 't'] m.event ::
      fieldLine ['d', 'a', 't', 'a'] m.data :: [] :: lines rest := by
  have shape : frame m ++ rest = fieldLine ['i', 'd'] m.id ++ '\n' ::
      (fieldLine ['e', 'v', 'e', 'n', 't'] m.event ++ '\n' ::
        (fieldLine ['d', 'a', 't', 'a'] m.data ++ '\n' :: ([] ++ '\n' :: rest))) := by
    simp only [frame, List.append_assoc, List.cons_append, List.nil_append]
  rw [shape, lines_line (oneLine_fieldLine (by decide) h.id),
    lines_line (oneLine_fieldLine (by decide) h.event),
    lines_line (oneLine_fieldLine (by decide) h.data), lines_line (by decide)]

theorem messages_frame (h : Framed m) (fresh : b.data = []) (rest : List Char) :
    messages b (lines (frame m ++ rest)) = m :: messages { id := m.id } (lines rest) := by
  have id : b.field ['i', 'd'] m.id = { b with id := m.id } := if_neg h.noNull
  have event : Buffers.field { b with id := m.id } ['e', 'v', 'e', 'n', 't'] m.event =
      { b with id := m.id, event := m.event } := rfl
  have data : Buffers.field { b with id := m.id, event := m.event } ['d', 'a', 't', 'a'] m.data =
      { id := m.id, event := m.event, data := m.data ++ ['\n'] } := by
    rw [Buffers.field, if_neg (by decide), if_pos rfl, fresh, List.nil_append]
  rw [lines_frame h, messages_field (by decide) (by decide), id, messages_field (by decide) (by decide), event,
    messages_field (by decide) (by decide), data]
  simp [messages, h.named]

/-- Reading resumes at each frame: the messages of the frames are the messages that were
framed. -/
theorem parse_frames {ms : List Message} (all : ∀ m ∈ ms, Framed m) : parse (ms.flatMap frame) = ms := by
  have each : ∀ b : Buffers, b.data = [] → messages b (lines (ms.flatMap frame)) = ms := by
    induction ms with
    | nil => intro b _; rfl
    | cons m ms ih =>
        intro b fresh
        obtain ⟨first, all⟩ := List.forall_mem_cons.mp all
        rw [List.flatMap_cons, messages_frame first fresh, ih all _ rfl]
  have unmarked : (ms.flatMap frame).head? ≠ some '\ufeff' := by
    cases ms with
    | nil => simp
    | cons m ms => simp [frame, fieldLine]
  rw [parse, if_neg unmarked, each _ rfl]

end frames
end Fleet.Lib.EventStream
