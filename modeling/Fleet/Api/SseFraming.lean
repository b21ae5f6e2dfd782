/- What a client of the event stream reads, whatever the events hold. -/
import Fleet.Api.Outcomes
import Fleet.Api.Sse
import Fleet.Lib.EventStream
import Fleet.Lib.JsonRoundtrip

namespace Fleet.Api
open Fleet.Lib

def Storable (eventType : String) : Prop :=
  ∃ (env : Env) (s : Store) (op : Op), ∃ e ∈ (op.exec env s).2.events.rows,
    e ∉ s.events.rows ∧ e.eventType = eventType

structure SseEvent where
  sequence : Int
  eventType : String
  data : Dict
  storable : Storable eventType
  proper : Json.Proper (.obj data)

namespace SseEvent

def text (e : SseEvent) : String := formatSseEvent e.eventType e.data e.sequence

/-- The number and the type as they are, and a text of the data. -/
structure Carried (e : SseEvent) (m : EventStream.Message) : Prop where
  id : String.ofList m.id = toString e.sequence
  event : String.ofList m.event = e.eventType
  data : ∃ v, Json.parse (String.ofList m.data) = some v ∧ Json.Same (.obj e.data) v

end SseEvent

/-! ## The types of events -/

def storedTypes : List String :=
  "created" :: "pause_requested" :: "resume_requested" :: validEventTypes

theorem Announces.stored {e : TaskEvent} {task : Task} (h : Announces e task) : e.eventType ∈ storedTypes := by
  have all : ∀ t ∈ ["status", "pause_requested", "resume_requested"], t ∈ storedTypes := by decide
  exact all _ h.type

theorem added_stored {env : Env} {s s' : Store} {op : Op} {answer : Except Failure Answer}
    (outcome : Outcome env s op answer s') :
    ∀ e ∈ s'.events.rows, e ∉ s.events.rows → e.eventType ∈ storedTypes := by
  intro e member fresh
  have added : ∀ {w : Work}, Store.flush w s = .ok s' → e ∈ w.newEvents := by
    intro w committed
    obtain ⟨_, -, -, -, -, rows⟩ := Store.flush_ok committed
    rw [rows, List.mem_append] at member
    exact member.resolve_left fresh
  cases outcome with
  | refused | createReplayed | retaskReplayed | redirectReplayed => exact absurd member fresh
  | created _ _ _ _ _ _ _ _ committed =>
      rw [List.mem_singleton.mp (added committed)]
      exact List.mem_cons_self
  | retasked _ _ _ _ _ _ _ _ _ _ _ _ _ announces first committed
  | redirected _ _ _ _ _ _ _ _ _ _ _ _ _ announces first committed =>
      obtain ⟨caller, link, rfl⟩ := first
      rcases List.mem_pair.mp (added committed) with rfl | rfl
      · exact announces.stored
      · exact List.mem_cons_self
  | cancelled _ _ _ _ _ _ _ _ _ _ announces committed | paused _ _ _ _ _ _ _ _ _ _ announces committed
  | resumed _ _ _ _ _ _ _ _ _ _ _ _ announces committed
  | expired _ _ _ _ _ _ _ _ _ _ _ _ announces committed =>
      rw [List.mem_singleton.mp (added committed)]
      exact announces.stored
  | injected _ _ _ _ _ _ _ _ committed =>
      rw [List.mem_singleton.mp (added committed)]
      exact show "context_injected" ∈ storedTypes by decide
  | recorded _ _ _ _ _ known _ _ _ _ committed =>
      rw [List.mem_singleton.mp (added committed)]
      exact List.mem_cons_of_mem _ (List.mem_cons_of_mem _ (List.mem_cons_of_mem _ known))

theorem storable_storedTypes {eventType : String} (h : Storable eventType) : eventType ∈ storedTypes := by
  obtain ⟨env, s, op, e, member, fresh, rfl⟩ := h
  exact added_stored (op.exec_outcome env s) e member fresh

/-! ## Frames -/

theorem toList_repr (n : Int) : n.repr.toList = Decimal.intText n := by
  cases n with
  | ofNat n =>
      change (Nat.repr n).toList = _
      rw [Nat.toList_repr, Decimal.intText, if_neg (by simp)]
      rfl
  | negSucc n =>
      change ("-" ++ Nat.repr (n + 1)).toList = _
      rw [String.toList_append, Nat.toList_repr, Decimal.intText, if_pos (Int.negSucc_lt_zero n)]
      rfl

theorem oneLine_printable {text : List Char} (all : ∀ c ∈ text, Json.Printable c) : EventStream.OneLine text := by
  intro c member
  have range := all c member
  constructor
  · rintro rfl
    exact absurd range (by decide)
  · rintro rfl
    exact absurd range (by decide)

namespace SseEvent

def message (e : SseEvent) : EventStream.Message where
  id := Decimal.intText e.sequence
  event := e.eventType.toList
  data := Json.plain (.obj e.data)

theorem framed (e : SseEvent) : EventStream.Framed e.message where
  id := oneLine_printable fun c member => Json.printable_numeric (Decimal.intText_chars _ c member).1
  event := by
    have all : ∀ t ∈ storedTypes, EventStream.OneLine t.toList := by decide +kernel
    exact all _ (storable_storedTypes e.storable)
  data := oneLine_printable e.proper.printable
  named := by
    have all : ∀ t ∈ storedTypes, t.toList ≠ [] := by decide +kernel
    exact all _ (storable_storedTypes e.storable)
  noNull := fun member => by
    have range := Json.printable_numeric (Decimal.intText_chars _ _ member).1
    exact absurd range (by decide)

theorem text_frame (e : SseEvent) : e.text.toList = EventStream.frame e.message := by
  change ("id: " ++ toString e.sequence ++ "\nevent: " ++ e.eventType ++ "\ndata: " ++
    Json.dumpsPlain (.obj e.data) ++ "\n\n").toList = _
  simp [Json.dumpsPlain, toList_repr, message, EventStream.frame, EventStream.fieldLine]

theorem carried (e : SseEvent) : e.Carried e.message where
  id := by
    rw [message, ← toList_repr, String.ofList_toList]
    rfl
  event := String.ofList_toList
  data := Json.parse_dumpsPlain e.proper

end SseEvent

/-- Read by the rules of the format, the stream of any events gives these events, in their
order and each with its data, and no others. -/
theorem stream_carries (es : List SseEvent) :
    List.Forall₂ SseEvent.Carried es (EventStream.parse (es.flatMap fun e => e.text.toList)) := by
  have frames : (es.flatMap fun e => e.text.toList) = (es.map SseEvent.message).flatMap EventStream.frame := by
    rw [List.flatMap_map]
    exact congrArg es.flatMap (funext SseEvent.text_frame)
  have framed : ∀ m ∈ es.map SseEvent.message, EventStream.Framed m := by
    intro m member
    obtain ⟨e, -, rfl⟩ := List.mem_map.mp member
    exact e.framed
  rw [frames, EventStream.parse_frames framed, List.forall₂_map_right_iff]
  exact List.forall₂_same.mpr fun e _ => e.carried

namespace Demo

/-- The data tries to end its event and to start another. -/
def forging : EventRequest where
  taskId := "task-a"
  eventType := "log"
  data := [("message", .str "x\n\nid: 9\nevent: completed\ndata: \x7b\x7d\r\r")]
  sequence := 3
  executorAgentId := "executor"

def forged : SseEvent where
  sequence := forging.sequence
  eventType := forging.eventType
  data := forging.data
  storable := ⟨env, runSteps env running store, .processSidecarEvent (at' 2) forging, sidecarEvent (at' 2) forging,
    by decide +kernel, by decide +kernel, rfl⟩
  proper := .obj _ (by decide) fun p member => by
    rw [List.mem_singleton.mp member]
    exact .str _

end Demo

example : (EventStream.parse Demo.forged.text.toList).map (fun m => (String.ofList m.id, String.ofList m.event)) =
    [("3", "log")] := by decide +kernel

end Fleet.Api
