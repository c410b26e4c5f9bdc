import Codespace.Server.Stream
import Codespace.Go.Marshal
import Codespace.Text.EventStream

/-!
# The frames of the event stream

`writeSSE` writes an event as a line with its name, a line with its payload as JSON and an
empty line. It does not look into either: an event name with a line end would break the
frame. A payload cannot, as its text has no control characters.
-/

namespace Codespace.Server
set_option autoImplicit false
open Go Text Text.Json

/-- The body of a response with an event written behind it. -/
def writeSSE (body : ByteArray) (event : String) (v : Value) : ByteArray :=
  let body := body ++ ("event: " ++ event ++ "\n").toByteArray
  let b := Marshal v
  body ++ ("data: " ++ b ++ "\n\n").toByteArray

/-- The events of a stream, written one after the other. -/
def streamBody (events : List (String × Value)) : ByteArray :=
  events.foldl (fun body ev => writeSSE body ev.1 ev.2) .empty

/-- A name that an event can be written with. -/
def Named (event : String) : Prop := event ≠ "" ∧ EventStream.Unbroken event

instance (event : String) : Decidable (Named event) := inferInstanceAs (Decidable (_ ∧ _))

section

variable {events : List (String × Value)} {event : String} {v : Value}

theorem marshal_unbroken (v : Value) : EventStream.Unbroken (Marshal v) := by
  intro c mem
  rw [Marshal, String.toList_ofList] at mem
  have visible := encode_visible v c mem
  rw [EventStream.isLineEnd, Bool.or_eq_false_iff, decide_eq_false_iff_not, decide_eq_false_iff_not]
  constructor
  all_goals
    rintro rfl
    revert visible
    decide

theorem writeSSE_eq (body : ByteArray) (event : String) (v : Value) :
    writeSSE body event v = body ++ (EventStream.frame event (Marshal v)).toByteArray := by
  rw [writeSSE, EventStream.frame, ByteArray.append_assoc, ← String.toByteArray_append]

/-- The events as the pieces of text that are framed. -/
def pieces (events : List (String × Value)) : List (String × String) :=
  events.map fun ev => (ev.1, Marshal ev.2)

theorem streamBody_eq (events : List (String × Value)) :
    streamBody events = (EventStream.stream (pieces events)).toByteArray := by
  have behind : ∀ body : ByteArray, events.foldl (fun body ev => writeSSE body ev.1 ev.2) body =
      body ++ (EventStream.stream (pieces events)).toByteArray := by
    induction events with
    | nil => exact fun body => (ByteArray.append_empty).symm
    | cons ev events ih =>
      intro body
      rw [List.foldl_cons, ih, writeSSE_eq, ByteArray.append_assoc, ← String.toByteArray_append]
      rfl
  rw [streamBody, behind, ByteArray.empty_append]

theorem pieces_clean (named : ∀ ev ∈ events, Named ev.1) : ∀ f ∈ pieces events, EventStream.Clean f := by
  refine List.forall_mem_map.2 fun ev mem => ?_
  obtain ⟨some_, unbroken⟩ := named ev mem
  exact ⟨some_, unbroken, marshal_unbroken ev.2⟩

/-- A stream that was cut within a frame is read up to the frame. -/
theorem read_cut_off (named : ∀ ev ∈ events, Named ev.1) (name : Named event) {w w' : String}
    (cut : writeSSE .empty event v = (w ++ w').toByteArray) (short : w' ≠ "") :
    EventStream.read (streamBody events ++ w.toByteArray) =
      some (events.map fun ev => ⟨ev.1, Marshal ev.2, ""⟩) := by
  rw [writeSSE_eq, ByteArray.empty_append, String.toByteArray_inj] at cut
  rw [streamBody_eq, ← String.toByteArray_append]
  rw [EventStream.read_stream (pieces_clean named) ⟨name.1, name.2, marshal_unbroken v⟩ cut short]
  rw [pieces, List.map_map]
  rfl

theorem read_streamBody (named : ∀ ev ∈ events, Named ev.1) :
    EventStream.read (streamBody events) = some (events.map fun ev => ⟨ev.1, Marshal ev.2, ""⟩) := by
  -- the stream is itself a cut, before anything of a next frame
  have cut : writeSSE .empty "e" .null = ("" ++ EventStream.frame "e" (Marshal .null)).toByteArray := by
    rw [writeSSE_eq, ByteArray.empty_append, String.empty_append]
  have whole := read_cut_off named (by decide) cut (by decide)
  rwa [String.toByteArray_empty, ByteArray.append_empty] at whole

/-- What is written with `writeSSE` is read event by event, in order, each with its name and
its payload. A part of a further event adds nothing. -/
theorem stream_framing (named : ∀ ev ∈ events, Named ev.1) :
    (∃ got, EventStream.read (streamBody events) = some got ∧
      got.map (fun e => (e.type, Json.parse e.data)) = events.map fun ev => (ev.1, some ev.2)) ∧
    ∀ event v w w', Named event → writeSSE .empty event v = (w ++ w').toByteArray → w' ≠ "" →
      EventStream.read (streamBody events ++ w.toByteArray) = EventStream.read (streamBody events) := by
  refine ⟨⟨_, read_streamBody named, ?_⟩, ?_⟩
  · rw [List.map_map]
    refine List.map_congr_left fun ev _ => ?_
    rw [Function.comp_apply, parse_marshal]
  · intro event v w w' name cut short
    rw [read_cut_off named name cut short, read_streamBody named]

/-- Two events, the first with line ends and the text of a frame in its payload. -/
def injected : List (String × Value) :=
  [("message", .object [("a", .string "\r\n\nevent: x\ndata: 1\n\n")]), ("ping", .array [.null, .string "\n\n"])]

theorem stream_framing_injected :
    (∃ got, EventStream.read (streamBody injected) = some got ∧
      got.map (fun e => (e.type, Json.parse e.data)) = injected.map fun ev => (ev.1, some ev.2)) ∧
    ∀ event v w w', Named event → writeSSE .empty event v = (w ++ w').toByteArray → w' ≠ "" →
      EventStream.read (streamBody injected ++ w.toByteArray) = EventStream.read (streamBody injected) :=
  stream_framing (by decide)

end

/-! ## What the stream of Sessions sends -/

def EventType.text : EventType → String
  | .added => "ADDED"
  | .modified => "MODIFIED"
  | .deleted => "DELETED"
  | .bookmark => "BOOKMARK"
  | .error => "ERROR"

/-- What was written before the stream ended. -/
def StreamResponse.sent : StreamResponse → List Sse
  | .refused _ => []
  | .stream greeting turns => greeting :: turns.flatten

/-- What `es.onmessage` is called for. -/
def Sse.isMessage : Sse → Bool
  | .ping _ _ => false
  | .message _ _ => true

section

variable (encodeSession : Session → Value)

/-- The arguments of `writeSSE`; the members of a map are written in the order of its keys. -/
def Sse.event : Sse → String × Value
  | .ping key value => ("ping", .object [(key, .string value)])
  | .message type object => ("message", .object [("object", encodeSession object), ("type", .string type.text)])

/-- A page that listens for messages hears all that the stream tells of Sessions, in order, and
nothing else. -/
theorem heard_of_sent (resp : StreamResponse) :
    ∃ got, EventStream.read (streamBody (resp.sent.map (Sse.event encodeSession))) = some got ∧
      (got.filter (·.type = "message")).map (fun e => Json.parse e.data) =
        (resp.sent.filter Sse.isMessage).map fun sse => some (sse.event encodeSession).2 := by
  have named : ∀ ev ∈ resp.sent.map (Sse.event encodeSession), Named ev.1 := by
    refine List.forall_mem_map.2 fun sse _ => ?_
    cases sse with
    | ping key value => exact (by decide : Named "ping")
    | message type object => exact (by decide : Named "message")
  refine ⟨_, read_streamBody named, ?_⟩
  induction resp.sent with
  | nil => rfl
  | cons sse rest ih =>
    rw [List.map_cons, List.map_cons, List.filter_cons, List.filter_cons]
    cases sse with
    | ping key value => exact ih
    | message type object =>
      rw [if_pos (by rfl), if_pos (by rfl), List.map_cons, List.map_cons, ih, parse_marshal]

end

end Codespace.Server
