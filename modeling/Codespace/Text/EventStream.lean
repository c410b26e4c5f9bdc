import Mathlib.Data.List.Basic

/-!
# Event streams

How an `EventSource` reads `text/event-stream`: the bytes are UTF-8, a leading byte order
mark is dropped, and lines end with CR, LF or both. A line is a field with its value behind
a colon, of which one space is stripped; fields fill the reader's buffers, and an empty line
dispatches an event, if there is data. What follows the last line end is not read.

A writer that frames each event (`frame`) is read back event by event, if what it frames is
free of line ends (`read_stream`).
-/

namespace Text.EventStream
set_option autoImplicit false

structure Event where
  type : String
  data : String
  lastEventId : String
  deriving DecidableEq, Repr

/-- The reader's buffers. -/
structure Reader where
  data : List Char := []
  type : List Char := []
  lastEventId : List Char := []

def isLineEnd (c : Char) : Bool := c = '\r' || c = '\n'

def lines : List Char → List (List Char)
  | [] => []
  | '\r' :: '\n' :: rest => [] :: lines rest
  | c :: rest =>
    if isLineEnd c then [] :: lines rest
    else match lines rest with
    | [] => []
    | line :: more => (c :: line) :: more

namespace Reader

/-- A field and its value. `retry` only sets how long to wait before connecting again. -/
def field (r : Reader) (name value : List Char) : Reader :=
  if name = "event".toList then { r with type := value }
  else if name = "data".toList then { r with data := r.data ++ value ++ ['\n'] }
  else if name = "id".toList then if '\x00' ∈ value then r else { r with lastEventId := value }
  else r

/-- An empty line. The line end behind the last line of data is not part of it. -/
def dispatch (r : Reader) : Reader × Option Event :=
  let idle : Reader := { r with data := [], type := [] }
  if r.data = [] then (idle, none)
  else
    let type := if r.type = [] then "message" else .ofList r.type
    (idle, some ⟨type, .ofList r.data.dropLast, .ofList r.lastEventId⟩)

/-- A line; one that starts with a colon is a comment, a field without a name. -/
def line (r : Reader) (text : List Char) : Reader × Option Event :=
  if text = [] then r.dispatch
  else
    let value := (text.dropWhile (· ≠ ':')).tail
    let value := if value.head? = some ' ' then value.tail else value
    (r.field (text.takeWhile (· ≠ ':')) value, none)

/-- The events that are dispatched on the way. -/
def read (r : Reader) : List (List Char) → List Event
  | [] => []
  | text :: more => (r.line text).2.toList ++ read (r.line text).1 more

end Reader

/-- The events of a stream; none, if its bytes are not UTF-8. -/
def read (bytes : ByteArray) : Option (List Event) :=
  (String.fromUTF8? bytes).map fun text =>
    ({} : Reader).read (lines (if text.toList.head? = some '\uFEFF' then text.toList.tail else text.toList))

/-! ## Framed events -/

/-- An event as a frame of its own. -/
def frame (type data : String) : String := "event: " ++ type ++ "\n" ++ ("data: " ++ data ++ "\n\n")

/-- There is no line end in a text. -/
def Unbroken (text : String) : Prop := ∀ c ∈ text.toList, isLineEnd c = false

instance (text : String) : Decidable (Unbroken text) := List.decidableBAll _ _

variable {type data : String} {rest : List Char}

theorem Unbroken.append {text text' : String} (h : Unbroken text) (h' : Unbroken text') :
    Unbroken (text ++ text') := by
  intro c mem
  rw [String.toList_append, List.mem_append] at mem
  exact mem.elim (h c) (h' c)

theorem lines_cons {c : Char} (plain : isLineEnd c = false) : lines (c :: rest) =
    match lines rest with
    | [] => []
    | line :: more => (c :: line) :: more := by
  have noReturn : c ≠ '\r' := by
    rintro rfl
    cases plain
  rw [lines.eq_3 _ _ fun _ eq => (noReturn eq).elim, plain]
  rfl

theorem lines_line {text : List Char} (unbroken : ∀ c ∈ text, isLineEnd c = false) :
    lines (text ++ '\n' :: rest) = text :: lines rest := by
  induction text with
  | nil => simp [lines, isLineEnd]
  | cons c text ih =>
    rw [List.cons_append, lines_cons (unbroken c List.mem_cons_self)]
    rw [ih fun c' mem => unbroken c' (List.mem_cons_of_mem c mem)]

/-- A line that is not ended is not read. -/
theorem lines_unended {text : List Char} (unbroken : ∀ c ∈ text, isLineEnd c = false) : lines text = [] := by
  induction text with
  | nil => rfl
  | cons c text ih =>
    rw [lines_cons (unbroken c List.mem_cons_self)]
    rw [ih fun c' mem => unbroken c' (List.mem_cons_of_mem c mem)]

/-- The first part of a text is cut within the first line, or it goes beyond its end. -/
theorem lines_cut {text w w' : List Char} (unbroken : ∀ c ∈ text, isLineEnd c = false)
    (cut : text ++ '\n' :: rest = w ++ w') :
    lines w = [] ∨ ∃ u, rest = u ++ w' ∧ lines w = text :: lines u := by
  rcases List.append_eq_append_iff.1 cut with ⟨u, rfl, eq⟩ | ⟨u, rfl, -⟩
  · cases u with
    | nil => exact .inl (by rw [List.append_nil, lines_unended unbroken])
    | cons c u =>
      obtain ⟨rfl, rfl⟩ := List.cons.inj eq
      exact .inr ⟨u, rfl, lines_line unbroken⟩
  · exact .inl (lines_unended fun c mem => unbroken c (List.mem_append_left u mem))

/-- A field that is written with one space behind the colon. -/
theorem Reader.line_field (r : Reader) (name value : List Char) (colon : ':' ∉ name) :
    r.line (name ++ ':' :: ' ' :: value) = (r.field name value, none) := by
  have all : ∀ c ∈ name, decide (c ≠ ':') = true := fun c mem =>
    decide_eq_true fun eq => colon (eq ▸ mem)
  unfold Reader.line
  rw [if_neg (by simp), List.takeWhile_append_of_pos all, List.dropWhile_append_of_pos all]
  simp

theorem Reader.line_event (r : Reader) (type : String) :
    r.line ("event: " ++ type).toList = ({ r with type := type.toList }, none) := by
  rw [String.toList_append]
  exact r.line_field "event".toList type.toList (by decide)

theorem Reader.line_data (r : Reader) (data : String) :
    r.line ("data: " ++ data).toList = ({ r with data := r.data ++ data.toList ++ ['\n'] }, none) := by
  rw [String.toList_append]
  exact r.line_field "data".toList data.toList (by decide)

/-- The lines of a frame. -/
theorem frame_toList : (frame type data).toList ++ rest = ("event: " ++ type).toList ++
    '\n' :: (("data: " ++ data).toList ++ '\n' :: ('\n' :: rest)) := by
  simp [frame]

section

variable (named : Unbroken type) (plain : Unbroken data)
include named plain

theorem lines_frame : lines ((frame type data).toList ++ rest) =
    ("event: " ++ type).toList :: ("data: " ++ data).toList :: [] :: lines rest := by
  have first : Unbroken ("event: " ++ type) := .append (by decide) named
  have second : Unbroken ("data: " ++ data) := .append (by decide) plain
  have last : lines ('\n' :: rest) = [] :: lines rest := lines_line fun _ mem => absurd mem List.not_mem_nil
  rw [frame_toList, lines_line first, lines_line second, last]

/-- A frame is one event, and the reader is idle before and after it. -/
theorem Reader.read_frame (type_ne : type ≠ "") :
    ({} : Reader).read (lines ((frame type data).toList ++ rest)) =
      ⟨type, data, ""⟩ :: ({} : Reader).read (lines rest) := by
  have someType : type.toList ≠ [] := fun eq => type_ne (String.toList_eq_nil_iff.1 eq)
  rw [lines_frame named plain, read, read, read, line_event, line_data]
  simp [line, dispatch, someType]

/-- Of a frame that is cut short nothing is dispatched. -/
theorem Reader.read_cut {w w' : List Char} (cut : (frame type data).toList = w ++ w') (short : w' ≠ []) :
    ({} : Reader).read (lines w) = [] := by
  have first : Unbroken ("event: " ++ type) := .append (by decide) named
  have second : Unbroken ("data: " ++ data) := .append (by decide) plain
  rw [← List.append_nil (frame type data).toList, frame_toList] at cut
  rcases lines_cut first cut with unended | ⟨u, cut', eq⟩
  · rw [unended, read]
  rw [eq, read, line_event]
  rcases lines_cut second cut' with unended | ⟨v, cut'', eq'⟩
  · rw [unended, read]
    rfl
  -- only the empty line is missing
  obtain ⟨rfl, -⟩ | ⟨rfl, rfl⟩ := List.singleton_eq_append_iff.1 cut''
  · rw [eq', read, line_data]
    rfl
  · exact absurd rfl short

end

/-- The frames of a stream one after the other. -/
def stream (frames : List (String × String)) : String :=
  frames.foldr (fun f text => frame f.1 f.2 ++ text) ""

/-- What can be framed: an event with a type, and no line ends. -/
def Clean (f : String × String) : Prop := f.1 ≠ "" ∧ Unbroken f.1 ∧ Unbroken f.2

theorem Reader.read_stream {frames : List (String × String)} (clean : ∀ f ∈ frames, Clean f) :
    ({} : Reader).read (lines ((stream frames).toList ++ rest)) =
      frames.map (fun f => ⟨f.1, f.2, ""⟩) ++ ({} : Reader).read (lines rest) := by
  induction frames with
  | nil => rfl
  | cons f frames ih =>
    obtain ⟨named, unbroken, plain⟩ := clean f List.mem_cons_self
    rw [stream, List.foldr_cons, String.toList_append, List.append_assoc]
    rw [read_frame unbroken plain named, List.map_cons, List.cons_append]
    rw [← stream, ih fun f' mem => clean f' (List.mem_cons_of_mem f mem)]

/-- A text in UTF-8 is read line by line. -/
theorem read_text {text : String} (noMark : text.toList.head? ≠ some '\uFEFF') :
    read text.toByteArray = some (({} : Reader).read (lines text.toList)) := by
  have decoded : String.fromUTF8? text.toByteArray = some text := by
    rw [String.fromUTF8?, dif_pos text.isValidUTF8]
    rfl
  rw [read, decoded, Option.map_some, if_neg noMark]

/-- Neither a stream of frames nor a part of a frame starts with a byte order mark. -/
theorem head_stream (frames : List (String × String)) {w w' : String} (cut : frame type data = w ++ w') :
    (stream frames ++ w).toList.head? ≠ some '\uFEFF' := by
  cases frames with
  | nil =>
    have start : (w ++ w').toList.head? = some 'e' := by
      rw [← cut]
      simp [frame]
    rw [String.toList_append] at start ⊢
    cases eq : w.toList with
    | nil => simp [stream]
    | cons c cs =>
      rw [eq] at start
      cases start
      simp [stream]
  | cons f frames => simp [stream, frame]

/-- The bytes of a stream of frames, and of a part of one more, are read as the events of the
frames that are complete. -/
theorem read_stream {frames : List (String × String)} (clean : ∀ f ∈ frames, Clean f)
    (next : Clean (type, data)) {w w' : String} (cut : frame type data = w ++ w') (short : w' ≠ "") :
    read (stream frames ++ w).toByteArray = some (frames.map fun f => ⟨f.1, f.2, ""⟩) := by
  have nothing : ({} : Reader).read (lines w.toList) = [] :=
    Reader.read_cut next.2.1 next.2.2 (by rw [cut, String.toList_append])
      fun eq => short (String.toList_eq_nil_iff.1 eq)
  rw [read_text (head_stream frames cut), String.toList_append, Reader.read_stream clean, nothing, List.append_nil]

end Text.EventStream
