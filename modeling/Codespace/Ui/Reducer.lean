import Codespace.Ui.Sessions

/-!
# The reducer of the session table

The handler of `useSessions` for the messages of the stream, folded over any sequence of
them. A Session is what namespace and name together say, and the table's row keys are made
of both. The handler goes by the name alone: with all namespaces in view, a message about one
Session is applied to the first row of that name, or to all of them.
-/

namespace Codespace.Ui
set_option autoImplicit false
open Server Keyed

/-- `JSON.parse(m.data) as SessionEvent`. -/
abbrev SessionEvent := EventType × Session

/-- The update of the rows for a message. -/
def receive (rows : List Session) (ev : SessionEvent) : List Session := apply named rows (onMessage (.message ev.1 ev.2))

/-- The rows after some messages. -/
def received (rows : List Session) (events : List SessionEvent) : List Session := events.foldl receive rows

/-- What a message says of the Sessions: the object is there now, or it is gone. -/
def announce (sessions : Key → Option Session) (ev : SessionEvent) : Key → Option Session :=
  Function.update sessions ev.2.key (if ev.1 = .deleted then none else some ev.2)

/-- The latest object of every Session, where the rows were there before the messages. -/
def latest (rows : List Session) (events : List SessionEvent) : Key → Option Session :=
  events.foldl announce (row Session.key · rows)

/-- The rows are the Sessions, each once. -/
def Table (rows : List Session) (sessions : Key → Option Session) : Prop := Shows Session.key Eq rows sessions

/-- What the handler finds by the name is the message's own Session: the row that it replaces, or
the rows that it removes. -/
def FindsOwn (rows : List Session) (ev : SessionEvent) : Prop :=
  if ev.1 = .deleted then ∀ s ∈ rows, s.metadata.name = ev.2.metadata.name → s.key = ev.2.key
  else ∀ s, row named ev.2.metadata.name rows = some s → s.key = ev.2.key

/-! ## Messages as changes -/

def change (ev : SessionEvent) : Change Session := if ev.1 = .deleted then .drop ev.2 else .put ev.2

variable {rows : List Session} {ev : SessionEvent}

theorem receive_change : receive rows ev = apply named rows ((change ev).by named) := by
  simp only [receive, onMessage, change]
  split <;> rfl

theorem announce_change (sessions : Key → Option Session) :
    announce sessions ev = ((change ev).by Session.key).settle Session.key sessions := by
  unfold announce change
  split <;> rfl

theorem received_changes (events : List SessionEvent) : received rows events = relabelled named rows (events.map change) := by
  rw [received, relabelled, replay, List.map_map, List.foldl_map]
  exact congrArg (fun f => List.foldl f rows events) (funext₂ fun _ _ => receive_change)

theorem latest_changes (events : List SessionEvent) : latest rows events = settled Session.key rows (events.map change) := by
  rw [latest, settled, List.foldl_map]
  exact congrArg (fun f => List.foldl f _ events) (funext₂ fun _ _ => announce_change _)

theorem findsOwn_change : FindsOwn rows ev ↔ Own named Session.key rows (change ev) := by
  unfold FindsOwn change
  split <;> rfl

theorem name_of_key (s t : Session) (same : s.key = t.key) : named s = named t := congrArg Key.name same

/-- What each message that is delivered leaves, where it finds its own row. -/
theorem receive_own {rows : List Session} {ev : SessionEvent} (distinct : (rows.map Session.key).Nodup)
    (finds : FindsOwn rows ev) : Table (receive rows ev) (announce (row Session.key · rows) ev) := by
  rw [receive_change, announce_change, apply_own name_of_key (findsOwn_change.1 finds)]
  exact (shows_self distinct).apply _

theorem table_of_finds (distinct : (rows.map Session.key).Nodup) {events : List SessionEvent}
    (finds : ∀ p ev, p ++ [ev] <+: events → FindsOwn (received rows p) ev) :
    Table (received rows events) (latest rows events) := by
  simp only [received_changes, findsOwn_change] at finds
  rw [Table, received_changes, latest_changes]
  exact (relabelled_shows_iff change name_of_key distinct events).2 finds events (List.prefix_refl events)

/-! ## One namespace -/

theorem mem_receive {s : Session} (mem : s ∈ receive rows ev) : s ∈ rows ∨ s = ev.2 := by
  rw [receive_change] at mem
  unfold change at mem
  split at mem
  · exact .inl (List.mem_filter.1 mem).1
  · simp only [Change.by, apply, put] at mem
    split at mem
    · exact (List.mem_cons.1 mem).symm
    · exact List.mem_or_eq_of_mem_set mem

theorem mem_received {s : Session} {events : List SessionEvent} (mem : s ∈ received rows events) :
    s ∈ rows ∨ s ∈ events.map Prod.snd := by
  induction events generalizing rows with
  | nil => exact .inl mem
  | cons ev events ih =>
    rcases ih mem with first | later
    · rcases mem_receive first with old | rfl
      · exact .inl old
      · exact .inr List.mem_cons_self
    · exact .inr (List.mem_cons_of_mem _ later)

/-- With one namespace in view the table is right. -/
theorem reducer_namespace {ns : String} (distinct : (rows.map Session.key).Nodup) (within : ∀ s ∈ rows, s.metadata.ns = ns)
    {events : List SessionEvent} (about : ∀ ev ∈ events, ev.2.metadata.ns = ns) :
    Table (received rows events) (latest rows events) := by
  refine table_of_finds distinct fun p ev part => ?_
  have here : ev.2.metadata.ns = ns := about ev (part.mem (by simp))
  have found : ∀ s ∈ received rows p, s.metadata.ns = ns := by
    intro s mem
    rcases mem_received mem with old | told
    · exact within s old
    · obtain ⟨ev', sent, rfl⟩ := List.mem_map.1 told
      exact about ev' (part.mem (List.mem_append_left _ sent))
  have own : ∀ s ∈ received rows p, s.metadata.name = ev.2.metadata.name → s.key = ev.2.key := fun s mem same =>
    congrArg₂ Key.mk ((found s mem).trans here.symm) same
  unfold FindsOwn
  split
  · exact own
  · exact fun s first => own s (List.mem_of_find?_eq_some first) (of_decide_eq_true (List.find?_some first :))

/-! ## All namespaces -/

/-- **Main result.** The table is the map from Sessions to latest objects, after every message,
exactly if at every message the name leads to the message's own Session. -/
theorem reducer_iff (distinct : (rows.map Session.key).Nodup) (events : List SessionEvent) :
    (∀ p, p <+: events → Table (received rows p) (latest rows p)) ↔
      ∀ p ev, p ++ [ev] <+: events → FindsOwn (received rows p) ev := by
  simp only [Table, received_changes, latest_changes, findsOwn_change]
  exact relabelled_shows_iff change name_of_key distinct events

/-- The Session `x` of a namespace. -/
def called (ns : String) : Session := .plain ⟨ns, "x"⟩ 1 SessionSpec.plain

/-- A message about the first of two rows of a name. -/
theorem reducer_modified : Table (received [called "a", called "b"] [(.modified, called "a")])
    (latest [called "a", called "b"] [(.modified, called "a")]) := by
  refine (reducer_iff (by decide) _).2 (fun p ev part => ?_) _ (List.prefix_refl _)
  obtain ⟨rfl, rfl⟩ : p = [] ∧ ev = (.modified, called "a") := by
    cases p with
    | nil => simpa using part
    | cons _ p => simpa using part.length_le
  rintro s ⟨⟩
  rfl

/-- A message that `a/x` is gone removes `b/x` too. -/
theorem other_namespace_lost : ¬ ∀ (rows : List Session) (events : List SessionEvent), (rows.map Session.key).Nodup →
    Table (received rows events) (latest rows events) := by
  intro claim
  have table := claim [called "a", called "b"] [(.deleted, called "a")] (by decide)
  have lost := table.eq ⟨"b", "x"⟩
  have stored : latest [called "a", called "b"] [(.deleted, called "a")] ⟨"b", "x"⟩ = some (called "b") := by
    rfl
  rw [stored] at lost
  cases lost

end Codespace.Ui
