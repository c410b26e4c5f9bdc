import Codespace.Server.Mediation

/-!
# The event stream

`handleStreamSessions`. The stream asks Enforce for `watch` once, when it is opened, on one
domain. Its loop then turns signals into server-sent events; only with `all=true` does it
ask again, for each event, and it asks for `list`. What the policy forbids to watch by then
is therefore delivered where it allows to list, or where only one namespace is watched.

Each turn of the loop has the policy then in force as an input: it may be reloaded at any time.
-/

namespace Codespace.Server
set_option autoImplicit false
open Interact Versioned

/-! ## What the stream reads and writes -/

inductive EventType where
  | added
  | modified
  | deleted
  | bookmark
  | error
  deriving DecidableEq, Repr

/-- The object of a watch event: a Session, an unstructured object that is none, or neither. -/
inductive EventObject where
  | session (s : Session)
  | unconvertible
  | other
  deriving DecidableEq

structure WatchEvent where
  type : EventType
  object : EventObject
  deriving DecidableEq

/-- The channel that a turn of the loop receives from. -/
inductive Signal where
  | done
  | tick (now : String)
  | closed
  | event (ev : WatchEvent)
  deriving DecidableEq

/-- A server-sent event. -/
inductive Sse where
  | ping (key value : String)
  | message (type : EventType) (object : Session)
  deriving DecidableEq

/-- What the handler finds: whether its writer can flush, whether the watch could be started,
and what is received while it is open, each with the policy in force then. -/
structure Connection where
  canFlush : Bool
  watchErr : Option String
  moments : List (Enforce × Signal)

/-- What was sent: a response, or the first ping and then the events of each turn. -/
inductive StreamResponse where
  | refused (resp : HttpResp)
  | stream (greeting : Sse) (turns : List (List Sse))
  deriving DecidableEq

/-! ## The handler -/

section

variable (d : ServerDeps)

/-- A Session as it is streamed. -/
def enrichStreamed (idx : GoMap String AnchorMeta) (s : Session) : Session :=
  if !d.clusterScope then s
  else match idx.lookup (s.metadata.labels.index d.common.instanceIDLabel) with
  | none => s
  | some anchor =>
    let labels : GoMap String String := s.metadata.labels
    let labels : GoMap String String := if labels.index d.common.labelManagerType = "" then
      labels.insert d.common.labelManagerType anchor.type else labels
    let labels : GoMap String String := if labels.index d.common.labelManagerNamespace = "" then
      labels.insert d.common.labelManagerNamespace anchor.ns else labels
    s.withLabels (ensureLabel d.common.labelManagerName anchor.name labels)

/-- What is written for a watch event. -/
def streamEvent (r : Request) (pr : Claims) (idx : GoMap String AnchorMeta) (policy : Enforce)
    (ev : WatchEvent) : List Sse :=
  if ev.type = .error then []
  else match ev.object with
  | .session s =>
    if allNamespaces r && !granted (policy pr.sub pr.roles "session" "list" s.metadata.ns) then []
    else [.message ev.type (enrichStreamed d idx s)]
  | _ => []

/-- One turn of the loop: what is written, or none if the handler returns. -/
def streamTurn (r : Request) (pr : Claims) (idx : GoMap String AnchorMeta) (policy : Enforce) :
    Signal → Option (List Sse)
  | .done => none
  | .closed => none
  | .tick now => some [.ping "timestamp" now]
  | .event ev => some (streamEvent d r pr idx policy ev)

def streamLoop (r : Request) (pr : Claims) (idx : GoMap String AnchorMeta) :
    List (Enforce × Signal) → List (List Sse)
  | [] => []
  | (policy, signal) :: moments =>
    match streamTurn d r pr idx policy signal with
    | none => []
    | some written => written :: streamLoop r pr idx moments

def streamDomain (r : Request) : String := if allNamespaces r then "*" else q r "namespace" "default"

/-- The handler behind the gate. -/
def openStream (r : Request) (pr : Claims) (conn : Connection) : Api StreamResponse :=
  if !conn.canFlush then return .refused (httpError "streaming not supported" 500)
  else match conn.watchErr with
  | some e => return .refused (errJSON ("failed to start watch: " ++ e))
  | none => do
    let idx ← if d.clusterScope then api (.buildInstanceMetaIndex d.appName) else pure ∅
    return .stream (.ping "status" "connected") (streamLoop d r pr idx conn.moments)

def handleStreamSessions (r : Request) (conn : Connection) : Api StreamResponse := do
  match ← MustCan d r sessionResourceString "watch" (streamDomain r) with
  | .error resp => return .refused resp
  | .ok pr => openStream d r pr conn

end

/-! ## What is claimed -/

/-- Every Session that was sent is in a namespace that the policy in force then allows the
principal to watch. -/
def Watchable (r : Request) (conn : Connection) : StreamResponse → Prop
  | .refused _ => True
  | .stream _ turns => ∀ m ∈ conn.moments.zip turns, ∀ type s, .message type s ∈ m.2 →
    May m.1.1 r "watch" s.metadata.ns

/-- The stream is opened: the policy at the start allows it, and nothing fails. -/
def Opens (r : Request) (conn : Connection) (policy : Enforce) : Prop :=
  May policy r "watch" (streamDomain r) ∧ conn.canFlush = true ∧ conn.watchErr = none

/-- The signals up to the one that ends the stream. -/
def live (moments : List (Enforce × Signal)) : List (Enforce × Signal) :=
  moments.takeWhile fun m => m.2 ≠ .done ∧ m.2 ≠ .closed

/-- Whenever a Session arrives whose namespace may be listed, or the stream is one of a
single namespace, the namespace may also be watched. -/
def WatchFollows (r : Request) (moments : List (Enforce × Signal)) : Prop :=
  ∀ policy type s, (policy, .event ⟨type, .session s⟩) ∈ live moments → type ≠ .error →
    (allNamespaces r = true → May policy r "list" s.metadata.ns) → May policy r "watch" s.metadata.ns

section

variable {χ : Type} {child : ChildApi χ} {d : ServerDeps} {r : Request} {pr : Claims}
  {idx : GoMap String AnchorMeta}

/-- Only the labels are shown differently. -/
theorem enrichStreamed_labels (d : ServerDeps) (idx : GoMap String AnchorMeta) (s : Session) :
    ∃ labels, enrichStreamed d idx s = s.withLabels labels := by
  unfold enrichStreamed
  split
  · exact ⟨s.metadata.labels, rfl⟩
  split
  · exact ⟨s.metadata.labels, rfl⟩
  · exact ⟨_, rfl⟩

@[simp] theorem enrichStreamed_ns (s : Session) :
    (enrichStreamed d idx s).metadata.ns = s.metadata.ns := by
  obtain ⟨labels, eq⟩ := enrichStreamed_labels d idx s
  rw [eq, Session.withLabels]

@[simp] theorem enrichStreamed_name (s : Session) :
    (enrichStreamed d idx s).metadata.name = s.metadata.name := by
  obtain ⟨labels, eq⟩ := enrichStreamed_labels d idx s
  rw [eq, Session.withLabels]

@[simp] theorem enrichStreamed_resourceVersion (s : Session) :
    (enrichStreamed d idx s).metadata.resourceVersion = s.metadata.resourceVersion := by
  obtain ⟨labels, eq⟩ := enrichStreamed_labels d idx s
  rw [eq, Session.withLabels]

theorem may_iff (claims : r.claims = some pr) (policy : Enforce) (action ns : String) :
    May policy r action ns ↔ granted (policy pr.sub pr.roles "session" action ns) = true := by
  rw [granted_iff]
  constructor
  · rintro ⟨cl, same, yes⟩
    cases claims.symm.trans same
    exact yes
  · exact fun yes => ⟨pr, claims, yes⟩

/-- What is sent for a watch event. -/
theorem mem_streamEvent (claims : r.claims = some pr) {policy : Enforce} {ev : WatchEvent}
    {type : EventType} {s : Session} :
    .message type s ∈ streamEvent d r pr idx policy ev ↔
      ∃ s₀, ev = ⟨type, .session s₀⟩ ∧ type ≠ .error ∧ s = enrichStreamed d idx s₀ ∧
        (allNamespaces r = true → May policy r "list" s₀.metadata.ns) := by
  obtain ⟨type', object⟩ := ev
  unfold streamEvent
  by_cases error : type' = .error
  · rw [if_pos error]
    refine ⟨fun mem => absurd mem List.not_mem_nil, ?_⟩
    rintro ⟨s₀, ⟨⟩, notError, -⟩
    exact absurd error notError
  rw [if_neg error]
  cases object with
  | session s₀ =>
    simp only [may_iff claims]
    split
    · rename_i barred
      simp only [Bool.and_eq_true, Bool.not_eq_true'] at barred
      refine ⟨fun mem => absurd mem List.not_mem_nil, ?_⟩
      rintro ⟨_, ⟨⟩, -, -, listed⟩
      exact absurd (listed barred.1) (by simp [barred.2])
    · rename_i passes
      rw [List.mem_singleton]
      constructor
      · rintro ⟨⟩
        refine ⟨s₀, rfl, error, rfl, fun all => ?_⟩
        simpa [all] using passes
      · rintro ⟨_, ⟨⟩, -, rfl, -⟩
        rfl
  | unconvertible => exact ⟨fun mem => absurd mem List.not_mem_nil, fun ⟨_, eq, _⟩ => nomatch eq⟩
  | other => exact ⟨fun mem => absurd mem List.not_mem_nil, fun ⟨_, eq, _⟩ => nomatch eq⟩

/-- The turns of the loop, each with its moment. -/
theorem mem_zip_streamLoop {m : (Enforce × Signal) × List Sse} {moments : List (Enforce × Signal)} :
    m ∈ moments.zip (streamLoop d r pr idx moments) ↔
      m.1 ∈ live moments ∧ streamTurn d r pr idx m.1.1 m.1.2 = some m.2 := by
  induction moments with
  | nil => simp [live]
  | cons moment moments ih =>
    obtain ⟨policy, signal⟩ := moment
    have goesOn : ∀ written, streamTurn d r pr idx policy signal = some written →
        live ((policy, signal) :: moments) = (policy, signal) :: live moments →
        (m ∈ ((policy, signal) :: moments).zip (streamLoop d r pr idx ((policy, signal) :: moments)) ↔
          m.1 ∈ live ((policy, signal) :: moments) ∧ streamTurn d r pr idx m.1.1 m.1.2 = some m.2) := by
      intro written turn open_
      rw [open_, streamLoop, turn, List.zip_cons_cons, List.mem_cons, List.mem_cons, ih]
      constructor
      · rintro (rfl | ⟨mem, turn'⟩)
        · exact ⟨.inl rfl, turn⟩
        · exact ⟨.inr mem, turn'⟩
      · rintro ⟨here | mem, turn'⟩
        · refine .inl (Prod.ext here ?_)
          rw [here, turn] at turn'
          exact (Option.some.inj turn').symm
        · exact .inr ⟨mem, turn'⟩
    cases signal with
    | done => simp [streamLoop, streamTurn, live]
    | closed => simp [streamLoop, streamTurn, live]
    | tick now => exact goesOn _ rfl (List.takeWhile_cons_of_pos (by simp))
    | event ev => exact goesOn _ rfl (List.takeWhile_cons_of_pos (by simp))

/-- While nothing but events arrives, the loop writes what it makes of each. -/
theorem streamLoop_events (policy : Enforce) (events : List WatchEvent) :
    (streamLoop d r pr idx (events.map fun ev => (policy, .event ev))).flatten =
      events.flatMap (streamEvent d r pr idx policy) := by
  induction events with
  | nil => rfl
  | cons ev events ih =>
    rw [List.map_cons, streamLoop, streamTurn, List.flatMap_cons, ← ih]
    rfl

/-- The stream's events, by the moments at which they were sent. -/
theorem watchable_streamLoop (claims : r.claims = some pr) (conn : Connection) (greeting : Sse) :
    Watchable r conn (.stream greeting (streamLoop d r pr idx conn.moments)) ↔
      WatchFollows r conn.moments := by
  constructor
  · intro watchable policy type s arrived notError listed
    have sent : .message type (enrichStreamed d idx s) ∈
        streamEvent d r pr idx policy ⟨type, .session s⟩ :=
      (mem_streamEvent claims).2 ⟨s, rfl, notError, rfl, listed⟩
    have turn := watchable ⟨_, _⟩ (mem_zip_streamLoop.2 ⟨arrived, rfl⟩) type _ sent
    rwa [enrichStreamed_ns] at turn
  · rintro follows ⟨⟨policy, signal⟩, written⟩ mem type s sent
    obtain ⟨arrived, turn⟩ := mem_zip_streamLoop.1 mem
    cases signal with
    | done => cases turn
    | closed => cases turn
    | tick now =>
      cases turn
      cases List.mem_singleton.1 sent
    | event ev =>
      have event : streamEvent d r pr idx policy ev = written := Option.some.inj turn
      rw [← event] at sent
      obtain ⟨s₀, rfl, notError, rfl, listed⟩ := (mem_streamEvent claims).1 sent
      rw [enrichStreamed_ns]
      exact follows policy type s₀ arrived notError listed

/-- The answer to a request: a stream of the loop's events if it opens one, else a refusal. -/
def Answered (d : ServerDeps) (r : Request) (conn : Connection) (policy : Enforce)
    (resp : StreamResponse) : Prop :=
  (Opens r conn policy → ∃ pr idx, r.claims = some pr ∧
    resp = .stream (.ping "status" "connected") (streamLoop d r pr idx conn.moments)) ∧
  (¬ Opens r conn policy → ∃ refusal, resp = .refused refusal)

theorem answered_refused {conn : Connection} {policy : Enforce} {refusal : HttpResp}
    (shut : ¬ Opens r conn policy) : Answered d r conn policy (.refused refusal) :=
  ⟨fun opens => absurd opens shut, fun _ => ⟨refusal, rfl⟩⟩

theorem openStream_wp {conn : Connection} {policy : Enforce} (claims : r.claims = some pr)
    (may : May policy r "watch" (streamDomain r)) (σ : Cluster χ) :
    (openStream d r pr conn).wp (Under child policy) (fun _ _ => True)
      (fun resp _ => Answered d r conn policy resp) σ := by
  unfold openStream
  cases flush : conn.canFlush with
  | false =>
    refine fun _ _ => answered_refused ?_
    rintro ⟨-, flushes, -⟩
    cases flush.symm.trans flushes
  | true =>
    cases watch : conn.watchErr with
    | some e =>
      refine fun _ _ => answered_refused ?_
      rintro ⟨-, -, works⟩
      cases watch.symm.trans works
    | none =>
      have streams : ∀ idx, Answered d r conn policy
          (.stream (.ping "status" "connected") (streamLoop d r pr idx conn.moments)) :=
        fun idx => ⟨fun _ => ⟨pr, idx, claims, rfl⟩, fun shut => absurd ⟨may, flush, watch⟩ shut⟩
      cases d.clusterScope with
      | true => exact fun _ _ => ⟨trivial, fun idx _ _ _ _ => streams idx⟩
      | false => exact fun _ _ => streams ∅

theorem handleStreamSessions_wp {conn : Connection} {policy : Enforce} (σ : Cluster χ) :
    (handleStreamSessions d r conn).wp (Under child policy) (fun _ _ => True)
      (fun resp _ => Answered d r conn policy resp) σ := by
  unfold handleStreamSessions MustCan
  cases claims : r.claims with
  | none =>
    refine fun _ _ => answered_refused ?_
    rintro ⟨⟨cl, some, -⟩, -⟩
    cases claims.symm.trans some
  | some pr =>
    refine fun σ₁ _ => ⟨trivial, fun decision σ₂ ans => ?_⟩
    have asked : decision = policy pr.sub pr.roles "session" "watch" (streamDomain r) := under_decision ans
    show ((if granted decision then .ret (.ok pr) else .ret (.error (d.rbacMw.denied (some decision))) :
      Api (Except HttpResp Claims)) >>= _).wp _ _ _ σ₂
    cases yes : granted decision with
    | true => exact openStream_wp claims ((may_iff claims _ _ _).2 (asked ▸ yes)) σ₂
    | false =>
      refine fun _ _ => answered_refused fun opens => ?_
      have grant := (may_iff claims _ _ _).1 opens.1
      rw [← asked, yes] at grant
      cases grant

/-- **Main result.** What a request to the stream sends is what the policy in force then allows
to watch, if and only if the request opens no stream, or every Session that arrives in a
namespace that passes the stream's own filter is in one that may be watched by then. -/
theorem watchable_iff {σ σ' : Cluster χ} {policy : Enforce} {conn : Connection} {resp : StreamResponse}
    (served : Exec (Under child policy) (handleStreamSessions d r conn) σ (.ret resp) σ') :
    Watchable r conn resp ↔ (Opens r conn policy → WatchFollows r conn.moments) := by
  have answered := Prog.wp_result served (handleStreamSessions_wp σ)
  by_cases opens : Opens r conn policy
  · obtain ⟨pr, idx, claims, rfl⟩ := answered.1 opens
    rw [watchable_streamLoop claims]
    exact ⟨fun follows _ => follows, fun h => h opens⟩
  · obtain ⟨refusal, rfl⟩ := answered.2 opens
    exact ⟨fun _ yes => absurd yes opens, fun _ => trivial⟩

/-- A policy that grants watching everywhere but in the namespace `ns`, where it grants listing. -/
def listOnly : Enforce := fun _ _ _ action ns => .ok (ns ≠ "ns" ∨ action = "list")

def streamRequest : Request where
  method := "GET"
  path := "/api/v1/stream/sessions"
  query := [("all", "true")]
  body := none
  claims := some ⟨"u", []⟩

/-- One Session of the namespace `ns` arrives under this policy. -/
def arrival (policy : Enforce) : Connection :=
  ⟨true, none, [(policy, .event ⟨.added, .session (sessionOf "i")⟩)]⟩

/-- The response that sends it. -/
def delivered : StreamResponse := .stream (.ping "status" "connected") [[.message .added (sessionOf "i")]]

/-- Under a policy that grants everything the event is sent, as it should be. -/
theorem allowed_streamed :
    ∃ σ', Exec (Under replaceApi allowAll) (handleStreamSessions (.plain "i" false) streamRequest
        (arrival allowAll)) (.single allowAll (sessionOf "i")) (.ret delivered) σ' ∧
      Watchable streamRequest (arrival allowAll) delivered := by
  have run := under_run replaceApi (handleStreamSessions (.plain "i" false) streamRequest (arrival allowAll))
    (show (Cluster.single allowAll (sessionOf "i")).policy = allowAll from rfl)
  rw [show (Prog.run _ (handleStreamSessions (.plain "i" false) streamRequest _) _).1 = delivered
    by decide +kernel] at run
  refine ⟨_, run, (watchable_iff run).2 fun _ policy type s arrived _ _ => ?_⟩
  have only : (policy, .event ⟨type, .session s⟩) ∈ (arrival allowAll).moments :=
    List.takeWhile_subset _ arrived
  cases List.mem_singleton.1 only
  exact ⟨⟨"u", []⟩, rfl, rfl⟩

/-- Where it grants listing only, the event is sent as well. -/
theorem listed_streamed :
    ∃ σ', Exec (Under replaceApi listOnly) (handleStreamSessions (.plain "i" false) streamRequest
        (arrival listOnly)) (.single listOnly (sessionOf "i")) (.ret delivered) σ' ∧
      ¬ Watchable streamRequest (arrival listOnly) delivered := by
  have run := under_run replaceApi (handleStreamSessions (.plain "i" false) streamRequest (arrival listOnly))
    (show (Cluster.single listOnly (sessionOf "i")).policy = listOnly from rfl)
  rw [show (Prog.run _ (handleStreamSessions (.plain "i" false) streamRequest _) _).1 = delivered
    by decide +kernel] at run
  refine ⟨_, run, fun watchable => ?_⟩
  obtain ⟨cl, -, grant⟩ := watchable ⟨_, _⟩ (List.mem_singleton.2 rfl) .added (sessionOf "i")
    (List.mem_singleton.2 rfl)
  have forbidden : listOnly cl.sub cl.roles "session" "watch" "ns" = .ok false := rfl
  cases forbidden.symm.trans grant

end

end Codespace.Server
