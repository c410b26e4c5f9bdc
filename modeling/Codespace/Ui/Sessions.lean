import Codespace.Server.Stream
import Codespace.Store.Rows

/-!
# The session table of the UI

`useSessions.ts` and the part of `client.ts` it uses, for one namespace. The hook loads the
table with `api.list` when it is mounted, when the introspection data changes and on
`refresh()`, and keeps it up by the messages of an `EventSource`. The loads and the stream
share the rows and nothing else: no version is compared, and nothing happens to the rows
when the connection is lost or made again.

`Step` is the hook together with the server and everybody who writes Sessions there.
-/

namespace Codespace.Ui
set_option autoImplicit false
open Interact Versioned Server Keyed

/-! ## The client -/

/-- The query of `api.list` and `api.watch`. -/
def namespaceQuery (ns : String) : List (String × String) :=
  if ns = "All" then [("all", "true")] else [("namespace", ns)]

def listRequest (pr : Claims) (ns : String) : Request where
  method := "GET"
  path := "/api/v1/server/sessions"
  query := namespaceQuery ns
  body := none
  claims := some pr

def watchRequest (pr : Claims) (ns : String) : Request where
  method := "GET"
  path := "/api/v1/stream/sessions"
  query := namespaceQuery ns
  body := none
  claims := some pr

/-- `api.list`: the items of the response, or none if it throws. -/
def apiList (resp : HttpResp) : Option (List Session) :=
  if 200 ≤ resp.status ∧ resp.status < 300 then
    match resp.body with
    | .text _ => none
    | .sessionList items _ _ _ => some items
    | _ => some []
  else none

/-! ## The hook -/

/-- Rows are told apart by their names. -/
abbrev named (s : Session) : String := s.metadata.name

/-- A call of `api.list` that has not returned: by the effect or by `refresh()`, whether the
effect was cleaned up since, and what the server answered, once it has. -/
structure Load where
  initial : Bool
  cancelled : Bool
  response : Option HttpResp

structure Page where
  rows : List Session
  loads : List Load

/-- What a message makes of the rows. -/
def onMessage : Sse → Update String Session
  | .ping _ _ => .skip
  | .message type object => if type = .deleted then .drop object.metadata.name else .put object

namespace Page

def blank : Page := ⟨[], []⟩

/-- The effect that loads the table runs, after the clean-up of the run before. -/
def effect (p : Page) : Page :=
  { p with loads := p.loads.map (fun l => if l.initial then { l with cancelled := true } else l) ++
      [⟨true, false, none⟩] }

def refresh (p : Page) : Page := { p with loads := p.loads ++ [⟨false, false, none⟩] }

/-- The server answers a load. -/
def answered (p : Page) (i : Nat) (l : Load) (resp : HttpResp) : Page :=
  { p with loads := p.loads.set i { l with response := some resp } }

/-- `setRows` with the rows of a response, unless the effect that asked was cleaned up. -/
def arrive (p : Page) (i : Nat) (l : Load) (resp : HttpResp) : Page where
  rows := if l.initial && l.cancelled then p.rows else (apiList resp).getD p.rows
  loads := p.loads.eraseIdx i

/-- A load throws. -/
def fail (p : Page) (i : Nat) : Page := { p with loads := p.loads.eraseIdx i }

/-- `setRows` with a message. -/
def message (p : Page) (sse : Sse) : Page :=
  { p with rows := apply named p.rows (onMessage sse) }

end Page

/-! ## The hook and the server -/

/-- The Sessions that a request for the namespace lists, and that a watch for it selects. -/
def selects (d : ServerDeps) (ns : String) (s : Session) : Bool :=
  inNamespace (some ns) s && matchesLabels (instanceSelector d) s

/-- What a watch is told of a Session. -/
def watchEvents (selected : Session → Bool) (before after : Option Session) : List WatchEvent :=
  match before.filter selected, after.filter selected with
  | none, none => []
  | none, some s => [⟨.added, .session s⟩]
  | some s, none => [⟨.deleted, .session s⟩]
  | some s, some s' => if s' = s then [] else [⟨.modified, .session s'⟩]

/-- An open connection: the index its events are enriched by, and the messages on their way. -/
structure Feed where
  idx : GoMap String AnchorMeta
  inFlight : List Sse

structure World (χ : Type) where
  cluster : Cluster χ
  page : Page
  feed : Option Feed

section

variable {χ : Type} (child : ChildApi χ) (d : ServerDeps) (pr : Claims) (ns : String)

/-- The namespace that the server reads from a request. -/
def domain : String := q (listRequest pr ns) "namespace" "default"

/-- The Sessions that the server serves to the page. -/
def existing (σ : Cluster χ) : List Session :=
  (σ.sessions.list Key.le).filter (selects d (domain pr ns))

/-- The stream's handler sends what it makes of some events. -/
def Feed.send (policy : Enforce) (f : Feed) (events : List WatchEvent) : Feed :=
  { f with inFlight := f.inFlight ++ events.flatMap (streamEvent d (watchRequest pr ns) pr f.idx policy) }

/-- What the server answers to `api.list`. -/
def listResponse (σ : Cluster χ) : HttpResp := ((serve d .sessions (listRequest pr ns)).run (answer child) σ).1

/-- What is sent is what the loop of the stream's handler writes. -/
theorem Feed.send_inFlight (policy : Enforce) (f : Feed) (events : List WatchEvent) :
    (f.send d pr ns policy events).inFlight = f.inFlight ++
      (streamLoop d (watchRequest pr ns) pr f.idx (events.map fun ev => (policy, .event ev))).flatten := by
  rw [streamLoop_events]
  rfl

/-- The events that a call sends to a watch for the namespace. -/
def callEvents (c : Call) (σ σ' : Cluster χ) : List WatchEvent :=
  match c.writes with
  | none => []
  | some k => watchEvents (selects d (domain pr ns)) (σ.sessions.get k) (σ'.sessions.get k)

inductive Act where
  | call (c : Call)
  | drift
  | effect
  | refresh
  | answered (i : Nat)
  | arrive (i : Nat)
  | fail (i : Nat)
  | ping (key value : String)
  | deliver
  | disconnect
  | connect

inductive Step : World χ → Act → World χ → Prop where
  /-- Anybody makes an API call. -/
  | call {w : World χ} {c : Call} {r : Answer c} {σ' : Cluster χ} (answers : Answers child w.cluster c r σ') :
    Step w (.call c) { w with
      cluster := σ'
      feed := w.feed.map (·.send d pr ns w.cluster.policy (callEvents d pr ns c w.cluster σ')) }
  /-- Time passes, the policy is loaded again and so on. -/
  | drift {w : World χ} {σ' : Cluster χ} (same : σ'.sessions = w.cluster.sessions) :
    Step w .drift { w with cluster := σ' }
  | effect {w : World χ} : Step w .effect { w with page := w.page.effect }
  | refresh {w : World χ} : Step w .refresh { w with page := w.page.refresh }
  /-- The server serves a load: the snapshot is taken. -/
  | answered {w : World χ} {i : Nat} {l : Load} (found : w.page.loads[i]? = some l) (waits : l.response = none) :
    Step w (.answered i) { w with page := w.page.answered i l (listResponse child d pr ns w.cluster) }
  | arrive {w : World χ} {i : Nat} {l : Load} {resp : HttpResp} (found : w.page.loads[i]? = some l)
      (response : l.response = some resp) : Step w (.arrive i) { w with page := w.page.arrive i l resp }
  | fail {w : World χ} {i : Nat} : Step w (.fail i) { w with page := w.page.fail i }
  | ping {w : World χ} {f : Feed} {key value : String} (open_ : w.feed = some f) :
    Step w (.ping key value) { w with feed := some { f with inFlight := f.inFlight ++ [.ping key value] } }
  | deliver {w : World χ} {idx : GoMap String AnchorMeta} {sse : Sse} {rest : List Sse}
      (open_ : w.feed = some ⟨idx, sse :: rest⟩) :
    Step w .deliver { w with page := w.page.message sse, feed := some ⟨idx, rest⟩ }
  /-- The connection is lost, with the messages on their way. -/
  | disconnect {w : World χ} : Step w .disconnect { w with feed := none }
  /-- The `EventSource` connects: a new watch begins with what there is, in some order. -/
  | connect {w : World χ} {idx : GoMap String AnchorMeta} {replayed : List Session} (closed : w.feed = none)
      (may : May w.cluster.policy (watchRequest pr ns) "watch" (streamDomain (watchRequest pr ns)))
      (all : replayed.Perm (existing d pr ns w.cluster)) :
    Step w .connect { w with feed := some (Feed.send d pr ns w.cluster.policy
      ⟨idx, [.ping "status" "connected"]⟩ (replayed.map fun s => ⟨.added, .session s⟩)) }

/-- Before anything is loaded. -/
def World.start (σ : Cluster χ) : World χ := ⟨σ, .blank, none⟩

/-! ## What is claimed -/

/-- No response and no event is in flight, and the stream is connected. -/
def Quiet (w : World χ) : Prop := w.page.loads = [] ∧ ∃ idx, w.feed = some ⟨idx, []⟩

/-- The Session of a name, as far as the server serves it to the page. -/
def atServer (σ : Cluster χ) (name : String) : Option Session :=
  (σ.sessions.get ⟨domain pr ns, name⟩).filter (selects d (domain pr ns))

/-- The row is the Session, as it is listed or as it is streamed. -/
def Shown (row s : Session) : Prop := ∃ idx, row = enrich d idx s ∨ row = enrichStreamed d idx s

/-- The rows are the Sessions that exist at the server, each as it is stored last. -/
def Converged (w : World χ) : Prop :=
  Shows named (Shown d) w.page.rows (atServer d pr ns w.cluster)

/-- A message for the name is on its way. -/
def InFlight (w : World χ) (name : String) : Prop :=
  ∃ f, w.feed = some f ∧ ∃ sse ∈ f.inFlight, (onMessage sse).touches named name

/-- What a step must not do: bring a response while the stream is connected in which a
Session is not as the server has it, with no message for it on the way any more; or connect the
stream while the page shows a Session that is gone. -/
def Sound (w : World χ) : Act → Prop
  | .arrive i => w.feed.isSome → ∀ l resp items, w.page.loads[i]? = some l → l.response = some resp →
    (l.initial && l.cancelled) = false → apiList resp = some items →
    ∀ name, ¬ InFlight w name →
      Option.Rel (Shown d) (row named name items) (atServer d pr ns w.cluster name)
  | .connect => ∀ s ∈ w.page.rows, atServer d pr ns w.cluster s.metadata.name ≠ none
  | _ => True

end

end Codespace.Ui
