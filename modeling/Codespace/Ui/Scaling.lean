import Codespace.Server.Writes
import Codespace.Ui.Sessions

/-!
# The scale buttons of the UI

The buttons of a row ask for one replica more or less, but the request says how many there
shall be: the number that the row shows, plus or minus one. The row may be older than what
is stored, and the handler stores the number whatever is there by then.

`Site` is any number of pages, their requests and Reconciles on one cluster, with a record
of the clicks on one Session. What a request of a click stores is in `scaleRequest_call`.
-/

namespace Codespace.Ui
set_option autoImplicit false
open Interact Versioned Server Controller Go

/-! ## The buttons -/

/-- `can(ix, ns, "scale")`: what the introspection data enumerates, or else grants on `*`. -/
def canScale (ix : Option (GoMap String Bool)) (ns : String) : Bool :=
  match ix with
  | none => false
  | some domains =>
    let key := if ns = "All" then "*" else ns
    match domains.lookup key with
    | some direct => direct
    | none => if key ≠ "*" then (domains.lookup "*").getD false else false

/-- The request of `api.scale`. -/
def scaleRequest (pr : Claims) (ns name : String) (replicas : Int) : Request where
  method := "POST"
  path := "/api/v1/server/sessions/" ++ ns ++ "/" ++ name ++ "/scale"
  query := []
  body := some (.obj [("replicas", .int replicas)])
  claims := some pr

/-- `scale` of the hook: the request it sends, unless it throws. -/
def scale (ix : Option (GoMap String Bool)) (pr : Claims) (ns name : String) (replicas : Int) : Option Request :=
  if canScale ix ns then some (scaleRequest pr ns name replicas) else none

/-- `typeof s.spec.replicas === "number" ? s.spec.replicas : 1`. -/
def current (s : Session) : Int := (s.spec.replicas.map Int32.toInt).getD 1

/-- A click on the row: the request that is sent for it. -/
def handleScale (ix : Option (GoMap String Bool)) (pr : Claims) (s : Session) (delta : Int) : Option Request :=
  scale ix pr s.metadata.ns s.metadata.name (max 0 (current s + delta))

inductive Button where
  | up
  | down
  deriving DecidableEq

def Button.delta : Button → Int
  | .up => 1
  | .down => -1

/-! ## Pages, requests and Reconciles -/

/-- A page, its connection, the server it talks to and who uses it. -/
structure Client where
  d : ServerDeps
  pr : Claims
  ns : String
  page : Page
  feed : Option Feed

/-- A click: the thread of its request, the number the row showed, and the button. -/
structure Click where
  thread : Nat
  shown : Int
  button : Button
  deriving DecidableEq

/-- The number of replicas that a click asks for. -/
def Click.target (click : Click) : Int := max 0 (click.shown + click.button.delta)

/-- Scale requests of the UI for the Session, and Reconciles. -/
def Scaling (k : Key) : Job → Prop
  | .serve _ route r => route = .session ∧ ∃ pr replicas, r = scaleRequest pr k.ns k.name replicas
  | .reconcile _ _ => True
  | .call _ => False

structure Site (χ : Type) (k : Key) where
  pool : Jobs χ (Scaling k)
  clients : Nat → Client
  clicks : List Click

section

variable {χ : Type} (child : ChildApi χ) {k : Key}

/-- The client in the world of its page. -/
def Client.world (c : Client) (σ : Cluster χ) : World χ := ⟨σ, c.page, c.feed⟩

/-- A call of somebody is sent to the client as events. -/
def Client.told (c : Client) (call : Call) (σ σ' : Cluster χ) : Client :=
  { c with feed := c.feed.map (·.send c.d c.pr c.ns σ.policy (callEvents c.d c.pr c.ns call σ σ')) }

/-- The request of a click on a row of the Session. -/
theorem handleScale_eq {ix : Option (GoMap String Bool)} {pr : Claims} {s : Session} {delta : Int} (key : s.key = k) :
    handleScale ix pr s delta =
      if canScale ix k.ns then some (scaleRequest pr k.ns k.name (max 0 (current s + delta))) else none := by
  subst key
  rfl

theorem handleScale_sent {ix : Option (GoMap String Bool)} {pr : Claims} {s : Session} {delta : Int} {r : Request}
    (key : s.key = k) (sent : handleScale ix pr s delta = some r) :
    r = scaleRequest pr k.ns k.name (max 0 (current s + delta)) := by
  rw [handleScale_eq key] at sent
  split at sent
  · exact (Option.some.inj sent).symm
  · cases sent

theorem scaling_sent {ix : Option (GoMap String Bool)} {d : ServerDeps} {pr : Claims} {s : Session} {delta : Int}
    {r : Request} (key : s.key = k) (sent : handleScale ix pr s delta = some r) : Scaling k (.serve d .session r) :=
  ⟨rfl, pr, _, handleScale_sent key sent⟩

namespace Site

inductive Move where
  | click (u : Nat) (button : Button)
  | turn (i : Nat)
  | reconcile
  | drift
  | client (u : Nat)

inductive Step : Site χ k → Move → Site χ k → Prop where
  /-- Somebody clicks on a row of the Session, and the request is on its way. -/
  | click {w : Site χ k} {u i : Nat} {s : Session} {ix : Option (GoMap String Bool)} {button : Button} {r : Request}
      (shown : s ∈ (w.clients u).page.rows) (key : s.key = k)
      (sent : handleScale ix (w.clients u).pr s button.delta = some r) (free : w.pool.threads i = none) :
      Step w (.click u button) { w with
        pool := w.pool.set i ⟨⟨.serve (w.clients u).d .session r, scaling_sent key sent⟩, [],
          (Job.serve (w.clients u).d .session r).code⟩
        clicks := w.clicks ++ [⟨i, current s, button⟩] }
  /-- A request or a Reconcile makes its next call. -/
  | turn {w : Site χ k} {i : Nat} {t : JobThread χ (Scaling k)} {c : Call}
      {f : Answer c → Api (Option HttpResp)} {a : Answer c} {σ' : Cluster χ} (held : w.pool.threads i = some t)
      (next : t.rest = .call c f) (answers : Answers child w.pool.state c a σ') :
      Step w (.turn i) { w with
        pool := Pool.set ⟨σ', w.pool.threads⟩ i ⟨t.job, t.log ++ [⟨c, a, w.pool.state, σ'⟩], f a⟩
        clients := fun u => (w.clients u).told c w.pool.state σ' }
  | reconcile {w : Site χ k} {i : Nat} (rec : SessionReconciler) (key : Key) (free : w.pool.threads i = none) :
      Step w .reconcile { w with
        pool := w.pool.set i ⟨⟨.reconcile rec key, trivial⟩, [], (Job.reconcile rec key).code⟩ }
  /-- Time passes, the policy is loaded again and so on. -/
  | drift {w : Site χ k} {σ' : Cluster χ} (same : σ'.sessions = w.pool.state.sessions) :
      Step w .drift { w with pool := ⟨σ', w.pool.threads⟩ }
  /-- A page loads, is sent a response or an event, or its connection is lost or made. -/
  | client {w : Site χ k} {u : Nat} {a : Act} {page : Page} {feed : Option Feed}
      (step : Ui.Step child (w.clients u).d (w.clients u).pr (w.clients u).ns ((w.clients u).world w.pool.state) a
        ⟨w.pool.state, page, feed⟩) :
      Step w (.client u) { w with
        clients := Function.update w.clients u { w.clients u with page := page, feed := feed } }

/-- Before any click. -/
def start (k : Key) (σ : Cluster χ) (clients : Nat → Client) : Site χ k := ⟨Pool.initial σ, clients, []⟩

end Site

/-! ## The requests -/

section

variable {pr : Claims} {n : Int}

theorem splitSlash_single {s : String} (single : (splitSlash s).length = 1) : splitSlash s = [s] := by
  rw [splitSlash, List.length_map] at single
  obtain ⟨l, split⟩ := List.length_eq_one_iff.1 single
  have whole : ['/'].intercalate (s.toList.splitOn '/') = s.toList := List.intercalate_splitOn '/'
  rw [split, List.intercalate_singleton] at whole
  rw [splitSlash, split, whole]
  simp

theorem scaleRequest_path : pathParts (scaleRequest pr k.ns k.name n) =
    splitSlash k.ns ++ (splitSlash k.name ++ ["scale"]) := by
  have below : trimPrefix ("/api/v1/server/sessions/" ++ k.ns ++ "/" ++ k.name ++ "/scale") "/api/v1/server/sessions/" =
      String.ofList (k.ns.toList ++ '/' :: (k.name.toList ++ '/' :: "scale".toList)) := by
    simp [trimPrefix]
  have operation : "scale".toList.splitOn '/' = ["scale".toList] := by decide
  rw [pathParts, scaleRequest, below, splitSlash, String.toList_ofList, List.splitOn_append_cons_self,
    List.splitOn_append_cons_self, operation]
  simp [splitSlash]

/-- A name with a slash makes it no scale request. -/
theorem scaleRequest_scales (scales : isScale (scaleRequest pr k.ns k.name n) = true) :
    pathParts (scaleRequest pr k.ns k.name n) = [k.ns, k.name, "scale"] := by
  have nonempty : ∀ s, 0 < (splitSlash s).length := by
    intro s
    rw [splitSlash, List.length_map]
    exact List.length_pos_iff.2 (List.splitOn_ne_nil _ _)
  have three : (splitSlash k.ns ++ (splitSlash k.name ++ ["scale"])).length = 3 := by
    rw [isScale, scaleRequest_path] at scales
    split at scales
    · rename_i parts
      rw [parts]
      rfl
    · cases scales
  simp only [List.length_append, List.length_singleton] at three
  have ns := nonempty k.ns
  have name := nonempty k.name
  rw [scaleRequest_path, splitSlash_single (by omega : (splitSlash k.ns).length = 1),
    splitSlash_single (by omega : (splitSlash k.name).length = 1)]
  rfl

theorem scaleRequest_body {m : Int32} (body : decodeBody decodeScaleRequest 0 (scaleRequest pr k.ns k.name n) = some m) :
    m.toInt = n := by
  have field : fields [("replicas", onField id (fun _ v => v) decodeInt32)] "replicas" =
      some (onField id (fun _ v => v) decodeInt32) := by
    have same : matchesField "replicas" "replicas" = true := by simp [matchesField]
    simp [fields, same]
  have decoded : decodeScaleRequest (.obj [("replicas", .int n)]) 0 = decodeInt32 (.int n) 0 := by
    rw [decodeScaleRequest, decodeStruct_cons, field]
    simp [decodeStruct, onField]
  simp only [decodeBody, scaleRequest, decoded, decodeInt32] at body
  by_cases range : -2147483648 ≤ n ∧ n ≤ 2147483647
  · rw [if_pos range] at body
    cases body
    exact Int32.toInt_ofInt_of_le (by omega) (by omega)
  · rw [if_neg range] at body
    cases body

/-- What a scale request makes of the Session. -/
theorem scaleRequest_transformation (scales : isScale (scaleRequest pr k.ns k.name n) = true) {d : ServerDeps}
    {now : String} {k' : Key} {change : Session → Session}
    (own : transformation d .session (scaleRequest pr k.ns k.name n) now = some (k', change)) :
    k' = k ∧ ∀ s, current (change s) = n := by
  simp only [transformation, scaleRequest_scales scales, scales, if_true] at own
  obtain ⟨cl, -, rest⟩ := Option.bind_eq_some_iff.1 own
  obtain ⟨m, body, eq⟩ := Option.bind_eq_some_iff.1 rest
  cases eq
  exact ⟨rfl, fun _ => scaleRequest_body body⟩

/-- As it is a POST, it changes nothing else. -/
theorem scaleRequest_changes (changes : Changes .session (scaleRequest pr k.ns k.name n)) :
    isScale (scaleRequest pr k.ns k.name n) = true := by
  rcases changes with scales | put | patch
  · exact scales
  · exact absurd (show "POST" = "PUT" from put) (by decide)
  · exact absurd (show "POST" = "PATCH" from patch) (by decide)

/-- If it is no scale request, it is refused. -/
theorem scaleRequest_refused {d : ServerDeps} (item : isScale (scaleRequest pr k.ns k.name n) = false) :
    ∃ resp, serve d .session (scaleRequest pr k.ns k.name n) = .ret resp ∧ 400 ≤ resp.status := by
  refine serve_session_cases (P := fun p : Api HttpResp => ∃ resp, p = .ret resp ∧ 400 ≤ resp.status)
    (fun _ => ⟨_, rfl, Nat.le_succ 400⟩) (fun _ => ⟨_, rfl, Nat.le_refl 400⟩) ?_ ?_ ?_ ?_
    (fun _ _ _ _ => ⟨_, rfl, Nat.le_add_left 400 5⟩)
  · intro scales
    cases item.symm.trans scales
  · exact fun _ get => absurd (show "POST" = "GET" from get) (by decide)
  · intro _ update
    cases item.symm.trans (scaleRequest_changes (.inr update))
  · exact fun _ delete => absurd (show "POST" = "DELETE" from delete) (by decide)

variable {child}

/-- **One call.** A scale request of the UI leaves the Sessions alone, or it replaces the Session for
the first time by one with the number of replicas it asks for. -/
theorem scaleRequest_call {d : ServerDeps} {v : LoggedView χ} {c : Call} {a : Answer c} {σ' : Cluster χ}
    (sends : Server.Sends d .session (scaleRequest pr k.ns k.name n) v c)
    (ans : Answers child v.1 c a σ') :
    σ'.sessions = v.1.sessions ∨ ∃ sent cur, c = .update sent ∧ Server.Quiet v.2 ∧
      v.1.sessions.check sent.key sent.metadata.resourceVersion = .ok cur ∧ v.1.sessions.get k = some cur ∧
      σ'.sessions = v.1.sessions.write k sent ∧ current sent = n := by
  cases c with
  | create sent => cases sends.1
  | updateStatus sent => cases sends
  | apply owner m => cases sends
  | delete k' =>
    have method : "POST" = "DELETE" := sends.2
    exact absurd method (by decide)
  | update sent =>
    obtain ⟨changes, -, now, k', change, cur, own, fetched, rfl⟩ := sends
    obtain ⟨rfl, asked⟩ := scaleRequest_transformation (scaleRequest_changes changes) own
    have same := transformation_same own cur
    rcases answers_update ans with ⟨rfl, -⟩ | ⟨found, ok, after, -⟩
    · exact .inl rfl
    obtain ⟨rfl, stored⟩ := fetched.check same.key same.version ok
    have key : (change found).key = k' := same.key.trans (v.1.keyed _ _ stored)
    refine .inr ⟨_, found, rfl, fetched.quiet, ok, stored, ?_, asked found⟩
    rw [after, updated_of_same same, Cluster.commit_held (held_of_same same (v.1.held _ _ stored)), key]
  | _ => exact .inl (congrArg Cluster.sessions (answers_reads ans rfl))

end

/-- What a Reconcile writes has the number of replicas that was stored before. -/
theorem reconcile_current {rec : SessionReconciler} {key : Key} {σ : Cluster χ} {s : Session}
    (came : Written (.reconcile rec key) σ k s) : ∃ cur, σ.sessions.get k = some cur ∧ current s = current cur := by
  have defaults : ∀ cur, current (applyDefaults cur) = current cur := by
    intro cur
    cases set : cur.spec.replicas <;> simp [current, applyDefaults, defaultSpec, set]
  cases came with
  | unfinalized _ stored => exact ⟨_, stored, defaults _⟩
  | @finalized _ _ cur _ stored =>
    obtain ⟨finalizers, eq⟩ := addFinalizer_eq (applyDefaults cur)
    rw [eq]
    exact ⟨cur, stored, defaults cur⟩
  | status _ _ stored => exact ⟨_, stored, rfl⟩
  | _ => contradiction

end

end Codespace.Ui
