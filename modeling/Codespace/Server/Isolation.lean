import Codespace.Server.Mediation

/-!
# What a confined server shows of other instances

Two clusters that differ only in Sessions of other instances (`Agree`), and one request on
each, with nobody else at work. A list is the same on both. A request for one Session is
answered from what is stored under its key: what is the server's own is the same on both,
another instance's Session is "not found" with status 404, and a missing one is
"session not found: ..." with status 500. So the two runs can be told apart exactly where
the key holds another instance's Session on one side only.
-/

namespace Codespace.Server
set_option autoImplicit false
open Interact Versioned Go

variable {χ : Type}

/-! ## What is claimed -/

/-- The Session carries the id of another instance. -/
def otherInstance (d : ServerDeps) (s : Session) : Bool :=
  s.metadata.labels.index d.common.instanceIDLabel ≠ "" &&
    s.metadata.labels.index d.common.instanceIDLabel ≠ d.instanceID

/-- Two clusters that differ in Sessions of other instances only, as far as a request sees. -/
structure Agree (d : ServerDeps) (σ τ : Cluster χ) : Prop where
  sessions : ∀ k, (σ.sessions.get k).filter (!otherInstance d ·) = (τ.sessions.get k).filter (!otherInstance d ·)
  next : σ.sessions.next = τ.sessions.next
  clock : σ.clock = τ.clock
  policy : σ.policy = τ.policy

/-- The key holds a Session of another instance. -/
def Foreign (d : ServerDeps) (σ : Cluster χ) (k : Key) : Prop :=
  ∃ s, σ.sessions.get k = some s ∧ otherInstance d s = true

/-- The Sessions of other instances are still there as they were. -/
def Untouched (d : ServerDeps) (σ σ' : Cluster χ) : Prop :=
  ∀ k s, σ.sessions.get k = some s → otherInstance d s = true → σ'.sessions.get k = some s

/-- The request is answered alike on both clusters, and touches nobody else's Session. -/
def Isolated (child : ChildApi χ) (d : ServerDeps) (route : Route) (r : Request) (σ τ : Cluster χ) : Prop :=
  ((serve d route r).run (answer child) σ).1 = ((serve d route r).run (answer child) τ).1 ∧
    Untouched d σ ((serve d route r).run (answer child) σ).2 ∧
    Untouched d τ ((serve d route r).run (answer child) τ).2

/-- A list request, or any request below the collection: get, PUT, PATCH, scale and delete
requests, and those that are refused as none of these. -/
def Inspects (route : Route) (r : Request) : Prop :=
  match route with
  | .sessions => r.method = "GET"
  | .session => True
  | .adopt => False

/-- The action a request must be granted before it fetches a Session, if it is well formed. -/
def fetchAction (r : Request) : Option String :=
  if isScale r then
    if r.method = "POST" ∧ (decodeBody decodeScaleRequest 0 r).any (fun n => !(n < 0)) then some "scale" else none
  else if r.method = "GET" then some "get"
  else if r.method = "PUT" ∨ r.method = "PATCH" then some "update"
  else if r.method = "DELETE" then some "delete"
  else none

/-- The request gets as far as fetching the Session at the key. -/
def Fetches (policy : Enforce) (route : Route) (r : Request) (k : Key) : Prop :=
  route = .session ∧ ∃ action rest, fetchAction r = some action ∧
    pathParts r = k.ns :: k.name :: rest ∧ May policy r action k.ns

/-! ## Requests that fetch a Session -/

section

variable {child : ChildApi χ} {d : ServerDeps} {r : Request} {policy : Enforce} {k : Key}

/-- The program answers without looking at the cluster beyond its policy. -/
def Decided (child : ChildApi χ) (policy : Enforce) (p : Api HttpResp) : Prop :=
  ∃ resp, ∀ σ : Cluster χ, σ.policy = policy → p.run (answer child) σ = (resp, σ)

/-- What may follow a fetch from the key: an error is the answer; the answer to what was
fetched depends on that and on the version and time to come; other keys are left alone. -/
structure Follows (child : ChildApi χ) (k : Key) (g : Except HttpResp Session → Api HttpResp) : Prop where
  error : ∀ resp, g (.error resp) = .ret resp
  same : ∀ (σ τ : Cluster χ) cur, σ.sessions.get k = some cur → τ.sessions.get k = some cur →
    σ.sessions.next = τ.sessions.next → σ.clock = τ.clock →
    ((g (.ok cur)).run (answer child) σ).1 = ((g (.ok cur)).run (answer child) τ).1
  others : ∀ (σ : Cluster χ) cur, σ.sessions.get k = some cur → ∀ k', k' ≠ k →
    ((g (.ok cur)).run (answer child) σ).2.sessions.get k' = σ.sessions.get k'

/-- The program comes down to a fetch from the key and what follows it. -/
def ComesTo (child : ChildApi χ) (d : ServerDeps) (policy : Enforce) (k : Key) (p : Api HttpResp) : Prop :=
  ∃ g, Follows child k g ∧ ∀ σ : Cluster χ, σ.policy = policy →
    p.run (answer child) σ = (fetch d k >>= g).run (answer child) σ

theorem decided_ret (resp : HttpResp) : Decided child policy (.ret resp) := ⟨resp, fun _ _ => rfl⟩

/-- The gate decides, or the program goes on. -/
theorem mustCan_cases (child : ChildApi χ) {action ns : String} {f : Except HttpResp Claims → Api HttpResp}
    (error : ∀ resp, f (.error resp) = .ret resp) :
    (¬ May policy r action ns ∧ Decided child policy (MustCan d r "session" action ns >>= f)) ∨
    ∃ cl, May policy r action ns ∧ ∀ σ : Cluster χ, σ.policy = policy →
      (MustCan d r "session" action ns >>= f).run (answer child) σ = (f (.ok cl)).run (answer child) σ := by
  cases claims : r.claims with
  | none =>
    refine .inl ⟨?_, d.rbacMw.denied none, fun σ _ => ?_⟩
    · rintro ⟨cl, some, -⟩
      cases claims.symm.trans some
    · rw [MustCan, claims, Prog.pure_eq, Prog.ret_bind, error]
      rfl
  | some cl =>
    have gate : ∀ σ : Cluster χ, σ.policy = policy →
        (MustCan d r "session" action ns >>= f).run (answer child) σ =
          (f (if granted (policy cl.sub cl.roles "session" action ns) then .ok cl
            else .error (d.rbacMw.denied (some (policy cl.sub cl.roles "session" action ns))))).run
              (answer child) σ := by
      rintro σ rfl
      rw [Prog.run_bind, run_mustCan claims]
    cases yes : granted (policy cl.sub cl.roles "session" action ns) with
    | true =>
      refine .inr ⟨cl, ⟨cl, claims, granted_iff.1 yes⟩, fun σ same => ?_⟩
      rw [gate σ same, if_pos yes]
    | false =>
      refine .inl ⟨?_, d.rbacMw.denied (some (policy cl.sub cl.roles "session" action ns)), fun σ same => ?_⟩
      · rintro ⟨cl', some, grant⟩
        cases claims.symm.trans some
        rw [grant] at yes
        cases yes
      · rw [gate σ same, if_neg (Bool.eq_false_iff.1 yes), error]
        rfl

theorem decided_gate {action ns : String} {f : Except HttpResp Claims → Api HttpResp} {resp : HttpResp}
    (error : ∀ resp, f (.error resp) = .ret resp) (ok : ∀ cl, f (.ok cl) = .ret resp) :
    Decided child policy (MustCan d r "session" action ns >>= f) := by
  rcases mustCan_cases child error with ⟨-, decided⟩ | ⟨cl, -, goesOn⟩
  · exact decided
  · exact ⟨resp, fun σ same => by rw [goesOn σ same, ok]; rfl⟩

/-! ## What a fetch finds -/

/-- What the handler has after the Get and the check. -/
def fetched (d : ServerDeps) (k : Key) : Option Session → Except HttpResp Session
  | none => .error (errJSON ("session not found: " ++ (ApiError.notFoundOf sessionResource k.name).message))
  | some s => if foreign d s then .error (httpError "not found" 404) else .ok s

theorem run_fetch (g : Except HttpResp Session → Api HttpResp) (σ : Cluster χ) :
    (fetch d k >>= g).run (answer child) σ = (g (fetched d k (σ.sessions.get k))).run (answer child) σ := by
  rw [fetch, Prog.bind_assoc, Prog.perform_bind, Prog.run_call]
  cases held : σ.sessions.get k with
  | none => simp [answer, held, fetched]
  | some s =>
    simp only [answer, held, fetched]
    cases foreign d s <;> rfl

/-- What is another instance's, or nobody's, is foreign to a confined server; nothing else is. -/
theorem foreign_of_other (confined : d.clusterScope = false) {s : Session} (other : otherInstance d s = true) :
    foreign d s = true := by
  simp only [otherInstance, Bool.and_eq_true, decide_eq_true_eq] at other
  simp [foreign, confined, other.2]

theorem not_other_of_own (confined : d.clusterScope = false) {s : Session} (own : foreign d s = false) :
    otherInstance d s = false := by
  cases other : otherInstance d s with
  | false => rfl
  | true => exact absurd (foreign_of_other confined other) (by simp [own])

theorem hidden_or_foreign (σ : Cluster χ) (hidden : (σ.sessions.get k).filter (!otherInstance d ·) = none) :
    σ.sessions.get k = none ∨ Foreign d σ k := by
  cases held : σ.sessions.get k with
  | none => exact .inl rfl
  | some s =>
    rw [held] at hidden
    exact .inr ⟨s, held, by simpa [Option.filter_eq_none_iff] using hidden⟩

/-- Where the clusters agree, a key holds the same on both, or another instance's Session or
nothing on each. -/
theorem Agree.cases {σ τ : Cluster χ} (agree : Agree d σ τ) (k : Key) :
    (∃ s, otherInstance d s = false ∧ σ.sessions.get k = some s ∧ τ.sessions.get k = some s) ∨
    ((σ.sessions.get k = none ∨ Foreign d σ k) ∧ (τ.sessions.get k = none ∨ Foreign d τ k)) := by
  have alike := agree.sessions k
  cases visible : (σ.sessions.get k).filter (!otherInstance d ·) with
  | none => exact .inr ⟨hidden_or_foreign σ visible, hidden_or_foreign τ (alike ▸ visible)⟩
  | some s =>
    obtain ⟨left, own⟩ := Option.filter_eq_some_iff.1 visible
    obtain ⟨right, -⟩ := Option.filter_eq_some_iff.1 (alike ▸ visible)
    exact .inl ⟨s, by simpa using own, left, right⟩

theorem fetched_ok {stored : Option Session} {cur : Session} (ok : fetched d k stored = .ok cur) :
    stored = some cur ∧ foreign d cur = false := by
  cases stored with
  | none => cases ok
  | some s =>
    rw [fetched] at ok
    split at ok
    · cases ok
    · rename_i own
      cases ok
      exact ⟨rfl, Bool.eq_false_iff.2 own⟩

theorem fetched_none (σ : Cluster χ) (absent : σ.sessions.get k = none) :
    ∃ resp, fetched d k (σ.sessions.get k) = .error resp ∧ resp.status = 500 := by
  rw [absent]
  exact ⟨_, rfl, rfl⟩

theorem fetched_foreign (confined : d.clusterScope = false) {σ : Cluster χ} (other : Foreign d σ k) :
    fetched d k (σ.sessions.get k) = .error (httpError "not found" 404) := by
  obtain ⟨s, held, other⟩ := other
  rw [held, fetched, if_pos (foreign_of_other confined other)]

theorem not_foreign_of_none {σ : Cluster χ} (absent : σ.sessions.get k = none) : ¬ Foreign d σ k := by
  rintro ⟨s, held, -⟩
  cases absent.symm.trans held

/-- The answers to a request that fetches from a key of which the server can tell nothing apart
but whether it is occupied by another instance. -/
theorem fetched_eq_iff (confined : d.clusterScope = false) {σ τ : Cluster χ} (agree : Agree d σ τ) (k : Key) :
    (Foreign d σ k ↔ Foreign d τ k) ∧ fetched d k (σ.sessions.get k) = fetched d k (τ.sessions.get k) ∨
    ¬ (Foreign d σ k ↔ Foreign d τ k) ∧ ∃ a b, fetched d k (σ.sessions.get k) = .error a ∧
      fetched d k (τ.sessions.get k) = .error b ∧ a ≠ b := by
  have foreignOf : ∀ {ρ : Cluster χ} {s}, ρ.sessions.get k = some s → otherInstance d s = false → ¬ Foreign d ρ k := by
    rintro ρ s held own ⟨s', held', other⟩
    cases held.symm.trans held'
    exact absurd other (by simp [own])
  rcases agree.cases k with ⟨s, own, left, right⟩ | ⟨left | left, right | right⟩
  · exact .inl ⟨iff_of_false (foreignOf left own) (foreignOf right own), by rw [left, right]⟩
  · exact .inl ⟨iff_of_false (not_foreign_of_none left) (not_foreign_of_none right), by rw [left, right]⟩
  · obtain ⟨resp, eq, status⟩ := fetched_none (d := d) σ left
    refine .inr ⟨fun same => not_foreign_of_none left (same.2 right), resp, _, eq,
      fetched_foreign confined right, ?_⟩
    rintro rfl
    cases status
  · obtain ⟨resp, eq, status⟩ := fetched_none (d := d) τ right
    refine .inr ⟨fun same => not_foreign_of_none right (same.1 left), _, resp,
      fetched_foreign confined left, eq, ?_⟩
    rintro rfl
    cases status
  · exact .inl ⟨iff_of_true left right, by rw [fetched_foreign confined left, fetched_foreign confined right]⟩

/-! ## Requests for one Session -/

/-- A request that fetches leaves the Sessions of other instances alone. -/
theorem ComesTo.untouched {p : Api HttpResp} (comes : ComesTo child d policy k p)
    (confined : d.clusterScope = false) {σ : Cluster χ} (same : σ.policy = policy) :
    Untouched d σ (p.run (answer child) σ).2 := by
  obtain ⟨g, follows, eq⟩ := comes
  intro k' s held other
  rw [eq σ same, run_fetch]
  cases result : fetched d k (σ.sessions.get k) with
  | error resp =>
    rw [follows.error]
    exact held
  | ok cur =>
    have own := fetched_ok result
    have elsewhere : k' ≠ k := by
      rintro rfl
      cases held.symm.trans own.1
      exact absurd other (by simp [not_other_of_own confined own.2])
    exact (follows.others σ cur own.1 k' elsewhere).trans held

theorem ComesTo.same_iff {p : Api HttpResp} (comes : ComesTo child d policy k p)
    (confined : d.clusterScope = false) {σ τ : Cluster χ} (agree : Agree d σ τ) (same : σ.policy = policy) :
    (p.run (answer child) σ).1 = (p.run (answer child) τ).1 ↔ (Foreign d σ k ↔ Foreign d τ k) := by
  obtain ⟨g, follows, eq⟩ := comes
  rw [eq σ same, eq τ (agree.policy ▸ same), run_fetch, run_fetch]
  rcases fetched_eq_iff confined agree k with ⟨both, alike⟩ | ⟨differ, a, b, left, right, ne⟩
  · refine iff_of_true ?_ both
    rw [← alike]
    cases result : fetched d k (σ.sessions.get k) with
    | error resp => rw [follows.error]; rfl
    | ok cur =>
      exact follows.same σ τ cur (fetched_ok result).1 (fetched_ok (alike ▸ result)).1 agree.next agree.clock
  · rw [left, right, follows.error, follows.error]
    exact iff_of_false ne differ

/-! ## What follows a fetch -/

/-- An Update of what is stored is accepted at once. -/
theorem run_store {σ : Cluster χ} {cur sent : Session} (held : σ.sessions.get k = some cur)
    (same : sent.SameObject cur) (failure : String) :
    (store d sent failure).run (answer child) σ =
      (writeJSON (.session (stamp σ.sessions.next sent)), σ.commit sent) := by
  have key : sent.key = k := same.key.trans (σ.keyed k cur held)
  have accepted : σ.sessions.check sent.key sent.metadata.resourceVersion = .ok cur := by
    rw [key, same.version]
    exact Store.check_current held
  have updates : answer child σ (.update sent) = (.ok (stamp σ.sessions.next sent), σ.commit sent) := by
    simp only [answer, Cluster.replace, accepted, updated_of_same same]
  have attempt : ∀ n, (retryOnConflict (api (.update sent)) n).run (answer child) σ =
      (.ok (stamp σ.sessions.next sent), σ.commit sent) := by
    intro n
    cases n with
    | zero => exact updates
    | succ n =>
      have first : (api (.update sent)).run (answer child) σ =
          (.ok (stamp σ.sessions.next sent), σ.commit sent) := updates
      rw [retryOnConflict, Prog.run_bind, first]
      rfl
  unfold store
  rw [Prog.run_bind, attempt]
  rfl

theorem store_follows (change : String → Session → Session) {failure : String}
    {g : Except HttpResp Session → Api HttpResp} (error : ∀ resp, g (.error resp) = .ret resp)
    (ok : ∀ cur (σ : Cluster χ), (g (.ok cur)).run (answer child) σ =
      (store d (change σ.clock cur) failure).run (answer child) σ)
    (same : ∀ now cur, (change now cur).SameObject cur) : Follows child k g where
  error := error
  same σ τ cur left right next clock := by
    rw [ok, ok, run_store left (same _ cur), run_store right (same _ cur), next, clock]
  others σ cur held k' ne := by
    rw [ok, run_store held (same _ cur)]
    refine Cluster.commit_get_ne ?_
    rwa [(same _ cur).key, σ.keyed k cur held]

theorem delete_follows {g : Except HttpResp Session → Api HttpResp}
    {h : Session → Except ApiError Unit → Api HttpResp} {resp : Session → HttpResp}
    (error : ∀ resp, g (.error resp) = .ret resp) (ok : ∀ cur, g (.ok cur) = api (.delete cur.key) >>= h cur)
    (sent : ∀ cur, h cur (.ok ()) = .ret (resp cur)) : Follows child k g := by
  have run : ∀ (σ : Cluster χ) cur, σ.sessions.get k = some cur →
      (g (.ok cur)).run (answer child) σ = (resp cur, (answer child σ (.delete k)).2) := by
    intro σ cur held
    have removed : (answer child σ (.delete k)).1 = .ok () := by
      simp only [answer, Cluster.delete, held]
      split
      · rfl
      split <;> rfl
    rw [ok, σ.keyed k cur held]
    show (h cur (answer child σ (.delete k)).1).run _ _ = _
    rw [removed, sent]
    rfl
  refine ⟨error, fun σ τ cur left right _ _ => ?_, fun σ cur held k' ne => ?_⟩
  · rw [run σ cur left, run τ cur right]
  · rw [run σ cur held]
    exact answers_delete (answers_answer child σ (.delete k)) ne

/-! ## The handlers -/

/-- The request either is decided before it fetches anything, or comes down to a fetch. -/
def Splits (child : ChildApi χ) (d : ServerDeps) (policy : Enforce) (r : Request) (p : Api HttpResp) : Prop :=
  (¬ ∃ k, Fetches policy .session r k) ∧ Decided child policy p ∨
    ∃ k, Fetches policy .session r k ∧ ComesTo child d policy k p

theorem splits_of_action_none {p : Api HttpResp} (none : fetchAction r = none)
    (decided : Decided child policy p) : Splits child d policy r p := by
  refine .inl ⟨?_, decided⟩
  rintro ⟨k, -, action, rest, some, -⟩
  cases none.symm.trans some

theorem splits_of_short {p : Api HttpResp} (short : ∀ ns name rest, pathParts r ≠ ns :: name :: rest)
    (decided : Decided child policy p) : Splits child d policy r p := by
  refine .inl ⟨?_, decided⟩
  rintro ⟨k, -, action, rest, -, path, -⟩
  exact short _ _ _ path

/-- The gate and the fetch that every request for one Session begins with. -/
theorem splits_gate (action : String) {ns name : String} {rest : List String} {f : Except HttpResp Claims → Api HttpResp}
    {g : Claims → Except HttpResp Session → Api HttpResp} (path : pathParts r = ns :: name :: rest)
    (asks : fetchAction r = some action) (error : ∀ resp, f (.error resp) = .ret resp)
    (ok : ∀ cl, f (.ok cl) = fetch d ⟨ns, name⟩ >>= g cl) (follows : ∀ cl, Follows child ⟨ns, name⟩ (g cl)) :
    Splits child d policy r (MustCan d r "session" action ns >>= f) := by
  rcases mustCan_cases child error with ⟨denied, decided⟩ | ⟨cl, may, goesOn⟩
  · refine .inl ⟨?_, decided⟩
    rintro ⟨k, -, action', rest', asks', path', may⟩
    cases asks.symm.trans asks'
    obtain ⟨rfl, -⟩ := List.cons.inj (path.symm.trans path')
    exact denied may
  · refine .inr ⟨⟨ns, name⟩, ⟨rfl, action, rest, asks, path, may⟩, g cl, follows cl, ?_⟩
    intro σ same
    rw [goesOn σ same, ok]

theorem handleGetSession_splits (item : isScale r = false) (get : r.method = "GET") :
    Splits child d policy r (handleGetSession d r) := by
  unfold handleGetSession
  split
  · rename_i ns name rest path
    refine splits_gate "get" path (by simp [fetchAction, item, get])
      (fun _ => rfl) (fun _ => rfl) fun _ => ?_
    exact ⟨fun _ => rfl, fun _ _ _ _ _ _ _ => rfl, fun _ _ _ _ _ => rfl⟩
  · rename_i short
    exact splits_of_short (fun ns name rest path => short ns name rest path) (decided_ret _)

theorem handleDeleteSession_splits (item : isScale r = false) (method : r.method = "DELETE") :
    Splits child d policy r (handleDeleteSession d r) := by
  unfold handleDeleteSession
  rw [if_neg (by simp [method])]
  split
  · rename_i ns name rest path
    refine splits_gate "delete" path (by simp [fetchAction, item, method])
      (fun _ => rfl) (fun _ => rfl) fun _ =>
        delete_follows (fun _ => rfl) (fun _ => rfl) (fun _ => rfl)
  · rename_i short
    exact splits_of_short (fun ns name rest path => short ns name rest path) (decided_ret _)

theorem handleScaleSession_splits (scale : isScale r = true) :
    Splits child d policy r (handleScaleSession d r) := by
  unfold handleScaleSession
  split
  · rename_i other
    exact splits_of_action_none (by simp [fetchAction, scale, other]) (decided_ret _)
  rename_i post
  have post : r.method = "POST" := Decidable.not_not.1 post
  split
  · rename_i ns name rest path
    cases body : decodeBody decodeScaleRequest 0 r with
    | none =>
      refine splits_of_action_none (by simp [fetchAction, scale, body]) ?_
      exact decided_gate (fun _ => rfl) fun _ => rfl
    | some replicas =>
      by_cases negative : replicas < 0
      · refine splits_of_action_none (by simp [fetchAction, scale, body, negative]) ?_
        exact decided_gate (fun _ => rfl) fun _ => if_pos negative
      · refine splits_gate "scale" path (by simp [fetchAction, scale, post, body, negative])
          (fun _ => rfl) (fun _ => if_neg negative) fun _ => ?_
        exact store_follows (fun _ => scaled replicas) (fun _ => rfl) (fun _ _ => rfl)
          fun _ => scaled_same replicas
  · rename_i short
    exact absurd scale fun scale => by
      unfold isScale at scale
      split at scale
      · rename_i ns name operation path
        rw [of_decide_eq_true scale] at path
        exact short _ _ _ path
      · cases scale

theorem handleUpdateSession_splits (item : isScale r = false) (method : r.method = "PUT" ∨ r.method = "PATCH") :
    Splits child d policy r (handleUpdateSession d r) := by
  have notGet : r.method ≠ "GET" := by
    rintro get
    rw [get] at method
    revert method
    decide
  unfold handleUpdateSession
  rw [if_neg fun other => method.elim other.1 other.2]
  split
  · rename_i ns name rest path
    refine splits_gate "update" path (by simp [fetchAction, item, notGet, method])
      (fun _ => rfl) (fun _ => rfl) fun cl => ?_
    cases ed : edit d r with
    | none => exact ⟨fun _ => rfl, fun _ _ _ _ _ _ _ => rfl, fun _ _ _ _ _ => rfl⟩
    | some change =>
      exact store_follows (fun now s => touched cl now (change s)) (fun _ => rfl) (fun _ _ => rfl)
        fun now cur => (touched_same cl now (change cur)).trans (edit_same d ed cur)
  · rename_i short
    exact splits_of_short (fun ns name rest path => short ns name rest path) (decided_ret _)

theorem serve_splits (child : ChildApi χ) (d : ServerDeps) (r : Request) (policy : Enforce) :
    Splits child d policy r (serve d .session r) := by
  refine serve_session_cases (P := Splits child d policy r) ?_ ?_ handleScaleSession_splits
    handleGetSession_splits handleUpdateSession_splits handleDeleteSession_splits ?_
  · intro anonymous
    refine .inl ⟨?_, decided_ret _⟩
    rintro ⟨k, -, action, rest, -, -, cl, some, -⟩
    cases anonymous.symm.trans some
  · intro short
    refine splits_of_short (fun ns name rest path => ?_) (decided_ret _)
    rw [path, List.length_cons, List.length_cons] at short
    omega
  · intro item notGet notUpdate notDelete
    exact splits_of_action_none (by simp [fetchAction, item, notGet, notUpdate, notDelete]) (decided_ret _)

/-- Requests for one Session: alike on both clusters exactly where the key is, if they fetch. -/
theorem session_isolated_iff (confined : d.clusterScope = false) {σ τ : Cluster χ} (agree : Agree d σ τ) :
    Isolated child d .session r σ τ ↔
      ∀ k, Fetches σ.policy .session r k → (Foreign d σ k ↔ Foreign d τ k) := by
  rcases serve_splits child d r σ.policy with
    ⟨never, resp, decided⟩ | ⟨k, fetches, comes⟩
  · refine iff_of_true ?_ fun k fetches => absurd ⟨k, fetches⟩ never
    rw [Isolated, decided σ rfl, decided τ agree.policy.symm]
    exact ⟨rfl, fun _ _ held _ => held, fun _ _ held _ => held⟩
  · have only : ∀ k', Fetches σ.policy .session r k' → k' = k := by
      rintro k' ⟨-, _, _, -, path', -⟩
      obtain ⟨-, _, _, -, path, -⟩ := fetches
      obtain ⟨ns, rest⟩ := List.cons.inj (path'.symm.trans path)
      cases k
      cases k'
      exact congrArg₂ Key.mk ns (List.cons.inj rest).1
    have untouched := comes.untouched confined (rfl : σ.policy = σ.policy)
    have untouched' := comes.untouched confined agree.policy.symm
    rw [Isolated, comes.same_iff confined agree rfl]
    exact ⟨fun h k' fetches' => only k' fetches' ▸ h.1, fun h => ⟨h k fetches, untouched, untouched'⟩⟩

/-! ## Lists -/

/-- The program changes neither cluster and ends alike on both. -/
def Alike {α : Type} (child : ChildApi χ) (σ τ : Cluster χ) (p : Api α) : Prop :=
  ∃ a, p.run (answer child) σ = (a, σ) ∧ p.run (answer child) τ = (a, τ)

section

variable {σ τ : Cluster χ} {α β : Type}

theorem alike_ret (a : α) : Alike child σ τ (.ret a) := ⟨a, rfl, rfl⟩

theorem alike_bind {p : Api α} {f : α → Api β} (first : Alike child σ τ p)
    (rest : ∀ a, Alike child σ τ (f a)) : Alike child σ τ (p >>= f) := by
  obtain ⟨a, left, right⟩ := first
  obtain ⟨b, left', right'⟩ := rest a
  exact ⟨b, by rw [Prog.run_bind, left, left'], by rw [Prog.run_bind, right, right']⟩

theorem alike_enforce (agree : Agree d σ τ) (sub : String) (roles : List String) (res act dom : String) :
    Alike child σ τ (api (.enforce sub roles res act dom)) :=
  ⟨σ.policy sub roles res act dom, rfl, by rw [agree.policy]; rfl⟩

/-- The server's own label selects nothing of another instance. -/
theorem not_other_of_selected (confined : d.clusterScope = false) {s : Session}
    (selected : matchesLabels (instanceSelector d) s = true) : otherInstance d s = false := by
  have label : s.metadata.labels.lookup d.common.instanceIDLabel = some d.instanceID := by
    simpa [instanceSelector, confined, matchesLabels] using selected
  simp [otherInstance, GoMap.index, label]

theorem alike_list (confined : d.clusterScope = false) (agree : Agree d σ τ)
    (ns : Option String) : Alike child σ τ (api (.list ns (instanceSelector d))) := by
  have visible : ∀ ρ : Cluster χ, ((ρ.sessions.list Key.le).filter fun s =>
        inNamespace ns s && matchesLabels (instanceSelector d) s) =
      ((ρ.sessions.list Key.le).filter (!otherInstance d ·)).filter fun s =>
        inNamespace ns s && matchesLabels (instanceSelector d) s := by
    intro ρ
    rw [List.filter_filter]
    refine List.filter_congr fun s _ => ?_
    cases selected : matchesLabels (instanceSelector d) s with
    | false => simp
    | true => simp [not_other_of_selected confined selected]
  refine ⟨_, rfl, ?_⟩
  show ((.ok _, τ) : Except ApiError (List Session) × Cluster χ) = (.ok _, τ)
  rw [visible σ, visible τ, Store.filter_list_congr Key.le _ agree.sessions]

theorem alike_mustCan (agree : Agree d σ τ) (action ns : String) :
    Alike child σ τ (MustCan d r sessionResourceString action ns) := by
  unfold MustCan
  cases r.claims with
  | none => exact alike_ret _
  | some cl =>
    refine alike_bind (alike_enforce agree ..) fun decision => ?_
    split
    · exact alike_ret _
    · exact alike_ret _

theorem alike_canAccess (agree : Agree d σ τ) (pr : Claims) (items : List Session) :
    Alike child σ τ (canAccess pr items) := by
  induction items with
  | nil => exact alike_ret _
  | cons s items ih =>
    exact alike_bind (alike_enforce agree ..) fun decision => alike_bind ih fun sessions => alike_ret _

theorem alike_sendList (confined : d.clusterScope = false) (sessions : List Session) (namespaces : List String)
    (filtered : Bool) : Alike child σ τ (sendList d sessions namespaces filtered) := by
  unfold sendList
  rw [confined]
  exact alike_ret _

theorem alike_handleListSessions (confined : d.clusterScope = false)
    (agree : Agree d σ τ) : Alike child σ τ (handleListSessions d r) := by
  unfold handleListSessions
  refine alike_bind (alike_mustCan agree _ _) fun gate => ?_
  cases gate with
  | error resp => exact alike_ret _
  | ok pr =>
    dsimp only
    split
    · refine alike_bind (alike_list confined agree none) fun listed => ?_
      cases listed with
      | error e => exact alike_ret _
      | ok items =>
        exact alike_bind (alike_canAccess agree pr items) fun sessions => alike_sendList confined ..
    · refine alike_bind (alike_list confined agree _) fun listed => ?_
      cases listed with
      | error e => exact alike_ret _
      | ok sessions => exact alike_sendList confined ..

theorem list_isolated (confined : d.clusterScope = false)
    (agree : Agree d σ τ) (get : r.method = "GET") : Isolated child d .sessions r σ τ := by
  have alike : Alike child σ τ (serve d .sessions r) := by
    refine wrapWithAuth_cases (P := Alike child σ τ) (fun _ => alike_ret _) ?_
    rw [handleSessionOperations, if_pos get]
    exact alike_handleListSessions confined agree
  obtain ⟨resp, left, right⟩ := alike
  rw [Isolated, left, right]
  exact ⟨rfl, fun _ _ held _ => held, fun _ _ held _ => held⟩

end

/-- **Main result.** A confined server answers a list request alike on two clusters that differ
in other instances' Sessions only; it answers a request for one Session alike if and only if
the key it fetches, if it gets that far, holds another instance's Session in both clusters or
in neither. It touches no Session of another instance. -/
theorem isolation_iff {route : Route} {σ τ : Cluster χ} (confined : d.clusterScope = false)
    (inspects : Inspects route r) (agree : Agree d σ τ) :
    Isolated child d route r σ τ ↔ ∀ k, Fetches σ.policy route r k → (Foreign d σ k ↔ Foreign d τ k) := by
  cases route with
  | sessions =>
    refine iff_of_true (list_isolated confined agree inspects) ?_
    rintro k ⟨⟨⟩, -⟩
  | session => exact session_isolated_iff confined agree
  | adopt => cases inspects

end

/-! ## Two clusters -/

/-- A request for the Session `ns/a`. -/
def getRequest : Request where
  method := "GET"
  path := "/api/v1/server/sessions/ns/a"
  query := []
  body := none
  claims := some ⟨"u", []⟩

/-- A cluster in which `ns/a` belongs to an instance. -/
def occupied (instanceID : String) : Cluster Manifest := .single allowAll (sessionOf instanceID)

/-- The same cluster once that Session is gone. -/
def vacated (instanceID : String) : Cluster Manifest := (occupied instanceID).drop ⟨"ns", "a"⟩

theorem occupied_get (instanceID : String) (k : Key) : (occupied instanceID).sessions.get k =
    if k = ⟨"ns", "a"⟩ then some (stamp 1 (sessionOf instanceID)) else none := by
  have held : (sessionOf instanceID).Held := by rintro ⟨⟩
  show ((Cluster.blank.commit (sessionOf instanceID)).sessions.get k) = _
  rw [Cluster.commit_held held]
  exact Store.get_write ..

theorem occupied_next (instanceID : String) : (occupied instanceID).sessions.next = 2 := by
  have held : (sessionOf instanceID).Held := by rintro ⟨⟩
  show (Cluster.blank.commit (sessionOf instanceID)).sessions.next = 2
  rw [Cluster.commit_held held]
  rfl

/-- Instance `i` sees nothing of the Session of another instance. -/
theorem occupied_hidden {instanceID : String} (other : otherInstance (.plain "i" false) (sessionOf instanceID) = true)
    (k : Key) : ((occupied instanceID).sessions.get k).filter (!otherInstance (.plain "i" false) ·) = none := by
  rw [occupied_get]
  split
  · exact Option.filter_some_neg (by simpa [otherInstance] using other)
  · rfl

/-- Whether `ns/a` belongs to instance `j` or `k` is the same to instance `i`. -/
theorem occupied_alike :
    Isolated replaceApi (.plain "i" false) .session getRequest (occupied "j") (occupied "k") := by
  have agree : Agree (.plain "i" false) (occupied "j") (occupied "k") := {
    sessions k := by rw [occupied_hidden rfl, occupied_hidden rfl]
    next := by rw [occupied_next, occupied_next]
    clock := rfl
    policy := rfl }
  have inspects : Inspects .session getRequest := trivial
  refine (isolation_iff rfl inspects agree).2 fun k _ => ?_
  have foreign_iff : ∀ owner, otherInstance (.plain "i" false) (stamp 1 (sessionOf owner)) = true →
      (Foreign (.plain "i" false) (occupied owner) k ↔ k = ⟨"ns", "a"⟩) := by
    intro owner other
    rw [Foreign, occupied_get]
    constructor
    · rintro ⟨s, held, -⟩
      by_contra elsewhere
      rw [if_neg elsewhere] at held
      cases held
    · rintro rfl
      exact ⟨_, if_pos rfl, other⟩
  rw [foreign_iff "j" rfl, foreign_iff "k" rfl]

/-- Whether `ns/a` belongs to instance `j` or to nobody is not. -/
theorem occupied_revealed : Agree (.plain "i" false) (occupied "j") (vacated "j") ∧
    May (occupied "j").policy getRequest "get" "ns" ∧
    ((serve (.plain "i" false) .session getRequest).run (answer replaceApi) (occupied "j")).1.status = 404 ∧
    ((serve (.plain "i" false) .session getRequest).run (answer replaceApi) (vacated "j")).1.status = 500 ∧
    ¬ Isolated replaceApi (.plain "i" false) .session getRequest (occupied "j") (vacated "j") := by
  have found : ((serve (.plain "i" false) .session getRequest).run (answer replaceApi)
      (occupied "j")).1.status = 404 := by decide +kernel
  have missing : ((serve (.plain "i" false) .session getRequest).run (answer replaceApi)
      (vacated "j")).1.status = 500 := by decide +kernel
  refine ⟨⟨fun k => ?_, rfl, rfl, rfl⟩, ⟨⟨"u", []⟩, rfl, rfl⟩, found, missing, fun isolated => ?_⟩
  · rw [occupied_hidden rfl]
    by_cases here : k = ⟨"ns", "a"⟩
    · rw [here, vacated]
      exact (congrArg (Option.filter _) (Store.get_erase_self _ _)).symm
    · refine .symm ((congrArg (Option.filter _) (Store.get_erase_ne _ here)).trans ?_)
      exact occupied_hidden rfl k
  · rw [isolated.1, missing] at found
    cases found

end Codespace.Server
