import Codespace.Server.Isolation
import Codespace.Server.Stream

/-!
# Which Sessions a confined server shows

A server that is confined to its instance decides in three ways whether a Session is its
own: lists and the watch select the label of the instance, and the handlers for one Session
look the label up in a Go map, where a missing one is the empty string. The two agree but
for one case: a server that runs without an id, and a Session without the label. It is
found, and never listed.
-/

namespace Codespace.Server
set_option autoImplicit false
open Interact Versioned

variable {χ : Type}

/-! ## What is claimed -/

/-- The policy allows the principal everything. -/
def AllowsAll (policy : Enforce) (cl : Claims) : Prop :=
  ∀ resource action domain, policy cl.sub cl.roles resource action domain = .ok true

/-- The namespace that a list request or the stream asks for, if it does not ask for all. -/
def askedNamespace (r : Request) : Option String :=
  if allNamespaces r then none else some (q r "namespace" "default")

/-- What the list and the watch of a request select: `client.MatchingLabels` and the
selector string of `labels.Set` select alike. -/
def selects (d : ServerDeps) (r : Request) (s : Session) : Bool :=
  inNamespace (askedNamespace r) s && matchesLabels (instanceSelector d) s

/-- The Sessions that a list request selects and its principal may list. -/
def listed (d : ServerDeps) (r : Request) (cl : Claims) (σ : Cluster χ) : List Session :=
  ((σ.sessions.list Key.le).filter (selects d r)).filter fun s => !allNamespaces r ||
    granted (σ.policy cl.sub cl.roles sessionResourceString "list" s.metadata.ns)

/-- The index a list is enriched with. -/
def listIndex (d : ServerDeps) (σ : Cluster χ) : GoMap String AnchorMeta := if d.clusterScope then σ.index else ∅

/-- The Session at the key is in the list that answers the request. -/
def Listed (child : ChildApi χ) (d : ServerDeps) (σ : Cluster χ) (r : Request) (k : Key) : Prop :=
  ∃ s ∈ ((serve d .sessions r).run (answer child) σ).1.sessions, s.key = k

/-- The request for one Session is answered "not found". -/
def NotFound (child : ChildApi χ) (d : ServerDeps) (σ : Cluster χ) (r : Request) : Prop :=
  ((serve d .session r).run (answer child) σ).1 = httpError "not found" 404

/-- Requests of one principal about the Session at a key: the list of its namespace, the list
and the stream of its namespace or of all, and a well-formed request to get, update, scale or
delete it. -/
structure Inquiry (cl : Claims) (k : Key) where
  list : Request
  listAll : Request
  stream : Request
  session : Request
  claims : ∀ r ∈ [list, listAll, stream, session], r.claims = some cl
  get : list.method = "GET" ∧ listAll.method = "GET"
  one : allNamespaces list = false ∧ q list "namespace" "default" = k.ns
  all : allNamespaces listAll = true
  watch : allNamespaces stream = true ∨ q stream "namespace" "default" = k.ns
  action : (fetchAction session).isSome
  path : ∃ rest, pathParts session = k.ns :: k.name :: rest

/-- The endpoints agree on whether there is such a Session. -/
def Agreed (child : ChildApi χ) (d : ServerDeps) (σ : Cluster χ) {cl : Claims} {s : Session}
    (inq : Inquiry cl s.key) : Prop :=
  (Listed child d σ inq.list s.key ↔ Listed child d σ inq.listAll s.key) ∧
    (Listed child d σ inq.list s.key ↔ selects d inq.stream s = true) ∧
    (Listed child d σ inq.list s.key ↔ ¬ NotFound child d σ inq.session)

/-! ## Lists -/

section

variable {child : ChildApi χ} {d : ServerDeps} {r : Request} {cl : Claims} {σ : Cluster χ} {k : Key} {s : Session}

/-- The gate lets a principal with a grant pass. -/
theorem run_gate {action ns : String} {f : Except HttpResp Claims → Api HttpResp} (claims : r.claims = some cl)
    (grant : σ.policy cl.sub cl.roles sessionResourceString action ns = .ok true) :
    (MustCan d r sessionResourceString action ns >>= f).run (answer child) σ = (f (.ok cl)).run (answer child) σ := by
  rw [Prog.run_bind, run_mustCan claims, grant, if_pos (granted_iff.2 rfl)]

/-- The filter by namespaces. -/
theorem run_canAccess (items : List Session) : (canAccess cl items).run (answer child) σ =
    (items.filter fun s => granted (σ.policy cl.sub cl.roles sessionResourceString "list" s.metadata.ns), σ) := by
  induction items with
  | nil => rfl
  | cons s items ih =>
    show ((canAccess cl items >>= fun sessions => .ret (if granted (σ.policy cl.sub cl.roles _ _ _) then
      s :: sessions else sessions)).run (answer child) σ) = _
    rw [Prog.run_bind, ih, List.filter_cons]
    rfl

theorem run_sendList (sessions : List Session) (namespaces : List String) (filtered : Bool) :
    (sendList d sessions namespaces filtered).run (answer child) σ = (writeJSON (.sessionList
      (sessions.map (enrich d (listIndex d σ))) sessions.length namespaces filtered), σ) := by
  unfold sendList listIndex
  cases d.clusterScope <;> rfl

theorem selects_eq {wanted : Option String} (asked : askedNamespace r = wanted) :
    selects d r = fun s => inNamespace wanted s && matchesLabels (instanceSelector d) s := by
  subst asked
  rfl

/-- A list request is refused, or answered with the Sessions it selects. -/
theorem list_cases (child : ChildApi χ) (d : ServerDeps) (σ : Cluster χ) (get : r.method = "GET") :
    ¬ May σ.policy r "list" (streamDomain r) ∧ 400 ≤ ((serve d .sessions r).run (answer child) σ).1.status ∨
    ∃ cl, r.claims = some cl ∧ ((serve d .sessions r).run (answer child) σ).1.sessions =
      (listed d r cl σ).map (enrich d (listIndex d σ)) := by
  refine wrapWithAuth_cases
    (P := fun p : Api HttpResp => ¬ May σ.policy r "list" (streamDomain r) ∧ 400 ≤ (p.run (answer child) σ).1.status ∨
      ∃ cl, r.claims = some cl ∧ (p.run (answer child) σ).1.sessions = (listed d r cl σ).map (enrich d (listIndex d σ)))
    (fun anonymous => .inl ⟨?_, Nat.le_succ 400⟩) ?_
  · rintro ⟨cl, some, -⟩
    cases anonymous.symm.trans some
  rw [handleSessionOperations, if_pos get]
  unfold handleListSessions
  extract_lets ns
  cases claims : r.claims with
  | none =>
    refine .inl ⟨?_, ?_⟩
    · rintro ⟨cl, some, -⟩
      cases claims.symm.trans some
    · rw [MustCan, claims]
      exact d.rbacMw.denied_status none
  | some cl =>
    have asked : (if allNamespaces r then "*" else ns) = streamDomain r := rfl
    rw [asked, Prog.run_bind, run_mustCan claims]
    cases may : granted (σ.policy cl.sub cl.roles sessionResourceString "list" (streamDomain r)) with
    | false =>
      rw [if_neg Bool.false_ne_true]
      refine .inl ⟨fun yes => ?_, d.rbacMw.denied_status _⟩
      cases may.symm.trans ((may_iff claims _ _ _).1 yes)
    | true =>
      refine .inr ⟨cl, rfl, ?_⟩
      rw [if_pos rfl]
      dsimp only
      cases all : allNamespaces r with
      | true =>
        have asked : askedNamespace r = none := by rw [askedNamespace, all]; rfl
        show HttpResp.sessions ((canAccess cl _ >>= _).run (answer child) σ).1 = _
        rw [Prog.run_bind, run_canAccess]
        dsimp only
        rw [run_sendList, listed, selects_eq asked]
        simp only [all, Bool.not_true, Bool.false_or]
        rfl
      | false =>
        have asked : askedNamespace r = some ns := by rw [askedNamespace, all]; rfl
        show HttpResp.sessions ((sendList d _ [ns] false).run (answer child) σ).1 = _
        rw [run_sendList, listed, selects_eq asked]
        simp only [all, Bool.not_false, Bool.true_or, List.filter_true]
        rfl

/-- What a list shows was stored, and selected. -/
theorem mem_listed (mem : s ∈ listed d r cl σ) : σ.sessions.get s.key = some s ∧ selects d r s = true := by
  obtain ⟨mem, -⟩ := List.mem_filter.1 mem
  obtain ⟨mem, selected⟩ := List.mem_filter.1 mem
  obtain ⟨k, stored⟩ := (Store.mem_list Key.le).1 mem
  exact ⟨σ.keyed k s stored ▸ stored, selected⟩

theorem listed_iff (claims : r.claims = some cl) (allows : AllowsAll σ.policy cl) (get : r.method = "GET")
    (stored : σ.sessions.get s.key = some s) : Listed child d σ r s.key ↔ selects d r s = true := by
  rcases list_cases child d σ get with ⟨denied, -⟩ | ⟨cl', claims', shown⟩
  · exact absurd ⟨cl, claims, allows ..⟩ denied
  cases claims.symm.trans claims'
  rw [Listed, shown]
  constructor
  · rintro ⟨_, mem, same⟩
    obtain ⟨s', mem', rfl⟩ := List.mem_map.1 mem
    obtain ⟨stored', selected⟩ := mem_listed mem'
    have key : s'.key = s.key := same
    cases (key ▸ stored').symm.trans stored
    exact selected
  · intro selected
    have mem : s ∈ listed d r cl σ := by
      refine List.mem_filter.2 ⟨List.mem_filter.2 ⟨(Store.mem_list Key.le).2 ⟨_, stored⟩, selected⟩, ?_⟩
      rw [allows, granted_iff.2 rfl, Bool.or_true]
    exact ⟨_, List.mem_map_of_mem mem, rfl⟩

/-- Where the namespace is right, the label decides. -/
theorem selects_iff (confined : d.clusterScope = false)
    (asked : allNamespaces r = true ∨ q r "namespace" "default" = s.metadata.ns) :
    selects d r s = true ↔ s.metadata.labels.lookup d.common.instanceIDLabel = some d.instanceID := by
  have inside : inNamespace (askedNamespace r) s = true := by
    unfold askedNamespace
    split
    · rfl
    · rename_i one
      exact decide_eq_true (asked.resolve_left one).symm
  simp [selects, inside, instanceSelector, confined, matchesLabels]

/-! ## Requests for one Session -/

/-- The gate and the fetch, for what goes on with a Session of the server's own. -/
theorem notFound_iff_foreign {action : String} {f : Except HttpResp Claims → Api HttpResp}
    {g : Except HttpResp Session → Api HttpResp} (claims : r.claims = some cl) (allows : AllowsAll σ.policy cl)
    (stored : σ.sessions.get k = some s) (ok : f (.ok cl) = fetch d k >>= g)
    (error : ∀ resp, g (.error resp) = .ret resp)
    (found : ((g (.ok s)).run (answer child) σ).1.status ≠ 404) :
    ((MustCan d r sessionResourceString action k.ns >>= f).run (answer child) σ).1 = httpError "not found" 404 ↔
      foreign d s = true := by
  rw [run_gate claims (allows ..), ok, run_fetch, stored, fetched]
  cases other : foreign d s with
  | true =>
    rw [if_pos rfl, error]
    exact iff_of_true rfl rfl
  | false =>
    refine iff_of_false (fun missing => found ?_) Bool.false_ne_true
    exact congrArg HttpResp.status missing

theorem store_found {sent : Session} (stored : σ.sessions.get k = some s) (same : sent.SameObject s)
    (failure : String) : ((store d sent failure).run (answer child) σ).1.status ≠ 404 := by
  rw [run_store stored same]
  exact (by decide : 200 ≠ 404)

theorem scale_notFound_iff (claims : r.claims = some cl) (allows : AllowsAll σ.policy cl)
    (stored : σ.sessions.get k = some s) (scale : isScale r = true) (action : (fetchAction r).isSome)
    {rest : List String} (path : pathParts r = k.ns :: k.name :: rest) :
    ((handleScaleSession d r).run (answer child) σ).1 = httpError "not found" 404 ↔ foreign d s = true := by
  have operation : pathParts r = [k.ns, k.name, "scale"] := by
    unfold isScale at scale
    split at scale
    · rename_i ns name operation three
      rw [of_decide_eq_true scale] at three
      obtain ⟨rfl, more⟩ := List.cons.inj (three.symm.trans path)
      obtain ⟨rfl, -⟩ := List.cons.inj more
      exact three
    · cases scale
  have wellFormed : r.method = "POST" ∧ (decodeBody decodeScaleRequest 0 r).any (fun n => !(n < 0)) := by
    by_contra malformed
    rw [fetchAction, if_pos scale, if_neg malformed] at action
    cases action
  obtain ⟨post, body⟩ := wellFormed
  unfold handleScaleSession
  rw [if_neg (not_not.2 post), operation]
  cases decoded : decodeBody decodeScaleRequest 0 r with
  | none =>
    rw [decoded] at body
    cases body
  | some replicas =>
    have admitted : ¬ replicas < 0 := by simpa [decoded] using body
    refine notFound_iff_foreign claims allows stored (if_neg admitted) (fun _ => rfl) ?_
    exact store_found stored (scaled_same replicas s) _

/-- A well-formed request for a stored Session is answered "not found" if it is foreign. -/
theorem notFound_iff (claims : r.claims = some cl) (allows : AllowsAll σ.policy cl)
    (stored : σ.sessions.get k = some s) (action : (fetchAction r).isSome) {rest : List String}
    (path : pathParts r = k.ns :: k.name :: rest) : NotFound child d σ r ↔ foreign d s = true := by
  refine serve_session_cases
    (P := fun p : Api HttpResp => (p.run (answer child) σ).1 = httpError "not found" 404 ↔ foreign d s = true)
    (fun anonymous => by cases anonymous.symm.trans claims) (fun short => ?_)
    (fun scale => scale_notFound_iff claims allows stored scale action path)
    (fun item get => ?_) (fun item update => ?_) (fun item delete => ?_)
    (fun item notGet notUpdate notDelete => ?_)
  · rw [path, List.length_cons, List.length_cons] at short
    omega
  · unfold handleGetSession
    rw [path]
    refine notFound_iff_foreign claims allows stored rfl (fun _ => rfl) ?_
    exact (by decide : 200 ≠ 404)
  · unfold handleUpdateSession
    rw [if_neg fun other => update.elim other.1 other.2, path]
    refine notFound_iff_foreign claims allows stored rfl (fun _ => rfl) ?_
    cases ed : edit d r with
    | none => exact (by decide : 400 ≠ 404)
    | some change =>
      exact store_found stored ((touched_same cl σ.clock (change s)).trans (edit_same d ed s)) _
  · unfold handleDeleteSession
    rw [if_neg (not_not.2 delete), path]
    refine notFound_iff_foreign claims allows stored rfl (fun _ => rfl) ?_
    have key : s.key = k := σ.keyed k s stored
    have deleted : ∀ f : Except ApiError Unit → Api HttpResp,
        (∀ got, ((f got).run (answer child) (answer child σ (.delete s.key)).2).1.status ≠ 404) →
          ((api (.delete s.key) >>= f).run (answer child) σ).1.status ≠ 404 := fun _ all => all _
    refine deleted _ fun got => ?_
    cases got with
    | error e => exact (by decide : 500 ≠ 404)
    | ok _ => exact (by decide : 200 ≠ 404)
  · simp [fetchAction, item, notGet, notUpdate, notDelete] at action

/-- **Main result.** The endpoints of a confined server agree on a stored Session if and only
if the server has an id or the Session has the label. -/
theorem endpoints_agree_iff (confined : d.clusterScope = false) (stored : σ.sessions.get s.key = some s)
    (allows : AllowsAll σ.policy cl) (inq : Inquiry cl s.key) :
    Agreed child d σ inq ↔
      ¬ (d.instanceID = "" ∧ s.metadata.labels.lookup d.common.instanceIDLabel = none) := by
  have list : Listed child d σ inq.list s.key ↔ selects d inq.list s = true :=
    listed_iff (inq.claims _ (by simp)) allows inq.get.1 stored
  have listAll : Listed child d σ inq.listAll s.key ↔ selects d inq.listAll s = true :=
    listed_iff (inq.claims _ (by simp)) allows inq.get.2 stored
  have session : NotFound child d σ inq.session ↔ foreign d s = true :=
    (inq.path).elim fun _ path => notFound_iff (inq.claims _ (by simp)) allows stored inq.action path
  rw [selects_iff confined (.inr inq.one.2)] at list
  rw [selects_iff confined (.inl inq.all)] at listAll
  have own : ¬ foreign d s = true ↔ s.metadata.labels.index d.common.instanceIDLabel = d.instanceID := by
    simp [foreign, confined]
  rw [Agreed, list, listAll, selects_iff confined inq.watch, session, own, GoMap.index]
  cases s.metadata.labels.lookup d.common.instanceIDLabel with
  | none =>
    refine ⟨fun agreed missing => ?_, fun named => ⟨.rfl, .rfl, iff_of_false (Option.some_ne_none _).symm fun empty => ?_⟩⟩
    · cases agreed.2.2.2 missing.1.symm
    · exact named ⟨empty.symm, rfl⟩
  | some value =>
    refine iff_of_true ⟨.rfl, .rfl, Option.some_inj⟩ ?_
    rintro ⟨-, ⟨⟩⟩

end

/-! ## A server without an id -/

/-- Requests about `ns/a`. -/
def inquiryOf : Inquiry ⟨"u", []⟩ ⟨"ns", "a"⟩ where
  list := ⟨"GET", "/api/v1/server/sessions", [("namespace", "ns")], none, some ⟨"u", []⟩⟩
  listAll := ⟨"GET", "/api/v1/server/sessions", [("all", "true")], none, some ⟨"u", []⟩⟩
  stream := ⟨"GET", "/api/v1/stream/sessions", [("all", "true")], none, some ⟨"u", []⟩⟩
  session := getRequest
  claims := by simp [getRequest]
  get := ⟨rfl, rfl⟩
  one := by decide
  all := by decide
  watch := .inl (by decide)
  action := by decide
  path := ⟨[], by decide⟩

theorem endpoints_agree_own :
    Agreed replaceApi (.plain "i" false) (occupied "i") (s := stamp 1 (sessionOf "i")) inquiryOf :=
  (endpoints_agree_iff (d := .plain "i" false) (s := stamp 1 (sessionOf "i")) rfl
    ((occupied_get "i" _).trans (if_pos rfl)) (fun _ _ _ => rfl) inquiryOf).2
    fun missing => absurd missing.1 (by decide)

/-- A Session without labels. -/
def unlabelled : Session := .plain ⟨"ns", "a"⟩ 1 .plain

/-- It is found by the server that runs without an id, and not in its lists. -/
theorem unlabelled_found_not_listed :
    ((serve (.plain "" false) .sessions inquiryOf.list).run (answer replaceApi)
      (.single allowAll unlabelled)).1.sessions = [] ∧
    ((serve (.plain "" false) .session inquiryOf.session).run (answer replaceApi)
      (.single allowAll unlabelled)).1.status = 200 ∧
    ¬ Agreed replaceApi (.plain "" false) (.single allowAll unlabelled) (s := unlabelled) inquiryOf := by
  have listed : ((serve (.plain "" false) .sessions inquiryOf.list).run (answer replaceApi)
      (.single allowAll unlabelled)).1.sessions = [] := by decide +kernel
  have found : ((serve (.plain "" false) .session inquiryOf.session).run (answer replaceApi)
      (.single allowAll unlabelled)).1.status = 200 := by decide +kernel
  refine ⟨listed, found, fun agreed => ?_⟩
  obtain ⟨s, mem, -⟩ := agreed.2.2.2 fun missing => by
    rw [NotFound] at missing
    rw [missing] at found
    cases found
  rw [listed] at mem
  cases mem

end Codespace.Server
