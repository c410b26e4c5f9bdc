import Codespace.Api.Answers
import Codespace.Server.Rules

/-!
# Complete mediation

Whatever a request makes the server do is covered by a grant. `Authorised` says which
grant a call needs, `Disclosed` which one a Session needs to be sent. The policy is fixed
for a request and otherwise arbitrary; the cluster is not, anything may happen to it between
two calls (`Under`). Each handler meets both (`Mediates`), and so does every route.
-/

namespace Codespace.Server
set_option autoImplicit false
open Interact Versioned

variable {χ : Type} {child : ChildApi χ} {policy : Enforce} {d : ServerDeps} {r : Request}

/-- Anything happens between two calls of a request, but each call finds this policy. -/
def Under (child : ChildApi χ) (policy : Enforce) : Setting Call Answer (Cluster χ) where
  answer := fun σ c a σ' => σ.policy = policy ∧ Answers child σ c a σ'
  rely := fun _ _ => True
  rely_refl := fun _ => trivial
  rely_trans := fun _ _ => trivial

/-- A run in which nothing else happens and no call fails. -/
theorem under_run (child : ChildApi χ) {policy : Enforce} {α : Type} (p : Api α) {σ : Cluster χ}
    (same : σ.policy = policy) :
    Exec (Under child policy) p σ (.ret (p.run (answer child) σ).1) (p.run (answer child) σ).2 := by
  induction p generalizing σ with
  | ret a => exact .refl _ _
  | call c k ih => exact .call ⟨same, .inl rfl⟩ (ih _ ((answer_policy child σ c).trans same))

/-- Enforce grants the request's principal an action in a domain. -/
def Grants (policy : Enforce) (r : Request) (resource action domain : String) : Prop :=
  ∃ cl, r.claims = some cl ∧ policy cl.sub cl.roles resource action domain = .ok true

def May (policy : Enforce) (r : Request) (action ns : String) : Prop := Grants policy r "session" action ns

def IsAdmin (policy : Enforce) (r : Request) : Prop := Grants policy r "*" "admin" "*"

/-- The grant that covers a call made for a request. -/
def Authorised (policy : Enforce) (route : Route) (r : Request) : Call → Prop
  | .create s => May policy r "create" s.metadata.ns
  | .update s => match route with
    | .adopt => IsAdmin policy r ∨ May policy r "update" s.metadata.ns
    | _ => May policy r (if isScale r then "scale" else "update") s.metadata.ns
  | .delete k => May policy r "delete" k.ns
  | .updateStatus _ => False
  | .apply _ _ => False
  | _ => True

/-- The grant that covers sending a Session in answer to a request. -/
def Disclosed (policy : Enforce) (route : Route) (r : Request) (s : Session) : Prop :=
  match route with
  | .sessions =>
    if r.method = "GET" then
      May policy r "list" s.metadata.ns ∧ (allNamespaces r = true → May policy r "list" "*")
    else May policy r "create" s.metadata.ns
  | .session =>
    May policy r (if isScale r then "scale" else if r.method = "GET" then "get" else "update") s.metadata.ns
  | .adopt => IsAdmin policy r ∨ May policy r "update" s.metadata.ns

/-- A successful response contains only Sessions that may be disclosed. -/
def Discloses (policy : Enforce) (route : Route) (r : Request) (resp : HttpResp) : Prop :=
  resp.status < 300 → ∀ s ∈ resp.sessions, Disclosed policy route r s

/-- The program makes authorised calls and sends what may be disclosed. -/
def Mediates (child : ChildApi χ) (policy : Enforce) (route : Route) (r : Request) (p : Api HttpResp) : Prop :=
  ∀ σ : Cluster χ, p.wp (Under child policy) (fun _ => Authorised policy route r)
    (fun resp _ => Discloses policy route r resp) σ

section

variable {route : Route}

theorem discloses_refusal {resp : HttpResp} (bad : 400 ≤ resp.status) : Discloses policy route r resp := by
  intro good
  omega

theorem discloses_one {status : Nat} {s : Session} (ok : Disclosed policy route r s) :
    Discloses policy route r ⟨status, .session s⟩ := by
  intro _ s' mem
  cases List.mem_singleton.1 mem
  exact ok

theorem mediates_refusal {resp : HttpResp} (bad : 400 ≤ resp.status) :
    Mediates child policy route r (.ret resp) := fun _ _ _ => discloses_refusal bad

/-- No grant is needed for a call that only reads. -/
theorem under_harmless {c : Call} (reads : c.reads = true) :
    Prog.Harmless (Under child policy) (fun _ => Authorised policy route r) (fun _ => True) c where
  asks _ _ := by cases c <;> trivial
  keeps _ _ _ _ _ := trivial

/-- An answer of Enforce is the policy's. -/
theorem under_decision {σ σ' : Cluster χ} {sub resource action domain : String} {roles : List String}
    {decision : Except String Bool}
    (ans : (Under child policy).answer σ (.enforce sub roles resource action domain) decision σ') :
    decision = policy sub roles resource action domain := by
  obtain ⟨rfl, normal | ⟨m, failed, -⟩⟩ := ans
  · simp only [answer, Prod.mk.injEq] at normal
    exact normal.1
  · cases failed

theorem under_enforce {σ σ' : Cluster χ} {cl : Claims} {resource action domain : String}
    (claims : r.claims = some cl)
    (ans : (Under child policy).answer σ (.enforce cl.sub cl.roles resource action domain) (.ok true) σ') :
    Grants policy r resource action domain := ⟨cl, claims, (under_decision ans).symm⟩

/-- A Session that was fetched carries the key it was fetched under. -/
theorem under_get {σ σ' : Cluster χ} {k : Key} {cur : Session}
    (ans : (Under child policy).answer σ (.get k) (.ok cur) σ') : cur.key = k :=
  σ.keyed k cur (answers_get_ok ans.2).2

/-- A Session stored by an Update is the one sent, up to what the server keeps. -/
theorem under_update {σ σ' : Cluster χ} {sent out : Session}
    (ans : (Under child policy).answer σ (.update sent) (.ok out) σ') : out.key = sent.key := by
  obtain ⟨cur, -, -, rfl⟩ := answers_update_ok ans.2
  rfl

theorem under_list {σ σ' : Cluster χ} {ns : Option String} {sel : Option (String × String)}
    {items : List Session} (ans : (Under child policy).answer σ (.list ns sel) (.ok items) σ') :
    ∀ s ∈ items, inNamespace ns s = true := by
  obtain ⟨-, normal | ⟨m, failed, -⟩⟩ := ans
  · simp only [answer, Prod.mk.injEq, Except.ok.injEq] at normal
    rw [normal.1]
    intro s mem
    have both := (List.mem_filter.1 mem).2
    simp only [Bool.and_eq_true] at both
    exact both.1
  · cases failed

theorem under_create {σ σ' : Cluster χ} {sent out : Session}
    (ans : (Under child policy).answer σ (.create sent) (.ok out) σ') : out.metadata.ns = sent.metadata.ns := by
  obtain ⟨-, normal | ⟨m, failed, -⟩⟩ := ans
  · simp only [answer] at normal
    split at normal
    · cases normal
    · cases normal
      rfl
  · cases failed

/-- The gate, for a program that goes on with a grant. -/
theorem mediates_mustCan {action domain : String} {f : Except HttpResp Claims → Api HttpResp}
    (error : ∀ resp, f (.error resp) = .ret resp)
    (ok : ∀ cl, r.claims = some cl → May policy r action domain →
      Mediates child policy route r (f (.ok cl))) :
    Mediates child policy route r (MustCan d r "session" action domain >>= f) := by
  intro σ
  refine wp_mustCan (I := fun _ => True) (fun _ _ _ _ => trivial) (fun _ => under_harmless rfl) ?_ ?_ trivial
  · intro resp σ' _ bad
    rw [error]
    exact mediates_refusal bad σ'
  · intro cl σ₁ σ₂ claims _ ans
    exact ok cl claims (under_enforce claims ans) σ₂

/-- Fetching, for a program that goes on with the Session. -/
theorem mediates_fetch {k : Key} {f : Except HttpResp Session → Api HttpResp}
    (error : ∀ resp, f (.error resp) = .ret resp)
    (ok : ∀ cur, cur.key = k → Mediates child policy route r (f (.ok cur))) :
    Mediates child policy route r (fetch d k >>= f) := by
  intro σ
  refine wp_fetch (I := fun _ => True) (fun _ _ _ _ => trivial) (under_harmless rfl) ?_ ?_ trivial
  · intro resp σ' _ bad
    rw [error]
    exact mediates_refusal bad σ'
  · intro cur σ₁ σ₂ _ ans _
    exact ok cur (under_get ans) σ₂

/-- Storing a Session where that is authorised. -/
theorem mediates_store {sess : Session} {failure : String}
    (authorised : Authorised policy route r (.update sess))
    (disclosed : ∀ out : Session, out.metadata.ns = sess.metadata.ns → Disclosed policy route r out) :
    Mediates child policy route r (store d sess failure) := by
  intro σ
  refine wp_store (I := fun _ => True) (fun _ _ _ _ => trivial) (fun _ _ => authorised)
    (fun _ _ _ _ _ _ => trivial) (fun _ _ bad => discloses_refusal bad) ?_ trivial
  intro out σ₁ σ₂ σ₃ _ ans _
  exact discloses_one (disclosed out (congrArg Key.ns (under_update ans)))

end

/-! ## The handlers -/

theorem sendList_mediates {sessions : List Session} {namespaces : List String} {filtered : Bool}
    (get : r.method = "GET")
    (listed : ∀ s ∈ sessions, May policy r "list" s.metadata.ns ∧
      (allNamespaces r = true → May policy r "list" "*")) :
    Mediates child policy .sessions r (sendList d sessions namespaces filtered) := by
  intro σ
  refine wp_sendList (fun _ => trivial) fun idx _ _ s mem => ?_
  obtain ⟨s₀, mem₀, rfl⟩ := List.mem_map.1 mem
  simpa only [Disclosed, get, if_true, enrich_ns] using listed s₀ mem₀

theorem handleListSessions_mediates (get : r.method = "GET") :
    Mediates child policy .sessions r (handleListSessions d r) := by
  refine mediates_mustCan (fun _ => rfl) fun pr claims may => ?_
  cases all : allNamespaces r with
  | true =>
    rw [all] at may
    refine fun σ σ₁ _ => ⟨trivial, fun listed σ₂ ans => ?_⟩
    cases listed with
    | error e => exact mediates_refusal (Nat.le_add_left 400 100) σ₂
    | ok items =>
      have filter : (canAccess pr items).wp (Under child policy) (fun _ => Authorised policy .sessions r)
          (fun kept _ => True ∧ ∀ s ∈ kept, May policy r "list" s.metadata.ns) σ₂ :=
        wp_canAccess (I := fun _ => True) (fun _ _ _ _ => trivial) (fun _ => under_harmless rfl)
          (fun _ _ _ ans => under_enforce claims ans) trivial
      show (canAccess pr items >>= fun kept => sendList d kept
        (d.platform.mapOrder (kept.map (·.metadata.ns)).dedup) true).wp _ _ _ σ₂
      refine Prog.wp_bind (Prog.wp_mono filter fun kept σ' ⟨_, all⟩ => ?_)
      exact sendList_mediates get (fun s mem => ⟨all s mem, fun _ => may⟩) σ'
  | false =>
    rw [all] at may
    refine fun σ σ₁ _ => ⟨trivial, fun listed σ₂ ans => ?_⟩
    cases listed with
    | error e => exact mediates_refusal (Nat.le_add_left 400 100) σ₂
    | ok items =>
      refine sendList_mediates get (fun s mem => ?_) σ₂
      have ns := under_list ans s mem
      simp only [inNamespace, decide_eq_true_eq] at ns
      rw [ns, all]
      exact ⟨may, nofun⟩

theorem handleCreateSession_mediates (post : r.method ≠ "GET") :
    Mediates child policy .sessions r (handleCreateSession d r) := by
  unfold handleCreateSession
  split
  · exact mediates_refusal (Nat.le_add_left 400 5)
  split
  · exact mediates_refusal (Nat.le_refl 400)
  rename_i req _
  split
  · exact mediates_refusal (Nat.le_refl 400)
  extract_lets req
  split
  · exact mediates_refusal (Nat.le_refl 400)
  split
  · exact mediates_refusal (Nat.le_refl 400)
  refine mediates_mustCan (fun _ => rfl) fun pr _ may => ?_
  refine fun σ σ₁ _ => ⟨trivial, fun now σ₂ _ σ₃ _ => ⟨may, fun out σ₄ ans => ?_⟩⟩
  cases out with
  | error e => exact mediates_refusal (Nat.le_add_left 400 100) σ₄
  | ok out =>
    intro σ₅ _
    refine discloses_one ?_
    simp only [Disclosed, post, if_false, under_create ans]
    exact may

theorem handleGetSession_mediates (item : isScale r = false) (get : r.method = "GET") :
    Mediates child policy .session r (handleGetSession d r) := by
  unfold handleGetSession
  split
  · rename_i ns name _ _
    refine mediates_mustCan (fun _ => rfl) fun _ _ may => mediates_fetch (fun _ => rfl) fun cur key => ?_
    intro σ σ' _
    refine discloses_one ?_
    have same : cur.metadata.ns = ns := congrArg Key.ns key
    simp only [Disclosed, item, get, Bool.false_eq_true, if_false, if_true, same]
    exact may
  · exact mediates_refusal (Nat.le_refl 400)

theorem handleDeleteSession_mediates : Mediates child policy .session r (handleDeleteSession d r) := by
  unfold handleDeleteSession
  split
  · exact mediates_refusal (Nat.le_add_left 400 5)
  split
  · rename_i ns name _ _
    refine mediates_mustCan (fun _ => rfl) fun _ _ may => mediates_fetch (fun _ => rfl) fun cur key => ?_
    have same : cur.key.ns = ns := congrArg Key.ns key
    refine fun σ σ₁ _ => ⟨show May policy r "delete" cur.key.ns from same ▸ may, fun out σ₂ _ => ?_⟩
    cases out with
    | error e => exact mediates_refusal (Nat.le_add_left 400 100) σ₂
    | ok _ => exact fun _ _ _ s mem => absurd mem List.not_mem_nil
  · exact mediates_refusal (Nat.le_refl 400)

/-- The Updates of a scale request, of a PUT and of a PATCH. -/
theorem store_mediates {action failure : String} {cur sess : Session} {k : Key}
    (asked : action = if isScale r then "scale" else "update") (write : r.method ≠ "GET")
    (may : May policy r action k.ns) (key : cur.key = k) (same : sess.key = cur.key) :
    Mediates child policy .session r (store d sess failure) := by
  have ns : sess.metadata.ns = k.ns := congrArg Key.ns (same.trans key)
  refine mediates_store ?_ fun out same => ?_
  · simp only [Authorised, ns, ← asked]
    exact may
  · have action : (if isScale r then "scale" else if r.method = "GET" then "get" else "update") = action := by
      rw [if_neg write, asked]
    rw [Disclosed, action, same, ns]
    exact may

theorem handleScaleSession_mediates (scale : isScale r = true) :
    Mediates child policy .session r (handleScaleSession d r) := by
  unfold handleScaleSession
  split
  · exact mediates_refusal (Nat.le_add_left 400 5)
  rename_i post
  have write : r.method ≠ "GET" := by
    rw [Decidable.not_not.1 post]
    decide
  split
  · refine mediates_mustCan (fun _ => rfl) fun _ _ may => ?_
    dsimp only
    split
    · exact mediates_refusal (Nat.le_refl 400)
    split
    · exact mediates_refusal (Nat.le_refl 400)
    refine mediates_fetch (fun _ => rfl) fun cur key => ?_
    exact store_mediates (by rw [scale, if_pos rfl]) write may key (scaled_same _ cur).key
  · exact mediates_refusal (Nat.le_refl 400)

theorem handleUpdateSession_mediates (item : isScale r = false) :
    Mediates child policy .session r (handleUpdateSession d r) := by
  unfold handleUpdateSession
  split
  · exact mediates_refusal (Nat.le_add_left 400 5)
  rename_i method
  have write : r.method ≠ "GET" := by
    intro get
    rw [get] at method
    exact method ⟨by decide, by decide⟩
  split
  · refine mediates_mustCan (fun _ => rfl) fun pr _ may => mediates_fetch (fun _ => rfl) fun cur key => ?_
    dsimp only
    split
    · exact mediates_refusal (Nat.le_refl 400)
    rename_i change ed
    refine fun σ σ₁ _ => ⟨trivial, fun now σ₂ _ => ?_⟩
    have same := (touched_same pr now (change cur)).trans (edit_same d ed cur)
    exact store_mediates (by rw [item]; rfl) write may key same.key σ₂
  · exact mediates_refusal (Nat.le_refl 400)

theorem adoptSession_mediates {cl : Claims} {cur : Session}
    (allowed : IsAdmin policy r ∨ May policy r "update" cur.metadata.ns) :
    Mediates child policy .adopt r (adoptSession d r cl cur) := by
  unfold adoptSession
  extract_lets oldID
  split
  · exact mediates_refusal (Nat.le_add_left 400 4)
  refine fun σ => Prog.wp_perform fun σ₁ _ => ⟨trivial, fun idx σ₂ _ => ?_⟩
  extract_lets orphan
  split
  · exact mediates_refusal (Nat.le_add_left 400 9) σ₂
  refine Prog.wp_perform fun σ₃ _ => ⟨trivial, fun now σ₄ _ => ?_⟩
  have same : (adopted d cl now cur).metadata.ns = cur.metadata.ns :=
    congrArg Key.ns (adopted_same d cl now cur).key
  have covered : ∀ s : Session, s.metadata.ns = (adopted d cl now cur).metadata.ns →
      Disclosed policy .adopt r s := by
    intro s eq
    rw [Disclosed, eq, same]
    exact allowed
  split
  · exact fun _ _ => discloses_one (covered _ rfl)
  · refine mediates_store ?_ covered σ₄
    rw [← same] at allowed
    exact allowed

theorem handleAdoptSession_mediates : Mediates child policy .adopt r (handleAdoptSession d r) := by
  unfold handleAdoptSession
  split
  · exact mediates_refusal (Nat.le_add_left 400 5)
  extract_lets ns name
  split
  · exact mediates_refusal (Nat.le_refl 400)
  split
  · exact mediates_refusal (Nat.le_succ 400)
  rename_i cl claims
  intro σ
  refine wp_mayAdopt (I := fun _ => True) (fun _ _ _ _ => trivial) (fun _ _ _ => under_harmless rfl)
    (fun σ' _ => mediates_refusal (Nat.le_add_left 400 3) σ') ?_ trivial
  intro σ₁ σ₂ _ grant
  have allowed : IsAdmin policy r ∨ May policy r "update" ns :=
    grant.imp (under_enforce claims) (under_enforce claims)
  refine fun σ₃ _ => ⟨trivial, fun got σ₄ ans => ?_⟩
  rcases got with e | cur
  · exact mediates_refusal (Nat.le_add_left 400 100) σ₄
  have same : cur.metadata.ns = ns := congrArg Key.ns (under_get ans)
  exact adoptSession_mediates (same ▸ allowed) σ₄

/-! ## The routes -/

theorem wrapWithRBAC_mediates {route : Route} {resource action domain : String}
    {handler : Request → Api HttpResp} (h : Mediates child policy route r (handler r)) :
    Mediates child policy route r (wrapWithRBAC d resource action domain handler r) := by
  refine wrapWithAuth_cases (fun _ => mediates_refusal (Nat.le_succ 400)) fun σ => ?_
  refine wp_mustCan (I := fun _ => True) (fun _ _ _ _ => trivial)
    (fun _ => under_harmless rfl) ?_ (fun _ _ σ₂ _ _ _ => h σ₂) trivial
  exact fun resp σ' _ bad => mediates_refusal bad σ'

theorem serve_mediates (route : Route) : Mediates child policy route r (serve d route r) := by
  cases route with
  | adopt => exact wrapWithRBAC_mediates handleAdoptSession_mediates
  | sessions =>
    refine wrapWithAuth_cases (fun _ => mediates_refusal (Nat.le_succ 400)) ?_
    unfold handleSessionOperations
    split
    · rename_i get
      exact handleListSessions_mediates get
    split
    · rename_i notGet _
      exact handleCreateSession_mediates notGet
    · exact mediates_refusal (Nat.le_add_left 400 5)
  | session =>
    refine serve_session_cases (P := Mediates child policy .session r) ?_ ?_ handleScaleSession_mediates
      handleGetSession_mediates (fun item _ => handleUpdateSession_mediates item)
      (fun _ _ => handleDeleteSession_mediates) ?_
    · exact fun _ => mediates_refusal (Nat.le_succ 400)
    · exact fun _ => mediates_refusal (Nat.le_refl 400)
    · exact fun _ _ _ _ => mediates_refusal (Nat.le_add_left 400 5)

/-- **Main result.** Whatever else happens to the cluster while a request is served: every
call the server makes for it is covered by a grant, and so is every Session in a
successful response. -/
theorem mediation (d : ServerDeps) (route : Route) (r : Request) (policy : Enforce) (σ : Cluster χ) :
    (∀ c k σ', Exec (Under child policy) (serve d route r) σ (.call c k) σ' →
      Authorised policy route r c) ∧
    ∀ resp σ', Exec (Under child policy) (serve d route r) σ (.ret resp) σ' →
      Discloses policy route r resp := by
  have mediates : Mediates child policy route r (serve d route r) := serve_mediates route
  refine ⟨fun c k σ' run => ?_, fun resp σ' run => ?_⟩
  · have authorised := Prog.wp_guarantee run (mediates σ)
    exact authorised
  · have disclosed := Prog.wp_result run (mediates σ)
    exact disclosed

/-- A scale request by somebody who may do nothing else. -/
theorem mediation_scale :
    ∃ σ' s, Exec (Under replaceApi scaleOnly) (serve (.plain "i" true) .session scaleRequest)
      (.single scaleOnly (Session.plain ⟨"ns", "a"⟩ 1 SessionSpec.plain)) (.ret ⟨200, .session s⟩) σ' ∧
      s.spec.replicas = some 2 ∧ Disclosed scaleOnly .session scaleRequest s := by
  have run := under_run replaceApi (serve (.plain "i" true) .session scaleRequest)
    (show (Cluster.single scaleOnly (Session.plain ⟨"ns", "a"⟩ 1 SessionSpec.plain)).policy = scaleOnly from rfl)
  rw [show (Prog.run _ (serve (.plain "i" true) .session scaleRequest) _).1 = ⟨200, .session
    (stamp 2 (scaled 2 (stamp 1 (Session.plain ⟨"ns", "a"⟩ 1 SessionSpec.plain))))⟩ by decide +kernel] at run
  have disclosed := (mediation (.plain "i" true) .session scaleRequest scaleOnly _).2 _ _ run
  exact ⟨_, _, run, rfl, disclosed (by decide) _ (List.mem_singleton.2 rfl)⟩

end Codespace.Server
