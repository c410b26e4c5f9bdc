import Codespace.Server.Isolation
import Codespace.Server.Permissions

/-!
# What is shown of the namespaces

`getAllowedNamespacesForUser` takes the grant of `list` on `*` for the grant in every
namespace. What it returns is right where no namespace is denied on its own, and so is what
`handleServerIntrospect` shows by it.

`discoverNamespacesWithSessions` has two ways to find the namespaces: from one list of all
Sessions, or from a list of one Session for each namespace. They agree.
-/

namespace Codespace.Server
set_option autoImplicit false
open Interact Go Versioned

variable {d : ServerDeps} {w : World}

/-! ## The shortcut -/

/-- The namespaces a user is shown are those where the policy grants them `list`. -/
structure FollowsPolicy (w : World) (cl : Claims) : Prop where
  allowed : (getAllowedNamespacesForUser cl).eval w = .ok ((discovered w).filter (w.allows cl "list"))
  sorted : ((discovered w).filter (w.allows cl "list")).Pairwise (· ≤ ·)
  shown : ∀ (d : ServerDeps) (r : IntrospectRequest) (user : Identity) (resp : ServerIntrospectionResponse),
    r.claims = some user → user.toClaims = cl → w.policy cl.sub cl.roles "namespace" "list" "*" ≠ .ok true →
    (handleServerIntrospect d r).eval w = .ok resp →
    ∀ n, n ∈ resp.namespaces.all ∨ n ∈ resp.namespaces.withSessions → w.allows cl "list" n = true

/-- No namespace is denied to those who may list in `*`. -/
def NoneDenied (w : World) (cl : Claims) : Prop :=
  w.allows cl "list" "*" = true → ∀ n ∈ discovered w, w.allows cl "list" n = true

theorem allowedFor_eq_iff (w : World) (cl : Claims) :
    allowedFor w cl = (discovered w).filter (w.allows cl "list") ↔ NoneDenied w cl := by
  unfold allowedFor NoneDenied
  cases w.allows cl "list" "*" with
  | false => simp
  | true =>
    rw [if_pos rfl, eq_comm, List.filter_eq_self]
    simp

theorem mem_filterNamespaces {all allowed : List String} {n : String} :
    n ∈ filterNamespaces all allowed ↔ n ∈ all ∧ n ∈ allowed := by
  rw [filterNamespaces, List.mem_filter, decide_eq_true_iff]

/-- Without access to the cluster, nothing is shown but what is allowed. -/
theorem shownNamespaces_allowed {cl : Claims} {n : String}
    (mem : n ∈ ((shownNamespaces d cl false).eval w).all ∨ n ∈ ((shownNamespaces d cl false).eval w).withSessions) :
    n ∈ allowedFor w cl := by
  unfold shownNamespaces at mem
  rw [Prog.eval_bind, discoverNamespaces_eval, Prog.eval_bind] at mem
  cases found : (discoverNamespacesWithSessions d).eval w with
  | error e => simp [found] at mem
  | ok sessNs =>
    simp only [found, Bool.false_eq_true, if_false, Prog.eval_bind, getAllowedNamespacesForUser_eval, Prog.pure_eq,
      Prog.eval_ret, mem_filterNamespaces] at mem
    exact mem.elim And.right And.right

/-- What the server shows to whom it does not show everything. -/
theorem handleServerIntrospect_allowed {r : IntrospectRequest} {cl : Identity} {resp : ServerIntrospectionResponse}
    (claims : r.claims = some cl) (confined : w.policy cl.sub cl.roles "namespace" "list" "*" ≠ .ok true)
    (eval : (handleServerIntrospect d r).eval w = .ok resp) {n : String}
    (mem : n ∈ resp.namespaces.all ∨ n ∈ resp.namespaces.withSessions) : n ∈ allowedFor w cl.toClaims := by
  have access : granted (w (.enforce cl.sub cl.roles namespaceResourceString "list" "*")) = false :=
    Bool.eq_false_iff.2 fun grant => confined (granted_iff.1 grant)
  unfold handleServerIntrospect at eval
  rw [claims] at eval
  simp only [Prog.perform_bind, Prog.eval_call, access] at eval
  split at eval
  · cases eval
  · simp only [Prog.eval_bind] at eval
    by_cases discover : r.get "discover" = "1"
    · rw [if_pos discover, Prog.eval_bind] at eval
      cases eval
      exact shownNamespaces_allowed mem
    · rw [if_neg discover] at eval
      cases eval
      simp at mem

/-- **Main result.** The shortcut agrees with the check of each namespace if and only if no
namespace that is discovered is denied to who may list in `*`. -/
theorem shortcut_agrees_iff (w : World) (cl : Claims) : FollowsPolicy w cl ↔ NoneDenied w cl := by
  constructor
  · intro follows
    have same := (getAllowedNamespacesForUser_eval w cl).symm.trans follows.allowed
    exact (allowedFor_eq_iff w cl).1 (Except.ok.inj same)
  · intro none
    have same := (allowedFor_eq_iff w cl).2 none
    refine ⟨by rw [getAllowedNamespacesForUser_eval, same], (discovered_sorted w).filter _, ?_⟩
    rintro d r user resp claims rfl confined eval n mem
    have allowed := handleServerIntrospect_allowed claims confined eval mem
    rw [same] at allowed
    exact (List.mem_filter.1 allowed).2

/-- A policy that allows listing everywhere and denies it in `prod`. -/
def allButProd : Enforce := fun sub _ resource action domain =>
  .ok (Policy.enforce
    ⟨[⟨"u", "session", "list", "*", .allow⟩, ⟨"u", "session", "list", "prod", .deny⟩], []⟩
    ⟨sub, resource, action, domain⟩)

/-- The denied namespace is among the allowed ones, and is shown. -/
theorem denied_namespace_shown :
    World.allows (World.plain allButProd ["prod"]) ⟨"u", []⟩ "list" "prod" = false ∧
    (getAllowedNamespacesForUser ⟨"u", []⟩).eval (World.plain allButProd ["prod"]) = .ok ["prod"] ∧
    (∃ resp, (handleServerIntrospect (.plain "i" false) ⟨[("discover", "1")], some (.plain "u")⟩).eval
      (World.plain allButProd ["prod"]) = .ok resp ∧ resp.namespaces.all = ["prod"]) ∧
    ¬ FollowsPolicy (World.plain allButProd ["prod"]) ⟨"u", []⟩ := by
  have denied : World.allows (World.plain allButProd ["prod"]) ⟨"u", []⟩ "list" "prod" = false := by decide +kernel
  have everywhere : World.allows (World.plain allButProd ["prod"]) ⟨"u", []⟩ "list" "*" = true := by decide +kernel
  have found : discovered (World.plain allButProd ["prod"]) = ["prod"] := by decide +kernel
  have returned : (getAllowedNamespacesForUser ⟨"u", []⟩).eval (World.plain allButProd ["prod"]) = .ok ["prod"] := by
    rw [getAllowedNamespacesForUser_eval, allowedFor, if_pos everywhere, found]
  refine ⟨denied, returned, ⟨_, rfl, ?_⟩, fun follows => ?_⟩
  · decide +kernel
  · have same := Except.ok.inj (returned.symm.trans follows.allowed)
    rw [found, List.filter_cons_of_neg (by simp [denied])] at same
    cases same

/-! ## Namespaces with Sessions -/

/-- A cluster with the namespaces it has. Every Session is in one of them. -/
structure Site (χ : Type) where
  cluster : Cluster χ
  namespaces : List String
  housed : ∀ k s, cluster.sessions.get k = some s → k.ns ∈ namespaces

/-- The server sees the Session: it has the server's instance id, or the server sees them all. -/
def SeenBy (d : ServerDeps) (s : Session) : Prop :=
  d.clusterScope = true ∨ s.metadata.labels.lookup d.common.instanceIDLabel = some d.instanceID

theorem seenBy_iff {s : Session} : matchesLabels (instanceSelector d) s = true ↔ SeenBy d s := by
  unfold instanceSelector SeenBy
  cases d.clusterScope <;> simp [matchesLabels]

namespace Site

variable {χ : Type} (site : Site χ)

/-- The Sessions that a list without a limit finds. -/
def found (ns : Option String) (sel : Option (String × String)) : List Session :=
  (site.cluster.sessions.list Key.le).filter fun s => inNamespace ns s && matchesLabels sel s

/-- The cluster answers with them. -/
theorem answer_list (child : ChildApi χ) (ns : Option String) (sel : Option (String × String)) :
    answer child site.cluster (.list ns sel) = (.ok (site.found ns sel), site.cluster) := rfl

/-- Some Session in the namespace is seen by the server. -/
def HasSession (d : ServerDeps) (n : String) : Prop :=
  ∃ k s, site.cluster.sessions.get k = some s ∧ s.metadata.ns = n ∧ SeenBy d s

theorem mem_found {ns : Option String} {s : Session} : s ∈ site.found ns (instanceSelector d) ↔
    (∃ k, site.cluster.sessions.get k = some s) ∧ inNamespace ns s = true ∧ SeenBy d s := by
  rw [found, List.mem_filter, Store.mem_list, Bool.and_eq_true, seenBy_iff]

/-- All Sessions can be listed at once. -/
def ListsAll (d : ServerDeps) (w : World) : Prop :=
  w (.listSessions none (instanceSelector d) none) = .ok (site.found none (instanceSelector d))

/-- Sessions can be listed in each namespace only. A list that is limited may be cut, but not
to nothing. -/
structure ListsEach (d : ServerDeps) (w : World) : Prop where
  refused : ∃ e, w (.listSessions none (instanceSelector d) none) = .error e
  names : w .listNamespaces = .ok site.namespaces
  each : ∀ n ∈ site.namespaces, ∃ items, w (.listSessions (some n) (instanceSelector d) (some 1)) = .ok items ∧
    items ⊆ site.found (some n) (instanceSelector d) ∧ (site.found (some n) (instanceSelector d) ≠ [] → items ≠ [])

/-- A world with the site's namespaces and Sessions, which it lists all at once or not. -/
def world (everywhere : Bool) : World
  | .enforce sub roles resource action domain => site.cluster.policy sub roles resource action domain
  | .getRolesForUser _ => []
  | .listNamespaces => .ok site.namespaces
  | .listSessions ns sel limit =>
    if ns = none ∧ everywhere = false then .error ⟨.other, "forbidden"⟩
    else match limit with
      | none => .ok (site.found ns sel)
      | some n => .ok ((site.found ns sel).take n)

theorem world_listsAll : site.ListsAll d (site.world true) := rfl

theorem world_listsEach : site.ListsEach d (site.world false) := by
  refine ⟨⟨_, rfl⟩, rfl, fun n _ => ⟨_, rfl, List.take_subset 1 _, fun some none => ?_⟩⟩
  simp [some] at none

end Site

/-- Sorting the keys of a map, whatever order they come in. -/
theorem lists_mapOrder (d : ServerDeps) (l : List String) :
    Lists (sortStrings (d.platform.mapOrder l.dedup)) (· ∈ l) := by
  have perm := d.platform.mapOrder_perm l.dedup
  exact (lists_sortStrings (perm.nodup_iff.2 l.nodup_dedup)).congr fun n => perm.mem_iff.trans List.mem_dedup

/-- A list of at most one Session in the namespace succeeds and has one. -/
def hasOne (w : World) (sel : Option (String × String)) (n : String) : Bool :=
  match w (.listSessions (some n) sel (some 1)) with
  | .ok (_ :: _) => true
  | _ => false

theorem namespacesWithOne_eval (sel : Option (String × String)) (names : List String) :
    (namespacesWithOne sel names).eval w = names.filter (hasOne w sel) := by
  induction names with
  | nil => rfl
  | cons n names ih =>
    rw [List.filter_cons, ← ih, hasOne]
    simp only [namespacesWithOne, Prog.perform_bind, Prog.eval_call, Prog.eval_bind]
    rcases w (.listSessions (some n) sel (some 1)) with e | _ | ⟨s, items⟩ <;> rfl

section

variable {χ : Type} {site : Site χ}

/-- The namespaces of all Sessions that are seen. -/
theorem lists_found (site : Site χ) (d : ServerDeps) :
    Lists (sortStrings (d.platform.mapOrder ((site.found none (instanceSelector d)).map (·.metadata.ns)).dedup))
      (site.HasSession d) := by
  refine (lists_mapOrder d _).congr fun n => ?_
  rw [List.mem_map]
  constructor
  · rintro ⟨s, mem, rfl⟩
    obtain ⟨⟨k, stored⟩, -, seen⟩ := site.mem_found.1 mem
    exact ⟨k, s, stored, rfl, seen⟩
  · rintro ⟨k, s, stored, rfl, seen⟩
    exact ⟨s, site.mem_found.2 ⟨⟨k, stored⟩, rfl, seen⟩, rfl⟩

/-- A namespace has a Session that is seen exactly if the limited list has one. -/
theorem hasOne_iff (each : site.ListsEach d w) {n : String} (mem : n ∈ site.namespaces) :
    hasOne w (instanceSelector d) n = true ↔ site.HasSession d n := by
  obtain ⟨items, listed, sub, nonempty⟩ := each.each n mem
  rw [hasOne, listed]
  constructor
  · intro one
    cases items with
    | nil => cases one
    | cons s items =>
      obtain ⟨⟨k, stored⟩, here, seen⟩ := site.mem_found.1 (sub List.mem_cons_self)
      exact ⟨k, s, stored, of_decide_eq_true here, seen⟩
  · rintro ⟨k, s, stored, here, seen⟩
    have there : s ∈ site.found (some n) (instanceSelector d) :=
      site.mem_found.2 ⟨⟨k, stored⟩, decide_eq_true here, seen⟩
    cases items with
    | nil => exact absurd rfl (nonempty (List.ne_nil_of_mem there))
    | cons s items => rfl

theorem lists_each (each : site.ListsEach d w) :
    Lists (sortStrings (d.platform.mapOrder (site.namespaces.filter (hasOne w (instanceSelector d))).dedup))
      (site.HasSession d) := by
  refine (lists_mapOrder d _).congr fun n => ?_
  rw [List.mem_filter]
  constructor
  · rintro ⟨mem, one⟩
    exact (hasOne_iff each mem).1 one
  · intro has
    obtain ⟨k, s, stored, rfl, seen⟩ := id has
    have key : k = s.key := (site.cluster.keyed k s stored).symm
    have mem : s.metadata.ns ∈ site.namespaces := by
      have housed := site.housed k s stored
      rwa [key] at housed
    exact ⟨mem, (hasOne_iff each mem).2 has⟩

/-- Either way the namespaces found are those with a Session that is seen; only the default
differs. -/
theorem discoverNamespacesWithSessions_eval (answers : site.ListsAll d w ∨ site.ListsEach d w) :
    ∃ l, Lists l (site.HasSession d) ∧
      (discoverNamespacesWithSessions d).eval w = .ok (if l = [] then [""] else l) := by
  rcases answers with all | each
  · refine ⟨_, lists_found site d, ?_⟩
    have listed : w (.listSessions none (instanceSelector d) none) = _ := all
    simp only [discoverNamespacesWithSessions, Prog.eval_bind, Prog.perform_bind, Prog.eval_call, listed, Prog.pure_eq,
      Prog.eval_ret]
  · refine ⟨_, lists_each each, ?_⟩
    obtain ⟨e, refused⟩ := each.refused
    simp only [discoverNamespacesWithSessions, canListNamespaces, Prog.eval_bind, Prog.perform_bind, Prog.eval_call,
      refused, each.names, Prog.pure_eq, Prog.eval_ret, if_true, namespacesWithOne_eval]

/-- **Main result.** Whichever way the namespaces with Sessions are found, they are those with
a Session that the server sees, and if there is none, the one name that is empty. -/
theorem withSessions_exact (answers : site.ListsAll d w ∨ site.ListsEach d w) :
    ∃ l, (discoverNamespacesWithSessions d).eval w = .ok l ∧
      ((∃ n, site.HasSession d n) → Lists l (site.HasSession d)) ∧
      ((¬ ∃ n, site.HasSession d n) → l = [""]) ∧
      ∀ w', site.ListsAll d w' ∨ site.ListsEach d w' → (discoverNamespacesWithSessions d).eval w' = .ok l := by
  obtain ⟨l, lists, eval⟩ := discoverNamespacesWithSessions_eval answers
  refine ⟨_, eval, ?_, ?_, ?_⟩
  · rintro ⟨n, has⟩
    rw [if_neg (List.ne_nil_of_mem ((lists.mem_iff n).2 has))]
    exact lists
  · intro none
    rw [if_pos (List.eq_nil_iff_forall_not_mem.2 fun n mem => none ⟨n, (lists.mem_iff n).1 mem⟩)]
  · intro w' answers'
    obtain ⟨l', lists', eval'⟩ := discoverNamespacesWithSessions_eval answers'
    rw [eval', lists'.unique lists]

end

/-- One Session, in one of two namespaces. -/
def oneSession : Site Manifest where
  cluster := occupied "i"
  namespaces := ["default", "ns"]
  housed := by
    intro k s stored
    rw [occupied_get] at stored
    split at stored
    · rename_i here
      rw [here]
      decide
    · cases stored

theorem withSessions_exact_one :
    (discoverNamespacesWithSessions (.plain "i" false)).eval (oneSession.world true) = .ok ["ns"] ∧
    (discoverNamespacesWithSessions (.plain "i" false)).eval (oneSession.world false) = .ok ["ns"] := by
  obtain ⟨l, eval, -, -, same⟩ := withSessions_exact (d := .plain "i" false) (.inl oneSession.world_listsAll)
  have all : (discoverNamespacesWithSessions (.plain "i" false)).eval (oneSession.world true) = .ok ["ns"] := by
    decide +kernel
  exact ⟨all, (same _ (.inr oneSession.world_listsEach)).trans (eval.symm.trans all)⟩

/-- No Session, in one namespace. -/
def noSession : Site Manifest := ⟨.blank, ["default"], fun k s stored => by simp [Cluster.blank] at stored⟩

/-- Where there is no Session, the list is not empty. -/
theorem withSessions_not_empty :
    (∀ n, ¬ noSession.HasSession (.plain "i" false) n) ∧
    ∀ everywhere l, (discoverNamespacesWithSessions (.plain "i" false)).eval (noSession.world everywhere) = .ok l →
      l = [""] ∧ ¬ Lists l (noSession.HasSession (.plain "i" false)) := by
  have none : ∀ n, ¬ noSession.HasSession (.plain "i" false) n := by
    rintro n ⟨k, s, stored, -⟩
    simp [noSession, Cluster.blank] at stored
  have evals : ∀ everywhere, (discoverNamespacesWithSessions (.plain "i" false)).eval (noSession.world everywhere) = .ok [""] := by
    decide +kernel
  refine ⟨none, fun everywhere l eval => ?_⟩
  cases (evals everywhere).symm.trans eval
  exact ⟨rfl, fun lists => none "" ((lists.mem_iff "").1 List.mem_cons_self)⟩

end Codespace.Server
