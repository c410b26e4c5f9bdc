import Codespace.Policy.Shipped
import Codespace.Server.Introspect
import Codespace.Server.Rules

/-!
# What user introspection says

The response of `handleUserIntrospect` for any policy and any query. `Describes` gives it in
terms of the namespaces and actions that are checked. With both given in the query it is the
table of permissions and nothing else. Without them the namespaces are found by asking for
one action, `list`, and the lists that are built over the others can be incomplete.
-/

namespace Codespace.Server
set_option autoImplicit false
open Interact Go

variable {w : World} {r : IntrospectRequest} {cl : Identity}

/-- Enforce grants an action on Sessions in a namespace. -/
def World.allows (w : World) (cl : Claims) (action ns : String) : Bool :=
  granted (w.policy cl.sub cl.roles sessionResourceString action ns)

theorem allows_iff {cl : Claims} {action ns : String} :
    w.allows cl action ns = true ↔ w.policy cl.sub cl.roles "session" action ns = .ok true := granted_iff

/-! ## The loops -/

/-- One more turn of a loop that sets an entry for each name. -/
theorem lookup_insert_cons {β : Type} (m : Finmap fun _ : String => β) (f : String → β) (x a : String)
    (l : List String) : (if a ∈ l then some (f a) else (m.insert x (f x)).lookup a) =
      if a ∈ x :: l then some (f a) else m.lookup a := by
  by_cases rest : a ∈ l
  · rw [if_pos rest, if_pos (List.mem_cons_of_mem x rest)]
  rw [if_neg rest]
  by_cases same : a = x
  · subst same
    rw [if_pos List.mem_cons_self]
    exact Finmap.lookup_insert _
  · rw [if_neg (by simp [same, rest])]
    exact Finmap.lookup_insert_of_ne _ same

/-- What the inner loop makes of the permissions for one namespace. -/
structure ChecksOf (w : World) (cl : Claims) (ns : String) (actions : List String) (before after : ActionChecks) : Prop where
  perms : ∀ a, after.sessionPerms.lookup a =
    if a ∈ actions then some (w.allows cl a ns) else before.sessionPerms.lookup a
  any : after.hasAnyPermission = (before.hasAnyPermission || actions.any fun a => w.allows cl a ns)
  create : after.canCreate = (before.canCreate || (actions.contains "create" && w.allows cl "create" ns))
  delete : after.canDelete = (before.canDelete || (actions.contains "delete" && w.allows cl "delete" ns))

theorem checkActions_eval (cl : Claims) (ns : String) (actions : List String) (before : ActionChecks) :
    ChecksOf w cl ns actions before ((checkActions cl ns actions before).eval w) := by
  induction actions generalizing before with
  | nil => exact ⟨fun a => by simp [checkActions], by simp [checkActions], by simp [checkActions], by simp [checkActions]⟩
  | cons action actions ih =>
    have step := ih ⟨before.sessionPerms.insert action (w.allows cl action ns),
      before.hasAnyPermission || w.allows cl action ns,
      before.canCreate || (w.allows cl action ns && action = "create"),
      before.canDelete || (w.allows cl action ns && action = "delete")⟩
    -- the step that is on record for the action alone
    have one : ∀ (name : String) (rest : Bool), (w.allows cl action ns && decide (action = name) || (rest && w.allows cl name ns)) =
        ((name == action || rest) && w.allows cl name ns) := by
      intro name rest
      by_cases same : action = name
      · subst same
        cases w.allows cl action ns <;> simp
      · have differ : (name == action) = false := by simpa using Ne.symm same
        simp [same, differ]
    refine ⟨fun a => ?_, ?_, ?_, ?_⟩
    · exact (step.perms a).trans (lookup_insert_cons _ (w.allows cl · ns) action a actions)
    · exact step.any.trans (by rw [List.any_cons, Bool.or_assoc])
    · exact step.create.trans (by rw [List.contains_cons, Bool.or_assoc, one])
    · exact step.delete.trans (by rw [List.contains_cons, Bool.or_assoc, one])

/-- The permissions in a namespace. -/
def permissionsIn (w : World) (cl : Claims) (actions : List String) (ns : String) : DomainPermissions :=
  ⟨((checkActions cl ns actions ⟨∅, false, false, false⟩).eval w).sessionPerms⟩

theorem permissionsIn_lookup (cl : Claims) (actions : List String) (ns a : String) :
    (permissionsIn w cl actions ns).session.lookup a = if a ∈ actions then some (w.allows cl a ns) else none :=
  (checkActions_eval cl ns actions _).perms a

/-- What the outer loop makes of the namespaces. -/
structure GatheredFrom (w : World) (cl : Claims) (actions names : List String) (before after : Gathered) : Prop where
  domains : ∀ n, after.domains.lookup n =
    if n ∈ names then some (permissionsIn w cl actions n) else before.domains.lookup n
  allowed : after.userAllowed = before.userAllowed ++
    names.filter fun n => (actions.any fun a => w.allows cl a n) && n ≠ "*"
  creatable : after.userCreatable = before.userCreatable ++
    names.filter fun n => (actions.contains "create" && w.allows cl "create" n) && n ≠ "*"
  deletable : after.userDeletable = before.userDeletable ++
    names.filter fun n => (actions.contains "delete" && w.allows cl "delete" n) && n ≠ "*"

theorem checkNamespaces_eval (cl : Claims) (actions names : List String) (before : Gathered) :
    GatheredFrom w cl actions names before ((checkNamespaces cl actions names before).eval w) := by
  induction names generalizing before with
  | nil =>
    exact ⟨fun n => by simp [checkNamespaces], by simp [checkNamespaces], by simp [checkNamespaces],
      by simp [checkNamespaces]⟩
  | cons ns names ih =>
    have checks := checkActions_eval (w := w) cl ns actions ⟨∅, false, false, false⟩
    have append : ∀ (l : List String) (p : String → Bool),
        (if p ns && ns ≠ "*" then l ++ [ns] else l) ++ names.filter (fun n => p n && n ≠ "*") =
          l ++ (ns :: names).filter fun n => p n && n ≠ "*" := by
      intro l p
      rw [List.filter_cons]
      cases p ns && decide (ns ≠ "*") with
      | true => rw [if_pos rfl, if_pos rfl, List.append_assoc, List.singleton_append]
      | false => rfl
    rw [checkNamespaces, Prog.eval_bind]
    have step := ih (before.note ns ((checkActions cl ns actions ⟨∅, false, false, false⟩).eval w))
    refine ⟨fun n => (step.domains n).trans ?_, step.allowed.trans ?_, step.creatable.trans ?_, step.deletable.trans ?_⟩
    · exact lookup_insert_cons _ (permissionsIn w cl actions) ns n names
    · rw [Gathered.note, checks.any, Bool.false_or]
      exact append before.userAllowed fun n => actions.any fun a => w.allows cl a n
    · rw [Gathered.note, checks.create, Bool.false_or]
      exact append before.userCreatable fun n => actions.contains "create" && w.allows cl "create" n
    · rw [Gathered.note, checks.delete, Bool.false_or]
      exact append before.userDeletable fun n => actions.contains "delete" && w.allows cl "delete" n

/-! ## The namespaces that are found -/

/-- The namespaces that `discoverNamespaces` returns. -/
def discovered (w : World) : List String :=
  match w .listNamespaces with
  | .error _ => ["default"]
  | .ok names => if sortStrings names = [] then ["default"] else sortStrings names

theorem discoverNamespaces_eval (w : World) : discoverNamespaces.eval w = .ok (discovered w) := by
  cases listed : w .listNamespaces with
  | error e => simp [discoverNamespaces, canListNamespaces, discovered, listed]
  | ok names => simp [discoverNamespaces, canListNamespaces, discovered, listed]

theorem discovered_sorted (w : World) : (discovered w).Pairwise (· ≤ ·) := by
  unfold discovered
  split
  · exact List.pairwise_singleton _ _
  · split
    · exact List.pairwise_singleton _ _
    · exact sortStrings_sorted _

/-- The namespaces that `getAllowedNamespacesForUser` returns. -/
def allowedFor (w : World) (cl : Claims) : List String :=
  if w.allows cl "list" "*" then discovered w else (discovered w).filter (w.allows cl "list")

theorem allowedNamespaces_eval (cl : Claims) (names : List String) :
    (allowedNamespaces cl names).eval w = names.filter (w.allows cl "list") := by
  induction names with
  | nil => rfl
  | cons ns names ih =>
    have decision : granted (w (.enforce cl.sub cl.roles sessionResourceString "list" ns)) = w.allows cl "list" ns := rfl
    rw [List.filter_cons, ← ih]
    simp [allowedNamespaces, decision]

theorem getAllowedNamespacesForUser_eval (w : World) (cl : Claims) :
    (getAllowedNamespacesForUser cl).eval w = .ok (allowedFor w cl) := by
  have decision : granted (w (.enforce cl.sub cl.roles sessionResourceString "list" "*")) = w.allows cl "list" "*" := rfl
  rw [getAllowedNamespacesForUser, Prog.eval_bind, discoverNamespaces_eval, allowedFor, ← allowedNamespaces_eval]
  cases everywhere : w.allows cl "list" "*" <;> simp [decision, everywhere]

theorem mem_allowedFor {cl : Claims} {n : String} : n ∈ allowedFor w cl ↔
    n ∈ discovered w ∧ (w.allows cl "list" "*" = true ∨ w.allows cl "list" n = true) := by
  unfold allowedFor
  cases w.allows cl "list" "*" <;> simp

/-- The namespaces that a request has checked. -/
def targetsOf (w : World) (r : IntrospectRequest) (cl : Claims) : List String :=
  uniqueNamespaces (if splitCSVQuery (r.get "namespaces") ≠ [] then splitCSVQuery (r.get "namespaces")
    else allowedFor w cl ++ ["*"])

theorem targetNamespaces_eval (r : IntrospectRequest) (cl : Claims) :
    (targetNamespaces cl (splitCSVQuery (r.get "namespaces"))).eval w = targetsOf w r cl := by
  unfold targetNamespaces targetsOf
  by_cases given : splitCSVQuery (r.get "namespaces") ≠ []
  · rw [if_pos given, if_pos given, Prog.pure_eq, Prog.eval_ret]
  · rw [if_neg given, if_neg given, Prog.eval_bind, getAllowedNamespacesForUser_eval]
    simp only [Prog.pure_eq, Prog.eval_ret]

theorem targetsOf_sorted (w : World) (r : IntrospectRequest) (cl : Claims) : (targetsOf w r cl).Pairwise (· < ·) :=
  (uniqueNamespaces_lists _).sorted

theorem mem_targetsOf_named {cl : Claims} {n₀ : String} (named : IsEntry (r.get "namespaces") n₀) (n : String) :
    n ∈ targetsOf w r cl ↔ IsEntry (r.get "namespaces") n := by
  rw [targetsOf, if_pos (splitCSVQuery_ne_nil named), (uniqueNamespaces_lists _).mem_iff, mem_splitCSVQuery]
  exact ⟨And.left, fun entry => ⟨entry, entry.1⟩⟩

theorem mem_targetsOf_blank {cl : Claims} (names : r.get "namespaces" = "") (n : String) :
    n ∈ targetsOf w r cl ↔ (n ∈ allowedFor w cl ∨ n = "*") ∧ n ≠ "" := by
  have blank : ¬ splitCSVQuery "" ≠ [] := by decide
  rw [targetsOf, names, if_neg blank, (uniqueNamespaces_lists _).mem_iff, List.mem_append, List.mem_singleton]

theorem mem_actionsOf_asked {a₀ : String} (asked : IsEntry (r.get "actions") a₀) (a : String) :
    a ∈ actionsOf r ↔ IsEntry (r.get "actions") a := by
  rw [actionsOf, if_neg (splitCSVQuery_ne_nil asked), mem_splitCSVQuery]

theorem actionsOf_blank (actions : r.get "actions" = "") : actionsOf r = defaultActions := by
  have blank : splitCSVQuery "" = [] := by decide
  rw [actionsOf, actions, if_pos blank]

/-! ## The response -/

/-- What a response says, in terms of the namespaces and actions that were checked. -/
structure Describes (w : World) (cl : Claims) (targets actions : List String) (resp : UserIntrospectionResponse) : Prop where
  domains : ∀ n, resp.domains.lookup n = if n ∈ targets then some (permissionsIn w cl actions n) else none
  allowed : Lists resp.namespaces.userAllowed fun n => n ∈ targets ∧ n ≠ "*" ∧ ∃ a ∈ actions, w.allows cl a n = true
  creatable : Lists resp.namespaces.userCreatable fun n => n ∈ targets ∧ n ≠ "*" ∧ "create" ∈ actions ∧
    w.allows cl "create" n = true
  deletable : Lists resp.namespaces.userDeletable fun n => n ∈ targets ∧ n ≠ "*" ∧ "delete" ∈ actions ∧
    w.allows cl "delete" n = true
  scope : resp.capabilities.namespaceScope = resp.namespaces.userAllowed
  admin : resp.capabilities.adminAccess = true ↔
    (w.allows cl "list" "*" = true ∧ w.allows cl "watch" "*" = true) ∨
    ("*" ∈ targets ∧ ("create" ∈ actions ∧ w.allows cl "create" "*" = true) ∧
      ("delete" ∈ actions ∧ w.allows cl "delete" "*" = true))

/-- A list that the loop has filtered is sorted already. -/
theorem lists_filtered {targets : List String} (sorted : targets.Pairwise (· < ·)) (p : String → Bool) :
    Lists (sortStrings (targets.filter fun n => p n && n ≠ "*")) fun n => n ∈ targets ∧ n ≠ "*" ∧ p n = true := by
  have strict : (targets.filter fun n => p n && n ≠ "*").Pairwise (· < ·) := sorted.filter _
  rw [sortStrings_of_sorted (strict.imp le_of_lt)]
  exact ⟨strict, fun n => by simp [and_comm]⟩

theorem permissionsIn_isTrue (cl : Claims) (actions : List String) (ns a : String) :
    isTrue (permissionsIn w cl actions ns).session a = true ↔ a ∈ actions ∧ w.allows cl a ns = true := by
  rw [isTrue, permissionsIn_lookup]
  split <;> simp [*]

/-- The response to a request, once its loops are known. -/
def responseTo (w : World) (r : IntrospectRequest) (cl : Identity) : UserIntrospectionResponse :=
  userResponse cl (w (.getRolesForUser cl.sub)) (w.allows cl.toClaims "list" "*") (w.allows cl.toClaims "watch" "*")
    (granted (w.policy cl.sub cl.roles namespaceResourceString "list" "*"))
    ((checkNamespaces cl.toClaims (actionsOf r) (targetsOf w r cl.toClaims) ⟨∅, [], [], []⟩).eval w)

theorem handleUserIntrospect_eval (claims : r.claims = some cl) :
    (handleUserIntrospect r).eval w = .ok (responseTo w r cl) := by
  unfold handleUserIntrospect
  rw [claims]
  dsimp only
  simp only [Prog.eval_bind, targetNamespaces_eval]
  rfl

theorem responseTo_describes (w : World) (r : IntrospectRequest) (cl : Identity) :
    Describes w cl.toClaims (targetsOf w r cl.toClaims) (actionsOf r) (responseTo w r cl) := by
  have gathered := checkNamespaces_eval (w := w) cl.toClaims (actionsOf r) (targetsOf w r cl.toClaims) ⟨∅, [], [], []⟩
  have sorted := targetsOf_sorted w r cl.toClaims
  unfold responseTo
  generalize (checkNamespaces cl.toClaims (actionsOf r) (targetsOf w r cl.toClaims) ⟨∅, [], [], []⟩).eval w = out at *
  unfold userResponse
  refine ⟨?_, ?_, ?_, ?_, rfl, ?_⟩
  · exact fun n => (gathered.domains n).trans (by simp)
  · simp only [gathered.allowed, List.nil_append]
    exact (lists_filtered sorted _).congr fun n => by simp
  · simp only [gathered.creatable, List.nil_append]
    exact (lists_filtered sorted _).congr fun n => by simp
  · simp only [gathered.deletable, List.nil_append]
    exact (lists_filtered sorted _).congr fun n => by simp
  · have star := gathered.domains "*"
    simp only [Bool.or_eq_true, Bool.and_eq_true]
    refine or_congr Iff.rfl ?_
    by_cases here : "*" ∈ targetsOf w r cl.toClaims
    · rw [if_pos here] at star
      rw [star]
      simp only [Bool.and_eq_true, permissionsIn_isTrue, here, true_and]
    · rw [if_neg here] at star
      rw [star.trans (Finmap.lookup_empty _)]
      simp [here]

/-! ## Both parameters given -/

/-- The response is the table of the permissions for the entries of the two parameters. -/
structure PermissionTable (w : World) (cl : Claims) (r : IntrospectRequest) (resp : UserIntrospectionResponse) : Prop where
  domains : ∀ n, (resp.domains.lookup n).isSome = true ↔ IsEntry (r.get "namespaces") n
  actions : ∀ n perms, resp.domains.lookup n = some perms →
    ∀ a, (perms.session.lookup a).isSome = true ↔ IsEntry (r.get "actions") a
  decisions : ∀ n perms, resp.domains.lookup n = some perms → ∀ a, IsEntry (r.get "actions") a →
    (perms.session.lookup a = some true ↔ w.policy cl.sub cl.roles "session" a n = .ok true)
  allowed : Lists resp.namespaces.userAllowed fun n => n ≠ "*" ∧
    ∃ perms a, resp.domains.lookup n = some perms ∧ perms.session.lookup a = some true
  creatable : Lists resp.namespaces.userCreatable fun n => n ≠ "*" ∧
    ∃ perms, resp.domains.lookup n = some perms ∧ perms.session.lookup "create" = some true
  deletable : Lists resp.namespaces.userDeletable fun n => n ≠ "*" ∧
    ∃ perms, resp.domains.lookup n = some perms ∧ perms.session.lookup "delete" = some true
  scope : resp.capabilities.namespaceScope = resp.namespaces.userAllowed

/-- An action is granted in the table where it was asked for and Enforce granted it. -/
theorem permissionsIn_granted (cl : Claims) (actions : List String) (ns a : String) :
    (permissionsIn w cl actions ns).session.lookup a = some true ↔ a ∈ actions ∧ w.allows cl a ns = true := by
  rw [permissionsIn_lookup]
  split <;> simp [*]

/-- The row of a namespace. -/
theorem responseTo_row (n : String) (perms : DomainPermissions) : (responseTo w r cl).domains.lookup n = some perms ↔
    n ∈ targetsOf w r cl.toClaims ∧ perms = permissionsIn w cl.toClaims (actionsOf r) n := by
  rw [(responseTo_describes w r cl).domains, Option.ite_none_right_eq_some, Option.some_inj]
  exact and_congr_right fun _ => eq_comm

/-- The entries of the table that are true. -/
theorem responseTo_granted (n a : String) :
    (∃ perms, (responseTo w r cl).domains.lookup n = some perms ∧ perms.session.lookup a = some true) ↔
      n ∈ targetsOf w r cl.toClaims ∧ a ∈ actionsOf r ∧ w.allows cl.toClaims a n = true := by
  constructor
  · rintro ⟨p, found, yes⟩
    obtain ⟨mem, rfl⟩ := (responseTo_row n p).1 found
    exact ⟨mem, (permissionsIn_granted _ _ n a).1 yes⟩
  · rintro ⟨mem, yes⟩
    exact ⟨_, (responseTo_row n _).2 ⟨mem, rfl⟩, (permissionsIn_granted _ _ n a).2 yes⟩

/-- **Main result.** Whatever Enforce answers, with both parameters given the response is exactly
the table of permissions. -/
theorem explicit_introspection (claims : r.claims = some cl) (names : ∃ n, IsEntry (r.get "namespaces") n)
    (actions : ∃ a, IsEntry (r.get "actions") a) :
    ∃ resp, (handleUserIntrospect r).eval w = .ok resp ∧ PermissionTable w cl.toClaims r resp := by
  refine ⟨responseTo w r cl, handleUserIntrospect_eval claims, ?_⟩
  have said := responseTo_describes w r cl
  obtain ⟨n₀, named⟩ := names
  obtain ⟨a₀, asked⟩ := actions
  refine ⟨fun n => ?_, fun n p found a => ?_, fun n p found a entry => ?_, said.allowed.congr fun n => ?_,
    said.creatable.congr fun n => ?_, said.deletable.congr fun n => ?_, said.scope⟩
  · rw [said.domains, ← mem_targetsOf_named named, Option.isSome_ite]
  · obtain ⟨-, rfl⟩ := (responseTo_row n p).1 found
    rw [permissionsIn_lookup, ← mem_actionsOf_asked asked, Option.isSome_ite]
  · obtain ⟨-, rfl⟩ := (responseTo_row n p).1 found
    rw [permissionsIn_granted, allows_iff]
    exact and_iff_right ((mem_actionsOf_asked asked a).2 entry)
  · rw [exists_comm]
    simp only [responseTo_granted, exists_and_left]
    rw [and_left_comm]
  · rw [responseTo_granted, and_left_comm]
  · rw [responseTo_granted, and_left_comm]

/-- A request with two namespaces and the wildcard, one of them twice. -/
def twoNamespaces : IntrospectRequest :=
  ⟨[("namespaces", "b, a,*,b"), ("actions", "create,list")], some (.plain "u")⟩

theorem explicit_introspection_two :
    ∃ resp, (handleUserIntrospect twoNamespaces).eval (World.plain scaleOnly ["a"]) = .ok resp ∧
      PermissionTable (World.plain scaleOnly ["a"]) ⟨"u", []⟩ twoNamespaces resp := by
  have names : "a" ∈ splitCSVQuery (twoNamespaces.get "namespaces") := by decide +kernel
  have actions : "list" ∈ splitCSVQuery (twoNamespaces.get "actions") := by decide +kernel
  exact explicit_introspection rfl ⟨"a", mem_splitCSVQuery.1 names⟩ ⟨"list", mem_splitCSVQuery.1 actions⟩

/-! ## No parameters -/

/-- The user may do one of the default actions in the namespace. -/
def Accessible (w : World) (cl : Claims) (n : String) : Prop := ∃ a ∈ defaultActions, w.allows cl a n = true

/-- The lists are those of all namespaces that were discovered. -/
structure Complete (w : World) (cl : Claims) (info : NamespaceInfo) : Prop where
  allowed : Lists info.userAllowed fun n => n ∈ discovered w ∧ Accessible w cl n
  creatable : Lists info.userCreatable fun n => n ∈ discovered w ∧ w.allows cl "create" n = true
  deletable : Lists info.userDeletable fun n => n ∈ discovered w ∧ w.allows cl "delete" n = true

/-- Where the user may do anything, they may list; and the names are those of namespaces. -/
def ListedWhereAccessible (w : World) (cl : Claims) : Prop :=
  ∀ n ∈ discovered w, Accessible w cl n →
    (w.allows cl "list" "*" = true ∨ w.allows cl "list" n = true) ∧ n ≠ "" ∧ n ≠ "*"

/-- **Main result.** Without parameters the lists are complete if and only if `list` is granted
wherever anything is. -/
theorem default_introspection_iff (claims : r.claims = some cl) (names : r.get "namespaces" = "")
    (actions : r.get "actions" = "") : ∃ resp, (handleUserIntrospect r).eval w = .ok resp ∧
      (Complete w cl.toClaims resp.namespaces ↔ ListedWhereAccessible w cl.toClaims) := by
  refine ⟨responseTo w r cl, handleUserIntrospect_eval claims, ?_⟩
  have said := responseTo_describes w r cl
  have targets : ∀ n, n ∈ targetsOf w r cl.toClaims ∧ n ≠ "*" ↔
      n ∈ discovered w ∧ (w.allows cl.toClaims "list" "*" = true ∨ w.allows cl.toClaims "list" n = true) ∧
        n ≠ "" ∧ n ≠ "*" := by
    intro n
    rw [mem_targetsOf_blank names, mem_allowedFor]
    constructor
    · rintro ⟨⟨⟨there, list⟩ | star, named⟩, other⟩
      · exact ⟨there, list, named, other⟩
      · exact absurd star other
    · rintro ⟨there, list, named, other⟩
      exact ⟨⟨.inl ⟨there, list⟩, named⟩, other⟩
  rw [actionsOf_blank actions] at said
  have creates : "create" ∈ defaultActions := by decide
  have deletes : "delete" ∈ defaultActions := by decide
  constructor
  · intro complete n there accessible
    have allowed := (said.allowed.mem_iff n).1 ((complete.allowed.mem_iff n).2 ⟨there, accessible⟩)
    exact ((targets n).1 ⟨allowed.1, allowed.2.1⟩).2
  · intro listed
    have agree : ∀ {P : String → Prop}, (∀ n, P n → Accessible w cl.toClaims n) → ∀ n,
        (n ∈ targetsOf w r cl.toClaims ∧ n ≠ "*" ∧ P n) ↔ n ∈ discovered w ∧ P n := by
      intro P grants n
      rw [← and_assoc, targets]
      exact ⟨fun ⟨⟨there, _⟩, p⟩ => ⟨there, p⟩, fun ⟨there, p⟩ => ⟨⟨there, listed n there (grants n p)⟩, p⟩⟩
    exact ⟨said.allowed.congr (agree fun n accessible => accessible),
      said.creatable.congr fun n => by
        simpa only [creates, true_and] using agree (fun n grant => ⟨"create", creates, grant⟩) n,
      said.deletable.congr fun n => by
        simpa only [deletes, true_and] using agree (fun n grant => ⟨"delete", deletes, grant⟩) n⟩

/-- Whoever may do everything sees all lists complete. -/
theorem default_introspection_all : ∃ resp,
    (handleUserIntrospect ⟨[], some (.plain "u")⟩).eval (World.plain allowAll ["b", "a"]) = .ok resp ∧
      Complete (World.plain allowAll ["b", "a"]) ⟨"u", []⟩ resp.namespaces := by
  obtain ⟨resp, eval, complete⟩ := default_introspection_iff (w := World.plain allowAll ["b", "a"])
    (r := ⟨[], some (.plain "u")⟩) rfl rfl rfl
  have names : (discovered (World.plain allowAll ["b", "a"])).all (fun n => n ≠ "" ∧ n ≠ "*") = true := by decide +kernel
  refine ⟨resp, eval, complete.2 fun n there _ => ⟨.inl rfl, ?_⟩⟩
  exact of_decide_eq_true (List.all_eq_true.1 names n there)

/-- A policy that allows creating in the namespace `team` and nothing else. -/
def createOnly : Enforce := fun _ _ _ action ns => .ok (action = "create" ∧ ns = "team")

/-- The namespace is discovered and creating is granted, but the list does not have it. -/
theorem create_only_missed :
    discovered (World.plain createOnly ["team"]) = ["team"] ∧
    World.allows (World.plain createOnly ["team"]) ⟨"u", []⟩ "create" "team" = true ∧
    ∀ resp, (handleUserIntrospect ⟨[], some (.plain "u")⟩).eval (World.plain createOnly ["team"]) = .ok resp →
      resp.namespaces.userCreatable = [] ∧ ¬ Complete (World.plain createOnly ["team"]) ⟨"u", []⟩ resp.namespaces := by
  have there : discovered (World.plain createOnly ["team"]) = ["team"] := by decide +kernel
  have grant : World.allows (World.plain createOnly ["team"]) ⟨"u", []⟩ "create" "team" = true := by decide +kernel
  have empty : (responseTo (World.plain createOnly ["team"]) ⟨[], some (.plain "u")⟩ (.plain "u")).namespaces.userCreatable = [] := by
    decide +kernel
  refine ⟨there, grant, fun resp eval => ?_⟩
  cases (handleUserIntrospect_eval rfl).symm.trans eval
  refine ⟨empty, fun complete => ?_⟩
  have listed := (complete.creatable.mem_iff "team").2 ⟨by rw [there]; exact List.mem_cons_self, grant⟩
  rw [empty] at listed
  exact absurd listed List.not_mem_nil

/-! ## The admin flag -/

/-- The request has the wildcard checked, and both creating and deleting. -/
def ChecksEverywhere (r : IntrospectRequest) : Prop :=
  (r.get "namespaces" = "" ∨ IsEntry (r.get "namespaces") "*") ∧
    (r.get "actions" = "" ∨ IsEntry (r.get "actions") "create" ∧ IsEntry (r.get "actions") "delete")

/-- The user may list and watch Sessions everywhere. -/
def MaySeeEverywhere (w : World) (cl : Claims) : Prop := w.allows cl "list" "*" = true ∧ w.allows cl "watch" "*" = true

/-- The user may create and delete Sessions everywhere. -/
def MayManageEverywhere (w : World) (cl : Claims) : Prop :=
  w.allows cl "create" "*" = true ∧ w.allows cl "delete" "*" = true

/-- **Main result.** The flag is set for who may see Sessions everywhere, and for who may manage
them everywhere if the request has that checked; for nobody else. -/
theorem adminAccess_meaning (claims : r.claims = some cl) : ∃ resp, (handleUserIntrospect r).eval w = .ok resp ∧
    (MaySeeEverywhere w cl.toClaims → resp.capabilities.adminAccess = true) ∧
    (resp.capabilities.adminAccess = true → MaySeeEverywhere w cl.toClaims ∨ MayManageEverywhere w cl.toClaims) ∧
    (ChecksEverywhere r → (resp.capabilities.adminAccess = true ↔
      MaySeeEverywhere w cl.toClaims ∨ MayManageEverywhere w cl.toClaims)) := by
  refine ⟨responseTo w r cl, handleUserIntrospect_eval claims, ?_⟩
  have said := (responseTo_describes w r cl).admin
  rw [said]
  refine ⟨.inl, fun flag => flag.imp id fun ⟨_, create, delete⟩ => ⟨create.2, delete.2⟩, ?_⟩
  rintro ⟨names, actions⟩
  have star : "*" ∈ targetsOf w r cl.toClaims := by
    rcases names with empty | entry
    · exact (mem_targetsOf_blank empty "*").2 ⟨.inr rfl, by decide⟩
    · exact (mem_targetsOf_named entry "*").2 entry
  have asked : "create" ∈ actionsOf r ∧ "delete" ∈ actionsOf r := by
    rcases actions with empty | ⟨create, delete⟩
    · rw [actionsOf_blank empty]
      decide
    · exact ⟨(mem_actionsOf_asked create _).2 create, (mem_actionsOf_asked create _).2 delete⟩
  simp only [star, asked.1, asked.2, true_and]
  rfl

/-- The policy that is shipped, for subjects without roles. -/
def shippedPolicy : Enforce := fun sub _ resource action domain =>
  .ok (Policy.enforce Policy.policyCsv ⟨sub, resource, action, domain⟩)

/-- Under the shipped policy `local:alice`, who may do everything with Sessions, has the flag. -/
theorem adminAccess_alice : ∃ resp,
    (handleUserIntrospect ⟨[], some (.plain "local:alice")⟩).eval (World.plain shippedPolicy ["default"]) = .ok resp ∧
      resp.capabilities.adminAccess = true := by
  obtain ⟨resp, eval, sees, -⟩ := adminAccess_meaning (w := World.plain shippedPolicy ["default"])
    (r := ⟨[], some (.plain "local:alice")⟩) rfl
  exact ⟨resp, eval, sees ⟨by decide +kernel, by decide +kernel⟩⟩

/-- But she is no admin. -/
theorem alice_no_admin :
    shippedPolicy "local:alice" [] "*" "admin" "*" = .ok false ∧
    ∀ resp, (handleUserIntrospect ⟨[], some (.plain "local:alice")⟩).eval (World.plain shippedPolicy ["default"]) = .ok resp →
      ¬ (resp.capabilities.adminAccess = true ↔ shippedPolicy "local:alice" [] "*" "admin" "*" = .ok true) := by
  have flag : (responseTo (World.plain shippedPolicy ["default"]) ⟨[], some (.plain "local:alice")⟩
      (.plain "local:alice")).capabilities.adminAccess = true := by decide +kernel
  have decision : Policy.enforce Policy.policyCsv ⟨"local:alice", "*", "admin", "*"⟩ = false := by decide +kernel
  have denied : shippedPolicy "local:alice" [] "*" "admin" "*" = .ok false := congrArg Except.ok decision
  refine ⟨denied, fun resp eval agree => ?_⟩
  cases (handleUserIntrospect_eval rfl).symm.trans eval
  cases denied.symm.trans (agree.1 flag)

end Codespace.Server
