import Codespace.Go.Strings
import Codespace.Server.Handlers

/-!
# Introspection

The handlers of `internal/server/rbac_handlers.go` that tell a user what they may do and
what the server can see, with their parts in `helpers.go`. Their calls only read: they ask
the policy, and list namespaces and Sessions. A `World` answers them.
-/

namespace Codespace.Server
set_option autoImplicit false
open Interact Go

/-! ## Calls -/

/-- The calls of the introspection handlers. `client.Limit` is the last argument of a list. -/
inductive Ask where
  | enforce (subject : String) (roles : List String) (resource action domain : String)
  | getRolesForUser (subject : String)
  | listNamespaces
  | listSessions (ns : Option String) (matchingLabels : Option (String × String)) (limit : Option Nat)

@[reducible] def Reply : Ask → Type
  | .enforce _ _ _ _ _ => Except String Bool
  | .getRolesForUser _ => List String
  | .listNamespaces => Except ApiError (List String)
  | .listSessions _ _ _ => Except ApiError (List Session)

abbrev Inquire := Prog Ask Reply

abbrev ask (c : Ask) : Inquire (Reply c) := Prog.perform c

/-- What answers the calls of one request. -/
abbrev World := (c : Ask) → Reply c

/-- The policy that Enforce follows. -/
def World.policy (w : World) : Enforce := fun sub roles resource action domain =>
  w (.enforce sub roles resource action domain)

/-- A world with this policy, these namespaces and no Sessions. -/
def World.plain (policy : Enforce) (namespaces : List String) : World
  | .enforce sub roles resource action domain => policy sub roles resource action domain
  | .getRolesForUser _ => []
  | .listNamespaces => .ok namespaces
  | .listSessions _ _ _ => .ok []

/-! ## Requests and responses -/

/-- `auth.Claims`, with what `handleUserIntrospect` repeats of them. -/
structure Identity extends Claims where
  username : String
  email : String
  provider : String
  issuedAt : Int
  expiresAt : Int

structure IntrospectRequest where
  query : List (String × String)
  claims : Option Identity

/-- A user without roles. -/
def Identity.plain (sub : String) : Identity := ⟨⟨sub, []⟩, sub, "", "", 0, 0⟩

/-- `r.URL.Query().Get(key)`. -/
def IntrospectRequest.get (r : IntrospectRequest) (key : String) : String := (r.query.lookup key).getD ""

structure UserInfo where
  subject : String
  username : String
  email : String
  roles : List String
  provider : String
  issuedAt : Int
  expiresAt : Int
  implicitRoles : List String

structure DomainPermissions where
  session : GoMap String Bool

structure NamespaceInfo where
  userAllowed : List String
  userCreatable : List String
  userDeletable : List String

structure UserCapabilities where
  namespaceScope : List String
  clusterScope : Bool
  adminAccess : Bool

structure UserIntrospectionResponse where
  user : UserInfo
  domains : GoMap String DomainPermissions
  namespaces : NamespaceInfo
  capabilities : UserCapabilities

structure NamespacePermissions where
  list : Bool
  watch : Bool

structure ServiceAccountInfo where
  namespaces : NamespacePermissions
  session : GoMap String Bool

/-- `casbin` stands for `CasbinPermissions`, which has the one field. -/
structure ClusterInfo where
  casbin : NamespacePermissions
  serverServiceAccount : ServiceAccountInfo

structure ServerNamespaceInfo where
  all : List String
  withSessions : List String

structure SystemCapabilities where
  clusterScope : Bool
  multiTenant : Bool

structure ServerIntrospectionResponse where
  cluster : ClusterInfo
  namespaces : ServerNamespaceInfo
  capabilities : SystemCapabilities
  version : String
  instanceID : String
  manager : AnchorMeta

/-! ## Helpers -/

/-- The entries of a comma list: trimmed, none empty and none twice. -/
def splitCSVQuery (s : String) : List String :=
  if trimSpace s = "" then [] else collect (fun p => p ≠ "") trimSpace (split ',' s) []

/-- `e` is an entry of the comma list `s`. -/
def IsEntry (s e : String) : Prop := e ≠ "" ∧ ∃ piece ∈ split ',' s, trimSpace piece = e

theorem mem_splitCSVQuery {s e : String} : e ∈ splitCSVQuery s ↔ IsEntry s e := by
  unfold splitCSVQuery IsEntry
  split
  · rename_i blank
    refine iff_of_false List.not_mem_nil ?_
    rintro ⟨ne, piece, mem, rfl⟩
    exact ne (trimSpace_piece blank mem)
  · rw [mem_collect]
    simp

theorem splitCSVQuery_eq_nil {s : String} : splitCSVQuery s = [] ↔ ∀ e, ¬ IsEntry s e := by
  rw [List.eq_nil_iff_forall_not_mem]
  exact forall_congr' fun e => not_congr mem_splitCSVQuery

theorem splitCSVQuery_ne_nil {s e : String} (entry : IsEntry s e) : splitCSVQuery s ≠ [] :=
  fun none => splitCSVQuery_eq_nil.1 none e entry

def uniqueNamespaces (namespaces : List String) : List String :=
  sortStrings (collect (fun ns => ns ≠ "") id namespaces [])

theorem uniqueNamespaces_lists (namespaces : List String) :
    Lists (uniqueNamespaces namespaces) fun ns => ns ∈ namespaces ∧ ns ≠ "" :=
  (lists_sortStrings (nodup_collect List.nodup_nil)).congr fun ns => by
    rw [mem_collect]
    simp [and_comm]

def filterNamespaces (allNamespaces allowedNamespaces : List String) : List String :=
  allNamespaces.filter fun ns => ns ∈ allowedNamespaces

def canListNamespaces : Inquire Bool := do
  match ← ask .listNamespaces with
  | .error _ => return false
  | .ok _ => return true

/-- All namespaces, or `default` where none can be listed. There is never an error. -/
def discoverNamespaces : Inquire (Except String (List String)) := do
  let listed ← (do
    if ← canListNamespaces then
      match ← ask .listNamespaces with
      | .ok names => return sortStrings names
      | .error _ => return []
    else return [] : Inquire (List String))
  return .ok (if listed = [] then ["default"] else listed)

/-- The loop over the namespaces of the per-namespace fallback. -/
def namespacesWithOne (sel : Option (String × String)) : List String → Inquire (List String)
  | [] => return []
  | ns :: names => do
    let one ← ask (.listSessions (some ns) sel (some 1))
    let rest ← namespacesWithOne sel names
    match one with
    | .ok (_ :: _) => return ns :: rest
    | _ => return rest

def discoverNamespacesWithSessions (d : ServerDeps) : Inquire (Except String (List String)) := do
  let found ← (do
    match ← ask (.listSessions none (instanceSelector d) none) with
    | .ok items => return sortStrings (d.platform.mapOrder (items.map (·.metadata.ns)).dedup)
    | .error _ =>
      if ← canListNamespaces then
        match ← ask .listNamespaces with
        | .ok names =>
          let having ← namespacesWithOne (instanceSelector d) names
          return sortStrings (d.platform.mapOrder having.dedup)
        | .error _ => return []
      else return [] : Inquire (List String))
  return .ok (if found = [] then [""] else found)

/-- The loop that asks for each namespace. -/
def allowedNamespaces (cl : Claims) : List String → Inquire (List String)
  | [] => return []
  | ns :: names => do
    let decision ← ask (.enforce cl.sub cl.roles sessionResourceString "list" ns)
    let rest ← allowedNamespaces cl names
    return if granted decision then ns :: rest else rest

def getAllowedNamespacesForUser (cl : Claims) : Inquire (Except String (List String)) := do
  match ← discoverNamespaces with
  | .error e => return .error ("failed to discover namespaces: " ++ e)
  | .ok allNamespaces =>
    if granted (← ask (.enforce cl.sub cl.roles sessionResourceString "list" "*")) then
      return .ok allNamespaces
    else return .ok (← allowedNamespaces cl allNamespaces)

/-- `canPerformSessionAction`: a trial list, for each verb that is known. -/
def canPerformSessionAction (verb : String) : Inquire Bool := do
  if verb ∈ ["get", "list", "watch", "create", "update", "delete", "patch"] then
    match ← ask (.listSessions (some "default") none none) with
    | .error _ => return false
    | .ok _ => return true
  else return false

def sessionPermissions : List String → GoMap String Bool → Inquire (GoMap String Bool)
  | [], perms => return perms
  | verb :: verbs, perms => do
    let can ← canPerformSessionAction verb
    sessionPermissions verbs (perms.insert verb can)

def buildServerCapabilities : Inquire ServiceAccountInfo := do
  let list ← canListNamespaces
  let perms ← sessionPermissions ["get", "list", "watch", "create", "update", "delete", "patch"] ∅
  return ⟨⟨list, false⟩, perms⟩

/-! ## The user -/

def namespaceResourceString : String := "namespace"

def defaultActions : List String := ["get", "list", "watch", "create", "update", "delete", "scale"]

/-- What the inner loop has found out about one namespace. -/
structure ActionChecks where
  sessionPerms : GoMap String Bool
  hasAnyPermission : Bool
  canCreate : Bool
  canDelete : Bool

/-- The loop over the actions. -/
def checkActions (cl : Claims) (ns : String) : List String → ActionChecks → Inquire ActionChecks
  | [], checks => return checks
  | action :: actions, checks => do
    let allowed := granted (← ask (.enforce cl.sub cl.roles sessionResourceString action ns))
    checkActions cl ns actions {
      sessionPerms := checks.sessionPerms.insert action allowed
      hasAnyPermission := checks.hasAnyPermission || allowed
      canCreate := checks.canCreate || (allowed && action = "create")
      canDelete := checks.canDelete || (allowed && action = "delete") }

/-- What the outer loop has gathered. -/
structure Gathered where
  domains : GoMap String DomainPermissions
  userAllowed : List String
  userCreatable : List String
  userDeletable : List String

/-- Note what was found out about a namespace. The wildcard is kept out of the lists. -/
def Gathered.note (gathered : Gathered) (ns : String) (checks : ActionChecks) : Gathered where
  domains := gathered.domains.insert ns ⟨checks.sessionPerms⟩
  userAllowed := if checks.hasAnyPermission && ns ≠ "*" then gathered.userAllowed ++ [ns] else gathered.userAllowed
  userCreatable := if checks.canCreate && ns ≠ "*" then gathered.userCreatable ++ [ns] else gathered.userCreatable
  userDeletable := if checks.canDelete && ns ≠ "*" then gathered.userDeletable ++ [ns] else gathered.userDeletable

/-- The loop over the namespaces. -/
def checkNamespaces (cl : Claims) (actions : List String) : List String → Gathered → Inquire Gathered
  | [], gathered => return gathered
  | ns :: names, gathered => do
    let checks ← checkActions cl ns actions ⟨∅, false, false, false⟩
    checkNamespaces cl actions names (gathered.note ns checks)

/-- `m[a]` on a `map[string]bool`. -/
def isTrue (m : GoMap String Bool) (a : String) : Bool := (m.lookup a).getD false

/-- The namespaces that are checked. -/
def targetNamespaces (cl : Claims) (requested : List String) : Inquire (List String) := do
  if requested ≠ [] then return uniqueNamespaces requested
  else
    match ← getAllowedNamespacesForUser cl with
    | .error _ => return uniqueNamespaces (["default", "kube-system", "kube-public"] ++ ["*"])
    | .ok discovered => return uniqueNamespaces (discovered ++ ["*"])

/-- The actions that are checked. -/
def actionsOf (r : IntrospectRequest) : List String :=
  if splitCSVQuery (r.get "actions") = [] then defaultActions else splitCSVQuery (r.get "actions")

/-- The response, once everything has been asked. The wildcard's own permissions may add to what
makes an admin. -/
def userResponse (cl : Identity) (implicitRoles : List String) (hasClusterList hasClusterWatch nsListAllowed : Bool)
    (gathered : Gathered) : UserIntrospectionResponse where
  user := ⟨cl.sub, cl.username, cl.email, cl.roles, cl.provider, cl.issuedAt, cl.expiresAt, implicitRoles⟩
  domains := gathered.domains
  namespaces := ⟨sortStrings gathered.userAllowed, sortStrings gathered.userCreatable,
    sortStrings gathered.userDeletable⟩
  capabilities := {
    namespaceScope := sortStrings gathered.userAllowed
    clusterScope := hasClusterList || hasClusterWatch || nsListAllowed
    adminAccess := (hasClusterList && hasClusterWatch) || match gathered.domains.lookup "*" with
      | none => false
      | some starDomain => isTrue starDomain.session "create" && isTrue starDomain.session "delete" }

def handleUserIntrospect (r : IntrospectRequest) : Inquire (Except HttpResp UserIntrospectionResponse) :=
  match r.claims with
  | none => return .error (httpError "unauthorized" 401)
  | some cl => do
    let implicitRoles ← ask (.getRolesForUser cl.sub)
    let hasClusterList ← ask (.enforce cl.sub cl.roles sessionResourceString "list" "*")
    let hasClusterWatch ← ask (.enforce cl.sub cl.roles sessionResourceString "watch" "*")
    let nsListAllowed ← ask (.enforce cl.sub cl.roles namespaceResourceString "list" "*")
    let targets ← targetNamespaces cl.toClaims (splitCSVQuery (r.get "namespaces"))
    let gathered ← checkNamespaces cl.toClaims (actionsOf r) targets ⟨∅, [], [], []⟩
    return .ok (userResponse cl implicitRoles (granted hasClusterList) (granted hasClusterWatch)
      (granted nsListAllowed) gathered)

/-! ## The server -/

/-- The namespaces that are shown: all, and those with Sessions. -/
def shownNamespaces (d : ServerDeps) (cl : Claims) (hasClusterAccess : Bool) : Inquire ServerNamespaceInfo := do
  let all ← discoverNamespaces
  match all, ← discoverNamespacesWithSessions d with
  | _, .error _ => return ⟨[], []⟩
  | all, .ok sessNs => do
    let allNs := match all with
      | .error _ => []
      | .ok names => names
    if hasClusterAccess then return ⟨allNs, sessNs⟩
    else
      match ← getAllowedNamespacesForUser cl with
      | .error _ => return ⟨allNs, sessNs⟩
      | .ok allowed => return ⟨filterNamespaces allNs allowed, filterNamespaces sessNs allowed⟩

def handleServerIntrospect (d : ServerDeps) (r : IntrospectRequest) :
    Inquire (Except HttpResp ServerIntrospectionResponse) :=
  match r.claims with
  | none => return .error (httpError "unauthorized" 401)
  | some cl => do
    let hasClusterAccess := granted (← ask (.enforce cl.sub cl.roles namespaceResourceString "list" "*"))
    let hasSessionAccess := granted (← ask (.enforce cl.sub cl.roles sessionResourceString "list" "*"))
    if !hasClusterAccess && !hasSessionAccess then
      return .error (httpError "insufficient permissions to view server information" 403)
    else do
    let capabilities ← buildServerCapabilities
    let namespaces ← if r.get "discover" = "1" then shownNamespaces d cl.toClaims hasClusterAccess
      else pure ⟨[], []⟩
    return .ok {
      cluster := ⟨⟨capabilities.namespaces.list, capabilities.namespaces.list⟩, capabilities⟩
      namespaces := namespaces
      capabilities := ⟨d.clusterScope, 5 < namespaces.all.length⟩
      version := "1.0.0"
      instanceID := d.instanceID
      manager := d.manager }

end Codespace.Server
