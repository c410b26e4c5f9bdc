import Codespace.Server.Bodies
import Codespace.Server.Discovery

/-!
# The combined introspection endpoint

`handleIntrospect` of `rbac_handlers.go`, which the UI still asks. It calls the handlers of the
two endpoints that replace it, with the query parsed and encoded again, reads the JSON that each
of them wrote, and puts the parts together. `legacy_introspection` says that nothing is lost or
added on the way: it shows what the two endpoints show, and of the server only what the second
shows to this user.
-/

namespace Codespace.Server
set_option autoImplicit false
open Interact Go Go.Codec

/-! ## The responses as JSON -/

/-- An int64 with `omitempty`. -/
def timeMember (name : String) (n : Int) : List (String × Json) := if n = 0 then [] else [(name, .int n)]

def encodeUserInfo (u : UserInfo) : Json :=
  .obj (string.always "subject" u.subject ++ (string.omitEmpty "username" u.username ++
    (string.omitEmpty "email" u.email ++ ((slice string).always "roles" u.roles ++
      (string.omitEmpty "provider" u.provider ++ (timeMember "iat" u.issuedAt ++ (timeMember "exp" u.expiresAt ++
        ((slice string).omitEmpty "implicitRoles" u.implicitRoles ++ []))))))))

def decodeUserInfo : Decoder UserInfo := decodeStruct (fields [
  ("subject", onField (·.subject) (fun u v => { u with subject := v }) decodeString),
  ("username", onField (·.username) (fun u v => { u with username := v }) decodeString),
  ("email", onField (·.email) (fun u v => { u with email := v }) decodeString),
  ("roles", onField (·.roles) (fun u v => { u with roles := v }) (decodeSlice "" decodeString)),
  ("provider", onField (·.provider) (fun u v => { u with provider := v }) decodeString),
  ("iat", onField (·.issuedAt) (fun u v => { u with issuedAt := v }) decodeInt64),
  ("exp", onField (·.expiresAt) (fun u v => { u with expiresAt := v }) decodeInt64),
  ("implicitRoles", onField (·.implicitRoles) (fun u v => { u with implicitRoles := v }) (decodeSlice "" decodeString))])

def emptyUserInfo : UserInfo := ⟨"", "", "", [], "", 0, 0, []⟩

/-- A time that an int64 holds. -/
def IsTime (n : Int) : Prop := -2 ^ 63 ≤ n ∧ n < 2 ^ 63

instance (n : Int) : Decidable (IsTime n) := inferInstanceAs (Decidable (_ ∧ _))

theorem decode_time {α : Type} {field : String → Option (Decoder α)} {name : String} {get : α → Int}
    {set : α → Int → α} (found : field name = some (onField get set decodeInt64)) {a : α} (clear : get a = 0)
    (kept : set a (get a) = a) {n : Int} (time : IsTime n) (ms : List (String × Json)) :
    decodeStruct field (.obj (timeMember name n ++ ms)) a = decodeStruct field (.obj ms) (set a n) := by
  by_cases none : n = 0
  · rw [timeMember, if_pos none, List.nil_append, none, ← clear, kept]
  · have range : -2 ^ 63 ≤ n ∧ n < 2 ^ 63 := time
    rw [timeMember, if_neg none]
    exact decode_member found (by rw [decodeInt64, if_pos range]) ms

theorem decode_userInfo {u : UserInfo} (issued : IsTime u.issuedAt) (expires : IsTime u.expiresAt) :
    decodeUserInfo (encodeUserInfo u) emptyUserInfo = (u, false) := by
  unfold decodeUserInfo
  exact (string.decode_always (fields_at 0 (by decide) rfl) (by rfl) _ _).trans <|
    (string.decode_omitEmpty (fields_at 1 (by decide) rfl) (by rfl) (by rfl) _ _).trans <|
    (string.decode_omitEmpty (fields_at 2 (by decide) rfl) (by rfl) (by rfl) _ _).trans <|
    ((slice string).decode_always (fields_at 3 (by decide) rfl) (by rfl) _ _).trans <|
    (string.decode_omitEmpty (fields_at 4 (by decide) rfl) (by rfl) (by rfl) _ _).trans <|
    (decode_time (fields_at 5 (by decide) rfl) (by rfl) (by rfl) issued _).trans <|
    (decode_time (fields_at 6 (by decide) rfl) (by rfl) (by rfl) expires _).trans <|
    ((slice string).decode_omitEmpty (fields_at 7 (by decide) rfl) (by rfl) (by rfl) _ _).trans (by rfl)

def domainPermissions : Codec DomainPermissions where
  encode := fun p => .obj (bool.map.always "session" p.session ++ [])
  decode := decodeStruct (fields [
    ("session", onField (·.session) (fun _ v => ⟨v⟩) (decodeMap false decodeBool))])
  zero := ⟨∅⟩
  reads := fun _ => (bool.map.decode_always (fields_at 0 (by decide) rfl) (by rfl) _ _).trans (by rfl)

def namespaceInfo : Codec NamespaceInfo where
  encode := fun n => .obj ((slice string).always "userAllowed" n.userAllowed ++
    ((slice string).omitEmpty "userCreatable" n.userCreatable ++
      ((slice string).omitEmpty "userDeletable" n.userDeletable ++ [])))
  decode := decodeStruct (fields [
    ("userAllowed", onField (·.userAllowed) (fun n v => { n with userAllowed := v }) (decodeSlice "" decodeString)),
    ("userCreatable", onField (·.userCreatable) (fun n v => { n with userCreatable := v }) (decodeSlice "" decodeString)),
    ("userDeletable", onField (·.userDeletable) (fun n v => { n with userDeletable := v }) (decodeSlice "" decodeString))])
  zero := ⟨[], [], []⟩
  reads := fun _ => ((slice string).decode_always (fields_at 0 (by decide) rfl) (by rfl) _ _).trans <|
    ((slice string).decode_omitEmpty (fields_at 1 (by decide) rfl) (by rfl) (by rfl) _ _).trans <|
    ((slice string).decode_omitEmpty (fields_at 2 (by decide) rfl) (by rfl) (by rfl) _ _).trans (by rfl)

def userCapabilities : Codec UserCapabilities where
  encode := fun c => .obj ((slice string).always "namespaceScope" c.namespaceScope ++
    (bool.always "clusterScope" c.clusterScope ++ (bool.always "adminAccess" c.adminAccess ++ [])))
  decode := decodeStruct (fields [
    ("namespaceScope", onField (·.namespaceScope) (fun c v => { c with namespaceScope := v }) (decodeSlice "" decodeString)),
    ("clusterScope", onField (·.clusterScope) (fun c v => { c with clusterScope := v }) decodeBool),
    ("adminAccess", onField (·.adminAccess) (fun c v => { c with adminAccess := v }) decodeBool)])
  zero := ⟨[], false, false⟩
  reads := fun _ => ((slice string).decode_always (fields_at 0 (by decide) rfl) (by rfl) _ _).trans <|
    (bool.decode_always (fields_at 1 (by decide) rfl) (by rfl) _ _).trans <|
    (bool.decode_always (fields_at 2 (by decide) rfl) (by rfl) _ _).trans (by rfl)

def encodeUserResponse (resp : UserIntrospectionResponse) : Json :=
  .obj (("user", encodeUserInfo resp.user) :: (domainPermissions.map.always "domains" resp.domains ++
    (namespaceInfo.always "namespaces" resp.namespaces ++ (userCapabilities.always "capabilities" resp.capabilities ++ []))))

def decodeUserResponse : Decoder UserIntrospectionResponse := decodeStruct (fields [
  ("user", onField (·.user) (fun r v => { r with user := v }) decodeUserInfo),
  ("domains", onField (·.domains) (fun r v => { r with domains := v }) domainPermissions.map.decode),
  ("namespaces", onField (·.namespaces) (fun r v => { r with namespaces := v }) namespaceInfo.decode),
  ("capabilities", onField (·.capabilities) (fun r v => { r with capabilities := v }) userCapabilities.decode)])

def emptyUserResponse : UserIntrospectionResponse := ⟨emptyUserInfo, ∅, ⟨[], [], []⟩, ⟨[], false, false⟩⟩

theorem decode_userResponse {resp : UserIntrospectionResponse} (issued : IsTime resp.user.issuedAt)
    (expires : IsTime resp.user.expiresAt) :
    decodeUserResponse (encodeUserResponse resp) emptyUserResponse = (resp, false) := by
  unfold decodeUserResponse
  exact (decode_member (fields_at 0 (by decide) rfl) (by exact decode_userInfo issued expires) _).trans <|
    (domainPermissions.map.decode_always (fields_at 1 (by decide) rfl) (by rfl) _ _).trans <|
    (namespaceInfo.decode_always (fields_at 2 (by decide) rfl) (by rfl) _ _).trans <|
    (userCapabilities.decode_always (fields_at 3 (by decide) rfl) (by rfl) _ _).trans (by rfl)

/-! ### The server's -/

def namespacePermissions : Codec NamespacePermissions where
  encode := fun p => .obj (bool.always "list" p.list ++ (bool.always "watch" p.watch ++ []))
  decode := decodeStruct (fields [
    ("list", onField (·.list) (fun p v => { p with list := v }) decodeBool),
    ("watch", onField (·.watch) (fun p v => { p with watch := v }) decodeBool)])
  zero := ⟨false, false⟩
  reads := fun _ => (bool.decode_always (fields_at 0 (by decide) rfl) (by rfl) _ _).trans <|
    (bool.decode_always (fields_at 1 (by decide) rfl) (by rfl) _ _).trans (by rfl)

/-- `CasbinPermissions`, which has the one field. -/
def casbinPermissions : Codec NamespacePermissions where
  encode := fun p => .obj (namespacePermissions.always "namespaces" p ++ [])
  decode := decodeStruct (fields [("namespaces", onField id (fun _ v => v) namespacePermissions.decode)])
  zero := ⟨false, false⟩
  reads := fun _ => (namespacePermissions.decode_always (fields_at 0 (by decide) rfl) (by rfl) _ _).trans (by rfl)

def serviceAccountInfo : Codec ServiceAccountInfo where
  encode := fun i => .obj (namespacePermissions.always "namespaces" i.namespaces ++
    (bool.map.always "session" i.session ++ []))
  decode := decodeStruct (fields [
    ("namespaces", onField (·.namespaces) (fun i v => { i with namespaces := v }) namespacePermissions.decode),
    ("session", onField (·.session) (fun i v => { i with session := v }) bool.map.decode)])
  zero := ⟨⟨false, false⟩, ∅⟩
  reads := fun _ => (namespacePermissions.decode_always (fields_at 0 (by decide) rfl) (by rfl) _ _).trans <|
    (bool.map.decode_always (fields_at 1 (by decide) rfl) (by rfl) _ _).trans (by rfl)

def clusterInfo : Codec ClusterInfo where
  encode := fun c => .obj (casbinPermissions.always "casbin" c.casbin ++
    (serviceAccountInfo.always "serverServiceAccount" c.serverServiceAccount ++ []))
  decode := decodeStruct (fields [
    ("casbin", onField (·.casbin) (fun c v => { c with casbin := v }) casbinPermissions.decode),
    ("serverServiceAccount", onField (·.serverServiceAccount) (fun c v => { c with serverServiceAccount := v })
      serviceAccountInfo.decode)])
  zero := ⟨⟨false, false⟩, ⟨⟨false, false⟩, ∅⟩⟩
  reads := fun _ => (casbinPermissions.decode_always (fields_at 0 (by decide) rfl) (by rfl) _ _).trans <|
    (serviceAccountInfo.decode_always (fields_at 1 (by decide) rfl) (by rfl) _ _).trans (by rfl)

def serverNamespaceInfo : Codec ServerNamespaceInfo where
  encode := fun n => .obj ((slice string).omitEmpty "all" n.all ++
    ((slice string).omitEmpty "withSessions" n.withSessions ++ []))
  decode := decodeStruct (fields [
    ("all", onField (·.all) (fun n v => { n with all := v }) (decodeSlice "" decodeString)),
    ("withSessions", onField (·.withSessions) (fun n v => { n with withSessions := v }) (decodeSlice "" decodeString))])
  zero := ⟨[], []⟩
  reads := fun _ => ((slice string).decode_omitEmpty (fields_at 0 (by decide) rfl) (by rfl) (by rfl) _ _).trans <|
    ((slice string).decode_omitEmpty (fields_at 1 (by decide) rfl) (by rfl) (by rfl) _ _).trans (by rfl)

def systemCapabilities : Codec SystemCapabilities where
  encode := fun c => .obj (bool.always "clusterScope" c.clusterScope ++ (bool.always "multiTenant" c.multiTenant ++ []))
  decode := decodeStruct (fields [
    ("clusterScope", onField (·.clusterScope) (fun c v => { c with clusterScope := v }) decodeBool),
    ("multiTenant", onField (·.multiTenant) (fun c v => { c with multiTenant := v }) decodeBool)])
  zero := ⟨false, false⟩
  reads := fun _ => (bool.decode_always (fields_at 0 (by decide) rfl) (by rfl) _ _).trans <|
    (bool.decode_always (fields_at 1 (by decide) rfl) (by rfl) _ _).trans (by rfl)

/-- What `handleIntrospect` takes from the server's response. -/
structure ServerPart where
  cluster : ClusterInfo
  namespaces : ServerNamespaceInfo
  capabilities : SystemCapabilities

/-- `ServerIntrospectionResponse`, but for the members that are not taken from it. -/
def serverPart : Codec ServerPart where
  encode := fun s => .obj (clusterInfo.always "cluster" s.cluster ++
    (serverNamespaceInfo.always "namespaces" s.namespaces ++ (systemCapabilities.always "capabilities" s.capabilities ++ [])))
  decode := decodeStruct (fields [
    ("cluster", onField (·.cluster) (fun s v => { s with cluster := v }) clusterInfo.decode),
    ("namespaces", onField (·.namespaces) (fun s v => { s with namespaces := v }) serverNamespaceInfo.decode),
    ("capabilities", onField (·.capabilities) (fun s v => { s with capabilities := v }) systemCapabilities.decode)])
  zero := ⟨clusterInfo.zero, ⟨[], []⟩, ⟨false, false⟩⟩
  reads := fun _ => (clusterInfo.decode_always (fields_at 0 (by decide) rfl) (by rfl) _ _).trans <|
    (serverNamespaceInfo.decode_always (fields_at 1 (by decide) rfl) (by rfl) _ _).trans <|
    (systemCapabilities.decode_always (fields_at 2 (by decide) rfl) (by rfl) _ _).trans (by rfl)

/-! ## The handler -/

/-- `url.ParseQuery` of `Encode`: the parameters by their names in order, those of one name as they were. -/
def encodedAgain (query : List (String × String)) : List (String × String) :=
  (sortStrings (query.map Prod.fst).dedup).flatMap fun key => query.filter (·.1 = key)

/-- The request that the inner handlers get. -/
def IntrospectRequest.cloned (r : IntrospectRequest) : IntrospectRequest := { r with query := encodedAgain r.query }

/-- What `combineCapabilities` puts together. -/
structure LegacyCapabilities where
  namespaceScope : List String
  clusterScope : Bool
  adminAccess : Bool
  multiTenant : Bool

structure LegacyResponse where
  user : UserInfo
  domains : GoMap String DomainPermissions
  namespaces : GoMap String (List String)
  capabilities : LegacyCapabilities
  cluster : Option ClusterInfo

/-- Set a member, unless its list is empty. -/
def putSome (m : GoMap String (List String)) (key : String) (names : List String) : GoMap String (List String) :=
  if names = [] then m else m.insert key names

def combineNamespaceInfo (user : NamespaceInfo) (server : ServerNamespaceInfo) : GoMap String (List String) :=
  putSome (putSome (putSome (putSome ((∅ : GoMap String (List String)).insert "userAllowed" user.userAllowed)
    "userCreatable" user.userCreatable) "userDeletable" user.userDeletable) "all" server.all)
    "withSessions" server.withSessions

def combineCapabilities (user : UserCapabilities) (system : SystemCapabilities) : LegacyCapabilities :=
  ⟨user.namespaceScope, user.clusterScope, user.adminAccess, system.multiTenant⟩

inductive Introspection where
  | user (resp : UserIntrospectionResponse)
  | server (resp : ServerIntrospectionResponse)
  | combined (resp : LegacyResponse)

/-- What is taken from the server's response; from one that is none, the zero values. -/
def ServerIntrospectionResponse.part (resp : ServerIntrospectionResponse) : ServerPart :=
  ⟨resp.cluster, resp.namespaces, resp.capabilities⟩

def handleIntrospect (d : ServerDeps) (r : IntrospectRequest) : Inquire (Except HttpResp Introspection) :=
  match r.claims with
  | none => return .error (httpError "unauthorized" 401)
  | some _ =>
    if r.get "type" = "user" then do return (← handleUserIntrospect r).map .user
    else if r.get "type" = "server" then do return (← handleServerIntrospect d r).map .server
    else do
      match ← handleUserIntrospect r.cloned with
      | .error resp => return .error (httpError "failed to get user info" resp.status)
      | .ok sent =>
        match decodeUserResponse (encodeUserResponse sent) emptyUserResponse with
        | (_, true) => return .error (httpError "failed to parse user info" 500)
        | (userResp, false) => do
          let serverRec ← handleServerIntrospect d r.cloned
          let serverResp := match serverRec with
            | .error _ => serverPart.zero
            | .ok sent => (serverPart.decode (serverPart.encode sent.part) serverPart.zero).1
          return .ok (.combined {
            user := userResp.user
            domains := userResp.domains
            namespaces := combineNamespaceInfo userResp.namespaces serverResp.namespaces
            capabilities := combineCapabilities userResp.capabilities serverResp.capabilities
            cluster := match serverRec with
              | .error _ => none
              | .ok _ => some serverResp.cluster })

/-! ## What it shows -/

section

variable {r : IntrospectRequest}

theorem lookup_pair (query : List (String × String)) (key name value : String) :
    ((name, value) :: query).lookup key = if key = name then some value else query.lookup key := by
  by_cases here : key = name
  · simp [here]
  · rw [if_neg here, List.lookup_cons, beq_eq_false_iff_ne.2 here]

theorem lookup_filter (query : List (String × String)) (key key' : String) :
    (query.filter (·.1 = key')).lookup key = if key = key' then query.lookup key else none := by
  induction query with
  | nil => simp
  | cons p query ih =>
    obtain ⟨name, value⟩ := p
    by_cases kept : name = key'
    · subst kept
      rw [List.filter_cons_of_pos (by simp), lookup_pair, lookup_pair, ih]
      split <;> rfl
    · rw [List.filter_cons_of_neg (by simpa using kept), lookup_pair, ih]
      by_cases asked : key = key'
      · subst asked
        rw [if_pos rfl, if_pos rfl, if_neg (Ne.symm kept)]
      · rw [if_neg asked, if_neg asked]

theorem lookup_flatMap (query : List (String × String)) (keys : List String) (key : String) :
    (keys.flatMap fun key => query.filter (·.1 = key)).lookup key = if key ∈ keys then query.lookup key else none := by
  induction keys with
  | nil => rfl
  | cons first keys ih =>
    rw [List.flatMap_cons, List.lookup_append, lookup_filter, ih]
    by_cases here : key = first
    · rw [if_pos here, if_pos (List.mem_cons.2 (.inl here))]
      cases query.lookup key with
      | none => simp
      | some value => rfl
    · simp [here]

/-- Every parameter is the same in the inner request. -/
theorem cloned_get (r : IntrospectRequest) (key : String) : r.cloned.get key = r.get key := by
  have same : (encodedAgain r.query).lookup key = r.query.lookup key := by
    rw [encodedAgain, lookup_flatMap]
    split
    · rfl
    · rename_i absent
      rw [mem_sortStrings, List.mem_dedup] at absent
      refine (List.lookup_eq_none_iff.2 fun p mem => ?_).symm
      exact bne_iff_ne.2 fun found => absent (List.mem_map.2 ⟨p, mem, found.symm⟩)
  rw [IntrospectRequest.get, IntrospectRequest.cloned, same, IntrospectRequest.get]

theorem handleUserIntrospect_cloned : handleUserIntrospect r.cloned = handleUserIntrospect r := by
  unfold handleUserIntrospect actionsOf
  simp only [cloned_get]
  rfl

theorem handleServerIntrospect_cloned (d : ServerDeps) : handleServerIntrospect d r.cloned = handleServerIntrospect d r := by
  unfold handleServerIntrospect
  simp only [cloned_get]
  rfl

/-- The lists of names that are shown, each unless it is empty. -/
structure NamesListed (m : GoMap String (List String)) (user : NamespaceInfo) (server : ServerNamespaceInfo) : Prop where
  userAllowed : m.lookup "userAllowed" = some user.userAllowed
  userCreatable : m.lookup "userCreatable" = if user.userCreatable = [] then none else some user.userCreatable
  userDeletable : m.lookup "userDeletable" = if user.userDeletable = [] then none else some user.userDeletable
  all : m.lookup "all" = if server.all = [] then none else some server.all
  withSessions : m.lookup "withSessions" = if server.withSessions = [] then none else some server.withSessions
  others : ∀ key ∉ ["userAllowed", "userCreatable", "userDeletable", "all", "withSessions"], m.lookup key = none

theorem putSome_lookup (m : GoMap String (List String)) (key key' : String) (names : List String) :
    (putSome m key names).lookup key' = if key' = key ∧ names ≠ [] then some names else m.lookup key' := by
  unfold putSome
  by_cases empty : names = []
  · simp [empty]
  · by_cases here : key' = key
    · subst here
      simp [empty]
    · simp [empty, here]

theorem combineNamespaceInfo_namesListed (user : NamespaceInfo) (server : ServerNamespaceInfo) :
    NamesListed (combineNamespaceInfo user server) user server := by
  have lookup : ∀ key, (combineNamespaceInfo user server).lookup key =
      if key = "withSessions" ∧ server.withSessions ≠ [] then some server.withSessions
      else if key = "all" ∧ server.all ≠ [] then some server.all
      else if key = "userDeletable" ∧ user.userDeletable ≠ [] then some user.userDeletable
      else if key = "userCreatable" ∧ user.userCreatable ≠ [] then some user.userCreatable
      else if key = "userAllowed" then some user.userAllowed else none := by
    intro key
    simp only [combineNamespaceInfo, putSome_lookup]
    by_cases first : key = "userAllowed"
    · subst first
      simp
    · simp [first]
  constructor
  · rw [lookup]
    simp
  · rw [lookup]
    by_cases none : user.userCreatable = [] <;> simp [none]
  · rw [lookup]
    by_cases none : user.userDeletable = [] <;> simp [none]
  · rw [lookup]
    by_cases none : server.all = [] <;> simp [none]
  · rw [lookup]
    by_cases none : server.withSessions = [] <;> simp [none]
  · intro key other
    simp only [List.mem_cons, List.not_mem_nil, or_false, not_or] at other
    simp [lookup, other]

variable {w : World} {d : ServerDeps} {cl : Identity}

/-- What is shown of the two responses. -/
def combined (user : UserIntrospectionResponse) (server : Option ServerIntrospectionResponse) : LegacyResponse where
  user := user.user
  domains := user.domains
  namespaces := combineNamespaceInfo user.namespaces ((server.map (·.namespaces)).getD ⟨[], []⟩)
  capabilities := combineCapabilities user.capabilities ((server.map (·.capabilities)).getD ⟨false, false⟩)
  cluster := server.map (·.cluster)

theorem handleIntrospect_combined (claims : r.claims = some cl) (issued : IsTime cl.issuedAt) (expires : IsTime cl.expiresAt)
    (both : r.get "type" ≠ "user" ∧ r.get "type" ≠ "server") : (handleIntrospect d r).eval w =
      .ok (.combined (combined (responseTo w r cl) ((handleServerIntrospect d r).eval w).toOption)) := by
  have read : decodeUserResponse (encodeUserResponse (responseTo w r cl)) emptyUserResponse = (responseTo w r cl, false) :=
    decode_userResponse issued expires
  unfold handleIntrospect
  rw [claims]
  simp only [if_neg both.1, if_neg both.2, handleUserIntrospect_cloned, handleServerIntrospect_cloned, Prog.eval_bind,
    handleUserIntrospect_eval claims, read]
  cases (handleServerIntrospect d r).eval w with
  | error resp => rfl
  | ok server =>
    have part : serverPart.decode (serverPart.encode server.part) serverPart.zero = (server.part, false) :=
      serverPart.reads _
    simp only [part]
    rfl

/-- **Main result.** The combined endpoint shows of the user what the first endpoint shows. Of the server it
shows what the second endpoint shows to this user, and nothing where that refuses; in particular no namespace
to which the user is not admitted, unless the user may list the namespaces. -/
theorem legacy_introspection (claims : r.claims = some cl) (issued : IsTime cl.issuedAt) (expires : IsTime cl.expiresAt)
    (both : r.get "type" ≠ "user" ∧ r.get "type" ≠ "server") : ∃ user legacy,
    (handleUserIntrospect r).eval w = .ok user ∧ (handleIntrospect d r).eval w = .ok (.combined legacy) ∧
    legacy.user = user.user ∧ legacy.domains = user.domains ∧
    (legacy.capabilities.namespaceScope, legacy.capabilities.clusterScope, legacy.capabilities.adminAccess) =
      (user.capabilities.namespaceScope, user.capabilities.clusterScope, user.capabilities.adminAccess) ∧
    (∀ server, (handleServerIntrospect d r).eval w = .ok server → legacy.cluster = some server.cluster ∧
      legacy.capabilities.multiTenant = server.capabilities.multiTenant ∧
      NamesListed legacy.namespaces user.namespaces server.namespaces) ∧
    (∀ resp, (handleServerIntrospect d r).eval w = .error resp → legacy.cluster = none ∧
      legacy.capabilities.multiTenant = false ∧ NamesListed legacy.namespaces user.namespaces ⟨[], []⟩) ∧
    (w.policy cl.sub cl.roles "namespace" "list" "*" ≠ .ok true → ∀ key ∈ ["all", "withSessions"], ∀ names,
      legacy.namespaces.lookup key = some names → ∀ n ∈ names, n ∈ allowedFor w cl.toClaims) := by
  have shows := handleIntrospect_combined (w := w) (d := d) claims issued expires both
  have asked := handleUserIntrospect_eval (w := w) claims
  generalize responseTo w r cl = user at shows asked
  refine ⟨user, _, asked, shows, rfl, rfl, rfl, ?_, ?_, ?_⟩
  · intro server served
    rw [served]
    exact ⟨rfl, rfl, combineNamespaceInfo_namesListed _ _⟩
  · intro resp refused
    rw [refused]
    exact ⟨rfl, rfl, combineNamespaceInfo_namesListed user.namespaces ⟨[], []⟩⟩
  · intro confined key mem names shown n named
    cases seen : (handleServerIntrospect d r).eval w with
    | error resp =>
      rw [seen] at shown
      have listed := combineNamespaceInfo_namesListed user.namespaces ⟨[], []⟩
      have nothing : (combineNamespaceInfo user.namespaces ⟨[], []⟩).lookup key = none := by
        rcases List.mem_pair.1 mem with rfl | rfl
        · exact listed.all
        · exact listed.withSessions
      cases nothing.symm.trans shown
    | ok server =>
      rw [seen] at shown
      have listed := combineNamespaceInfo_namesListed user.namespaces server.namespaces
      refine handleServerIntrospect_allowed claims confined seen ?_
      rcases List.mem_pair.1 mem with rfl | rfl
      · have here := listed.all.symm.trans shown
        split at here
        · cases here
        · cases here
          exact .inl named
      · have here := listed.withSessions.symm.trans shown
        split at here
        · cases here
        · cases here
          exact .inr named

end

/-- A user who may do anything, where there are two namespaces. -/
theorem legacy_introspection_plain : ∃ legacy, (handleIntrospect (.plain "i" false)
      ⟨[("namespaces", "b,a"), ("discover", "1")], some (.plain "u")⟩).eval (World.plain allowAll ["a", "b"]) =
        .ok (.combined legacy) ∧ legacy.namespaces.lookup "all" = some ["a", "b"] := by
  let d : ServerDeps := .plain "i" false
  let w : World := World.plain allowAll ["a", "b"]
  let r : IntrospectRequest := ⟨[("namespaces", "b,a"), ("discover", "1")], some (.plain "u")⟩
  have claims : r.claims = some (.plain "u") := rfl
  obtain ⟨user, legacy, -, shown, -, -, -, served, -, -⟩ := legacy_introspection (w := w) (d := d) claims (by decide)
    (by decide) (by decide)
  have names : ((handleServerIntrospect d r).eval w).toOption.map (·.namespaces.all) = some ["a", "b"] := by decide
  cases seen : (handleServerIntrospect d r).eval w with
  | error resp =>
    rw [seen] at names
    cases names
  | ok server =>
    rw [seen] at names
    have all : server.namespaces.all = ["a", "b"] := Option.some.inj names
    refine ⟨legacy, shown, ?_⟩
    rw [(served server seen).2.2.all, all]
    rfl

end Codespace.Server
