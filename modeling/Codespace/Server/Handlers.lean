import Codespace.Api.Server
import Codespace.Server.Http

/-!
# The session handlers

`internal/server/sessions_handlers.go`, without the stream. What the handlers use of the
shared library is in `Common` and `Middleware`, what the Go runtime leaves open in
`Platform`. Each handler is a program of its API calls and ends with a response.
-/

namespace Codespace.Server
set_option autoImplicit false
open Interact Go

/-! ## What the handlers depend on -/

/-- The `common` package: its names of labels and annotations, and its functions. -/
structure Common where
  instanceIDLabel : String
  labelManagerType : String
  labelManagerNamespace : String
  labelManagerName : String
  labelCreatedBy : String
  annotationCreatedBy : String
  subjectToLabelID : String → String
  /-- How often `RetryOnConflict` runs its function again. -/
  retries : Nat

/-- `rbac.Middleware`: the response where a request is not authenticated, or what Enforce
said is not a grant. -/
structure Middleware where
  denied : Option (Except String Bool) → HttpResp
  denied_status : ∀ decision, 400 ≤ (denied decision).status

structure Platform where
  /-- What a float64 outside the range of int32 is converted to. -/
  outOfRange : Rat → Int32
  /-- The order in which a map with these keys is iterated. -/
  mapOrder : List String → List String
  mapOrder_perm : ∀ keys, (mapOrder keys).Perm keys

/-- `serverDeps`, with the fields of its config. -/
structure ServerDeps where
  instanceID : String
  manager : AnchorMeta
  clusterScope : Bool
  appName : String
  common : Common
  rbacMw : Middleware
  platform : Platform

/-- The names under which the UI finds the labels. -/
def Common.codespace : Common where
  instanceIDLabel := "codespace.dev/instance-id"
  labelManagerType := "codespace.dev/manager-type"
  labelManagerNamespace := "codespace.dev/manager-namespace"
  labelManagerName := "codespace.dev/manager-name"
  labelCreatedBy := "codespace.dev/created-by"
  annotationCreatedBy := "codespace.dev/created-by"
  subjectToLabelID := id
  retries := 4

def Middleware.plain : Middleware where
  denied decision := if decision.isNone then ⟨401, .text "unauthorized"⟩ else ⟨403, .text "forbidden"⟩
  denied_status decision := by split <;> decide

def Platform.plain : Platform := ⟨fun _ => 0, id, fun _ => .refl _⟩

/-- A server of the instance `id`, confined to it or not. -/
def ServerDeps.plain (id : String) (clusterScope : Bool) : ServerDeps :=
  ⟨id, ⟨"helm", "codespace", id⟩, clusterScope, "codespace-server", .codespace, .plain, .plain⟩

def sessionResourceString : String := "session"

/-- Enforce said yes; an error is no grant. -/
def granted : Except String Bool → Bool
  | .ok yes => yes
  | .error _ => false

section

variable (d : ServerDeps)

/-- `rbacMw.MustCan`: the principal, or the response that was written. -/
def MustCan (r : Request) (resource action domain : String) : Api (Except HttpResp Claims) :=
  match r.claims with
  | none => return .error (d.rbacMw.denied none)
  | some cl => do
    let decision ← api (.enforce cl.sub cl.roles resource action domain)
    if granted decision then return .ok cl else return .error (d.rbacMw.denied (some decision))

/-- `common.RetryOnConflict`, with `again` more attempts. -/
def retryOnConflict {α : Type} (f : Api (Except ApiError α)) : (again : Nat) → Api (Except ApiError α)
  | 0 => f
  | again + 1 => do
    match ← f with
    | .ok a => return .ok a
    | .error e => if e.isConflict then retryOnConflict f again else return .error e

/-- The Session carries another instance's id, or none, and the server is confined to its own. -/
def foreign (s : Session) : Bool :=
  s.metadata.labels.index d.common.instanceIDLabel ≠ d.instanceID && !d.clusterScope

/-- Fetch the Session at a key and check that it belongs to this instance. -/
def fetch (k : Key) : Api (Except HttpResp Session) := do
  match ← api (.get k) with
  | .error e => return .error (errJSON ("session not found: " ++ e.message))
  | .ok session =>
    if foreign d session then return .error (httpError "not found" 404) else return .ok session

/-- Update a Session with retries and answer with what was stored. -/
def store (session : Session) (failure : String) : Api HttpResp := do
  match ← retryOnConflict (api (.update session)) d.common.retries with
  | .error e => return errJSON (failure ++ e.message)
  | .ok session => return writeJSON (.session session)

/-! ## List -/

/-- The loop over the items of an all-namespaces list. -/
def canAccess (pr : Claims) : List Session → Api (List Session)
  | [] => return []
  | s :: items => do
    let decision ← api (.enforce pr.sub pr.roles sessionResourceString "list" s.metadata.ns)
    let sessions ← canAccess pr items
    return if granted decision then s :: sessions else sessions

def ensureLabel (key value : String) (labels : GoMap String String) : GoMap String String :=
  if labels.index key = "" ∧ value ≠ "" then labels.insert key value else labels

/-- The instance id a listed Session is shown with. -/
def shownInstanceID (s : Session) : GoMap String String :=
  if ¬ d.clusterScope ∧ s.metadata.labels.index d.common.instanceIDLabel = "" then
    s.metadata.labels.insert d.common.instanceIDLabel d.instanceID
  else s.metadata.labels

/-- A Session as it is listed. -/
def enrich (idx : GoMap String AnchorMeta) (s : Session) : Session :=
  let labels := shownInstanceID d s
  let anchor := (idx.lookup (labels.index d.common.instanceIDLabel)).getD d.manager
  s.withLabels (ensureLabel d.common.labelManagerName anchor.name
    (ensureLabel d.common.labelManagerNamespace anchor.ns
      (ensureLabel d.common.labelManagerType anchor.type labels)))

@[simp] theorem enrich_ns (idx : GoMap String AnchorMeta) (s : Session) :
    (enrich d idx s).metadata.ns = s.metadata.ns := rfl

/-- `all=true`. -/
def allNamespaces (r : Request) : Bool := queryGet r "all" = "true"

/-- The label selector of a server that is confined to its own instance. -/
def instanceSelector : Option (String × String) :=
  if d.clusterScope then none else some (d.common.instanceIDLabel, d.instanceID)

/-- Enrich the Sessions that were listed and send them. -/
def sendList (sessions : List Session) (namespaces : List String) (filtered : Bool) : Api HttpResp := do
  let idx ← if d.clusterScope then api (.buildInstanceMetaIndex d.appName)
    else pure ∅
  return writeJSON (.sessionList (sessions.map (enrich d idx)) sessions.length namespaces filtered)

def handleListSessions (r : Request) : Api HttpResp := do
  let ns := q r "namespace" "default"
  match ← MustCan d r sessionResourceString "list" (if allNamespaces r then "*" else ns) with
  | .error resp => return resp
  | .ok pr =>
    if allNamespaces r then
      match ← api (.list none (instanceSelector d)) with
      | .error e => return errJSON ("failed to list sessions: " ++ e.message)
      | .ok items =>
        let sessions ← canAccess pr items
        sendList d sessions (d.platform.mapOrder (sessions.map (·.metadata.ns)).dedup) true
    else
      match ← api (.list (some ns) (instanceSelector d)) with
      | .error e => return errJSON ("failed to list sessions in namespace " ++ ns ++ ": " ++ e.message)
      | .ok sessions => sendList d sessions [ns] false

/-! ## Create -/

/-- The Session a create request asks for. -/
def requested (req : SessionCreateRequest) (pr : Claims) (now : String) : Session where
  metadata := {
    name := req.name
    ns := req.ns
    uid := 0
    resourceVersion := 0
    labels := [("app.kubernetes.io/name", "codespace-session"),
      ("app.kubernetes.io/instance", req.name),
      ("app.kubernetes.io/part-of", d.appName),
      ("app.kubernetes.io/managed-by", d.appName),
      (d.common.labelCreatedBy, d.common.subjectToLabelID pr.sub),
      (d.common.instanceIDLabel, d.instanceID),
      (d.common.labelManagerType, d.manager.type),
      (d.common.labelManagerNamespace, d.manager.ns),
      (d.common.labelManagerName, d.manager.name)].foldl (fun m (k, v) => m.insert k v) ∅
    annotations := ((∅ : GoMap String String).insert "codespace.dev/created-at" now).insert
      d.common.annotationCreatedBy pr.sub
    finalizers := []
    deletionTimestamp := none }
  spec := {
    profile := req.profile
    auth := req.auth.getD ⟨"none", none⟩
    home := req.home
    scratch := req.scratch
    networking := req.network
    replicas := some (req.replicas.getD 1) }
  status := ⟨"", "", ""⟩

def handleCreateSession (r : Request) : Api HttpResp :=
  if r.method ≠ "POST" then return httpError "method not allowed" 405
  else match decodeBody decodeCreateRequest emptyCreateRequest r with
  | none => return httpError "invalid JSON body" 400
  | some req =>
    if req.name = "" then return httpError "session name is required" 400
    else
    let req := if req.ns = "" then { req with ns := "default" } else req
    if req.profile.ide = "" then return httpError "IDE profile is required" 400
    else if req.profile.image = "" then return httpError "container image is required" 400
    else do
      match ← MustCan d r sessionResourceString "create" req.ns with
      | .error resp => return resp
      | .ok pr =>
        let now ← api .now
        match ← api (.create (requested d req pr now)) with
        | .error e => return errJSON ("failed to create session: " ++ e.message)
        | .ok session => return ⟨201, .session session⟩

/-! ## One Session -/

def invalidPath (operation : String) : HttpResp :=
  httpError ("invalid path - expected /api/v1/server/sessions/{namespace}/{name}" ++ operation) 400

def handleGetSession (r : Request) : Api HttpResp :=
  match pathParts r with
  | ns :: name :: _ => do
    match ← MustCan d r sessionResourceString "get" ns with
    | .error resp => return resp
    | .ok _ =>
    match ← fetch d ⟨ns, name⟩ with
    | .error resp => return resp
    | .ok session => return writeJSON (.session session)
  | _ => return invalidPath ""

def handleDeleteSession (r : Request) : Api HttpResp :=
  if r.method ≠ "DELETE" then return httpError "method not allowed" 405
  else match pathParts r with
  | ns :: name :: _ => do
    match ← MustCan d r sessionResourceString "delete" ns with
    | .error resp => return resp
    | .ok _ =>
    match ← fetch d ⟨ns, name⟩ with
    | .error resp => return resp
    | .ok session =>
    match ← api (.delete session.key) with
    | .error e => return errJSON ("failed to delete session: " ++ e.message)
    | .ok _ => return writeJSON (.deleted name ns)
  | _ => return invalidPath ""

/-- What a scale request makes of a Session. -/
def scaled (replicas : Int32) (s : Session) : Session :=
  { s with spec := { s.spec with replicas := some replicas } }

theorem scaled_same (replicas : Int32) (s : Session) : (scaled replicas s).SameObject s :=
  s.sameObject_spec _

def handleScaleSession (r : Request) : Api HttpResp :=
  if r.method ≠ "POST" then return httpError "method not allowed" 405
  else match pathParts r with
  | ns :: name :: "scale" :: _ => do
    match ← MustCan d r sessionResourceString "scale" ns with
    | .error resp => return resp
    | .ok _ =>
    match decodeBody decodeScaleRequest 0 r with
    | none => return httpError "invalid JSON body" 400
    | some replicas =>
    if replicas < 0 then return httpError "replicas cannot be negative" 400
    else do
    match ← fetch d ⟨ns, name⟩ with
    | .error resp => return resp
    | .ok session => store d (scaled replicas session) "failed to scale session: "
  | _ => return invalidPath "/scale"

/-- PUT: the spec is replaced. -/
def replaced (req : SessionCreateRequest) (s : Session) : Session :=
  { s with spec := {
      profile := req.profile
      auth := req.auth.getD ⟨"none", none⟩
      home := req.home
      scratch := req.scratch
      networking := req.network
      replicas := req.replicas } }

def patchedProfile (updates : List (String × Json)) (s : Session) : Session :=
  match Json.member updates "profile" with
  | none => s
  | some profile =>
    { s with spec := { s.spec with profile := (decodeProfile profile.remarshal s.spec.profile).1 } }

def patchedReplicas (updates : List (String × Json)) (s : Session) : Session :=
  match (Json.member updates "replicas").bind Json.float64 with
  | none => s
  | some n =>
    { s with spec := { s.spec with replicas := some (truncateToInt32 d.platform.outOfRange n) } }

/-- PATCH: the label that tells the creator is written again, the profile and the replicas
are changed as far as they are given. -/
def patched (updates : List (String × Json)) (s : Session) : Session :=
  let creator := s.metadata.annotations.index d.common.annotationCreatedBy
  patchedReplicas d updates (patchedProfile updates (s.withLabels
    (s.metadata.labels.insert d.common.labelCreatedBy (d.common.subjectToLabelID creator))))

/-- What the body of a PUT or PATCH makes of a Session, if it can be decoded. -/
def edit (r : Request) : Option (Session → Session) :=
  if r.method = "PUT" then (decodeBody decodeCreateRequest emptyCreateRequest r).map replaced
  else (r.body.bind decodeAnyMap).map (patched d)

theorem patchedProfile_same (updates : List (String × Json)) (s : Session) :
    (patchedProfile updates s).SameObject s := by
  unfold patchedProfile
  split
  · exact s.sameObject_spec s.spec
  · exact s.sameObject_spec _

theorem patchedReplicas_same (updates : List (String × Json)) (s : Session) :
    (patchedReplicas d updates s).SameObject s := by
  unfold patchedReplicas
  split
  · exact s.sameObject_spec s.spec
  · exact s.sameObject_spec _

theorem edit_same {r : Request} {change : Session → Session} (ed : edit d r = some change) (s : Session) :
    (change s).SameObject s := by
  unfold edit at ed
  split at ed
  · obtain ⟨req, -, rfl⟩ := Option.map_eq_some_iff.1 ed
    exact s.sameObject_spec _
  · obtain ⟨updates, -, rfl⟩ := Option.map_eq_some_iff.1 ed
    exact ((patchedReplicas_same d updates _).trans (patchedProfile_same updates _)).trans
      (s.sameObject_withLabels _)

/-- The annotations that tell who updated a Session last, and when. -/
def touched (pr : Claims) (now : String) (s : Session) : Session :=
  s.withAnnotations ((s.metadata.annotations.insert "codespace.dev/updated-at" now).insert
    "codespace.dev/updated-by" pr.sub)

theorem touched_same (pr : Claims) (now : String) (s : Session) : (touched pr now s).SameObject s :=
  s.sameObject_withAnnotations _

def handleUpdateSession (r : Request) : Api HttpResp :=
  if r.method ≠ "PUT" ∧ r.method ≠ "PATCH" then return httpError "method not allowed" 405
  else match pathParts r with
  | ns :: name :: _ => do
    match ← MustCan d r sessionResourceString "update" ns with
    | .error resp => return resp
    | .ok pr =>
    match ← fetch d ⟨ns, name⟩ with
    | .error resp => return resp
    | .ok session =>
    match edit d r with
    | none => return httpError "invalid JSON body" 400
    | some change => do
    let now ← api .now
    store d (touched pr now (change session)) "failed to update session: "
  | _ => return invalidPath ""

/-! ## Adoption -/

/-- `1` or `true`. -/
def queryFlag (r : Request) (key : String) : Bool := queryGet r key = "1" ∨ queryGet r key = "true"

/-- The Session as this instance's own. -/
def adopted (cl : Claims) (now : String) (s : Session) : Session :=
  let oldID := s.metadata.labels.index d.common.instanceIDLabel
  let labels := (((s.metadata.labels.insert d.common.instanceIDLabel d.instanceID).insert
    d.common.labelManagerType d.manager.type).insert
    d.common.labelManagerNamespace d.manager.ns).insert d.common.labelManagerName d.manager.name
  let annotations := if oldID ≠ "" then s.metadata.annotations.insert "codespace.dev/adopted-from" oldID
    else s.metadata.annotations
  (s.withLabels labels).withAnnotations ((annotations.insert "codespace.dev/adopted-at" now).insert
    "codespace.dev/adopted-by" cl.sub)

theorem adopted_same (cl : Claims) (now : String) (s : Session) : (adopted d cl now s).SameObject s :=
  (Session.sameObject_withAnnotations _ _).trans (s.sameObject_withLabels _)

/-- Whether the caller is an admin, or may update in the namespace. -/
def mayAdopt (cl : Claims) (ns : String) : Api Bool := do
  if granted (← api (.enforce cl.sub cl.roles "*" "admin" "*")) then return true
  else return granted (← api (.enforce cl.sub cl.roles sessionResourceString "update" ns))

/-- Adoption of the Session that was fetched. -/
def adoptSession (r : Request) (cl : Claims) (s : Session) : Api HttpResp :=
  let oldID := s.metadata.labels.index d.common.instanceIDLabel
  if !d.clusterScope && oldID ≠ "" && oldID ≠ d.instanceID then return httpError "not found" 404
  else do
    let idx ← api (.buildInstanceMetaIndex d.appName)
    let orphan := oldID = "" || (idx.lookup oldID).isNone
    if !orphan && oldID ≠ d.instanceID && !queryFlag r "force" then
      return httpError "not orphaned; use force=1 to override" 409
    else do
      let now ← api .now
      if queryFlag r "dryRun" then return writeJSON (.session (adopted d cl now s))
      else store d (adopted d cl now s) "adoption failed: "

def handleAdoptSession (r : Request) : Api HttpResp :=
  if r.method ≠ "POST" then return httpError "method not allowed" 405
  else
  let ns := q r "namespace" "default"
  let name := q r "name" ""
  if name = "" then return httpError "missing name" 400
  else match r.claims with
  | none => return httpError "unauthorized" 401
  | some cl => do
    if ← mayAdopt cl ns then
      match ← api (.get ⟨ns, name⟩) with
      | .error e => return errJSON ("session not found: " ++ e.message)
      | .ok s => adoptSession d r cl s
    else return httpError "forbidden" 403

/-! ## Dispatch -/

def handleSessionOperations (r : Request) : Api HttpResp :=
  if r.method = "GET" then handleListSessions d r
  else if r.method = "POST" then handleCreateSession d r
  else return httpError "method not allowed" 405

/-- The path has exactly the three segments of a scale request. -/
def isScale (r : Request) : Bool :=
  match pathParts r with
  | [_, _, operation] => operation = "scale"
  | _ => false

def handleSessionOperationsWithPath (r : Request) : Api HttpResp :=
  if (pathParts r).length < 2 then return invalidPath "[/operation]"
  else if isScale r then handleScaleSession d r
  else if r.method = "GET" then handleGetSession d r
  else if r.method = "PUT" ∨ r.method = "PATCH" then handleUpdateSession d r
  else if r.method = "DELETE" then handleDeleteSession d r
  else return httpError "method not allowed" 405

/-- The request is served only if somebody has logged in. -/
def wrapWithAuth (handler : Request → Api HttpResp) (r : Request) : Api HttpResp :=
  match r.claims with
  | none => return httpError "unauthorized" 401
  | some _ => handler r

def wrapWithRBAC (resource action domain : String) (handler : Request → Api HttpResp) :
    Request → Api HttpResp :=
  wrapWithAuth fun r => do
    match ← MustCan d r resource action domain with
    | .error resp => return resp
    | .ok _ => handler r

/-- The routes of `setupHandlers` that lead to the handlers above. -/
inductive Route where
  | sessions
  | adopt
  | session
  deriving DecidableEq, Repr

def serve : Route → Request → Api HttpResp
  | .sessions => wrapWithAuth (handleSessionOperations d)
  | .adopt => wrapWithRBAC d "*" "admin" "*" (handleAdoptSession d)
  | .session => wrapWithAuth (handleSessionOperationsWithPath d)

end

/-- A request to scale the Session `ns/a`. -/
def scaleRequest : Request where
  method := "POST"
  path := "/api/v1/server/sessions/ns/a/scale"
  query := []
  body := some (.obj [("replicas", .int 2)])
  claims := some ⟨"u", []⟩

/-- A PATCH of the Session `ns/a`. -/
def patchRequest (ms : List (String × Json)) : Request where
  method := "PATCH"
  path := "/api/v1/server/sessions/ns/a"
  query := []
  body := some (.obj ms)
  claims := some ⟨"u", []⟩

def deleteRequest : Request where
  method := "DELETE"
  path := "/api/v1/server/sessions/ns/a"
  query := []
  body := none
  claims := some ⟨"u", []⟩

def adoptRequest : Request where
  method := "POST"
  path := "/api/v1/server/sessions/adopt"
  query := [("namespace", "ns"), ("name", "a")]
  body := none
  claims := some ⟨"u", []⟩

/-- The Session `ns/a` of an instance. -/
def sessionOf (instanceID : String) : Session :=
  (Session.plain ⟨"ns", "a"⟩ 1 SessionSpec.plain).withLabels
    ((∅ : GoMap String String).insert "codespace.dev/instance-id" instanceID)

def allowAll : Enforce := fun _ _ _ _ _ => .ok true

/-- A policy that allows scaling in the namespace `ns` and nothing else. -/
def scaleOnly : Enforce := fun _ _ _ action ns => .ok (action = "scale" ∧ ns = "ns")

end Codespace.Server
