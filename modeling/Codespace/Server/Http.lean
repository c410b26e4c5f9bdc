import Codespace.Api.Session
import Codespace.Go.Json

/-!
# Requests, responses and their bodies

What a handler reads of a request and writes of a response, and the request bodies of the
session endpoints with their decoders. A body is the JSON value it starts with, or none
when it does not start with one.
-/

namespace Codespace
set_option autoImplicit false
open Go

/-- `auth.Claims`, as far as the handlers read it. -/
structure Claims where
  sub : String
  roles : List String
  deriving DecidableEq, Repr

structure Request where
  method : String
  path : String
  query : List (String × String)
  body : Option Json
  claims : Option Claims

/-- What a handler sends: text by `http.Error`, or a JSON value. -/
inductive Body where
  | text (message : String)
  | error (message : String)
  | session (s : Session)
  | sessionList (items : List Session) (total : Nat) (namespaces : List String) (filtered : Bool)
  | deleted (name ns : String)
  deriving DecidableEq

structure HttpResp where
  status : Nat
  body : Body
  deriving DecidableEq

/-- The Sessions a response contains. -/
def HttpResp.sessions (resp : HttpResp) : List Session :=
  match resp.body with
  | .session s => [s]
  | .sessionList items _ _ _ => items
  | _ => []

namespace Server

/-- `r.URL.Query().Get(key)`. -/
def queryGet (r : Request) (key : String) : String := (r.query.lookup key).getD ""

def q (r : Request) (key dflt : String) : String :=
  if queryGet r key ≠ "" then queryGet r key else dflt

/-- `strings.TrimPrefix`. -/
def trimPrefix (s pre : String) : String :=
  if pre.toList <+: s.toList then String.ofList (s.toList.drop pre.toList.length) else s

/-- `strings.Split(s, "/")`. -/
def splitSlash (s : String) : List String := (s.toList.splitOn '/').map String.ofList

/-- The segments below the session collection. -/
def pathParts (r : Request) : List String := splitSlash (trimPrefix r.path "/api/v1/server/sessions/")

/-- `http.Error`. -/
def httpError (message : String) (status : Nat) : HttpResp := ⟨status, .text message⟩

def errJSON (message : String) : HttpResp := ⟨500, .error message⟩

def writeJSON (b : Body) : HttpResp := ⟨200, b⟩

/-! ## Request bodies -/

structure SessionCreateRequest where
  name : String
  ns : String
  profile : ProfileSpec
  auth : Option AuthSpec
  home : Option PVCSpec
  scratch : Option PVCSpec
  network : Option NetSpec
  replicas : Option Int32

/-- The decoder of the first of these fields that a member matches. -/
def fields {α : Type} (fs : List (String × Decoder α)) (member : String) : Option (Decoder α) :=
  (fs.find? fun f => matchesField f.1 member).map Prod.snd

def decodeProfile : Decoder ProfileSpec := decodeStruct (fields [
  ("ide", onField (·.ide) (fun p v => { p with ide := v }) decodeString),
  ("image", onField (·.image) (fun p v => { p with image := v }) decodeString),
  ("cmd", onField (·.cmd) (fun p v => { p with cmd := v }) (decodeSlice "" decodeString))])

def decodeOIDC : Decoder OIDCRef := decodeStruct (fields [
  ("issuerURL", onField (·.issuerURL) (fun o v => { o with issuerURL := v }) decodeString),
  ("clientIDSecret", onField (·.clientIDSecret) (fun o v => { o with clientIDSecret := v }) decodeString),
  ("clientSecretRef", onField (·.clientSecretRef) (fun o v => { o with clientSecretRef := v }) decodeString)])

def decodeAuth : Decoder AuthSpec := decodeStruct (fields [
  ("mode", onField (·.mode) (fun a v => { a with mode := v }) decodeString),
  ("oidc", onField (·.oidc) (fun a v => { a with oidc := v }) (decodePointer ⟨"", "", ""⟩ decodeOIDC))])

def decodePVC : Decoder PVCSpec := decodeStruct (fields [
  ("size", onField (·.size) (fun p v => { p with size := v }) decodeString),
  ("storageClassName", onField (·.storageClassName) (fun p v => { p with storageClassName := v }) decodeString),
  ("mountPath", onField (·.mountPath) (fun p v => { p with mountPath := v }) decodeString)])

def decodeNet : Decoder NetSpec := decodeStruct (fields [
  ("host", onField (·.host) (fun n v => { n with host := v }) decodeString),
  ("tlsSecretName", onField (·.tlsSecretName) (fun n v => { n with tlsSecretName := v }) decodeString),
  ("annotations", onField (·.annotations) (fun n v => { n with annotations := v }) decodeStringMap)])

def decodeCreateRequest : Decoder SessionCreateRequest := decodeStruct (fields [
  ("name", onField (·.name) (fun r v => { r with name := v }) decodeString),
  ("namespace", onField (·.ns) (fun r v => { r with ns := v }) decodeString),
  ("profile", onField (·.profile) (fun r v => { r with profile := v }) decodeProfile),
  ("auth", onField (·.auth) (fun r v => { r with auth := v }) (decodePointer ⟨"", none⟩ decodeAuth)),
  ("home", onField (·.home) (fun r v => { r with home := v }) (decodePointer ⟨"", "", ""⟩ decodePVC)),
  ("scratch", onField (·.scratch) (fun r v => { r with scratch := v }) (decodePointer ⟨"", "", ""⟩ decodePVC)),
  ("networking", onField (·.network) (fun r v => { r with network := v }) (decodePointer ⟨"", "", ∅⟩ decodeNet)),
  ("replicas", onField (·.replicas) (fun r v => { r with replicas := v }) (decodePointer 0 decodeInt32))])

/-- The `replicas` of a `SessionScaleRequest`. -/
def decodeScaleRequest : Decoder Int32 :=
  decodeStruct (fields [("replicas", onField id (fun _ v => v) decodeInt32)])

/-- `json.NewDecoder(r.Body).Decode(&v)`: the value, or nothing if there was an error. -/
def decodeBody {α : Type} (decode : Decoder α) (zero : α) (r : Request) : Option α :=
  match r.body with
  | none => none
  | some v => let (a, failed) := decode v zero; if failed then none else some a

def emptyCreateRequest : SessionCreateRequest := ⟨"", "", ⟨"", "", []⟩, none, none, none, none, none⟩

example : splitSlash (trimPrefix "/api/v1/server/sessions/ns/a/scale" "/api/v1/server/sessions/") =
    ["ns", "a", "scale"] := by decide

end Server
end Codespace
