import Codespace.Api.Manifest
import Codespace.Interact.Program

/-!
# The API server, as the operator uses it

The calls the operator makes of its surroundings (`Call`) and their answers: the API
server's, plus the policy engine, the clock and `common.BuildInstanceMetaIndex`, which
are not in this repository and only answer.

`answer` is what a call does when nothing goes wrong. Sessions live in a versioned store:
an Update or a Status().Update with a version that is not the current one is turned down
with Conflict and changes nothing; the status is a subresource, so each of the two leaves
the other's part alone; an object under deletion goes away with its last finalizer. What
an Apply does to a child is a parameter (`ChildApi`).

`Answers` adds transport failures: a call may also fail with some other error, before or
after it took effect.
-/

namespace Codespace
set_option autoImplicit false
open Versioned Interact

/-! ## Errors -/

/-- `metav1.StatusReason`, as far as the code tells reasons apart. -/
inductive StatusReason where
  | notFound
  | conflict
  | alreadyExists
  | other
  deriving DecidableEq, Repr

structure ApiError where
  reason : StatusReason
  message : String
  deriving DecidableEq, Repr

namespace ApiError

def isNotFound (e : ApiError) : Bool := e.reason = .notFound
def isConflict (e : ApiError) : Bool := e.reason = .conflict
def isAlreadyExists (e : ApiError) : Bool := e.reason = .alreadyExists

/-- The text of a NotFound error. It names the resource and the object, never the cause. -/
def notFoundOf (resource name : String) : ApiError :=
  ⟨.notFound, resource ++ " \"" ++ name ++ "\" not found"⟩

def conflictOf (resource name : String) : ApiError :=
  ⟨.conflict, "Operation cannot be fulfilled on " ++ resource ++ " \"" ++ name ++
    "\": the object has been modified; please apply your changes to the latest version and try again"⟩

def alreadyExistsOf (resource name : String) : ApiError :=
  ⟨.alreadyExists, resource ++ " \"" ++ name ++ "\" already exists"⟩

end ApiError

/-- The resource name of a Session in the API server's messages. -/
def sessionResource : String := "sessions.codespace.codespace.dev"

/-! ## Calls -/

/-- `common.AnchorMeta`: who manages a server instance. -/
structure AnchorMeta where
  type : String
  ns : String
  name : String
  deriving DecidableEq, Repr

/-- The Deployment a Get returns, as far as `updateStatus` reads it. -/
structure Deployment where
  name : String
  ns : String
  readyReplicas : Int32
  deriving DecidableEq, Repr

/-- The Service a Get returns, as far as `Reconcile` reads it. -/
structure Service where
  name : String
  ns : String
  deriving DecidableEq, Repr

inductive Call where
  | get (k : Key)
  | list (ns : Option String) (matchingLabels : Option (String × String))
  | create (s : Session)
  | update (s : Session)
  | updateStatus (s : Session)
  | delete (k : Key)
  | apply (fieldOwner : String) (m : Manifest)
  | getDeployment (k : Key)
  | getService (k : Key)
  | buildInstanceMetaIndex (appName : String)
  | enforce (subject : String) (roles : List String) (resource action domain : String)
  | now

/-- What a call is answered with. -/
@[reducible] def Answer : Call → Type
  | .get _ => Except ApiError Session
  | .list _ _ => Except ApiError (List Session)
  | .create _ => Except ApiError Session
  | .update _ => Except ApiError Session
  | .updateStatus _ => Except ApiError Session
  | .delete _ => Except ApiError Unit
  | .apply _ _ => Except ApiError Unit
  | .getDeployment _ => Except ApiError Deployment
  | .getService _ => Except ApiError Service
  | .buildInstanceMetaIndex _ => GoMap String AnchorMeta
  | .enforce _ _ _ _ _ => Except String Bool
  | .now => String

/-- A program of the operator. -/
abbrev Api := Prog Call Answer

/-- Make a call. -/
abbrev api (c : Call) : Api (Answer c) := Prog.perform c

/-! ## The cluster -/

/-- How the API server applies a manifest to a child; `χ` is what it stores. -/
structure ChildApi (χ : Type) where
  apply : String → Option χ → Manifest → Except ApiError χ

/-- Children that nobody else writes: an Apply replaces the content applied before. -/
def replaceApi : ChildApi Manifest := ⟨fun _ _ m => .ok m⟩

/-- `rbac.Enforce`: the decision, or an error, which comes with no grant. -/
abbrev Enforce := String → List String → String → String → String → Except String Bool

/-- The state of the operator's surroundings. -/
structure Cluster (χ : Type) where
  sessions : Store Key Session
  keyed : ∀ k s, sessions.get k = some s → s.key = k
  held : ∀ k s, sessions.get k = some s → s.Held
  nextUid : Nat
  children : GoMap ChildKey χ
  readyReplicas : Key → Int32
  index : GoMap String AnchorMeta
  policy : Enforce
  clock : String

namespace Cluster

variable {χ : Type}

/-- A cluster without objects, whose policy grants nothing. -/
def blank : Cluster χ where
  sessions := .empty
  keyed := fun k s h => by simp at h
  held := fun k s h => by simp at h
  nextUid := 1
  children := ∅
  readyReplicas := fun _ => 0
  index := ∅
  policy := fun _ _ _ _ _ => .ok false
  clock := "2025-01-01T00:00:00Z"

/-- Commit a Session under its own key, with a fresh resourceVersion. -/
def put (σ : Cluster χ) (s : Session) (held : s.Held) : Cluster χ :=
  { σ with
    sessions := σ.sessions.write s.key s
    keyed := by
      intro k s' h
      rw [Store.get_write] at h
      split at h
      · rename_i same; cases h; exact same.symm
      · exact σ.keyed k s' h
    held := by
      intro k s' h
      rw [Store.get_write] at h
      split at h
      · cases h; exact held
      · exact σ.held k s' h }

/-- Remove the Session at a key. -/
def drop (σ : Cluster χ) (k : Key) : Cluster χ :=
  { σ with
    sessions := σ.sessions.erase k
    keyed := by
      intro k' s h
      by_cases same : k' = k
      · subst same; simp at h
      · exact σ.keyed k' s (by rwa [Store.get_erase_ne _ same] at h)
    held := by
      intro k' s h
      by_cases same : k' = k
      · subst same; simp at h
      · exact σ.held k' s (by rwa [Store.get_erase_ne _ same] at h) }

/-- Commit a Session, or remove it if it is under deletion and has no finalizer left. -/
def commit (σ : Cluster χ) (s : Session) : Cluster χ :=
  if h : s.Held then σ.put s h else σ.drop s.key

/-- A cluster with one Session, under a policy. -/
def single (policy : Enforce) (s : Session) : Cluster χ := { blank.commit s with policy := policy }

end Cluster

/-! ## Answers -/

section

variable {χ : Type}

/-- What an Update stores: the object sent, with the status and the fields that only the
server sets taken from the current object. -/
def updated (cur sent : Session) : Session :=
  { sent with
    metadata := { sent.metadata with
      uid := cur.metadata.uid, deletionTimestamp := cur.metadata.deletionTimestamp }
    status := cur.status }

/-- What a Status().Update stores: the current object with the status sent. -/
def statusUpdated (cur sent : Session) : Session := { cur with status := sent.status }

/-- What a Create stores. -/
def created (uid : Nat) (sent : Session) : Session :=
  { sent with
    metadata := { sent.metadata with uid := uid, deletionTimestamp := none }
    status := ⟨"", "", ""⟩ }

/-- A write that replaces the object with the version sent. -/
def Cluster.replace (σ : Cluster χ) (sent : Session) (merge : Session → Session → Session) :
    Except ApiError Session × Cluster χ :=
  match σ.sessions.check sent.key sent.metadata.resourceVersion with
  | .error .missing => (.error (.notFoundOf sessionResource sent.metadata.name), σ)
  | .error .stale => (.error (.conflictOf sessionResource sent.metadata.name), σ)
  | .ok cur => (.ok (stamp σ.sessions.next (merge cur sent)), σ.commit (merge cur sent))

/-- A Delete removes the object, or marks it if finalizers hold it. -/
def Cluster.delete (σ : Cluster χ) (k : Key) : Except ApiError Unit × Cluster χ :=
  match σ.sessions.get k with
  | none => (.error (.notFoundOf sessionResource k.name), σ)
  | some cur =>
    if cur.metadata.finalizers = [] then (.ok (), σ.drop k)
    else if cur.deleting then (.ok (), σ)
    else (.ok (), σ.commit { cur with
      metadata := { cur.metadata with deletionTimestamp := some σ.clock } })

/-- A selector `key=value` matches the objects that have the label with that value. -/
def matchesLabels (sel : Option (String × String)) (s : Session) : Bool :=
  match sel with
  | none => true
  | some (k, v) => s.metadata.labels.lookup k = some v

def inNamespace (ns : Option String) (s : Session) : Bool :=
  match ns with
  | none => true
  | some n => s.metadata.ns = n

/-- What a call answers and does when nothing goes wrong. -/
def answer (child : ChildApi χ) (σ : Cluster χ) : (c : Call) → Answer c × Cluster χ
  | .get k => (match σ.sessions.get k with
    | none => .error (.notFoundOf sessionResource k.name)
    | some s => .ok s, σ)
  | .list ns sel =>
    (.ok ((σ.sessions.list Key.le).filter fun s => inNamespace ns s && matchesLabels sel s), σ)
  | .create s => match σ.sessions.get s.key with
    | some _ => (.error (.alreadyExistsOf sessionResource s.metadata.name), σ)
    | none => (.ok (stamp σ.sessions.next (created σ.nextUid s)),
        { σ.commit (created σ.nextUid s) with nextUid := σ.nextUid + 1 })
  | .update s => σ.replace s updated
  | .updateStatus s => σ.replace s statusUpdated
  | .delete k => σ.delete k
  | .apply owner m => match child.apply owner (σ.children.lookup m.key) m with
    | .error e => (.error e, σ)
    | .ok c => (.ok (), { σ with children := σ.children.insert m.key c })
  | .getDeployment k => (match σ.children.lookup ⟨.deployment, k⟩ with
    | none => .error (.notFoundOf "deployments.apps" k.name)
    | some _ => .ok ⟨k.name, k.ns, σ.readyReplicas k⟩, σ)
  | .getService k => (match σ.children.lookup ⟨.service, k⟩ with
    | none => .error (.notFoundOf "services" k.name)
    | some _ => .ok ⟨k.name, k.ns⟩, σ)
  | .buildInstanceMetaIndex _ => (σ.index, σ)
  | .enforce sub roles res act dom => (σ.policy sub roles res act dom, σ)
  | .now => (σ.clock, σ)

/-- The answer to a call whose request or response is lost, if the call can be told so. -/
def Call.failed : (c : Call) → String → Option (Answer c)
  | .get _, m => some (.error ⟨.other, m⟩)
  | .list _ _, m => some (.error ⟨.other, m⟩)
  | .create _, m => some (.error ⟨.other, m⟩)
  | .update _, m => some (.error ⟨.other, m⟩)
  | .updateStatus _, m => some (.error ⟨.other, m⟩)
  | .delete _, m => some (.error ⟨.other, m⟩)
  | .apply _ _, m => some (.error ⟨.other, m⟩)
  | .getDeployment _, m => some (.error ⟨.other, m⟩)
  | .getService _, m => some (.error ⟨.other, m⟩)
  | .buildInstanceMetaIndex _, _ => none
  | .enforce _ _ _ _ _, _ => none
  | .now, _ => none

/-- Every way a call may be answered: normally, or with a failure before or after it took
effect. -/
def Answers (child : ChildApi χ) (σ : Cluster χ) (c : Call) (r : Answer c) (σ' : Cluster χ) : Prop :=
  (r, σ') = answer child σ c ∨
    ∃ m, c.failed m = some r ∧ (σ' = σ ∨ σ' = (answer child σ c).2)

theorem answers_answer (child : ChildApi χ) (σ : Cluster χ) (c : Call) :
    Answers child σ c (answer child σ c).1 (answer child σ c).2 := .inl rfl

end

end Codespace
