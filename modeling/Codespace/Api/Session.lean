import Codespace.Store.Versioned
import Mathlib.Data.Prod.Lex
import Mathlib.Data.String.Basic

/-!
# The Session resource

`api/v1/session_types.go`, with the part of `metav1.ObjectMeta` that the operator reads
or writes. An optional struct of the source is an `Option`; a Go map is a `GoMap`, with a
nil map and an empty one as the same value (the source creates a nil map before it writes
to it, and JSON and the API server make no difference).
-/

namespace Codespace
set_option autoImplicit false

/-- A Go map. -/
abbrev GoMap (κ ν : Type) := Finmap fun _ : κ => ν

/-- `m[k]` on a `map[string]string`: the empty string where `k` is missing. -/
def GoMap.index (m : GoMap String String) (k : String) : String := (m.lookup k).getD ""

/-- `types.NamespacedName`. -/
structure Key where
  ns : String
  name : String
  deriving DecidableEq, Repr

namespace Key

/-- The order in which the API server lists: by namespace, then by name. -/
def le (a b : Key) : Prop := toLex (a.ns, a.name) ≤ toLex (b.ns, b.name)

instance : DecidableRel le := fun _ _ => inferInstanceAs (Decidable (_ ≤ _))
instance : IsTrans Key le := ⟨fun _ _ _ h h' => (h.trans h' : toLex _ ≤ toLex _)⟩
instance : Std.Total le := ⟨fun a b => le_total (toLex (a.ns, a.name)) (toLex (b.ns, b.name))⟩
instance : Std.Antisymm le := ⟨fun a b h h' => by
  have same := toLex.injective (le_antisymm h h')
  cases a
  cases b
  simp_all⟩

end Key

structure ProfileSpec where
  ide : String
  image : String
  cmd : List String
  deriving DecidableEq, Repr

structure OIDCRef where
  issuerURL : String
  clientIDSecret : String
  clientSecretRef : String
  deriving DecidableEq, Repr

structure AuthSpec where
  mode : String
  oidc : Option OIDCRef
  deriving DecidableEq, Repr

structure PVCSpec where
  size : String
  storageClassName : String
  mountPath : String
  deriving DecidableEq, Repr

structure NetSpec where
  host : String
  tlsSecretName : String
  annotations : GoMap String String
  deriving DecidableEq

structure SessionSpec where
  profile : ProfileSpec
  auth : AuthSpec
  home : Option PVCSpec
  scratch : Option PVCSpec
  networking : Option NetSpec
  replicas : Option Int32
  deriving DecidableEq

/-- `phase` is `Pending`, `Ready` or `Error`. -/
structure SessionStatus where
  phase : String
  url : String
  reason : String
  deriving DecidableEq, Repr

structure ObjectMeta where
  name : String
  ns : String
  uid : Nat
  resourceVersion : Nat
  labels : GoMap String String
  annotations : GoMap String String
  finalizers : List String
  deletionTimestamp : Option String
  deriving DecidableEq

structure Session where
  metadata : ObjectMeta
  spec : SessionSpec
  status : SessionStatus
  deriving DecidableEq

namespace Session

def key (s : Session) : Key := ⟨s.metadata.ns, s.metadata.name⟩

/-- `!s.DeletionTimestamp.IsZero()`. -/
def deleting (s : Session) : Bool := s.metadata.deletionTimestamp.isSome

/-- The API server keeps an object under deletion only for the sake of its finalizers. -/
def Held (s : Session) : Prop := s.deleting = true → s.metadata.finalizers ≠ []

instance (s : Session) : Decidable s.Held := inferInstanceAs (Decidable (_ → _))

def withLabels (s : Session) (labels : GoMap String String) : Session :=
  { s with metadata := { s.metadata with labels := labels } }

def withAnnotations (s : Session) (annotations : GoMap String String) : Session :=
  { s with metadata := { s.metadata with annotations := annotations } }

/-- The first Session is the second with at most another spec, labels and annotations. -/
structure SameObject (s t : Session) : Prop where
  key : s.key = t.key
  uid : s.metadata.uid = t.metadata.uid
  version : s.metadata.resourceVersion = t.metadata.resourceVersion
  finalizers : s.metadata.finalizers = t.metadata.finalizers
  deletion : s.metadata.deletionTimestamp = t.metadata.deletionTimestamp
  status : s.status = t.status

theorem SameObject.trans {s t u : Session} (h : SameObject s t) (h' : SameObject t u) : SameObject s u :=
  ⟨h.key.trans h'.key, h.uid.trans h'.uid, h.version.trans h'.version,
    h.finalizers.trans h'.finalizers, h.deletion.trans h'.deletion, h.status.trans h'.status⟩

theorem sameObject_spec (s : Session) (spec : SessionSpec) : SameObject { s with spec := spec } s :=
  ⟨rfl, rfl, rfl, rfl, rfl, rfl⟩

theorem sameObject_withLabels (s : Session) (labels : GoMap String String) :
    SameObject (s.withLabels labels) s := ⟨rfl, rfl, rfl, rfl, rfl, rfl⟩

theorem sameObject_withAnnotations (s : Session) (annotations : GoMap String String) :
    SameObject (s.withAnnotations annotations) s := ⟨rfl, rfl, rfl, rfl, rfl, rfl⟩

/-- A Session with this spec and nothing else. -/
def plain (k : Key) (uid : Nat) (spec : SessionSpec) : Session where
  metadata := ⟨k.name, k.ns, uid, 0, ∅, ∅, [], none⟩
  spec := spec
  status := ⟨"", "", ""⟩

end Session

/-- A spec with what the CRD requires and nothing else. -/
def SessionSpec.plain : SessionSpec :=
  ⟨⟨"jupyterlab", "jupyter/minimal-notebook:latest", []⟩, ⟨"none", none⟩, none, none, none, none⟩

instance : Versioned.Stamped Session where
  version := fun s => s.metadata.resourceVersion
  stamp := fun n s => { s with metadata := { s.metadata with resourceVersion := n } }
  version_stamp := fun _ _ => rfl

open Versioned

section

variable (n : Nat) (s : Session)

@[simp] theorem stamp_key : (stamp n s).key = s.key := rfl
@[simp] theorem stamp_spec : (stamp n s).spec = s.spec := rfl
@[simp] theorem stamp_status : (stamp n s).status = s.status := rfl
@[simp] theorem stamp_name : (stamp n s).metadata.name = s.metadata.name := rfl
@[simp] theorem stamp_ns : (stamp n s).metadata.ns = s.metadata.ns := rfl
@[simp] theorem stamp_uid : (stamp n s).metadata.uid = s.metadata.uid := rfl
@[simp] theorem stamp_labels : (stamp n s).metadata.labels = s.metadata.labels := rfl
@[simp] theorem stamp_annotations : (stamp n s).metadata.annotations = s.metadata.annotations := rfl
@[simp] theorem stamp_finalizers : (stamp n s).metadata.finalizers = s.metadata.finalizers := rfl
@[simp] theorem stamp_deletionTimestamp :
    (stamp n s).metadata.deletionTimestamp = s.metadata.deletionTimestamp := rfl
@[simp] theorem stamp_deleting : (stamp n s).deleting = s.deleting := rfl

end

end Codespace
