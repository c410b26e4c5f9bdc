import Codespace.Api.Server
import Codespace.Controller.Children

/-!
# Reconcile

`internal/controller/session_controller.go` and the calls of the files it uses, in the
order of the source. Where the source mutates the Session it holds, the program passes
the changed one on; a successful Update overwrites it with the server's answer. A nil
dereference and a failing `resource.MustParse` are a `panic`.
-/

namespace Codespace
set_option autoImplicit false
open Interact

/-- Why a Go function did not return normally: an error value, or a panic. -/
inductive GoError where
  | err (e : ApiError)
  | panic (message : String)
  deriving DecidableEq, Repr

/-- How a Reconcile ends: without error, to be run again after the given seconds; with an
error; or by a panic. -/
inductive Outcome where
  | done (requeueAfter : Option Nat)
  | failed (message : String)
  | panicked (message : String)
  deriving DecidableEq, Repr

namespace Controller

/-- `controllerutil.AddFinalizer`: the Session with the finalizer, and whether it was added. -/
def addFinalizer (sess : Session) : Session × Bool :=
  if sessionFinalizer ∈ sess.metadata.finalizers then (sess, false)
  else ({ sess with metadata := { sess.metadata with
    finalizers := sess.metadata.finalizers ++ [sessionFinalizer] } }, true)

/-- Nothing but the finalizers changes. -/
theorem addFinalizer_eq (sess : Session) : ∃ finalizers,
    (addFinalizer sess).1 = { sess with metadata := { sess.metadata with finalizers := finalizers } } := by
  unfold addFinalizer
  split
  · exact ⟨_, rfl⟩
  · exact ⟨_, rfl⟩

/-- `controllerutil.RemoveFinalizer`. -/
def removeFinalizer (sess : Session) : Session :=
  { sess with metadata := { sess.metadata with
    finalizers := sess.metadata.finalizers.filter (· ≠ sessionFinalizer) } }

def handleDelete (sess : Session) : Api Outcome := do
  match ← api (.update (removeFinalizer sess)) with
  | .error e => return .failed e.message
  | .ok _ => return .done none

/-- Returns the Session as it is held afterwards. -/
def ensureFinalizer (sess : Session) : Api (Except ApiError Session) :=
  let (sess, added) := addFinalizer sess
  if added then api (.update sess) else return .ok sess

def statusURL (spec : SessionSpec) : String :=
  match spec.networking with
  | none => ""
  | some net => if net.host ≠ "" then "https://" ++ net.host else ""

/-- The status `updateStatus` writes. `reason` is not assigned. -/
def nextStatus (sess : Session) (dep : Deployment) : SessionStatus :=
  { sess.status with
    url := statusURL sess.spec
    phase := if 0 < dep.readyReplicas then "Ready" else "Pending" }

def updateStatus (sess : Session) (dep : Deployment) : Api (Except ApiError Session) :=
  api (.updateStatus { sess with status := nextStatus sess dep })

def failStatus (sess : Session) (message : String) : Api Outcome := do
  let sess := { sess with status := { sess.status with phase := "Error", reason := message } }
  match ← api (.updateStatus sess) with
  | .error uErr => return .failed uErr.message
  | .ok _ => return .failed message

/-- A child could not be reconciled: report it in the status, unless the function panicked. -/
def childFailed (sess : Session) (child : String) : GoError → Api Outcome
  | .err e => failStatus sess (child ++ ": " ++ e.message)
  | .panic m => return .panicked m

section

variable (r : SessionReconciler)

/-- `r.Patch` with an apply body. -/
def patch (m : Manifest) : Api (Except GoError Unit) := do
  match ← api (.apply r.ssaFieldOwner m) with
  | .error e => return .error (.err e)
  | .ok _ => return .ok ()

def reconcileServiceAccount (sess : Session) (name : String) : Api (Except GoError Unit) :=
  patch r (.serviceAccount (serviceAccountConfig sess name))

def reconcilePVC (sess : Session) (name suffix : String) (spec : Option PVCSpec) :
    Api (Except GoError Unit) :=
  match spec with
  | none => return .ok ()
  | some pvc =>
    match r.parseQuantity pvc.size with
    | none => return .error (.panic ("cannot parse '" ++ pvc.size ++ "'"))
    | some storage => patch r (.persistentVolumeClaim (pvcConfig sess name suffix pvc storage))

def reconcileDeployment (sess : Session) (name : String) (labels : GoMap String String) :
    Api (Except GoError Deployment) := do
  match sess.spec.replicas with
  | none => return .error (.panic "nil pointer dereference")
  | some replicas =>
    match ← patch r (.deployment (deploymentConfig sess name labels replicas)) with
    | .error e => return .error e
    | .ok _ =>
      match ← api (.getDeployment ⟨sess.metadata.ns, name⟩) with
      | .error e => return .error (.err e)
      | .ok out => return .ok out

def reconcileService (sess : Session) (name : String) (labels : GoMap String String) :
    Api (Except GoError Service) := do
  match ← patch r (.service (serviceConfig sess name labels)) with
  | .error e => return .error e
  | .ok _ =>
    match ← api (.getService ⟨sess.metadata.ns, name⟩) with
    | .error e => return .error (.err e)
    | .ok out => return .ok out

def reconcileIngress (sess : Session) (name svcName : String) : Api (Except GoError Unit) :=
  match sess.spec.networking with
  | none => return .ok ()
  | some net =>
    if net.host = "" then return .ok ()
    else patch r (.ingress (ingressConfig sess net name svcName))

/-- Everything after the finalizer: the children in order, then the status. -/
def reconcileChildren (sess : Session) : Api Outcome := do
  let (name, labels) := desiredNamesLabels r sess
  match ← reconcileServiceAccount r sess name with
  | .error e => childFailed sess "serviceaccount" e
  | .ok _ =>
  match ← reconcilePVC r sess name "home" sess.spec.home with
  | .error e => childFailed sess "pvc-home" e
  | .ok _ =>
  match ← reconcilePVC r sess name "scratch" sess.spec.scratch with
  | .error e => childFailed sess "pvc-scratch" e
  | .ok _ =>
  match ← reconcileDeployment r sess name labels with
  | .error e => childFailed sess "deployment" e
  | .ok dep =>
  match ← reconcileService r sess name labels with
  | .error e => childFailed sess "service" e
  | .ok svc =>
  match ← reconcileIngress r sess name svc.name with
  | .error e => childFailed sess "ingress" e
  | .ok _ =>
  -- a failed status update is logged and otherwise ignored
  let _ ← updateStatus sess dep
  return .done (some 120)

def Reconcile (req : Key) : Api Outcome := do
  match ← api (.get req) with
  | .error e => if e.isNotFound then return .done none else return .failed e.message
  | .ok sess =>
    let sess := applyDefaults sess
    if sess.deleting then handleDelete sess
    else match ← ensureFinalizer sess with
      | .error e => return .failed e.message
      | .ok sess => reconcileChildren r sess

end
end Controller
end Codespace
