import Codespace.Controller.Desired

/-!
# The calls of a Reconcile

Which calls the child phase of a Reconcile makes, whatever they are answered. Every
manifest it applies is for a desired object and names the Session it was given as the owner,
and the one thing it writes of the Session is the status.
-/

namespace Codespace.Controller
set_option autoImplicit false
open Interact

variable {r : SessionReconciler} {sess : Session}

/-- A call of the child phase for a Session. -/
def ChildCall (sess : Session) : Call → Prop
  | .apply _ m => m.owner = ownerReference sess
  | .updateStatus s => ∃ status, s = { sess with status := status }
  | .getDeployment _ | .getService _ => True
  | _ => False

/-- An apply is for an object that is desired. -/
def Targets (r : SessionReconciler) (sess : Session) : Call → Prop
  | .apply _ m => ∃ m' ∈ desired r sess, m'.key = m.key
  | _ => True

/-- Both. -/
def Makes (r : SessionReconciler) (sess : Session) (c : Call) : Prop := ChildCall sess c ∧ Targets r sess c

theorem childFailed_only (child : String) (e : GoError) : (childFailed sess child e).Only (Makes r sess) := by
  cases e with
  | panic m => exact trivial
  | err e =>
    refine ⟨⟨⟨_, rfl⟩, trivial⟩, fun a => ?_⟩
    cases a <;> exact trivial

theorem patch_only {m m' : Manifest} (owner : m.owner = ownerReference sess) (mem : m' ∈ desired r sess)
    (key : m'.key = m.key) : (patch r m).Only (Makes r sess) := by
  refine ⟨⟨owner, m', mem, key⟩, fun a => ?_⟩
  cases a <;> exact trivial

theorem reconcileServiceAccount_only : (reconcileServiceAccount r sess (childName r sess)).Only (Makes r sess) :=
  patch_only rfl (mem_desired.2 (.inl rfl)) rfl

theorem reconcilePVC_only {suffix : String} {spec : Option PVCSpec}
    (mem : ∀ m ∈ pvcManifest r sess suffix spec, m ∈ desired r sess) :
    (reconcilePVC r sess (childName r sess) suffix spec).Only (Makes r sess) := by
  unfold reconcilePVC
  split
  · exact trivial
  split
  · exact trivial
  · rename_i pvc _ storage parsed
    exact patch_only rfl (mem _ (mem_pvcManifest.2 ⟨pvc, storage, rfl, parsed, rfl⟩)) rfl

theorem reconcileDeployment_only :
    (reconcileDeployment r sess (childName r sess) (desiredNamesLabels r sess).2).Only (Makes r sess) := by
  unfold reconcileDeployment
  split
  · exact trivial
  rename_i replicas set
  have mem : .deployment (deploymentConfig sess (childName r sess) (desiredNamesLabels r sess).2 replicas) ∈
      desired r sess := mem_desired.2 (.inr (.inr (.inr (.inl ⟨replicas, set, rfl⟩))))
  refine Prog.Only.bind (patch_only rfl mem rfl) fun a => ?_
  cases a with
  | error e => exact trivial
  | ok _ =>
    refine ⟨⟨trivial, trivial⟩, fun a => ?_⟩
    cases a <;> exact trivial

theorem reconcileService_only :
    (reconcileService r sess (childName r sess) (desiredNamesLabels r sess).2).Only (Makes r sess) := by
  have mem : serviceManifest r sess ∈ desired r sess := mem_desired.2 (.inr (.inr (.inr (.inr (.inl rfl)))))
  refine Prog.Only.bind (patch_only rfl mem rfl) fun a => ?_
  cases a with
  | error e => exact trivial
  | ok _ =>
    refine ⟨⟨trivial, trivial⟩, fun a => ?_⟩
    cases a <;> exact trivial

/-- The Ingress is for the desired object also where it names another Service. -/
theorem reconcileIngress_only (svcName : String) :
    (reconcileIngress r sess (childName r sess) svcName).Only (Makes r sess) := by
  unfold reconcileIngress
  split
  · exact trivial
  rename_i net set
  split
  · exact trivial
  · rename_i host
    have mem : .ingress (ingressConfig sess net (childName r sess) (childName r sess)) ∈ desired r sess :=
      mem_desired.2 (.inr (.inr (.inr (.inr (.inr ⟨net, set, host, rfl⟩)))))
    exact patch_only rfl mem rfl

/-- Going on after a child, or reporting that it failed. -/
theorem onlyChild {α : Type} {p : Api (Except GoError α)} {f : Except GoError α → Api Outcome} {child : String}
    (first : p.Only (Makes r sess)) (failed : ∀ e, f (.error e) = childFailed sess child e)
    (ok : ∀ a, (f (.ok a)).Only (Makes r sess)) : (p >>= f).Only (Makes r sess) := by
  refine first.bind fun a => ?_
  cases a with
  | error e => exact failed e ▸ childFailed_only child e
  | ok a => exact ok a

theorem reconcileChildren_makes : (reconcileChildren r sess).Only (Makes r sess) := by
  refine onlyChild reconcileServiceAccount_only (fun _ => rfl) fun _ => ?_
  refine onlyChild (reconcilePVC_only ?_) (fun _ => rfl) fun _ => ?_
  · intro m mem
    simp [desired, mem]
  refine onlyChild (reconcilePVC_only ?_) (fun _ => rfl) fun _ => ?_
  · intro m mem
    simp [desired, mem]
  refine onlyChild reconcileDeployment_only (fun _ => rfl) fun dep => ?_
  refine onlyChild reconcileService_only (fun _ => rfl) fun svc => ?_
  refine onlyChild (reconcileIngress_only _) (fun _ => rfl) fun _ => ?_
  exact ⟨⟨⟨_, rfl⟩, trivial⟩, fun _ => trivial⟩

theorem reconcileChildren_only : (reconcileChildren r sess).Only (ChildCall sess) :=
  (reconcileChildren_makes (r := r)).mono fun _ made => made.1

end Codespace.Controller
