import Codespace.Controller.Reconcile

/-!
# The children a Reconcile applies, and the rule for applying them

`desired` lists, in order, the manifests one Reconcile of a Session applies. It is the
abstract account of `reconcileChildren`, and `wp_reconcileChildren` connects the two: to
prove something of the child phase, give an invariant indexed by the manifests applied so
far and show what one Apply, the two Gets and the status writes do to it.
-/

namespace Codespace.Controller
set_option autoImplicit false
open Interact

/-! ## The desired manifests -/

section

variable (r : SessionReconciler) (sess : Session)

/-- The derived name of every child but the claims. -/
def childName : String := (desiredNamesLabels r sess).1

def pvcManifest (suffix : String) (spec : Option PVCSpec) : List Manifest :=
  match spec with
  | none => []
  | some pvc => match r.parseQuantity pvc.size with
    | none => []
    | some storage =>
      [.persistentVolumeClaim (pvcConfig sess (childName r sess) suffix pvc storage)]

def workloadManifests : List Manifest :=
  match sess.spec.replicas with
  | none => []
  | some replicas =>
    [.deployment (deploymentConfig sess (childName r sess) (desiredNamesLabels r sess).2 replicas)]

def serviceManifest : Manifest :=
  .service (serviceConfig sess (childName r sess) (desiredNamesLabels r sess).2)

def ingressManifest : List Manifest :=
  match sess.spec.networking with
  | none => []
  | some net =>
    if net.host = "" then []
    else [.ingress (ingressConfig sess net (childName r sess) (childName r sess))]

/-- Everything one Reconcile applies, in order. -/
def desired : List Manifest :=
  [.serviceAccount (serviceAccountConfig sess (childName r sess))] ++
    pvcManifest r sess "home" sess.spec.home ++ pvcManifest r sess "scratch" sess.spec.scratch ++
    workloadManifests r sess ++ [serviceManifest r sess] ++ ingressManifest r sess

end

/-- The desired manifests depend on the name, namespace, UID and spec only. -/
theorem desired_congr {r : SessionReconciler} {s s' : Session}
    (name : s'.metadata.name = s.metadata.name) (ns : s'.metadata.ns = s.metadata.ns)
    (uid : s'.metadata.uid = s.metadata.uid) (spec : s'.spec = s.spec) :
    desired r s' = desired r s := by
  simp only [desired, childName, desiredNamesLabels, serviceAccountConfig, pvcManifest, pvcConfig,
    workloadManifests, deploymentConfig, containers, mainContainer, sidecar, buildVolumesAndMounts,
    determinePort, serviceManifest, serviceConfig, serviceTarget, ingressManifest, ingressConfig,
    ownerReference, name, ns, uid, spec]

section

variable {r : SessionReconciler} {sess : Session} {m : Manifest}

theorem mem_pvcManifest {suffix : String} {spec : Option PVCSpec} : m ∈ pvcManifest r sess suffix spec ↔
    ∃ pvc storage, spec = some pvc ∧ r.parseQuantity pvc.size = some storage ∧
      m = .persistentVolumeClaim (pvcConfig sess (childName r sess) suffix pvc storage) := by
  unfold pvcManifest
  cases spec with
  | none => simp
  | some pvc => cases parsed : r.parseQuantity pvc.size <;> simp [parsed]

theorem mem_workloadManifests : m ∈ workloadManifests r sess ↔
    ∃ replicas, sess.spec.replicas = some replicas ∧ m = .deployment
      (deploymentConfig sess (childName r sess) (desiredNamesLabels r sess).2 replicas) := by
  unfold workloadManifests
  cases sess.spec.replicas <;> simp

theorem mem_ingressManifest : m ∈ ingressManifest r sess ↔
    ∃ net, sess.spec.networking = some net ∧ net.host ≠ "" ∧
      m = .ingress (ingressConfig sess net (childName r sess) (childName r sess)) := by
  unfold ingressManifest
  cases sess.spec.networking with
  | none => simp
  | some net => by_cases empty : net.host = "" <;> simp [empty]

/-- What is in `desired`. -/
theorem mem_desired :
    m ∈ desired r sess ↔
      m = .serviceAccount (serviceAccountConfig sess (childName r sess)) ∨
      (∃ pvc storage, sess.spec.home = some pvc ∧ r.parseQuantity pvc.size = some storage ∧
        m = .persistentVolumeClaim (pvcConfig sess (childName r sess) "home" pvc storage)) ∨
      (∃ pvc storage, sess.spec.scratch = some pvc ∧ r.parseQuantity pvc.size = some storage ∧
        m = .persistentVolumeClaim (pvcConfig sess (childName r sess) "scratch" pvc storage)) ∨
      (∃ replicas, sess.spec.replicas = some replicas ∧ m = .deployment
        (deploymentConfig sess (childName r sess) (desiredNamesLabels r sess).2 replicas)) ∨
      m = serviceManifest r sess ∨
      (∃ net, sess.spec.networking = some net ∧ net.host ≠ "" ∧
        m = .ingress (ingressConfig sess net (childName r sess) (childName r sess))) := by
  simp only [desired, List.mem_append, List.mem_singleton, mem_pvcManifest, mem_workloadManifests,
    mem_ingressManifest, or_assoc]

end

/-- The two claims of a Session are different objects. -/
theorem claims_key_ne {r : SessionReconciler} {sess : Session} (pvc pvc' : PVCSpec) (st st' : String) :
    (Manifest.persistentVolumeClaim (pvcConfig sess (childName r sess) "home" pvc st)).key ≠
      (Manifest.persistentVolumeClaim (pvcConfig sess (childName r sess) "scratch" pvc' st')).key := by
  intro eq
  have names : childName r sess ++ "-" ++ "home" = childName r sess ++ "-" ++ "scratch" :=
    congrArg (fun c : ChildKey => c.key.name) eq
  rw [String.append_assoc, String.append_assoc, String.append_right_inj] at names
  exact absurd names (by decide)

/-- The manifests of one Session are for different objects. -/
theorem desired_key_inj {r : SessionReconciler} {sess : Session} {m m' : Manifest}
    (mem : m ∈ desired r sess) (mem' : m' ∈ desired r sess) (same : m.key = m'.key) : m = m' := by
  rw [mem_desired] at mem mem'
  -- the diagonal is one manifest; off it the kinds differ, except for the two claims
  rcases mem with rfl | ⟨pvc, st, h, hp, rfl⟩ | ⟨pvc, st, h, hp, rfl⟩ | ⟨n, h, rfl⟩ | rfl | ⟨net, h, hn, rfl⟩ <;>
  rcases mem' with rfl | ⟨pvc', st', h', hp', rfl⟩ | ⟨pvc', st', h', hp', rfl⟩ | ⟨n', h', rfl⟩ | rfl |
    ⟨net', h', hn', rfl⟩ <;>
  first
  | rfl
  | (cases h.symm.trans h'; rfl)
  | (cases h.symm.trans h'; cases hp.symm.trans hp'; rfl)
  | exact absurd same (claims_key_ne _ _ _ _)
  | exact absurd same.symm (claims_key_ne _ _ _ _)
  | exact absurd (congrArg ChildKey.kind same) (by simp [Manifest.key, serviceManifest])

/-- No manifest is applied twice. -/
theorem desired_nodup (r : SessionReconciler) (sess : Session) : (desired r sess).Nodup := by
  have claims : ∀ pvc pvc' st st',
      Manifest.persistentVolumeClaim (pvcConfig sess (childName r sess) "home" pvc st) ≠
        .persistentVolumeClaim (pvcConfig sess (childName r sess) "scratch" pvc' st') :=
    fun pvc pvc' st st' eq => claims_key_ne pvc pvc' st st' (congrArg Manifest.key eq)
  have volume : ∀ suffix spec, pvcManifest r sess suffix spec = [] ∨ ∃ pvc st,
      pvcManifest r sess suffix spec =
        [.persistentVolumeClaim (pvcConfig sess (childName r sess) suffix pvc st)] := by
    intro suffix spec
    unfold pvcManifest
    split
    · exact .inl rfl
    · split
      · exact .inl rfl
      · exact .inr ⟨_, _, rfl⟩
  have workload : workloadManifests r sess = [] ∨ ∃ d, workloadManifests r sess = [.deployment d] := by
    unfold workloadManifests
    split
    · exact .inl rfl
    · exact .inr ⟨_, rfl⟩
  have ingress : ingressManifest r sess = [] ∨ ∃ i, ingressManifest r sess = [.ingress i] := by
    unfold ingressManifest
    split
    · exact .inl rfl
    · split
      · exact .inl rfl
      · exact .inr ⟨_, rfl⟩
  unfold desired serviceManifest
  rcases volume "home" sess.spec.home with h | ⟨_, _, h⟩ <;>
  rcases volume "scratch" sess.spec.scratch with h' | ⟨_, _, h'⟩ <;>
  rcases workload with w | ⟨_, w⟩ <;>
  rcases ingress with i | ⟨_, i⟩ <;>
  simp [h, h', w, i] <;>
  exact fun eq => claims _ _ _ _ (congrArg Manifest.persistentVolumeClaim eq)

/-! ## The rule -/

section

variable {S : Type} {W : Setting Call Answer S} {G : S → Call → Prop}
variable {r : SessionReconciler} {sess : Session}

/-- Nothing a Reconcile dereferences or parses is missing or malformed. -/
structure Whole (r : SessionReconciler) (sess : Session) : Prop where
  replicas : sess.spec.replicas ≠ none
  sizes : ∀ pvc, sess.spec.home = some pvc ∨ sess.spec.scratch = some pvc →
    r.parseQuantity pvc.size ≠ none

/-- What is to be shown of a child phase: `I ms d` holds when the manifests `ms` have been
applied and the Deployment `d` has been read, `F` when a child has failed. -/
structure ChildPhase (W : Setting Call Answer S) (G : S → Call → Prop) (r : SessionReconciler)
    (sess : Session) (I : List Manifest → Option Deployment → S → Prop) (F : S → Prop)
    (Q : Outcome → S → Prop) : Prop where
  rely : ∀ ms d s s', I ms d s → W.rely s s' → I ms d s'
  relyFailed : ∀ s s', F s → W.rely s s' → F s'
  relyDone : ∀ o s s', Q o s → W.rely s s' → Q o s'
  guarantee : ∀ ms d s c, I ms d s → G s c
  guaranteeFailed : ∀ s c, F s → G s c
  applied : ∀ ms d m s s', I ms d s → ms ++ [m] <+: desired r sess →
    W.answer s (.apply r.ssaFieldOwner m) (.ok ()) s' → I (ms ++ [m]) d s'
  rejected : ∀ ms d m e s s', I ms d s → ms ++ [m] <+: desired r sess →
    W.answer s (.apply r.ssaFieldOwner m) (.error e) s' → F s'
  deployment : ∀ ms dep s s', I ms none s →
    W.answer s (.getDeployment ⟨sess.metadata.ns, childName r sess⟩) (.ok dep) s' → I ms (some dep) s'
  noDeployment : ∀ ms d e s s', I ms d s →
    W.answer s (.getDeployment ⟨sess.metadata.ns, childName r sess⟩) (.error e) s' → F s'
  service : ∀ ms d svc s s', I ms d s →
    W.answer s (.getService ⟨sess.metadata.ns, childName r sess⟩) (.ok svc) s' →
      svc.name = childName r sess ∧ I ms d s'
  noService : ∀ ms d e s s', I ms d s →
    W.answer s (.getService ⟨sess.metadata.ns, childName r sess⟩) (.error e) s' → F s'
  panicked : ∀ ms d m s, I ms d s → ¬ Whole r sess → Q (.panicked m) s
  reported : ∀ message m a s s', message ≠ "" → F s → W.answer s (.updateStatus { sess with
    status := { sess.status with phase := "Error", reason := message } }) a s' → Q (.failed m) s'
  finished : ∀ dep a s s', I (desired r sess) (some dep) s →
    W.answer s (.updateStatus { sess with status := nextStatus sess dep }) a s' →
      Q (.done (some 120)) s'

variable {I : List Manifest → Option Deployment → S → Prop} {F : S → Prop} {Q : Outcome → S → Prop}

/-- Reporting a failed child. -/
theorem ChildPhase.wp_childFailed (h : ChildPhase W G r sess I F Q) (child : String) (e : ApiError)
    {s : S} (failed : F s) : (childFailed sess child (.err e)).wp W G Q s := by
  intro s₁ rel
  have failed₁ := h.relyFailed _ _ failed rel
  have text : child ++ ": " ++ e.message ≠ "" := by
    intro empty
    have := congrArg String.length empty
    simp at this
  refine ⟨h.guaranteeFailed _ _ failed₁, fun a s₂ ans => ?_⟩
  cases a with
  | error uErr => exact fun s₃ rel' => h.relyDone _ _ _ (h.reported _ _ _ _ _ text failed₁ ans) rel'
  | ok _ => exact fun s₃ rel' => h.relyDone _ _ _ (h.reported _ _ _ _ _ text failed₁ ans) rel'

/-- One Apply and what follows it. -/
theorem ChildPhase.wp_patch (h : ChildPhase W G r sess I F Q) {ms : List Manifest}
    {d : Option Deployment} {m : Manifest} {s : S} {k : Except GoError Unit → Api Outcome}
    (inv : I ms d s) (next : ms ++ [m] <+: desired r sess)
    (ok : ∀ s', I (ms ++ [m]) d s' → (k (.ok ())).wp W G Q s')
    (failed : ∀ e s', F s' → (k (.error (.err e))).wp W G Q s') :
    (patch r m >>= k).wp W G Q s := by
  intro s₁ rel
  have inv₁ := h.rely _ _ _ _ inv rel
  refine ⟨h.guarantee _ _ _ _ inv₁, fun a s₂ ans => ?_⟩
  cases a with
  | error e => exact failed e s₂ (h.rejected _ _ _ _ _ _ inv₁ next ans)
  | ok _ => exact ok s₂ (h.applied _ _ _ _ _ inv₁ next ans)

/-- The claim for one volume, if the Session has that volume. -/
theorem ChildPhase.wp_reconcilePVC (h : ChildPhase W G r sess I F Q) {ms : List Manifest}
    {d : Option Deployment} {suffix : String} {spec : Option PVCSpec} {s : S}
    {k : Except GoError Unit → Api Outcome} (inv : I ms d s)
    (volume : sess.spec.home = spec ∨ sess.spec.scratch = spec)
    (next : ms ++ pvcManifest r sess suffix spec <+: desired r sess)
    (ok : ∀ s', I (ms ++ pvcManifest r sess suffix spec) d s' → (k (.ok ())).wp W G Q s')
    (failed : ∀ e s', F s' → (k (.error (.err e))).wp W G Q s')
    (panicked : ∀ m s', I ms d s' → ¬ Whole r sess → (k (.error (.panic m))).wp W G Q s') :
    (reconcilePVC r sess (childName r sess) suffix spec >>= k).wp W G Q s := by
  unfold pvcManifest at next ok
  unfold reconcilePVC
  cases spec with
  | none => exact ok s (by simpa using inv)
  | some pvc =>
    simp only at next ok ⊢
    cases parsed : r.parseQuantity pvc.size with
    | none => exact panicked _ s inv fun whole => whole.sizes pvc volume parsed
    | some storage =>
      simp only [parsed] at next ok ⊢
      exact h.wp_patch inv next ok failed

theorem ChildPhase.wp_reconcileDeployment (h : ChildPhase W G r sess I F Q) {ms : List Manifest}
    {s : S} {k : Except GoError Deployment → Api Outcome} (inv : I ms none s)
    (next : ms ++ workloadManifests r sess <+: desired r sess)
    (ok : ∀ dep s', I (ms ++ workloadManifests r sess) (some dep) s' → (k (.ok dep)).wp W G Q s')
    (failed : ∀ e s', F s' → (k (.error (.err e))).wp W G Q s')
    (panicked : ∀ m s', I ms none s' → ¬ Whole r sess → (k (.error (.panic m))).wp W G Q s') :
    (reconcileDeployment r sess (childName r sess) (desiredNamesLabels r sess).2 >>= k).wp W G Q s := by
  unfold workloadManifests at next ok
  unfold reconcileDeployment
  cases replicas : sess.spec.replicas with
  | none => exact panicked _ s inv fun whole => whole.replicas replicas
  | some n =>
    simp only [replicas] at next ok ⊢
    rw [Prog.bind_assoc]
    refine h.wp_patch inv next (fun s₁ inv₁ => ?_) failed
    intro s₂ rel
    have inv₂ := h.rely _ _ _ _ inv₁ rel
    refine ⟨h.guarantee _ _ _ _ inv₂, fun a s₃ ans => ?_⟩
    cases a with
    | error e => exact failed e s₃ (h.noDeployment _ _ _ _ _ inv₂ ans)
    | ok dep => exact ok dep s₃ (h.deployment _ _ _ _ inv₂ ans)

theorem ChildPhase.wp_reconcileService (h : ChildPhase W G r sess I F Q) {ms : List Manifest}
    {d : Option Deployment} {s : S} {k : Except GoError Service → Api Outcome} (inv : I ms d s)
    (next : ms ++ [serviceManifest r sess] <+: desired r sess)
    (ok : ∀ svc s', svc.name = childName r sess → I (ms ++ [serviceManifest r sess]) d s' →
      (k (.ok svc)).wp W G Q s')
    (failed : ∀ e s', F s' → (k (.error (.err e))).wp W G Q s') :
    (reconcileService r sess (childName r sess) (desiredNamesLabels r sess).2 >>= k).wp W G Q s := by
  unfold reconcileService
  rw [Prog.bind_assoc]
  refine h.wp_patch inv next (fun s₁ inv₁ => ?_) failed
  intro s₂ rel
  have inv₂ := h.rely _ _ _ _ inv₁ rel
  refine ⟨h.guarantee _ _ _ _ inv₂, fun a s₃ ans => ?_⟩
  cases a with
  | error e => exact failed e s₃ (h.noService _ _ _ _ _ inv₂ ans)
  | ok svc =>
    obtain ⟨name, inv₃⟩ := h.service _ _ _ _ _ inv₂ ans
    exact ok svc s₃ name inv₃

theorem ChildPhase.wp_reconcileIngress (h : ChildPhase W G r sess I F Q) {ms : List Manifest}
    {d : Option Deployment} {s : S} {k : Except GoError Unit → Api Outcome} (inv : I ms d s)
    (next : ms ++ ingressManifest r sess <+: desired r sess)
    (ok : ∀ s', I (ms ++ ingressManifest r sess) d s' → (k (.ok ())).wp W G Q s')
    (failed : ∀ e s', F s' → (k (.error (.err e))).wp W G Q s') :
    (reconcileIngress r sess (childName r sess) (childName r sess) >>= k).wp W G Q s := by
  unfold ingressManifest at next ok
  unfold reconcileIngress
  cases net : sess.spec.networking with
  | none => exact ok s (by simpa [net] using inv)
  | some n =>
    simp only [net] at next ok ⊢
    by_cases empty : n.host = ""
    · simp only [empty, if_true] at ok ⊢
      exact ok s (by simpa using inv)
    · simp only [empty, if_false] at next ok ⊢
      exact h.wp_patch inv next ok failed

/-- **The child phase.** With an invariant for the manifests applied so far, every way
through `reconcileChildren` ends as the obligations of `ChildPhase` say. -/
theorem wp_reconcileChildren (h : ChildPhase W G r sess I F Q) {s : S} (inv : I [] none s) :
    (reconcileChildren r sess).wp W G Q s := by
  have failed : ∀ child e s, F s → (childFailed sess child (.err e)).wp W G Q s :=
    fun child e _ => h.wp_childFailed child e
  have panicked : ∀ child ms d m s, I ms d s → ¬ Whole r sess →
      (childFailed sess child (.panic m)).wp W G Q s :=
    fun _ ms d m s inv broken _ rel => h.panicked ms d m _ (h.rely _ _ _ _ inv rel) broken
  show (reconcileServiceAccount r sess (childName r sess) >>= _).wp W G Q s
  refine h.wp_patch inv ?_ (fun s inv => ?_) (failed "serviceaccount")
  · exact ⟨pvcManifest r sess "home" sess.spec.home ++ pvcManifest r sess "scratch" sess.spec.scratch ++
      workloadManifests r sess ++ [serviceManifest r sess] ++ ingressManifest r sess, by simp [desired]⟩
  refine h.wp_reconcilePVC inv (.inl rfl) ?_ (fun s inv => ?_) (failed "pvc-home") (panicked "pvc-home" _ _)
  · exact ⟨pvcManifest r sess "scratch" sess.spec.scratch ++ workloadManifests r sess ++
      [serviceManifest r sess] ++ ingressManifest r sess, by simp [desired]⟩
  refine h.wp_reconcilePVC inv (.inr rfl) ?_ (fun s inv => ?_) (failed "pvc-scratch") (panicked "pvc-scratch" _ _)
  · exact ⟨workloadManifests r sess ++ [serviceManifest r sess] ++ ingressManifest r sess,
      by simp [desired]⟩
  refine h.wp_reconcileDeployment inv ?_ (fun dep s inv => ?_) (failed "deployment")
    (panicked "deployment" _ _)
  · exact ⟨[serviceManifest r sess] ++ ingressManifest r sess, by simp [desired]⟩
  refine h.wp_reconcileService inv ?_ (fun svc s name inv => ?_) (failed "service")
  · exact ⟨ingressManifest r sess, by simp [desired]⟩
  simp only [name]
  refine h.wp_reconcileIngress inv ?_ (fun s inv => ?_) (failed "ingress")
  · exact ⟨[], by simp [desired]⟩
  intro s₁ rel
  have inv₁ := h.rely _ _ _ _ inv rel
  refine ⟨h.guarantee _ _ _ _ inv₁, fun a s₂ ans => ?_⟩
  intro s₃ rel'
  exact h.relyDone _ _ _ (h.finished dep a _ _ inv₁ ans) rel'

/-- A whole Reconcile: the Get, and what follows for a Session under deletion, for one
with the finalizer and for one without. -/
theorem wp_reconcile {k : Key} {s : S} (get : ∀ s₁, W.rely s s₁ → G s₁ (.get k))
    (unread : ∀ s₁ s₂ s₃ e, W.rely s s₁ → W.answer s₁ (.get k) (.error e) s₂ → W.rely s₂ s₃ →
      Q (if e.isNotFound = true then .done none else .failed e.message) s₃)
    (deleted : ∀ s₁ s₂ cur, W.rely s s₁ → W.answer s₁ (.get k) (.ok cur) s₂ → cur.deleting = true →
      (handleDelete (applyDefaults cur)).wp W G Q s₂)
    (present : ∀ s₁ s₂ cur, W.rely s s₁ → W.answer s₁ (.get k) (.ok cur) s₂ → cur.deleting = false →
      sessionFinalizer ∈ cur.metadata.finalizers → (reconcileChildren r (applyDefaults cur)).wp W G Q s₂)
    (absent : ∀ s₁ s₂ s₃ cur, W.rely s s₁ → W.answer s₁ (.get k) (.ok cur) s₂ → W.rely s₂ s₃ →
      cur.deleting = false → sessionFinalizer ∉ cur.metadata.finalizers →
      G s₃ (.update (addFinalizer (applyDefaults cur)).1) ∧
      (∀ e s₄ s₅, W.answer s₃ (.update (addFinalizer (applyDefaults cur)).1) (.error e) s₄ →
        W.rely s₄ s₅ → Q (.failed e.message) s₅) ∧
      ∀ sess s₄, W.answer s₃ (.update (addFinalizer (applyDefaults cur)).1) (.ok sess) s₄ →
        (reconcileChildren r sess).wp W G Q s₄) :
    (Reconcile r k).wp W G Q s := by
  intro s₁ rel
  refine ⟨get s₁ rel, fun a s₂ ans => ?_⟩
  cases a with
  | error e =>
    have final := fun s₃ rel' => unread s₁ s₂ s₃ e rel ans rel'
    show ((if e.isNotFound = true then Prog.ret (.done none) else Prog.ret (.failed e.message) :
      Api Outcome)).wp W G Q s₂
    by_cases missing : e.isNotFound = true
    · simpa [missing] using final
    · simpa [missing] using final
  | ok cur =>
    show (if cur.deleting = true then handleDelete (applyDefaults cur) else
      ensureFinalizer (applyDefaults cur) >>= _).wp W G Q s₂
    by_cases del : cur.deleting = true
    · simpa only [del, if_true] using deleted s₁ s₂ cur rel ans del
    simp only [del]
    have live : cur.deleting = false := by simpa using del
    unfold ensureFinalizer
    by_cases has : sessionFinalizer ∈ cur.metadata.finalizers
    · have same : addFinalizer (applyDefaults cur) = (applyDefaults cur, false) := if_pos has
      simpa [same] using present s₁ s₂ cur rel ans live has
    · have added : (addFinalizer (applyDefaults cur)).2 = true := by
        unfold addFinalizer
        rw [applyDefaults_metadata, if_neg has]
      simp only [added, if_true]
      intro s₃ rel'
      obtain ⟨guar, failed, ok⟩ := absent s₁ s₂ s₃ cur rel ans rel' live has
      refine ⟨guar, fun a s₄ ans' => ?_⟩
      cases a with
      | error e => exact fun s₅ rel'' => failed e s₄ s₅ ans' rel''
      | ok sess => exact ok sess s₄ ans'

end
end Codespace.Controller
