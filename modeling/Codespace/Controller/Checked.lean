import Codespace.Controller.Template

/-!
# Reconcile with every pointer checked

`Controller.Reconcile` matches on what may be missing. Here the same functions are written
with pointers: an optional field and a returned object are read by `deref`, which panics on
nil, behind the very guards of the source, and `resource.MustParse` panics on a text that is
not a quantity. `Reconcile_eq` connects the two; nothing but the replicas and the sizes is
left to panic on.
-/

namespace Codespace.Controller
set_option autoImplicit false
open Versioned Interact

/-- A function of the controller: it calls the API server, and it may panic. -/
abbrev GoM := ExceptT String Api

/-- `*p`, or a field of what `p` points to. -/
def deref {α : Type} : Option α → GoM α
  | none => throw "nil pointer dereference"
  | some a => pure a

@[simp] theorem deref_some {α : Type} (a : α) : deref (some a) = pure a := rfl

/-- An answered call. -/
def call (c : Call) : GoM (Answer c) := ExceptT.lift (api c)

/-- A volume as the Go type has it, with the claim behind a pointer. -/
structure PodVolume where
  name : String
  persistentVolumeClaim : Option String

namespace Checked

variable (r : SessionReconciler)

/-- `resource.MustParse`. -/
def mustParse (size : String) : GoM String :=
  match r.parseQuantity size with
  | none => throw ("cannot parse '" ++ size ++ "'")
  | some storage => pure storage

def buildVolumesAndMounts (sess : Session) (name : String) : GoM (List PodVolume × List VolumeMount) := do
  let mut vols := []
  let mut mounts := []
  if sess.spec.home.isSome then
    vols := vols ++ [⟨"home", some (name ++ "-home")⟩]
    mounts := mounts ++ [⟨"home", (← deref sess.spec.home).mountPath⟩]
  if sess.spec.scratch.isSome then
    vols := vols ++ [⟨"scratch", some (name ++ "-scratch")⟩]
    mounts := mounts ++ [⟨"scratch", (← deref sess.spec.scratch).mountPath⟩]
  return (vols, mounts)

/-- `v.PersistentVolumeClaim.ClaimName`. -/
def acVolume (v : PodVolume) : GoM Volume := return ⟨v.name, ← deref v.persistentVolumeClaim⟩

/-- `sess.Spec.Networking != nil && sess.Spec.Networking.Host != ""`. -/
def hasHost (spec : SessionSpec) : GoM Bool := do
  if spec.networking.isNone then return false
  return (← deref spec.networking).host ≠ ""

/-- `sess.Spec.Networking == nil || sess.Spec.Networking.Host == ""`. -/
def hasNoHost (spec : SessionSpec) : GoM Bool := do
  if spec.networking.isNone then return true
  return (← deref spec.networking).host = ""

def sidecarEnv (auth : AuthSpec) : GoM (List EnvVar) := do
  if auth.oidc.isNone then return []
  return [⟨"OIDC_ISSUER_URL", .value (← deref auth.oidc).issuerURL⟩,
    ⟨"OIDC_CLIENT_ID", .secretKeyRef (← deref auth.oidc).clientIDSecret "clientID"⟩,
    ⟨"OIDC_CLIENT_SECRET", .secretKeyRef (← deref auth.oidc).clientSecretRef "clientSecret"⟩]

def containers (sess : Session) (mounts : List VolumeMount) : GoM (List Container) := do
  let main : Container := ⟨"ide", sess.spec.profile.image, sess.spec.profile.cmd, [determinePort sess], mounts, []⟩
  if sess.spec.auth.mode ≠ "oauth2proxy" then return [main]
  if !(← hasHost sess.spec) then return [main]
  return [main, { sidecar sess with env := ← sidecarEnv sess.spec.auth }]

def deploymentConfig (sess : Session) (name : String) (labels : GoMap String String) : GoM DeploymentApply := do
  let (vols, mounts) ← buildVolumesAndMounts sess name
  let acVols ← vols.mapM acVolume
  let cs ← containers sess mounts
  let replicas ← deref sess.spec.replicas
  return { Controller.deploymentConfig sess name labels replicas with
    template := ⟨labels, name, acVols, cs⟩ }

def serviceTarget (sess : Session) : GoM Nat := do
  let idePort := if sess.spec.profile.ide = "vscode" then 8080 else 8888
  if sess.spec.auth.mode ≠ "oauth2proxy" then return idePort
  if ← hasNoHost sess.spec then return idePort
  return 4180

/-- `r.Patch` with an apply body. -/
def patch (m : Manifest) : GoM (Option ApiError) := do
  match ← call (.apply r.ssaFieldOwner m) with
  | .error e => return some e
  | .ok _ => return none

def reconcilePVC (sess : Session) (name suffix : String) (spec : Option PVCSpec) : GoM (Option ApiError) := do
  if spec.isNone then return none
  let storage ← mustParse r (← deref spec).size
  patch r (.persistentVolumeClaim (pvcConfig sess name suffix (← deref spec) storage))

def reconcileDeployment (sess : Session) (name : String) (labels : GoMap String String) :
    GoM (Option Deployment × Option ApiError) := do
  let dep ← deploymentConfig sess name labels
  if let some e ← patch r (.deployment dep) then return (none, some e)
  match ← call (.getDeployment ⟨sess.metadata.ns, name⟩) with
  | .error e => return (none, some e)
  | .ok out => return (some out, none)

def reconcileService (sess : Session) (name : String) (labels : GoMap String String) :
    GoM (Option Service × Option ApiError) := do
  let target ← serviceTarget sess
  let svc := { serviceConfig sess name labels with ports := [⟨"http", 80, target⟩] }
  if let some e ← patch r (.service svc) then return (none, some e)
  match ← call (.getService ⟨sess.metadata.ns, name⟩) with
  | .error e => return (none, some e)
  | .ok out => return (some out, none)

def reconcileIngress (sess : Session) (name svcName : String) : GoM (Option ApiError) := do
  if ← hasNoHost sess.spec then return none
  patch r (.ingress (ingressConfig sess (← deref sess.spec.networking) name svcName))

def updateStatus (sess : Session) (dep : Option Deployment) : GoM (Except ApiError Session) := do
  let url ← if ← hasHost sess.spec then pure ("https://" ++ (← deref sess.spec.networking).host) else pure ""
  let ready ← if dep.isSome then pure (decide (0 < (← deref dep).readyReplicas)) else pure false
  call (.updateStatus { sess with status := { sess.status with
    url := url, phase := if ready then "Ready" else "Pending" } })

def failStatus (sess : Session) (message : String) : GoM Outcome := ExceptT.lift (Controller.failStatus sess message)

/-- Everything after the finalizer. -/
def reconcileChildren (sess : Session) : GoM Outcome := do
  let (name, labels) := desiredNamesLabels r sess
  if let some e ← patch r (.serviceAccount (serviceAccountConfig sess name)) then
    return ← failStatus sess ("serviceaccount" ++ ": " ++ e.message)
  if let some e ← reconcilePVC r sess name "home" sess.spec.home then
    return ← failStatus sess ("pvc-home" ++ ": " ++ e.message)
  if let some e ← reconcilePVC r sess name "scratch" sess.spec.scratch then
    return ← failStatus sess ("pvc-scratch" ++ ": " ++ e.message)
  let (dep, err) ← reconcileDeployment r sess name labels
  if let some e := err then
    return ← failStatus sess ("deployment" ++ ": " ++ e.message)
  let (svc, err) ← reconcileService r sess name labels
  if let some e := err then
    return ← failStatus sess ("service" ++ ": " ++ e.message)
  if let some e ← reconcileIngress r sess name (← deref svc).name then
    return ← failStatus sess ("ingress" ++ ": " ++ e.message)
  let _ ← updateStatus sess dep
  return .done (some 120)

def Reconcile (req : Key) : GoM Outcome := do
  match ← call (.get req) with
  | .error e => if e.isNotFound then return .done none else return .failed e.message
  | .ok sess =>
    let sess := applyDefaults sess
    if sess.deleting then ExceptT.lift (handleDelete sess)
    else match ← ExceptT.lift (ensureFinalizer sess) with
      | .error e => return .failed e.message
      | .ok sess => reconcileChildren r sess

end Checked

/-! ## The reads -/

section

variable {r : SessionReconciler} {sess : Session} {name : String} {labels : GoMap String String}

theorem checked_hasHost (spec : SessionSpec) : Checked.hasHost spec = pure (hasHost spec) := by
  cases net : spec.networking <;> simp [Checked.hasHost, hasHost, net]

theorem checked_hasNoHost (spec : SessionSpec) : Checked.hasNoHost spec = pure (!hasHost spec) := by
  cases net : spec.networking <;> simp [Checked.hasNoHost, hasHost, net]

theorem checked_sidecarEnv (auth : AuthSpec) : Checked.sidecarEnv auth = pure (sidecarEnv auth.oidc) := by
  cases oidc : auth.oidc <;> simp [Checked.sidecarEnv, sidecarEnv, oidc]

theorem checked_containers :
    Checked.containers sess (buildVolumesAndMounts sess name).2 = pure (containers sess name) := by
  unfold Checked.containers containers
  by_cases mode : sess.spec.auth.mode = "oauth2proxy"
  · cases host : hasHost sess.spec <;>
      simp [mode, host, checked_hasHost, checked_sidecarEnv, mainContainer, sidecar]
  · simp [mode, mainContainer]

/-- The volumes with their claims, as they are read back. -/
theorem checked_volumes {β : Type} (sess : Session) (name : String) (f : List Volume × List VolumeMount → GoM β) :
    (do
      let (vols, mounts) ← Checked.buildVolumesAndMounts sess name
      let acVols ← vols.mapM Checked.acVolume
      f (acVols, mounts)) = f (buildVolumesAndMounts sess name) := by
  cases home : sess.spec.home <;> cases scratch : sess.spec.scratch <;>
    simp [Checked.buildVolumesAndMounts, Checked.acVolume, buildVolumesAndMounts, home, scratch]

/-- The replicas are the one pointer of a Deployment that is read without a guard. -/
theorem checked_deploymentConfig : Checked.deploymentConfig sess name labels =
    deref sess.spec.replicas >>= fun replicas => pure (deploymentConfig sess name labels replicas) := by
  have whole := checked_volumes sess name fun p => do
    let cs ← Checked.containers sess p.2
    let replicas ← deref sess.spec.replicas
    return { deploymentConfig sess name labels replicas with template := ⟨labels, name, p.1, cs⟩ }
  dsimp only at whole
  rw [checked_containers, pure_bind] at whole
  exact whole

theorem checked_serviceTarget : Checked.serviceTarget sess = pure (serviceTarget sess) := by
  unfold Checked.serviceTarget serviceTarget
  by_cases mode : sess.spec.auth.mode = "oauth2proxy" <;> cases host : hasHost sess.spec <;>
    simp [mode, host, checked_hasNoHost]

/-- The status, from what was read through the pointers. -/
theorem nextStatus_eq (dep : Deployment) (url phase : String) (sameUrl : statusURL sess.spec = url)
    (samePhase : (if 0 < dep.readyReplicas then "Ready" else "Pending") = phase) :
    updateStatus sess dep = api (.updateStatus { sess with status := { sess.status with url := url, phase := phase } }) := by
  subst sameUrl samePhase
  rfl

theorem checked_updateStatus (dep : Deployment) :
    Checked.updateStatus sess (some dep) = ExceptT.lift (updateStatus sess dep) := by
  have ready : (if decide (0 < dep.readyReplicas) = true then "Ready" else "Pending") =
      if 0 < dep.readyReplicas then "Ready" else "Pending" := by simp only [decide_eq_true_eq]
  cases net : sess.spec.networking with
  | none =>
    rw [nextStatus_eq dep "" _ (by simp [statusURL, net]) ready.symm]
    simp [Checked.updateStatus, checked_hasHost, hasHost, call, net]
  | some n =>
    by_cases host : n.host = ""
    · rw [nextStatus_eq dep "" _ (by simp [statusURL, net, host]) ready.symm]
      simp [Checked.updateStatus, checked_hasHost, hasHost, call, net, host]
    · rw [nextStatus_eq dep ("https://" ++ n.host) _ (by simp [statusURL, net, host]) ready.symm]
      simp [Checked.updateStatus, checked_hasHost, hasHost, call, net, host]

/-! ## The calls -/

/-- A result with its error, as a pair of pointers. -/
def pointers {α : Type} (p : Api (Except GoError α)) : GoM (Option α × Option ApiError) :=
  ExceptT.mk (p >>= fun
    | .ok a => .ret (.ok (some a, none))
    | .error (.err e) => .ret (.ok (none, some e))
    | .error (.panic m) => .ret (.error m))

/-- An error only. -/
def errors (p : Api (Except GoError Unit)) : GoM (Option ApiError) :=
  ExceptT.mk (p >>= fun
    | .ok _ => .ret (.ok none)
    | .error (.err e) => .ret (.ok (some e))
    | .error (.panic m) => .ret (.error m))

theorem checked_patch (m : Manifest) : Checked.patch r m = errors (patch r m) := by
  refine congrArg (Prog.call (Call.apply r.ssaFieldOwner m)) (funext fun a => ?_)
  cases a <;> rfl

theorem checked_reconcilePVC (suffix : String) (spec : Option PVCSpec) :
    Checked.reconcilePVC r sess name suffix spec = errors (reconcilePVC r sess name suffix spec) := by
  cases spec with
  | none => rfl
  | some pvc =>
    unfold Checked.reconcilePVC reconcilePVC
    simp only [Option.isNone_some, deref_some, pure_bind, Checked.mustParse]
    cases r.parseQuantity pvc.size with
    | none => rfl
    | some storage => exact checked_patch _

theorem checked_reconcileDeployment :
    Checked.reconcileDeployment r sess name labels = pointers (reconcileDeployment r sess name labels) := by
  unfold Checked.reconcileDeployment reconcileDeployment
  rw [checked_deploymentConfig]
  cases sess.spec.replicas with
  | none => rfl
  | some replicas =>
    refine congrArg (Prog.call (Call.apply r.ssaFieldOwner _)) (funext fun a => ?_)
    cases a with
    | error e => rfl
    | ok _ =>
      refine congrArg (Prog.call (Call.getDeployment _)) (funext fun a => ?_)
      cases a <;> rfl

theorem checked_reconcileService :
    Checked.reconcileService r sess name labels = pointers (reconcileService r sess name labels) := by
  unfold Checked.reconcileService
  rw [checked_serviceTarget]
  refine congrArg (Prog.call (Call.apply r.ssaFieldOwner _)) (funext fun a => ?_)
  cases a with
  | error e => rfl
  | ok _ =>
    refine congrArg (Prog.call (Call.getService _)) (funext fun a => ?_)
    cases a <;> rfl

theorem checked_reconcileIngress (svcName : String) :
    Checked.reconcileIngress r sess name svcName = errors (reconcileIngress r sess name svcName) := by
  unfold Checked.reconcileIngress reconcileIngress
  rw [checked_hasNoHost]
  cases net : sess.spec.networking with
  | none =>
    simp only [hasHost, net, pure_bind]
    rfl
  | some n =>
    by_cases host : n.host = ""
    · simp only [hasHost, net, host, pure_bind]
      rfl
    · simp only [hasHost, net, host, pure_bind, ne_eq, not_false_eq_true, decide_true, Bool.not_true,
        Bool.false_eq_true, if_false, deref_some]
      exact checked_patch _

/-! ## The whole -/

/-- How a function with checked pointers ends, as an outcome of the model. -/
def checkedOutcome : Outcome → Except String Outcome
  | .panicked m => .error m
  | o => .ok o

/-- The same calls, and the same end. -/
def Agrees (g : GoM Outcome) (p : Api Outcome) : Prop := g.run = p >>= fun o => .ret (checkedOutcome o)

/-- After a child that answers with an error only. -/
theorem agrees_errors {p : Api (Except GoError Unit)} {g : Option ApiError → GoM Outcome}
    {f : Except GoError Unit → Api Outcome} (failed : ∀ e, Agrees (g (some e)) (f (.error (.err e))))
    (panicked : ∀ m, f (.error (.panic m)) = .ret (.panicked m)) (ok : Agrees (g none) (f (.ok ()))) :
    Agrees (errors p >>= g) (p >>= f) := by
  unfold Agrees
  rw [ExceptT.run_bind, errors, ExceptT.run_mk, Prog.bind_assoc, Prog.bind_assoc]
  congr 1
  funext a
  match a with
  | .ok () => exact ok
  | .error (.err e) => exact failed e
  | .error (.panic m) => rw [panicked m]; rfl

/-- After a child that answers with an object. -/
theorem agrees_pointers {α : Type} {p : Api (Except GoError α)} {g : Option α × Option ApiError → GoM Outcome}
    {f : Except GoError α → Api Outcome} (failed : ∀ e, Agrees (g (none, some e)) (f (.error (.err e))))
    (panicked : ∀ m, f (.error (.panic m)) = .ret (.panicked m))
    (ok : ∀ a, Agrees (g (some a, none)) (f (.ok a))) : Agrees (pointers p >>= g) (p >>= f) := by
  unfold Agrees
  rw [ExceptT.run_bind, pointers, ExceptT.run_mk, Prog.bind_assoc, Prog.bind_assoc]
  congr 1
  funext a
  match a with
  | .ok a => exact ok a
  | .error (.err e) => exact failed e
  | .error (.panic m) => rw [panicked m]; rfl

theorem agrees_failStatus (message : String) :
    Agrees (Checked.failStatus sess message) (failStatus sess message) := by
  refine congrArg (Prog.call (Call.updateStatus _)) (funext fun a => ?_)
  cases a <;> rfl

theorem agrees_handleDelete : Agrees (ExceptT.lift (handleDelete sess)) (handleDelete sess) := by
  refine congrArg (Prog.call (Call.update _)) (funext fun a => ?_)
  cases a <;> rfl

theorem agrees_reconcileChildren : Agrees (Checked.reconcileChildren r sess) (reconcileChildren r sess) := by
  unfold Checked.reconcileChildren reconcileChildren
  simp only [checked_patch, checked_reconcilePVC, checked_reconcileDeployment, checked_reconcileService,
    checked_reconcileIngress]
  refine agrees_errors (fun e => agrees_failStatus _) (fun _ => rfl) ?_
  refine agrees_errors (fun e => agrees_failStatus _) (fun _ => rfl) ?_
  refine agrees_errors (fun e => agrees_failStatus _) (fun _ => rfl) ?_
  refine agrees_pointers (fun e => agrees_failStatus _) (fun _ => rfl) fun dep => ?_
  refine agrees_pointers (fun e => agrees_failStatus _) (fun _ => rfl) fun svc => ?_
  refine agrees_errors (fun e => agrees_failStatus _) (fun _ => rfl) ?_
  simp only [checked_updateStatus]
  rfl

/-- After a call that cannot panic. -/
theorem agrees_lift {α : Type} {p : Api α} {g : α → GoM Outcome} {f : α → Api Outcome}
    (next : ∀ a, Agrees (g a) (f a)) : Agrees (ExceptT.lift p >>= g) (p >>= f) := by
  unfold Agrees
  rw [ExceptT.run_bind_lift, Prog.bind_assoc]
  congr 1
  funext a
  exact next a

/-- **Refinement.** With every pointer checked, Reconcile makes the same calls and ends the
same way. -/
theorem agrees_Reconcile (k : Key) : Agrees (Checked.Reconcile r k) (Reconcile r k) := by
  refine agrees_lift fun a => ?_
  cases a with
  | error e =>
    simp only
    split <;> rfl
  | ok cur =>
    simp only
    split
    · exact agrees_handleDelete
    · refine agrees_lift fun a => ?_
      cases a with
      | error e => rfl
      | ok sess => exact agrees_reconcileChildren

end

/-! ## Safety -/

/-- What is relied on of `resource.ParseQuantity`: a number with one of the two units is a
quantity. -/
def AcceptsSizes (r : SessionReconciler) : Prop :=
  ∀ digits : List Char, digits ≠ [] → (∀ c ∈ digits, c.isDigit = true) →
    ∀ unit ∈ ["Gi", "Mi"], r.parseQuantity (String.ofList digits ++ unit) ≠ none

variable {χ : Type}

/-- Every stored Session passes the CRD's validation. -/
def Admitted (σ : Cluster χ) : Prop := ∀ k s, σ.sessions.get k = some s → s.spec.schemaValid = true

/-- The API server, while others write what passes the validation. -/
def Admitting (child : ChildApi χ) : Setting Call Answer (Cluster χ) where
  answer := Answers child
  rely := fun σ σ' => Admitted σ → Admitted σ'
  rely_refl := fun _ => id
  rely_trans := fun h h' admitted => h' (h admitted)

section

variable {child : ChildApi χ} {r : SessionReconciler} {k : Key} {s sess : Session} {σ σ' : Cluster χ}

/-- The pattern of the CRD is within what the parser accepts. -/
theorem AcceptsSizes.parses (accepts : AcceptsSizes r) {size : String}
    (matched : sizePattern.accepts size.toList = true) : r.parseQuantity size ≠ none := by
  obtain ⟨digits, some, all, unit, known, rfl⟩ := sizePattern_accepts.1 matched
  exact accepts digits some all unit known

/-- With the defaults, nothing that is dereferenced or parsed is missing or malformed. -/
theorem AcceptsSizes.whole (accepts : AcceptsSizes r) (valid : s.spec.schemaValid = true)
    (defaults : sess.spec = defaultSpec s.spec) : Whole r sess := by
  simp only [SessionSpec.schemaValid, Bool.and_eq_true, Option.all_eq_true] at valid
  obtain ⟨⟨-, home⟩, scratch⟩ := valid
  refine ⟨by rw [defaults]; exact Option.some_ne_none _, fun pvc has => ?_⟩
  have pvcValid : pvc.schemaValid = true := by
    rw [defaults] at has
    exact has.elim (home pvc) (scratch pvc)
  rw [PVCSpec.schemaValid, Bool.and_eq_true] at pvcValid
  exact accepts.parses pvcValid.2

theorem Whole.reconcileChildren_wp (whole : Whole r sess) : (reconcileChildren r sess).wp (Admitting child)
    (fun _ _ => True) (fun o _ => ∀ m, o ≠ .panicked m) σ := by
  have phase : ChildPhase (Admitting child) (fun _ _ => True) r sess (fun _ _ _ => True) (fun _ => True)
      (fun o _ => ∀ m, o ≠ .panicked m) :=
    { rely := fun _ _ _ _ _ _ => trivial
      relyFailed := fun _ _ _ _ => trivial
      relyDone := fun _ _ _ h _ => h
      guarantee := fun _ _ _ _ _ => trivial
      guaranteeFailed := fun _ _ _ => trivial
      applied := fun _ _ _ _ _ _ _ _ => trivial
      rejected := fun _ _ _ _ _ _ _ _ _ => trivial
      deployment := fun _ _ _ _ _ _ => trivial
      noDeployment := fun _ _ _ _ _ _ _ => trivial
      service := fun _ _ svc _ _ _ ans => ⟨by rw [(answers_getService ans).2 svc rfl], trivial⟩
      noService := fun _ _ _ _ _ _ _ => trivial
      panicked := fun _ _ _ _ _ broken => absurd whole broken
      reported := fun _ _ _ _ _ _ _ _ => nofun
      finished := fun _ _ _ _ _ _ => nofun }
  exact wp_reconcileChildren phase trivial

theorem AcceptsSizes.reconcile_wp (accepts : AcceptsSizes r) (admitted : Admitted σ) : (Reconcile r k).wp
    (Admitting child) (fun _ _ => True) (fun o _ => ∀ m, o ≠ .panicked m) σ := by
  have read : ∀ {σ₁ σ₂ cur}, (Admitting child).rely σ σ₁ → (Admitting child).answer σ₁ (.get k) (.ok cur) σ₂ →
      cur.spec.schemaValid = true := fun rely ans => rely admitted k _ (answers_get_ok ans).2
  refine wp_reconcile (fun _ _ => trivial) ?_ ?_ ?_ ?_
  · intro _ _ _ e _ _ _
    split <;> nofun
  · intro _ _ cur _ _ _ _ _
    refine ⟨trivial, fun a _ _ => ?_⟩
    cases a <;> exact fun _ _ => nofun
  · intro _ _ cur rely ans _ _
    exact (accepts.whole (read rely ans) rfl).reconcileChildren_wp
  · intro _ _ _ cur rely ans _ _ _
    refine ⟨trivial, fun _ _ _ _ _ => nofun, fun sess σ₄ ans' => ?_⟩
    -- the Update answers with what was sent, so the defaults are still there
    obtain ⟨now, -, -, rfl⟩ := answers_update_ok ans'
    obtain ⟨finalizers, eq⟩ := addFinalizer_eq (applyDefaults cur)
    exact (accepts.whole (read rely ans) (by rw [stamp_spec, eq]; rfl)).reconcileChildren_wp

/-- **Main result.** Where the stored Sessions pass the CRD's validation, no Reconcile panics,
whatever its calls are answered. -/
theorem reconcile_no_panic {left : Api (Except String Outcome)} (accepts : AcceptsSizes r) (admitted : Admitted σ)
    (run : Exec (Admitting child) (Checked.Reconcile r k).run σ left σ') (m : String) : left ≠ .ret (.error m) := by
  have safe : (Checked.Reconcile r k).run.wp (Admitting child) (fun _ _ => True)
      (fun o _ => ∀ m, o ≠ .error m) σ := by
    rw [agrees_Reconcile]
    refine Prog.wp_bind (Prog.wp_mono (accepts.reconcile_wp admitted) fun o _ ok => ?_)
    cases o with
    | panicked m => exact absurd rfl (ok m)
    | _ => exact fun _ _ => nofun
  rintro rfl
  exact Prog.wp_result run safe m rfl

end

theorem alice_admitted : Admitted (Cluster.blank.commit (alice "" "") : Cluster Manifest) := by
  intro k s held
  rcases commit_cases held with old | ⟨-, rfl⟩
  · cases old
  · decide +kernel

/-- The README's example names no Secret for its OIDC client, and is reconciled all the same. -/
theorem alice_no_panic : ((Checked.Reconcile .default ⟨"default", "alice"⟩).run.run (answer replaceApi)
    (Cluster.blank.commit (alice "" ""))).1 ≠ .error "nil pointer dereference" := by
  have accepts : AcceptsSizes .default := fun _ _ _ _ _ => Option.some_ne_none _
  intro panicked
  exact reconcile_no_panic accepts alice_admitted (Exec.of_run (answers_answer replaceApi) _ _)
    "nil pointer dereference" (congrArg Prog.ret panicked)

end Codespace.Controller
