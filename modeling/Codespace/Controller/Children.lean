import Codespace.Api.Manifest

/-!
# What a Session asks for

The pure half of `internal/controller`: the defaults (`applyDefaults`), the derived name,
labels and port, and the apply configuration each `reconcile...` function builds before
it calls the API server.
-/

namespace Codespace
set_option autoImplicit false

/-- The operator's configuration, and `resource.ParseQuantity` in the form in which a
quantity is marshalled. -/
structure SessionReconciler where
  namePrefix : String
  ssaFieldOwner : String
  parseQuantity : String → Option String

/-- The configuration without environment variables set; every size is taken as it stands. -/
def SessionReconciler.default : SessionReconciler := ⟨"cs-", "codespace-operator", some⟩

namespace Controller

def sessionFinalizer : String := "codespace.dev/session-finalizer"

/-! ## Defaults -/

/-- The image, and with it the command, for an IDE that has a default. -/
def defaultImage (p : ProfileSpec) : ProfileSpec :=
  if p.ide = "jupyterlab" then
    { p with
      image := "jupyter/minimal-notebook:latest"
      cmd := if p.cmd.length = 0 then ["start-notebook.sh", "--NotebookApp.token="] else p.cmd }
  else if p.ide = "vscode" then
    { p with
      image := "codercom/code-server:latest"
      cmd := if p.cmd.length = 0 then ["--bind-addr", "0.0.0.0:8080", "--auth", "none"] else p.cmd }
  else p

def defaultProfile (p : ProfileSpec) : ProfileSpec :=
  let p := if p.ide = "" then { p with ide := "jupyterlab" } else p
  if p.image = "" then defaultImage p else p

def defaultSpec (spec : SessionSpec) : SessionSpec :=
  { spec with
    profile := defaultProfile spec.profile
    replicas := some (spec.replicas.getD 1) }

def applyDefaults (sess : Session) : Session := { sess with spec := defaultSpec sess.spec }

@[simp] theorem applyDefaults_metadata (sess : Session) :
    (applyDefaults sess).metadata = sess.metadata := rfl

@[simp] theorem applyDefaults_status (sess : Session) :
    (applyDefaults sess).status = sess.status := rfl

@[simp] theorem applyDefaults_spec (sess : Session) :
    (applyDefaults sess).spec = defaultSpec sess.spec := rfl

@[simp] theorem applyDefaults_key (sess : Session) : (applyDefaults sess).key = sess.key := rfl

@[simp] theorem applyDefaults_deleting (sess : Session) :
    (applyDefaults sess).deleting = sess.deleting := rfl

@[simp] theorem defaultSpec_auth (spec : SessionSpec) : (defaultSpec spec).auth = spec.auth := rfl

@[simp] theorem defaultSpec_networking (spec : SessionSpec) :
    (defaultSpec spec).networking = spec.networking := rfl

theorem defaultImage_ide (p : ProfileSpec) : (defaultImage p).ide = p.ide := by
  unfold defaultImage
  split
  · rfl
  · split <;> rfl

theorem defaultProfile_ide_ne (p : ProfileSpec) : (defaultProfile p).ide ≠ "" := by
  unfold defaultProfile
  by_cases empty : p.ide = ""
  · simp only [empty, if_true]
    split <;> simp [defaultImage_ide]
  · simp only [empty, if_false]
    split <;> simp [defaultImage_ide, empty]

/-- A default image is either set for good or has no rule. -/
theorem defaultImage_idem (p : ProfileSpec) (left : (defaultImage p).image = "") :
    defaultImage (defaultImage p) = defaultImage p := by
  unfold defaultImage at left ⊢
  split at left
  · simp at left
  · split at left
    · simp at left
    · simp [*]

theorem defaultProfile_idem (p : ProfileSpec) :
    defaultProfile (defaultProfile p) = defaultProfile p := by
  have named := defaultProfile_ide_ne p
  generalize same : defaultProfile p = q at named
  unfold defaultProfile
  simp only [named, if_false]
  split
  · rename_i noImage
    -- the image is still missing, so its IDE has no default image
    unfold defaultProfile at same
    generalize (if p.ide = "" then { p with ide := "jupyterlab" } else p) = p' at same
    simp only at same
    split at same
    · subst same
      exact defaultImage_idem p' noImage
    · rename_i image
      subst same
      exact absurd noImage image
  · rfl

/-- **Defaulting twice is defaulting once**, so it does not matter whether the defaults
were persisted. -/
theorem defaultSpec_idem (spec : SessionSpec) : defaultSpec (defaultSpec spec) = defaultSpec spec := by
  simp [defaultSpec, defaultProfile_idem]

/-! ## Names, labels, port, volumes -/

/-- `sess.Spec.Networking != nil && sess.Spec.Networking.Host != ""`. -/
def hasHost (spec : SessionSpec) : Bool :=
  match spec.networking with
  | none => false
  | some net => net.host ≠ ""

def desiredNamesLabels (r : SessionReconciler) (sess : Session) : String × GoMap String String :=
  let name := r.namePrefix ++ sess.metadata.name
  (name, (∅ : GoMap String String).insert "app" name)

def determinePort (sess : Session) : Nat :=
  if sess.spec.profile.ide = "vscode" then 8080 else 8888

def buildVolumesAndMounts (sess : Session) (name : String) : List Volume × List VolumeMount :=
  let home : List Volume × List VolumeMount := match sess.spec.home with
    | some pvc => ([⟨"home", name ++ "-home"⟩], [⟨"home", pvc.mountPath⟩])
    | none => ([], [])
  let scratch : List Volume × List VolumeMount := match sess.spec.scratch with
    | some pvc => ([⟨"scratch", name ++ "-scratch"⟩], [⟨"scratch", pvc.mountPath⟩])
    | none => ([], [])
  (home.1 ++ scratch.1, home.2 ++ scratch.2)

/-! ## Apply configurations -/

def ownerReference (sess : Session) : OwnerReference where
  apiVersion := "codespace.codespace.dev/v1"
  kind := "Session"
  name := sess.metadata.name
  uid := sess.metadata.uid
  controller := true
  blockOwnerDeletion := true

def serviceAccountConfig (sess : Session) (name : String) : ServiceAccountApply where
  name := name
  ns := sess.metadata.ns
  owner := ownerReference sess

/-- The claim for one volume; `storage` is the parsed size. -/
def pvcConfig (sess : Session) (name suffix : String) (pvc : PVCSpec) (storage : String) :
    PersistentVolumeClaimApply where
  name := name ++ "-" ++ suffix
  ns := sess.metadata.ns
  accessModes := ["ReadWriteOnce"]
  storage := storage
  storageClassName := if pvc.storageClassName ≠ "" then some pvc.storageClassName else none
  owner := ownerReference sess

/-- The container of the IDE itself. -/
def mainContainer (sess : Session) (name : String) : Container where
  name := "ide"
  image := sess.spec.profile.image
  args := sess.spec.profile.cmd
  ports := [determinePort sess]
  volumeMounts := (buildVolumesAndMounts sess name).2
  env := []

def sidecarEnv : Option OIDCRef → List EnvVar
  | none => []
  | some oidc =>
    [⟨"OIDC_ISSUER_URL", .value oidc.issuerURL⟩,
     ⟨"OIDC_CLIENT_ID", .secretKeyRef oidc.clientIDSecret "clientID"⟩,
     ⟨"OIDC_CLIENT_SECRET", .secretKeyRef oidc.clientSecretRef "clientSecret"⟩]

/-- The oauth2-proxy container in front of the IDE. -/
def sidecar (sess : Session) : Container where
  name := "oauth2-proxy"
  image := "quay.io/oauth2-proxy/oauth2-proxy:v7.6.0"
  args := [
    "--provider=oidc",
    "--oidc-issuer-url=$(OIDC_ISSUER_URL)",
    "--client-id=$(OIDC_CLIENT_ID)",
    "--client-secret=$(OIDC_CLIENT_SECRET)",
    "--upstream=http://127.0.0.1:" ++ toString (determinePort sess),
    "--http-address=0.0.0.0:4180",
    "--reverse-proxy=true",
    "--email-domain=*"]
  ports := [4180]
  volumeMounts := []
  env := sidecarEnv sess.spec.auth.oidc

def containers (sess : Session) (name : String) : List Container :=
  if sess.spec.auth.mode = "oauth2proxy" ∧ hasHost sess.spec = true then
    [mainContainer sess name, sidecar sess]
  else [mainContainer sess name]

def deploymentConfig (sess : Session) (name : String) (labels : GoMap String String)
    (replicas : Int32) : DeploymentApply where
  name := name
  ns := sess.metadata.ns
  labels := labels
  matchLabels := labels
  replicas := replicas
  template :=
    { labels := labels
      serviceAccountName := name
      volumes := (buildVolumesAndMounts sess name).1
      containers := containers sess name }
  owner := ownerReference sess

def serviceTarget (sess : Session) : Nat :=
  if sess.spec.auth.mode ≠ "oauth2proxy" ∨ hasHost sess.spec = false then
    if sess.spec.profile.ide = "vscode" then 8080 else 8888
  else 4180

def serviceConfig (sess : Session) (name : String) (labels : GoMap String String) : ServiceApply where
  name := name
  ns := sess.metadata.ns
  selector := labels
  ports := [⟨"http", 80, serviceTarget sess⟩]
  owner := ownerReference sess

def ingressConfig (sess : Session) (net : NetSpec) (name svcName : String) : IngressApply where
  name := name
  ns := sess.metadata.ns
  annotations := net.annotations
  rules := [⟨net.host, [⟨"/", "Prefix", ⟨svcName, 80⟩⟩]⟩]
  tls := if net.tlsSecretName ≠ "" then [⟨[net.host], net.tlsSecretName⟩] else []
  owner := ownerReference sess

end Controller
end Codespace
