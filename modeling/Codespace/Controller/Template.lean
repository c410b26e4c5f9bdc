import Codespace.Api.Schema
import Codespace.Controller.Fit

/-!
# Whether the pod template is closed

Arguments refer to the environment, mounts to volumes and volumes to claims. Each is built
by a function of its own. `Closed` says that every reference of a Deployment has its
target, within one Reconcile; `Closes` is when that is so, as a property of the spec.
-/

namespace Codespace.Controller
set_option autoImplicit false
open Versioned Interact

variable {χ : Type}

/-- The variables an argument refers to as `$(NAME)`. The kubelet reads `$$` as a plain dollar
and leaves a reference without its closing bracket alone. `open?` is the name being read. -/
def references : (open? : Option (List Char)) → List Char → List String
  | _, [] => []
  | none, '$' :: '(' :: rest => references (some []) rest
  | none, '$' :: _ :: rest => references none rest
  | none, _ :: rest => references none rest
  | some name, ')' :: rest => String.ofList name :: references none rest
  | some name, c :: rest => references (some (name ++ [c])) rest

def uses (args : List String) : List String := args.flatMap fun arg => references none arg.toList

example : uses ["--a=$(A)", "$$(B)$(C)$(D"] = ["A", "C"] := by decide

/-- The variable gets a value: its own, or that of a Secret which is named. -/
def EnvSource.Filled : EnvSource → Prop
  | .value _ => True
  | .secretKeyRef name _ => name ≠ ""

/-- Every reference in a pod template has its target, where the claims `pvcs` are there. -/
structure ClosedTemplate (t : PodTemplate) (ns : String) (before : List Manifest) : Prop where
  defined : ∀ c ∈ t.containers, ∀ name ∈ uses c.args, ∃ e ∈ c.env, e.name = name ∧ EnvSource.Filled e.source
  mounted : ∀ vol ∈ t.volumes, ((t.containers.flatMap (·.volumeMounts)).filter (·.name = vol.name)).length = 1
  volumes : ∀ c ∈ t.containers, ∀ m ∈ c.volumeMounts, ∃ vol ∈ t.volumes, vol.name = m.name
  paths : ∀ c ∈ t.containers, c.name = "ide" → (c.volumeMounts.map (·.mountPath)).Nodup
  claims : ∀ vol ∈ t.volumes, ∃ pvc, .persistentVolumeClaim pvc ∈ before ∧ pvc.ns = ns ∧ pvc.name = vol.claimName

/-- The Deployment is among what was applied, and its template is closed with what was
applied before it. -/
def Closed (dep : DeploymentApply) (ms : List Manifest) : Prop :=
  ∃ before after, ms = before ++ .deployment dep :: after ∧ ClosedTemplate dep.template dep.ns before

/-- When the template of a spec is closed. -/
structure Closes (spec : SessionSpec) : Prop where
  oidc : AsksProxy spec → ∃ oidc, spec.auth.oidc = some oidc ∧ oidc.clientIDSecret ≠ "" ∧ oidc.clientSecretRef ≠ ""
  paths : ∀ home scratch, spec.home = some home → spec.scratch = some scratch → home.mountPath ≠ scratch.mountPath
  cmd : uses spec.profile.cmd = []

/-! ## The configuration -/

section

variable {sess : Session} {name : String}

theorem uses_sidecar (sess : Session) :
    uses (sidecar sess).args = ["OIDC_ISSUER_URL", "OIDC_CLIENT_ID", "OIDC_CLIENT_SECRET"] := by
  rcases determinePort_cases sess with port | port <;> simp only [sidecar, port] <;> decide +kernel

/-- The sidecar's three variables are defined by an OIDC block that names both Secrets. -/
theorem sidecar_defined : (∀ n ∈ uses (sidecar sess).args, ∃ e ∈ (sidecar sess).env, e.name = n ∧
    EnvSource.Filled e.source) ↔ ∃ oidc, sess.spec.auth.oidc = some oidc ∧ oidc.clientIDSecret ≠ "" ∧
      oidc.clientSecretRef ≠ "" := by
  rw [uses_sidecar]
  cases has : sess.spec.auth.oidc with
  | none =>
    simp only [sidecar, sidecarEnv, has, reduceCtorEq, false_and, exists_false, iff_false]
    exact fun all => absurd (all "OIDC_CLIENT_ID" (by simp)) (by simp)
  | some oidc => simp [sidecar, sidecarEnv, has, EnvSource.Filled]

theorem mainContainer_defined : (∀ n ∈ uses (mainContainer sess name).args, ∃ e ∈ (mainContainer sess name).env,
    e.name = n ∧ EnvSource.Filled e.source) ↔ uses sess.spec.profile.cmd = [] := by
  simp [mainContainer, List.eq_nil_iff_forall_not_mem]

theorem containers_defined : (∀ c ∈ containers sess name, ∀ n ∈ uses c.args, ∃ e ∈ c.env, e.name = n ∧
    EnvSource.Filled e.source) ↔ uses sess.spec.profile.cmd = [] ∧ (AsksProxy sess.spec → ∃ oidc,
      sess.spec.auth.oidc = some oidc ∧ oidc.clientIDSecret ≠ "" ∧ oidc.clientSecretRef ≠ "") := by
  by_cases asks : AsksProxy sess.spec
  · rw [containers_of_asks asks, List.forall_mem_cons, List.forall_mem_singleton, mainContainer_defined,
      sidecar_defined]
    simp [asks]
  · rw [containers_of_not_asks asks, List.forall_mem_singleton, mainContainer_defined]
    simp [asks]

theorem mainContainer_mem : mainContainer sess name ∈ containers sess name := by
  by_cases asks : AsksProxy sess.spec
  · simp [containers_of_asks asks]
  · simp [containers_of_not_asks asks]

theorem container_ide {c : Container} (mem : c ∈ containers sess name) (ide : c.name = "ide") :
    c = mainContainer sess name := by
  by_cases asks : AsksProxy sess.spec
  · rw [containers_of_asks asks, List.mem_cons, List.mem_singleton] at mem
    rcases mem with rfl | rfl
    · rfl
    · exact absurd ide (by simp [sidecar])
  · rw [containers_of_not_asks asks] at mem
    exact List.mem_singleton.1 mem

/-- The mounts of all containers are those of the IDE. -/
theorem containers_mounts :
    (containers sess name).flatMap (·.volumeMounts) = (buildVolumesAndMounts sess name).2 := by
  by_cases asks : AsksProxy sess.spec
  · simp [containers_of_asks asks, mainContainer, sidecar]
  · simp [containers_of_not_asks asks, mainContainer]

theorem mem_containers_mounts {c : Container} {m : VolumeMount} (mem : c ∈ containers sess name)
    (mount : m ∈ c.volumeMounts) : m ∈ (buildVolumesAndMounts sess name).2 := by
  rw [← containers_mounts]
  exact List.mem_flatMap.2 ⟨c, mem, mount⟩

theorem mounted_once {vol : Volume} (mem : vol ∈ (buildVolumesAndMounts sess name).1) :
    ((buildVolumesAndMounts sess name).2.filter (·.name = vol.name)).length = 1 := by
  cases home : sess.spec.home <;> cases scratch : sess.spec.scratch <;>
    simp only [buildVolumesAndMounts, home, scratch, List.append_nil, List.nil_append,
      List.cons_append, List.mem_cons, List.not_mem_nil, or_false] at mem ⊢
  · subst mem
    rfl
  · subst mem
    rfl
  · rcases mem with rfl | rfl <;> rfl

/-- Volumes and mounts go by the same names. -/
theorem volume_names (sess : Session) (name : String) :
    (buildVolumesAndMounts sess name).1.map (·.name) = (buildVolumesAndMounts sess name).2.map (·.name) := by
  cases home : sess.spec.home <;> cases scratch : sess.spec.scratch <;> simp [buildVolumesAndMounts, home, scratch]

theorem mount_volume {m : VolumeMount} (mem : m ∈ (buildVolumesAndMounts sess name).2) :
    ∃ vol ∈ (buildVolumesAndMounts sess name).1, vol.name = m.name := by
  have named : m.name ∈ (buildVolumesAndMounts sess name).1.map (·.name) := by
    rw [volume_names]
    exact List.mem_map.2 ⟨m, mem, rfl⟩
  exact List.mem_map.1 named

theorem mount_paths : ((buildVolumesAndMounts sess name).2.map (·.mountPath)).Nodup ↔ ∀ home scratch,
    sess.spec.home = some home → sess.spec.scratch = some scratch → home.mountPath ≠ scratch.mountPath := by
  cases home : sess.spec.home <;> cases scratch : sess.spec.scratch <;>
    simp [buildVolumesAndMounts, home, scratch]

theorem mem_volumes {vol : Volume} : vol ∈ (buildVolumesAndMounts sess name).1 ↔
    (∃ pvc, sess.spec.home = some pvc ∧ vol = ⟨"home", name ++ "-home"⟩) ∨
      ∃ pvc, sess.spec.scratch = some pvc ∧ vol = ⟨"scratch", name ++ "-scratch"⟩ := by
  cases home : sess.spec.home <;> cases scratch : sess.spec.scratch <;>
    simp [buildVolumesAndMounts, home, scratch]

/-- What is desired before the Deployment. -/
def beforeDeployment (r : SessionReconciler) (sess : Session) : List Manifest :=
  [.serviceAccount (serviceAccountConfig sess (childName r sess))] ++
    pvcManifest r sess "home" sess.spec.home ++ pvcManifest r sess "scratch" sess.spec.scratch

/-- The claim of a volume is desired before the Deployment, if its size can be parsed. -/
theorem volume_claim {r : SessionReconciler} {vol : Volume} (sizes : Sizes r sess)
    (mem : vol ∈ (buildVolumesAndMounts sess (childName r sess)).1) : ∃ pvc,
    .persistentVolumeClaim pvc ∈ beforeDeployment r sess ∧ pvc.ns = sess.metadata.ns ∧
      pvc.name = vol.claimName := by
  rw [beforeDeployment]
  rcases mem_volumes.1 mem with ⟨pvc, has, rfl⟩ | ⟨pvc, has, rfl⟩
  · obtain ⟨storage, parsed⟩ := Option.ne_none_iff_exists'.1 (sizes pvc (.inl has))
    refine ⟨pvcConfig sess (childName r sess) "home" pvc storage, ?_, rfl, String.append_assoc⟩
    exact List.mem_append_left _ (List.mem_append_right _ (mem_pvcManifest.2 ⟨pvc, storage, has, parsed, rfl⟩))
  · obtain ⟨storage, parsed⟩ := Option.ne_none_iff_exists'.1 (sizes pvc (.inr has))
    refine ⟨pvcConfig sess (childName r sess) "scratch" pvc storage, ?_, rfl, String.append_assoc⟩
    exact List.mem_append_right _ (mem_pvcManifest.2 ⟨pvc, storage, has, parsed, rfl⟩)

/-- The defaults refer to no variable. -/
theorem uses_defaultProfile (p : ProfileSpec) : uses (defaultProfile p).cmd = uses p.cmd := by
  have image : ∀ q : ProfileSpec, uses (defaultImage q).cmd = uses q.cmd := by
    intro q
    unfold defaultImage
    split
    · by_cases none : q.cmd.length = 0
      · rw [List.eq_nil_of_length_eq_zero none]
        exact (by decide : uses ["start-notebook.sh", "--NotebookApp.token="] = uses [])
      · simp only [none, if_false]
    · split
      · by_cases none : q.cmd.length = 0
        · rw [List.eq_nil_of_length_eq_zero none]
          exact (by decide : uses ["--bind-addr", "0.0.0.0:8080", "--auth", "none"] = uses [])
        · simp only [none, if_false]
      · rfl
  unfold defaultProfile
  by_cases ide : p.ide = "" <;> simp only [ide, if_true, if_false] <;> split <;> first | exact image _ | rfl

/-- What the spec contributes to its template. -/
theorem closes_defaults {spec : SessionSpec} : Closes (defaultSpec spec) ↔ Closes spec := by
  have cmd := uses_defaultProfile spec.profile
  exact ⟨fun h => ⟨h.oidc, h.paths, cmd.symm.trans h.cmd⟩, fun h => ⟨h.oidc, h.paths, cmd.trans h.cmd⟩⟩

/-- A closed template closes, whatever was applied before it. -/
theorem closes_of_template {labels : GoMap String String} {replicas : Int32} {before : List Manifest}
    (h : ClosedTemplate (deploymentConfig sess name labels replicas).template sess.metadata.ns before) :
    Closes sess.spec := by
  obtain ⟨none, oidc⟩ := containers_defined.1 h.defined
  exact ⟨oidc, mount_paths.1 (h.paths (mainContainer sess name) mainContainer_mem rfl), none⟩

/-- The template of a Session whose claims come before it. -/
theorem template_of_closes {r : SessionReconciler} {labels : GoMap String String} {replicas : Int32}
    (sizes : Sizes r sess) (h : Closes sess.spec) :
    ClosedTemplate (deploymentConfig sess (childName r sess) labels replicas).template sess.metadata.ns
      (beforeDeployment r sess) := by
  refine ⟨containers_defined.2 ⟨h.cmd, h.oidc⟩, fun vol mem => ?_, fun c mem m mount => ?_, fun c mem ide => ?_,
    fun vol mem => volume_claim sizes mem⟩
  · rw [deploymentConfig, containers_mounts]
    exact mounted_once mem
  · exact mount_volume (mem_containers_mounts mem mount)
  · rw [container_ide mem ide]
    exact mount_paths.2 h.paths

end

/-! ## One Reconcile -/

section

variable {child : ChildApi χ} {r : SessionReconciler} {k : Key} {s : Session} {v : Logged χ}

theorem split_at_mem {first rest ms : List Manifest} {m : Manifest} (part : ms <+: first ++ m :: rest)
    (mem : m ∈ ms) (later : m ∉ first) : ∃ after, ms = first ++ m :: after := by
  obtain ⟨t, rfl⟩ := before_of_mem part mem later
  rw [List.prefix_append_right_inj] at part
  cases t with
  | nil => exact absurd mem (by simpa using later)
  | cons a t =>
    obtain ⟨rfl, -⟩ := List.cons_prefix_cons.1 part
    exact ⟨t, rfl⟩

/-- **Main result.** The pod template that a Reconcile applies is closed exactly for a spec
that closes. -/
theorem closed_iff {σ : Cluster χ} {left : Api Outcome} {dep : DeploymentApply}
    (run : Exec (Crowded child).logged (Reconcile r k) (σ, []) left v) (read : s ∈ readIn v.2)
    (mem : .deployment dep ∈ appliedIn v.2) : Closed dep (appliedIn v.2) ↔ Closes s.spec := by
  obtain none | ⟨s', sess, once, carries, part⟩ := reconcile_applies run
  · rw [none] at mem
    cases mem
  obtain ⟨s'', once', sizes⟩ := reconcile_sizes run dep mem
  rw [once, List.singleton_inj] at once'
  rw [once, List.mem_singleton] at read
  subst once' read
  have here : Sizes r sess := by
    unfold Sizes
    rw [carries.spec]
    exact sizes
  rw [← closes_defaults, ← carries.spec]
  obtain ⟨replicas, has, rfl⟩ := mem_desired_deployment (part.subset mem)
  constructor
  · rintro ⟨before, after, -, closed⟩
    exact closes_of_template closed
  · intro closes
    have desires : desired r sess = beforeDeployment r sess ++ .deployment (deploymentConfig sess
        (childName r sess) (desiredNamesLabels r sess).2 replicas) :: serviceManifest r sess ::
          ingressManifest r sess := by
      simp [desired, beforeDeployment, workloadManifests, has]
    rw [desires] at part
    obtain ⟨after, eq⟩ := split_at_mem part mem (by simp [beforeDeployment, mem_pvcManifest])
    exact ⟨_, after, eq, template_of_closes here closes⟩

end

/-- The example Session of the README, with these Secrets for the OIDC client. -/
def aliceSpec (clientIDSecret clientSecretRef : String) : SessionSpec where
  profile := ⟨"jupyterlab", "jupyter/base-notebook:latest",
    ["start-notebook.sh", "--NotebookApp.token=", "--NotebookApp.password="]⟩
  auth := ⟨"oauth2proxy", some ⟨"https://issuer.example.com/", clientIDSecret, clientSecretRef⟩⟩
  home := some ⟨"20Gi", "fast-ssd", "/home/jovyan"⟩
  scratch := some ⟨"100Gi", "", "/scratch"⟩
  networking := some ⟨"alice.lab.example.com", "alice-tls", ∅⟩
  replicas := none

def alice (clientIDSecret clientSecretRef : String) : Session :=
  stamp 1 (.plain ⟨"default", "alice"⟩ 1 (aliceSpec clientIDSecret clientSecretRef))

/-- The log of its first Reconcile. -/
def aliceRun (clientIDSecret clientSecretRef : String) : Logged Manifest :=
  (reconcileFrom ⟨"default", "alice"⟩ (Cluster.blank.commit (alice clientIDSecret clientSecretRef), [])).2

theorem aliceRun_runs (clientIDSecret clientSecretRef : String) : ∃ left,
    Exec (Crowded replaceApi).logged (Reconcile .default ⟨"default", "alice"⟩)
      (Cluster.blank.commit (alice clientIDSecret clientSecretRef), []) left
      (aliceRun clientIDSecret clientSecretRef) :=
  ⟨_, reconcileFrom_runs ⟨"default", "alice"⟩ _⟩

/-- The Deployment it applies. -/
def aliceDeployment (clientIDSecret clientSecretRef : String) : DeploymentApply :=
  deploymentConfig (applyDefaults (alice clientIDSecret clientSecretRef)) "cs-alice"
    ((∅ : GoMap String String).insert "app" "cs-alice") 1

theorem aliceRun_deployment (clientIDSecret clientSecretRef : String) :
    .deployment (aliceDeployment clientIDSecret clientSecretRef) ∈
      appliedIn (aliceRun clientIDSecret clientSecretRef).2 :=
  List.mem_of_getElem? (i := 3) rfl

/-- With both Secrets named, its template is closed. -/
theorem alice_closed : Closed (aliceDeployment "oidc-id" "oidc-secret") (appliedIn (aliceRun "oidc-id" "oidc-secret").2) := by
  obtain ⟨left, run⟩ := aliceRun_runs "oidc-id" "oidc-secret"
  refine (closed_iff run (s := alice "oidc-id" "oidc-secret") (List.mem_singleton_self _)
    (aliceRun_deployment _ _)).2 ⟨fun _ => ⟨_, rfl, by decide, by decide⟩, ?_, by decide⟩
  rintro home scratch ⟨⟩ ⟨⟩
  decide

/-- The property, of every Session that the schema admits. -/
def TemplatesClosed (child : ChildApi χ) (r : SessionReconciler) : Prop :=
  ∀ (k : Key) (σ : Cluster χ) left v s dep, Exec (Crowded child).logged (Reconcile r k) (σ, []) left v →
    s ∈ readIn v.2 → s.spec.schemaValid = true → .deployment dep ∈ appliedIn v.2 → Closed dep (appliedIn v.2)

/-- The README's example names no Secret. -/
theorem alice_not_closed : ¬ TemplatesClosed replaceApi .default := by
  intro claim
  obtain ⟨left, run⟩ := aliceRun_runs "" ""
  obtain ⟨before, after, -, closed⟩ := claim _ _ left _ (alice "" "") _ run (List.mem_singleton_self _)
    (by decide +kernel) (aliceRun_deployment "" "")
  have closes : Closes (applyDefaults (alice "" "")).spec := closes_of_template closed
  obtain ⟨oidc, has, named, -⟩ := closes.oidc ⟨rfl, _, rfl, by decide⟩
  cases has
  exact named rfl

end Codespace.Controller
