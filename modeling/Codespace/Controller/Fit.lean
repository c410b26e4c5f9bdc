import Codespace.Controller.Applied
import Codespace.Controller.Routing

/-!
# How the children of a Session fit together

The Deployment, the Service and the Ingress are built by three functions. Each decides for
itself whether there is a sidecar and which port the IDE has, one of them by the negated
condition. `Fits` is what a Deployment and a Service have to agree on, `Exposes` what an
Ingress needs of a Service; both hold of what any one Reconcile applies.
-/

namespace Codespace.Controller
set_option autoImplicit false
open Versioned Interact

variable {χ : Type}

/-- The values an argument list gives a flag. -/
def flagValues (flag : String) (args : List String) : List String :=
  args.filterMap fun arg => (flag.toList.isPrefixOf? arg.toList).map String.ofList

/-- The containers of a template that listen on a port. -/
def listeners (t : PodTemplate) (port : Nat) : List Container :=
  t.containers.filter fun c => port ∈ c.ports

/-- There is an oauth2-proxy container. -/
def Proxied (t : PodTemplate) : Prop := ∃ c ∈ t.containers, c.name = "oauth2-proxy"

/-- The proxy takes requests on `port` and sends them to the one port of the IDE. -/
structure Fronts (t : PodTemplate) (proxy : Container) (port : Nat) : Prop where
  name : proxy.name = "oauth2-proxy"
  address : flagValues "--http-address=" proxy.args = ["0.0.0.0:" ++ toString port]
  upstream : ∃ ide idePort, t.containers.filter (·.name = "ide") = [ide] ∧ ide.ports = [idePort] ∧
    flagValues "--upstream=" proxy.args = ["http://127.0.0.1:" ++ toString idePort]

/-- The Service leads to one container of the Deployment's pods: the proxy if there is one,
else the IDE. -/
structure Fits (dep : DeploymentApply) (svc : ServiceApply) : Prop where
  together : svc.ns = dep.ns
  selector : svc.selector = dep.matchLabels
  labels : dep.template.labels = dep.matchLabels
  target : ∃ port c, svc.ports = [port] ∧ port.port = 80 ∧ listeners dep.template port.targetPort = [c] ∧
    (Proxied dep.template → Fronts dep.template c port.targetPort) ∧
    (¬ Proxied dep.template → c.name = "ide")

/-- The Ingress has one backend, which is port 80 of the Service. -/
structure Exposes (ing : IngressApply) (svc : ServiceApply) : Prop where
  together : svc.ns = ing.ns
  backend : ing.rules.flatMap (fun rule => rule.paths.map (·.backend)) = [⟨svc.name, 80⟩]
  port : ∃ port ∈ svc.ports, port.port = 80

/-- The spec asks for a proxy and has a host it can be reached at. -/
def AsksProxy (spec : SessionSpec) : Prop :=
  spec.auth.mode = "oauth2proxy" ∧ ∃ net, spec.networking = some net ∧ net.host ≠ ""

theorem hasHost_iff {spec : SessionSpec} :
    hasHost spec = true ↔ ∃ net, spec.networking = some net ∧ net.host ≠ "" := by
  cases net : spec.networking with
  | none => simp [hasHost, net]
  | some n => simp [hasHost, net]

theorem asksProxy_iff {spec : SessionSpec} :
    AsksProxy spec ↔ spec.auth.mode = "oauth2proxy" ∧ hasHost spec = true := by
  rw [AsksProxy, hasHost_iff]

/-! ## The configurations -/

section

variable {sess : Session} {name : String} {labels : GoMap String String} {replicas : Int32}

theorem containers_of_asks (asks : AsksProxy sess.spec) :
    containers sess name = [mainContainer sess name, sidecar sess] := if_pos (asksProxy_iff.1 asks)

theorem containers_of_not_asks (not : ¬ AsksProxy sess.spec) : containers sess name = [mainContainer sess name] :=
  if_neg (mt asksProxy_iff.2 not)

theorem serviceTarget_of_asks (asks : AsksProxy sess.spec) : serviceTarget sess = proxyPort := by
  obtain ⟨mode, host⟩ := asksProxy_iff.1 asks
  simp [serviceTarget, mode, host, proxyPort]

/-- The negated condition of `reconcileService` is the negation of the one that adds the
sidecar, and the port it falls back to is the one the IDE listens on. -/
theorem serviceTarget_of_not_asks (not : ¬ AsksProxy sess.spec) : serviceTarget sess = determinePort sess := by
  rw [asksProxy_iff, not_and_or, Bool.not_eq_true] at not
  exact if_pos not

theorem determinePort_cases (sess : Session) : determinePort sess = 8080 ∨ determinePort sess = 8888 := by
  unfold determinePort
  split
  · exact .inl rfl
  · exact .inr rfl

/-- The sidecar is there exactly for a spec that asks for it. -/
theorem proxied_iff : Proxied (deploymentConfig sess name labels replicas).template ↔ AsksProxy sess.spec := by
  by_cases asks : AsksProxy sess.spec
  · simp [Proxied, deploymentConfig, containers_of_asks asks, sidecar, asks]
  · simp [Proxied, deploymentConfig, containers_of_not_asks asks, mainContainer, asks]

theorem sidecar_fronts (asks : AsksProxy sess.spec) :
    Fronts (deploymentConfig sess name labels replicas).template (sidecar sess) proxyPort := by
  refine ⟨rfl, ?_, mainContainer sess name, determinePort sess, ?_, rfl, ?_⟩
  · rcases determinePort_cases sess with port | port <;> simp only [sidecar, port] <;> decide
  · simp [deploymentConfig, containers_of_asks asks, mainContainer, sidecar]
  · rcases determinePort_cases sess with port | port <;> simp only [sidecar, port] <;> decide

/-- The Deployment and the Service of one Session. -/
theorem configs_fit : Fits (deploymentConfig sess name labels replicas) (serviceConfig sess name labels) := by
  refine ⟨rfl, rfl, rfl, ⟨"http", 80, serviceTarget sess⟩, ?_⟩
  have ide : proxyPort ∉ (mainContainer sess name).ports := by
    rcases determinePort_cases sess with port | port <;> simp [mainContainer, port, proxyPort]
  have proxy : proxyPort ∈ (sidecar sess).ports := List.mem_singleton_self _
  by_cases asks : AsksProxy sess.spec
  · refine ⟨sidecar sess, rfl, rfl, ?_, fun _ => ?_, fun not => absurd (proxied_iff.2 asks) not⟩
    · simp only [listeners, deploymentConfig, containers_of_asks asks, serviceTarget_of_asks asks]
      simp [ide, proxy]
    · rw [serviceTarget_of_asks asks]
      exact sidecar_fronts asks
  · refine ⟨mainContainer sess name, rfl, rfl, ?_, fun proxied => absurd (proxied_iff.1 proxied) asks, fun _ => rfl⟩
    simp [listeners, deploymentConfig, containers_of_not_asks asks,
      serviceTarget_of_not_asks asks, mainContainer]

theorem ingressConfig_exposes (net : NetSpec) :
    Exposes (ingressConfig sess net name name) (serviceConfig sess name labels) :=
  ⟨rfl, rfl, _, List.mem_singleton_self _, rfl⟩

end

/-! ## One Reconcile -/

section

variable {child : ChildApi χ} {r : SessionReconciler} {k : Key} {s : Session} {v : Logged χ}

/-- The children of a Session, as far as they were applied, fit together. -/
structure FitTogether (s : Session) (ms : List Manifest) : Prop where
  routed : ∀ dep svc, .deployment dep ∈ ms → .service svc ∈ ms → Fits dep svc
  sidecar : ∀ dep, .deployment dep ∈ ms → (Proxied dep.template ↔ AsksProxy s.spec)
  exposed : ∀ ing, .ingress ing ∈ ms → ∃ svc, .service svc ∈ ms ∧ Exposes ing svc

theorem mem_desired_deployment {sess : Session} {dep : DeploymentApply} (mem : .deployment dep ∈ desired r sess) :
    ∃ replicas, sess.spec.replicas = some replicas ∧
      dep = deploymentConfig sess (childName r sess) (desiredNamesLabels r sess).2 replicas := by
  rw [mem_desired] at mem
  simpa [serviceManifest] using mem

theorem mem_desired_service {sess : Session} {svc : ServiceApply} (mem : .service svc ∈ desired r sess) :
    svc = serviceConfig sess (childName r sess) (desiredNamesLabels r sess).2 := by
  rw [mem_desired] at mem
  simpa [serviceManifest] using mem

theorem mem_desired_ingress {sess : Session} {ing : IngressApply} (mem : .ingress ing ∈ desired r sess) :
    ∃ net, sess.spec.networking = some net ∧ net.host ≠ "" ∧
      ing = ingressConfig sess net (childName r sess) (childName r sess) := by
  rw [mem_desired] at mem
  simpa [serviceManifest] using mem

/-- What comes after a list of manifests is applied after all of them. -/
theorem before_of_mem {first rest ms : List Manifest} {m : Manifest} (part : ms <+: first ++ rest)
    (mem : m ∈ ms) (later : m ∉ first) : first <+: ms :=
  (List.prefix_or_prefix_of_prefix (List.prefix_append _ _) part).resolve_right fun within =>
    later (within.subset mem)

/-- The Service is applied before the Ingress. -/
theorem service_before {sess : Session} {ms : List Manifest} {ing : IngressApply} (part : ms <+: desired r sess)
    (mem : .ingress ing ∈ ms) : serviceManifest r sess ∈ ms := by
  refine (before_of_mem part mem ?_).subset (by simp)
  simp [mem_pvcManifest, mem_workloadManifests, serviceManifest]

theorem applies_fitTogether (h : Applies r k v) (read : s ∈ readIn v.2) : FitTogether s (appliedIn v.2) := by
  rcases h with none | ⟨s', sess, once, carries, part⟩
  · rw [none]
    exact ⟨nofun, nofun, nofun⟩
  rw [once, List.mem_singleton] at read
  subst read
  refine ⟨fun dep svc mem mem' => ?_, fun dep mem => ?_, fun ing mem => ?_⟩
  · obtain ⟨replicas, -, rfl⟩ := mem_desired_deployment (part.subset mem)
    rw [mem_desired_service (part.subset mem')]
    exact configs_fit
  · obtain ⟨replicas, -, rfl⟩ := mem_desired_deployment (part.subset mem)
    rw [proxied_iff, carries.spec]
    exact Iff.rfl
  · obtain ⟨net, -, -, rfl⟩ := mem_desired_ingress (part.subset mem)
    exact ⟨_, service_before part mem, ingressConfig_exposes net⟩

/-- **Main result.** At every point of a Reconcile, what it has applied fits together; when
it is done, a Session that asks for a proxy has its Ingress. -/
theorem children_fit {σ : Cluster χ} {left : Api Outcome}
    (run : Exec (Crowded child).logged (Reconcile r k) (σ, []) left v) (read : s ∈ readIn v.2) :
    FitTogether s (appliedIn v.2) ∧ (left = .ret (.done (some 120)) →
      (∃ dep, .deployment dep ∈ appliedIn v.2) ∧ (∃ svc, .service svc ∈ appliedIn v.2) ∧
        (AsksProxy s.spec → ∃ ing, .ingress ing ∈ appliedIn v.2)) := by
  refine ⟨applies_fitTogether (reconcile_applies run) read, ?_⟩
  rintro rfl
  obtain ⟨s', sess, once, carries, all⟩ := reconcile_appliesAll run
  rw [once, List.mem_singleton] at read
  subst read
  rw [all]
  have replicas : sess.spec.replicas = some (s.spec.replicas.getD 1) := by rw [carries.spec]; rfl
  refine ⟨⟨_, mem_desired.2 (.inr (.inr (.inr (.inl ⟨_, replicas, rfl⟩))))⟩,
    ⟨_, mem_desired.2 (.inr (.inr (.inr (.inr (.inl rfl)))))⟩, ?_⟩
  rintro ⟨-, net, has, host⟩
  have here : sess.spec.networking = some net := by rw [carries.spec]; exact has
  exact ⟨_, mem_desired.2 (.inr (.inr (.inr (.inr (.inr ⟨net, here, host, rfl⟩)))))⟩

end

/-- The first Reconcile of a Session that asks for a proxy. -/
def guardedRun : Outcome × Logged Manifest := reconcileFrom ⟨"ns", "a"⟩ (guardedStart, [])

theorem guarded_fits : FitTogether guarded (appliedIn guardedRun.2.2) ∧
    ∃ ing, .ingress ing ∈ appliedIn guardedRun.2.2 := by
  obtain ⟨fits, done⟩ := children_fit (s := guarded) (reconcileFrom_runs ⟨"ns", "a"⟩ (guardedStart, []))
    (List.mem_singleton_self guarded)
  exact ⟨fits, (done rfl).2.2 ⟨rfl, _, rfl, by decide⟩⟩

end Codespace.Controller
