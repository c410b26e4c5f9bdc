import Codespace.Controller.History
import Codespace.Controller.Resume

/-!
# Where the Ingresses of a Session lead

A Session that asks for oauth2-proxy is to be reached through the proxy only. The sidecar,
the Service's target port and the Ingress are decided separately from the same spec, and
`reconcileIngress` returns early when there is no host: it never deletes the Ingress of an
earlier spec. `Tracked` is the invariant of every history of spec edits and Reconciles, cut
off anywhere: every Ingress of the Session is the derived one and its backend is the
derived Service. What that Service's target is depends on the last Reconcile only.
-/

namespace Codespace.Controller
set_option autoImplicit false
open Versioned Interact

/-- The Session is stored, is not under deletion, and has no Ingress yet. -/
structure Fresh (k : Key) (s : Session) (σ : Cluster Manifest) : Prop where
  held : σ.sessions.get k = some s
  live : s.deleting = false
  childless : ∀ ck ing, σ.children.lookup ck = some (.ingress ing) → ing.owner.uid ≠ s.metadata.uid

/-! ## The invariant -/

/-- Every Ingress of the Session with this UID is the derived one, for the derived Service. -/
structure Tracked (r : SessionReconciler) (k : Key) (uid : Nat) (σ : Cluster Manifest) : Prop where
  stored : ∃ cur, σ.sessions.get k = some cur ∧ cur.metadata.uid = uid ∧ cur.deleting = false
  ingresses : ∀ ck ing, σ.children.lookup ck = some (.ingress ing) → ing.owner.uid = uid →
    ck = ⟨.ingress, k.ns, r.namePrefix ++ k.name⟩ ∧ ing.ns = k.ns ∧
      ∃ host, ing.rules = [⟨host, [⟨"/", "Prefix", ⟨r.namePrefix ++ k.name, 80⟩⟩]⟩]

section

variable {r : SessionReconciler} {k : Key} {uid : Nat} {σ σ' : Cluster Manifest} {sess : Session}

theorem Fresh.tracked {s : Session} (h : Fresh k s σ) : Tracked r k s.metadata.uid σ :=
  ⟨⟨s, h.held, rfl, h.live⟩, fun ck ing held own => absurd own (h.childless ck ing held)⟩

/-- A commit of the stored object with another content keeps the invariant. -/
theorem Tracked.commit (h : Tracked r k uid σ) {next : Session} (key : next.key = k)
    (kept : next.metadata.uid = uid) (live : next.deleting = false) :
    Tracked r k uid (σ.commit next) := by
  refine ⟨⟨stamp σ.sessions.next next, commit_live _ _ key live, kept, live⟩, ?_⟩
  rw [Cluster.commit_children]
  exact h.ingresses

theorem Tracked.edit (h : Tracked r k uid σ) (edit : SpecEdit k σ σ') : Tracked r k uid σ' := by
  obtain ⟨cur, held, own, live⟩ := h.stored
  obtain ⟨n, spec, now, children⟩ := edit.stored held live
  exact ⟨⟨_, now, own, live⟩, by rw [children]; exact h.ingresses⟩

theorem Tracked.edits (h : Tracked r k uid σ) (edits : Relation.ReflTransGen (SpecEdit k) σ σ') :
    Tracked r k uid σ' := by
  induction edits with
  | refl => exact h
  | tail _ last ih => exact ih.edit last

theorem Tracked.update (h : Tracked r k uid σ) {a : Answer (.update sess)} (key : sess.key = k)
    (ans : Answers replaceApi σ (.update sess) a σ') :
    Tracked r k uid σ' ∧ ∀ got, a = .ok got → got.key = k := by
  obtain ⟨cur, held, own, live⟩ := h.stored
  rcases answers_update ans with ⟨rfl, e, rfl⟩ | ⟨cur', ok, rfl, answered⟩
  · exact ⟨h, by rintro _ ⟨⟩⟩
  · obtain rfl := Store.check_held ok key held
    refine ⟨h.commit key own live, fun got eq => ?_⟩
    rcases answered with rfl | ⟨m, rfl⟩
    · cases eq
      exact key
    · cases eq

theorem Tracked.updateStatus (h : Tracked r k uid σ) {a : Answer (.updateStatus sess)}
    (ans : Answers replaceApi σ (.updateStatus sess) a σ') (key : sess.key = k) :
    Tracked r k uid σ' := by
  obtain ⟨cur, held, own, live⟩ := h.stored
  rcases answers_updateStatus ans with ⟨rfl, -⟩ | ⟨cur', ok, rfl, -⟩
  · exact h
  · obtain rfl := Store.check_held ok key held
    exact h.commit (σ.keyed k cur held) own live

/-- What a Reconcile of the Session applies fits the invariant. -/
theorem Tracked.apply (h : Tracked r k uid σ) (key : sess.key = k) {m : Manifest}
    (mem : m ∈ desired r sess) : Tracked r k uid { σ with children := σ.children.insert m.key m } := by
  refine ⟨h.stored, fun ck ing held own => ?_⟩
  by_cases same : ck = m.key
  · subst same
    rw [Finmap.lookup_insert, Option.some.injEq] at held
    subst held
    rw [mem_desired] at mem
    simp only [serviceManifest, reduceCtorEq, and_false, exists_false, false_or,
      Manifest.ingress.injEq] at mem
    obtain ⟨net, -, -, rfl⟩ := mem
    subst key
    exact ⟨rfl, rfl, net.host, rfl⟩
  · rw [Finmap.lookup_insert_of_ne _ same] at held
    exact h.ingresses ck ing held own

theorem Tracked.reconcileChildren_wp (h : Tracked r k uid σ) (key : sess.key = k) :
    (reconcileChildren r sess).wp (Edited replaceApi k) (fun σ _ => Tracked r k uid σ)
      (fun _ σ => Tracked r k uid σ) σ := by
  have phase : ChildPhase (Edited replaceApi k) (fun σ _ => Tracked r k uid σ) r sess
      (fun _ _ => Tracked r k uid) (Tracked r k uid) (fun _ σ => Tracked r k uid σ) :=
    { rely := fun _ _ _ _ h edits => h.edits edits
      relyFailed := fun _ _ h edits => h.edits edits
      relyDone := fun _ _ _ h edits => h.edits edits
      guarantee := fun _ _ _ _ h => h
      guaranteeFailed := fun _ _ h => h
      applied := by
        rintro ms d m σ σ' h part ans
        rcases answers_apply ans with ⟨rfl, -⟩ | ⟨c, ok, rfl⟩
        · exact h
        · cases ok
          exact h.apply key (part.subset (by simp))
      rejected := by
        rintro ms d m e σ σ' h part ans
        rcases answers_apply ans with ⟨rfl, -⟩ | ⟨c, ok, rfl⟩
        · exact h
        · cases ok
          exact h.apply key (part.subset (by simp))
      deployment := fun _ _ _ _ h ans => (answers_getDeployment ans).1 ▸ h
      noDeployment := fun _ _ _ _ _ h ans => (answers_getDeployment ans).1 ▸ h
      service := fun _ _ svc _ _ h ans => by
        obtain ⟨same, read⟩ := answers_getService ans
        exact ⟨by rw [read svc rfl], same ▸ h⟩
      noService := fun _ _ _ _ _ h ans => (answers_getService ans).1 ▸ h
      panicked := fun _ _ _ _ h _ => h
      reported := fun _ _ _ _ _ _ h ans => h.updateStatus ans key
      finished := fun _ _ _ _ h ans => h.updateStatus ans key }
  exact wp_reconcileChildren phase h

/-- A Reconcile keeps the invariant at each of its calls, whatever is edited meanwhile. -/
theorem Tracked.reconcile_wp (h : Tracked r k uid σ) :
    (Reconcile r k).wp (Edited replaceApi k) (fun σ _ => Tracked r k uid σ) (fun _ σ => Tracked r k uid σ) σ := by
  have read : ∀ σ₁ σ₂ got, Answers replaceApi σ₁ (.get k) (.ok got) σ₂ → Tracked r k uid σ₁ →
      Tracked r k uid σ₂ ∧ got.key = k ∧ got.deleting = false := by
    intro σ₁ σ₂ got ans h₁
    obtain ⟨rfl, held⟩ := answers_get_ok ans
    obtain ⟨cur, held', -, live⟩ := h₁.stored
    rw [held, Option.some.injEq] at held'
    subst held'
    exact ⟨h₁, σ₂.keyed k got held, live⟩
  refine wp_reconcile (fun _ edits => h.edits edits) ?_ ?_ ?_ ?_
  · intro σ₁ σ₂ σ₃ e edits ans edits'
    exact ((answers_get ans).1 ▸ h.edits edits).edits edits'
  · intro σ₁ σ₂ got edits ans del
    obtain ⟨-, -, live⟩ := read σ₁ σ₂ got ans (h.edits edits)
    rw [live] at del
    cases del
  · intro σ₁ σ₂ got edits ans _ _
    obtain ⟨h₂, key, -⟩ := read σ₁ σ₂ got ans (h.edits edits)
    exact h₂.reconcileChildren_wp key
  · intro σ₁ σ₂ σ₃ got edits ans edits' _ _
    obtain ⟨h₂, key, -⟩ := read σ₁ σ₂ got ans (h.edits edits)
    have h₃ := h₂.edits edits'
    have sentKey : (addFinalizer (applyDefaults got)).1.key = k := (addFinalizer_key _).trans key
    refine ⟨h₃, fun e σ₄ σ₅ ans' edits'' => ?_, fun sess σ₄ ans' => ?_⟩
    · exact (h₃.update sentKey ans').1.edits edits''
    · obtain ⟨h₄, key'⟩ := h₃.update sentKey ans'
      exact h₄.reconcileChildren_wp (key' sess rfl)

/-- A whole history keeps the invariant. -/
theorem Tracked.history (h : Tracked r k uid σ) (history : History replaceApi r k σ σ') :
    Tracked r k uid σ' := by
  induction history with
  | refl => exact h
  | tail _ last ih =>
    rcases last with edit | ⟨left, run⟩
    · exact ih.edit edit
    · exact Prog.wp_cut run ih.reconcile_wp (fun _ _ h => h) (fun _ _ h => h)

end
/-! ## Routes -/

/-- The port of the oauth2-proxy sidecar. -/
def proxyPort : Nat := 4180

/-- The backend is a Service on whose port every target is the sidecar's in the current pod
template, and not a port of the IDE's container. -/
structure BackendIsProxy (r : SessionReconciler) (k : Key) (σ : Cluster Manifest)
    (backend : IngressBackend) : Prop where
  route : ∃ svc dep,
    σ.children.lookup ⟨.service, k.ns, backend.serviceName⟩ = some (.service svc) ∧
    σ.children.lookup ⟨.deployment, k.ns, r.namePrefix ++ k.name⟩ = some (.deployment dep) ∧
    svc.selector = dep.template.labels ∧ (∃ port ∈ svc.ports, port.port = backend.portNumber) ∧
    ∀ port ∈ svc.ports, port.port = backend.portNumber → port.targetPort = proxyPort ∧
      (∃ c ∈ dep.template.containers, c.name = "oauth2-proxy" ∧ port.targetPort ∈ c.ports) ∧
      ∀ c ∈ dep.template.containers, c.name = "ide" → port.targetPort ∉ c.ports

/-- Every Ingress of the Session with this UID leads to the proxy only. -/
def ProxyOnly (r : SessionReconciler) (k : Key) (uid : Nat) (σ : Cluster Manifest) : Prop :=
  ∀ ck ing, σ.children.lookup ck = some (.ingress ing) → ing.owner.uid = uid →
    ∀ rule ∈ ing.rules, ∀ path ∈ rule.paths, BackendIsProxy r k σ path.backend

section

variable {r : SessionReconciler} {k : Key} {s : Session} {σ σ' : Cluster Manifest}

/-- The Service a complete Reconcile leaves. -/
theorem Reconciled.service {start : GoMap ChildKey Manifest} (h : Reconciled r k s start σ)
    (key : s.key = k) : σ.children.lookup ⟨.service, k.ns, r.namePrefix ++ k.name⟩ =
      some (serviceManifest r (applyDefaults s)) := by
  subst key
  exact h.applied (serviceManifest r (applyDefaults s))
    (mem_desired.2 (.inr (.inr (.inr (.inr (.inl rfl))))))

/-- The Deployment a complete Reconcile leaves. -/
theorem Reconciled.deployment {start : GoMap ChildKey Manifest} (h : Reconciled r k s start σ)
    (key : s.key = k) : ∃ replicas, s.spec.replicas.getD 1 = replicas ∧
      σ.children.lookup ⟨.deployment, k.ns, r.namePrefix ++ k.name⟩ = some (.deployment
        (deploymentConfig (applyDefaults s) (childName r (applyDefaults s))
          (desiredNamesLabels r (applyDefaults s)).2 replicas)) := by
  subst key
  refine ⟨_, rfl, h.applied (.deployment _) (mem_desired.2 (.inr (.inr (.inr (.inl ⟨_, rfl, rfl⟩)))))⟩

/-- With a host, what is there after a complete Reconcile leads to the proxy. -/
theorem Reconciled.backend {start : GoMap ChildKey Manifest} (h : Reconciled r k s start σ)
    (key : s.key = k) (mode : s.spec.auth.mode = "oauth2proxy") (host : hasHost s.spec = true) :
    BackendIsProxy r k σ ⟨r.namePrefix ++ k.name, 80⟩ := by
  obtain ⟨replicas, -, deployment⟩ := h.deployment key
  have service := h.service key
  have target : serviceTarget (applyDefaults s) = proxyPort := by
    have host' : hasHost (defaultSpec s.spec) = true := host
    simp [serviceTarget, mode, host', proxyPort]
  have both : containers (applyDefaults s) (childName r (applyDefaults s)) =
      [mainContainer (applyDefaults s) (childName r (applyDefaults s)), sidecar (applyDefaults s)] :=
    if_pos ⟨mode, host⟩
  refine ⟨_, _, service, deployment, rfl, ⟨_, List.mem_singleton_self _, rfl⟩, ?_⟩
  intro port mem _
  rw [List.mem_singleton.1 mem]
  refine ⟨target, ⟨sidecar (applyDefaults s), ?_, rfl, ?_⟩, ?_⟩
  · simp [deploymentConfig, both]
  · simp [target, sidecar, proxyPort]
  · intro c mem named
    simp only [deploymentConfig, both, List.mem_cons, List.not_mem_nil, or_false] at mem
    rcases mem with rfl | rfl
    · simp only [target, mainContainer, determinePort, proxyPort]
      split <;> simp
    · simp [sidecar] at named

/-- Without a host, the Service leads to the IDE. -/
theorem Reconciled.no_backend {start : GoMap ChildKey Manifest} (h : Reconciled r k s start σ)
    (key : s.key = k) (host : hasHost s.spec = false) :
    ¬ BackendIsProxy r k σ ⟨r.namePrefix ++ k.name, 80⟩ := by
  rintro ⟨svc, dep, service, -, -, -, proxy⟩
  rw [h.service key] at service
  cases service
  have target : serviceTarget (applyDefaults s) ≠ proxyPort := by
    have host' : hasHost (defaultSpec s.spec) = false := host
    simp only [serviceTarget, applyDefaults_spec, host', or_true, if_true, proxyPort]
    by_cases ide : (defaultSpec s.spec).profile.ide = "vscode" <;> simp [ide]
  exact target (proxy _ (List.mem_singleton_self _) rfl).1

/-- A complete Reconcile without a host leaves the Ingresses it finds. -/
theorem Reconciled.keeps_ingress (h : Reconciled r k s σ.children σ') (host : hasHost s.spec = false)
    {ck : ChildKey} {ing : IngressApply} (kind : ck.kind = .ingress) :
    σ'.children.lookup ck = some (.ingress ing) ↔ σ.children.lookup ck = some (.ingress ing) := by
  rcases h.children ck with same | ⟨m, mem, key, -⟩
  · rw [same]
  · exfalso
    rw [← key] at kind
    rw [mem_desired] at mem
    have none : ∀ net, s.spec.networking = some net → net.host = "" := by
      intro net eq
      simpa [hasHost, eq] using host
    rcases mem with rfl | ⟨_, _, -, -, rfl⟩ | ⟨_, _, -, -, rfl⟩ | ⟨_, -, rfl⟩ | rfl | ⟨net, eq, ne, -⟩
    all_goals first | cases kind | exact ne (none net eq)

/-- The Ingresses after a complete Reconcile that follows a history are tracked too. -/
theorem Tracked.reconciled {uid : Nat} (h : Tracked r k uid σ) (held : σ.sessions.get k = some s)
    (done : Completes r k σ σ') : Tracked r k uid σ' ∧ Reconciled r k s σ.children σ' := by
  obtain ⟨cur, held', -, live⟩ := h.stored
  rw [held, Option.some.injEq] at held'
  subst held'
  refine ⟨?_, completes_reconciled held live .refl done⟩
  obtain ⟨after, run⟩ := done
  have edited : Exec (Edited replaceApi k) (Reconcile r k) σ (.ret (.done after)) σ' :=
    run.mono (fun _ _ _ _ ans => ans) (by rintro _ _ rfl; exact .refl)
  have kept := Prog.wp_result edited h.reconcile_wp
  exact kept

/-- **Main result.** After any history of a Session that had no Ingress, a Reconcile that
completes for oauth2-proxy leaves only Ingresses that lead to the proxy exactly when the
spec has a host or no earlier Reconcile has left an Ingress. -/
theorem proxyOnly_iff {s₀ s' : Session} {σ₀ : Cluster Manifest} (fresh : Fresh k s₀ σ₀)
    (history : History replaceApi r k σ₀ σ) (held : σ.sessions.get k = some s) (done : Completes r k σ σ')
    (held' : σ'.sessions.get k = some s') (mode : s'.spec.auth.mode = "oauth2proxy") :
    ProxyOnly r k s₀.metadata.uid σ' ↔ (hasHost s.spec = true ∨
      ∀ ck ing, σ.children.lookup ck = some (.ingress ing) → ing.owner.uid ≠ s₀.metadata.uid) := by
  have tracked := fresh.tracked.history history
  obtain ⟨tracked', after⟩ := tracked.reconciled held done
  have key : s.key = k := σ.keyed k s held
  have sameMode : s.spec.auth.mode = "oauth2proxy" := by
    obtain ⟨cur, now, alike⟩ := after.stored
    rw [held', Option.some.injEq] at now
    subst now
    rw [← mode, alike.spec, ← defaultSpec_auth, ← defaultSpec_auth (settle s).spec, settle_defaults]
  -- every Ingress has the one backend
  have backend : ∀ {τ : Cluster Manifest} {ck ing}, Tracked r k s₀.metadata.uid τ →
      τ.children.lookup ck = some (.ingress ing) → ing.owner.uid = s₀.metadata.uid →
      ck.kind = .ingress ∧ ((∀ rule ∈ ing.rules, ∀ path ∈ rule.paths, BackendIsProxy r k σ' path.backend) ↔
        BackendIsProxy r k σ' ⟨r.namePrefix ++ k.name, 80⟩) := by
    intro τ ck ing tr held own
    obtain ⟨rfl, -, host, rules⟩ := tr.ingresses ck ing held own
    exact ⟨rfl, by simp [rules]⟩
  by_cases host : hasHost s.spec = true
  · have proxy := after.backend key sameMode host
    exact ⟨fun _ => .inl host, fun _ ck ing held own => (backend tracked' held own).2.2 proxy⟩
  · have noHost : hasHost s.spec = false := by simpa using host
    constructor
    · intro only
      refine .inr fun ck ing held own => ?_
      have kind := (backend tracked held own).1
      have kept := (after.keeps_ingress noHost kind).2 held
      exact after.no_backend key noHost ((backend tracked' kept own).2.1 (only ck ing kept own))
    · rintro (yes | none) ck ing held own
      · exact absurd yes host
      · have kind := (backend tracked' held own).1
        exact absurd own (none ck ing ((after.keeps_ingress noHost kind).1 held))

end

/-- A Session that asks for oauth2-proxy behind a host. -/
def guarded : Session :=
  stamp 1 (.plain ⟨"ns", "a"⟩ 1 { SessionSpec.plain with
    auth := ⟨"oauth2proxy", none⟩, networking := some ⟨"a.example.com", "", ∅⟩ })

/-- The cluster right after it was created. -/
def guardedStart : Cluster Manifest := Cluster.blank.commit guarded

/-- Where a Reconcile without failures leads. -/
def reconciled (σ : Cluster Manifest) : Cluster Manifest :=
  ((Reconcile .default ⟨"ns", "a"⟩).run (answer replaceApi) σ).2

theorem reconciled_completes {σ : Cluster Manifest}
    (done : ((Reconcile .default ⟨"ns", "a"⟩).run (answer replaceApi) σ).1 = .done (some 120)) :
    Completes .default ⟨"ns", "a"⟩ σ (reconciled σ) :=
  ⟨some 120, done ▸ Exec.of_run (answers_answer replaceApi) _ _⟩

theorem guarded_fresh : Fresh ⟨"ns", "a"⟩ guarded guardedStart := by
  refine ⟨rfl, rfl, fun ck ing held => ?_⟩
  rw [guardedStart, Cluster.commit_children] at held
  cases held

/-- The guarded Session after its first Reconcile. -/
def guardedOnce : Session :=
  stamp 3 { settle guarded with status := ⟨"Pending", "https://a.example.com", ""⟩ }

theorem guarded_held : (reconciled guardedStart).sessions.get ⟨"ns", "a"⟩ = some guardedOnce := rfl

/-- The first Reconcile of a guarded Session leads to the proxy only. -/
theorem guarded_proxyOnly : ProxyOnly .default ⟨"ns", "a"⟩ 1 (reconciled guardedStart) :=
  (proxyOnly_iff guarded_fresh .refl rfl (reconciled_completes rfl) guarded_held rfl).2 (.inl rfl)

/-- The property, of every history. -/
def NoBypass (r : SessionReconciler) (k : Key) : Prop :=
  ∀ s₀ s' σ₀ σ σ', Fresh k s₀ σ₀ → History replaceApi r k σ₀ σ → Completes r k σ σ' →
    σ'.sessions.get k = some s' → s'.spec.auth.mode = "oauth2proxy" →
    ProxyOnly r k s₀.metadata.uid σ'

/-- Its networking is cleared after the first Reconcile. The second turns the Service to the
IDE and leaves the Ingress. -/
theorem guarded_bypass : ¬ NoBypass .default ⟨"ns", "a"⟩ := by
  intro claim
  let cleared : Session := { guardedOnce with spec := { guardedOnce.spec with networking := none } }
  let σ := (reconciled guardedStart).commit cleared
  have first : Happens replaceApi .default ⟨"ns", "a"⟩ guardedStart (reconciled guardedStart) := by
    obtain ⟨after, run⟩ : Completes .default ⟨"ns", "a"⟩ guardedStart (reconciled guardedStart) :=
      reconciled_completes rfl
    exact .inr ⟨_, run.mono (fun _ _ _ _ ans => ans) (by rintro _ _ rfl; exact .refl)⟩
  have edit : Happens replaceApi .default ⟨"ns", "a"⟩ (reconciled guardedStart) σ :=
    .inl ⟨guardedOnce, _, guarded_held, rfl⟩
  have second : Completes .default ⟨"ns", "a"⟩ σ (reconciled σ) := reconciled_completes rfl
  have held : (reconciled σ).sessions.get ⟨"ns", "a"⟩ =
    some (stamp 5 { cleared with status := ⟨"Pending", "", ""⟩ }) := rfl
  have only := claim _ _ _ _ _ guarded_fresh ((Relation.ReflTransGen.single first).tail edit) second held rfl
  have ingress : (reconciled σ).children.lookup ⟨.ingress, "ns", "cs-a"⟩ = some (.ingress
    (ingressConfig guarded ⟨"a.example.com", "", ∅⟩ "cs-a" "cs-a")) := rfl
  obtain ⟨svc, dep, service, -, -, -, target⟩ :=
    only _ _ ingress rfl _ (List.mem_singleton_self _) _ (List.mem_singleton_self _)
  have now : (reconciled σ).children.lookup ⟨.service, "ns", "cs-a"⟩ = some (serviceManifest .default cleared) := rfl
  have same := Option.some.inj (now.symm.trans service)
  cases same
  exact absurd (target _ (List.mem_singleton_self _) rfl).1 (by decide)

end Codespace.Controller
