import Codespace.Controller.Apart
import Codespace.Controller.Drift
import Codespace.Controller.Resume

/-!
# A Reconcile has nothing to do the second time

The API server takes a write that would store what is stored already for no write: no new
version, and nobody is told. With such a server (`serve`) and no other client a Reconcile that
has gone through leaves nothing to write. `Settled` is how it leaves the Session.
-/

namespace Codespace.Controller
set_option autoImplicit false
open Versioned Interact

/-! ## The API server -/

/-- A write that replaces the object, where that makes a difference. -/
def exchange (σ : Cluster Manifest) (sent : Session) (merge : Session → Session → Session) :
    Except ApiError Session × Cluster Manifest :=
  match σ.sessions.check sent.key sent.metadata.resourceVersion with
  | .error _ => σ.replace sent merge
  | .ok cur => if merge cur sent = cur then (.ok cur, σ) else σ.replace sent merge

/-- The answers, when nothing goes wrong. -/
def serve (σ : Cluster Manifest) : (c : Call) → Answer c × Cluster Manifest
  | .update s => exchange σ s updated
  | .updateStatus s => exchange σ s statusUpdated
  | c => answer replaceApi σ c

/-- Reconciles of these keys, one after the other. -/
def passes (r : SessionReconciler) (ks : List Key) (σ : Cluster Manifest) : Cluster Manifest :=
  ks.foldl (fun σ k => ((Reconcile r k).run serve σ).2) σ

/-! ## What a Reconcile leaves -/

/-- The Deployment as a Get returns it. -/
def observed (r : SessionReconciler) (s : Session) (σ : Cluster Manifest) : Deployment :=
  ⟨childName r s, s.metadata.ns, σ.readyReplicas ⟨s.metadata.ns, childName r s⟩⟩

/-- The next Reconcile of this Session has nothing to write. -/
structure Settled (r : SessionReconciler) (s : Session) (σ : Cluster Manifest) : Prop where
  sizes : Sizes r s
  removed : s.deleting = true → sessionFinalizer ∉ s.metadata.finalizers ∧ defaultSpec s.spec = s.spec
  marked : s.deleting = false → sessionFinalizer ∈ s.metadata.finalizers
  applied : s.deleting = false → Applied (desired r (applyDefaults s)) σ
  status : s.deleting = false → nextStatus (applyDefaults s) (observed r s σ) = s.status

/-- So has the next Reconcile of this key. -/
def SettledAt (r : SessionReconciler) (k : Key) (σ : Cluster Manifest) : Prop :=
  ∀ s, σ.sessions.get k = some s → Settled r s σ

section

variable {r : SessionReconciler} {k : Key} {s t : Session} {σ σ' : Cluster Manifest}

theorem exchange_ok {cur sent : Session} {merge : Session → Session → Session}
    (ok : σ.sessions.check sent.key sent.metadata.resourceVersion = .ok cur) : exchange σ sent merge =
      if merge cur sent = cur then (.ok cur, σ)
      else (.ok (stamp σ.sessions.next (merge cur sent)), σ.commit (merge cur sent)) := by
  simp only [exchange, Cluster.replace, ok]

/-- What is stored passes the check, and is exchanged for what is sent. -/
theorem serve_update (held : σ.sessions.get k = some t) {sent : Session} (key : sent.key = k)
    (version : sent.metadata.resourceVersion = version t) :
    serve σ (.update sent) = if updated t sent = t then (.ok t, σ)
      else (.ok (stamp σ.sessions.next (updated t sent)), σ.commit (updated t sent)) := by
  subst key
  exact exchange_ok (version ▸ Store.check_current held)

theorem serve_updateStatus (held : σ.sessions.get k = some t) {sent : Session} (key : sent.key = k)
    (version : sent.metadata.resourceVersion = version t) :
    serve σ (.updateStatus sent) = if statusUpdated t sent = t then (.ok t, σ)
      else (.ok (stamp σ.sessions.next (statusUpdated t sent)), σ.commit (statusUpdated t sent)) := by
  subst key
  exact exchange_ok (version ▸ Store.check_current held)

theorem serve_get (held : σ.sessions.get k = some t) : serve σ (.get k) = (.ok t, σ) := by
  simp only [serve, answer, held]

theorem serve_get_none (missing : σ.sessions.get k = none) :
    serve σ (.get k) = (.error (.notFoundOf sessionResource k.name), σ) := by
  simp only [serve, answer, missing]

theorem serve_getDeployment {k : Key} {m : Manifest} (there : σ.children.lookup ⟨.deployment, k⟩ = some m) :
    serve σ (.getDeployment k) = (.ok ⟨k.name, k.ns, σ.readyReplicas k⟩, σ) := by
  simp only [serve, answer, there]

theorem serve_getService {k : Key} {m : Manifest} (there : σ.children.lookup ⟨.service, k⟩ = some m) :
    serve σ (.getService k) = (.ok ⟨k.name, k.ns⟩, σ) := by
  simp only [serve, answer, there]

/-! ## The children -/

/-- These manifests are applied in order. -/
def applyAll (ms : List Manifest) (σ : Cluster Manifest) : Cluster Manifest :=
  ms.foldl (fun σ m => { σ with children := σ.children.insert m.key m }) σ

theorem applyAll_append (ms ms' : List Manifest) : applyAll (ms ++ ms') σ = applyAll ms' (applyAll ms σ) :=
  List.foldl_append

@[simp] theorem applyAll_sessions (ms : List Manifest) : (applyAll ms σ).sessions = σ.sessions := by
  induction ms generalizing σ with
  | nil => rfl
  | cons m ms ih => exact ih

@[simp] theorem applyAll_readyReplicas (ms : List Manifest) : (applyAll ms σ).readyReplicas = σ.readyReplicas := by
  induction ms generalizing σ with
  | nil => rfl
  | cons m ms ih => exact ih

theorem applyAll_lookup_of_ne {ms : List Manifest} {ck : ChildKey} (other : ∀ m ∈ ms, m.key ≠ ck) :
    (applyAll ms σ).children.lookup ck = σ.children.lookup ck := by
  induction ms generalizing σ with
  | nil => rfl
  | cons m ms ih =>
    rw [List.forall_mem_cons] at other
    exact (ih other.2).trans (Finmap.lookup_insert_of_ne _ other.1.symm)

/-- Afterwards they are there. -/
theorem applied_applyAll {ms : List Manifest} (nodup : (ms.map Manifest.key).Nodup) : Applied ms (applyAll ms σ) := by
  induction ms generalizing σ with
  | nil => exact nofun
  | cons m ms ih =>
    rw [List.map_cons, List.nodup_cons] at nodup
    intro m' mem
    rcases List.mem_cons.1 mem with rfl | later
    · have other : ∀ m ∈ ms, m.key ≠ m'.key := fun m mem same => nodup.1 (same ▸ List.mem_map_of_mem mem)
      exact (applyAll_lookup_of_ne other).trans (Finmap.lookup_insert _)
    · exact ih nodup.2 m' later

/-- Where they are there already, nothing changes. -/
theorem applyAll_of_applied {ms : List Manifest} (applied : Applied ms σ) : applyAll ms σ = σ := by
  induction ms generalizing σ with
  | nil => rfl
  | cons m ms ih =>
    have same : σ.children.insert m.key m = σ.children := by
      refine Finmap.ext_lookup fun ck => ?_
      by_cases here : ck = m.key
      · subst here
        rw [Finmap.lookup_insert, applied m List.mem_cons_self]
      · exact Finmap.lookup_insert_of_ne _ here
    show applyAll ms { σ with children := σ.children.insert m.key m } = σ
    rw [same]
    exact ih fun m' mem => applied m' (List.mem_cons_of_mem _ mem)

theorem run_patch (m : Manifest) : (patch r m).run serve σ = (.ok (), applyAll [m] σ) := rfl

theorem run_reconcilePVC {name suffix : String} {spec : Option PVCSpec} (derived : name = childName r s)
    (sizes : ∀ pvc, spec = some pvc → r.parseQuantity pvc.size ≠ none) :
    (reconcilePVC r s name suffix spec).run serve σ = (.ok (), applyAll (pvcManifest r s suffix spec) σ) := by
  subst derived
  cases spec with
  | none => rfl
  | some pvc =>
    obtain ⟨storage, parsed⟩ := Option.ne_none_iff_exists'.1 (sizes pvc rfl)
    simp only [reconcilePVC, pvcManifest, parsed, run_patch]

theorem run_reconcileDeployment (replicas : s.spec.replicas ≠ none) :
    (reconcileDeployment r s (childName r s) (desiredNamesLabels r s).2).run serve σ =
      (.ok (observed r s σ), applyAll (workloadManifests r s) σ) := by
  obtain ⟨n, set⟩ := Option.ne_none_iff_exists'.1 replicas
  have there := serve_getDeployment (σ := applyAll (workloadManifests r s) σ) (k := ⟨s.metadata.ns, childName r s⟩)
    (m := .deployment (deploymentConfig s (childName r s) (desiredNamesLabels r s).2 n)) (by
      simp only [workloadManifests, set]
      exact Finmap.lookup_insert _)
  simp only [reconcileDeployment, workloadManifests, set, Prog.run_bind, run_patch] at there ⊢
  simp only [api, Prog.perform, Prog.run_call, there]
  rfl

theorem run_reconcileService :
    (reconcileService r s (childName r s) (desiredNamesLabels r s).2).run serve σ =
      (.ok ⟨childName r s, s.metadata.ns⟩, applyAll [serviceManifest r s] σ) := by
  have there := serve_getService (σ := applyAll [serviceManifest r s] σ) (k := ⟨s.metadata.ns, childName r s⟩)
    (m := serviceManifest r s) (Finmap.lookup_insert _)
  simp only [serviceManifest] at there
  simp only [reconcileService, serviceManifest, Prog.run_bind, run_patch]
  simp only [api, Prog.perform, Prog.run_call, there]
  rfl

theorem run_reconcileIngress : (reconcileIngress r s (childName r s) (childName r s)).run serve σ =
    (.ok (), applyAll (ingressManifest r s) σ) := by
  unfold reconcileIngress ingressManifest
  cases s.spec.networking with
  | none => rfl
  | some net =>
    by_cases empty : net.host = ""
    · simp only [empty, if_true]
      rfl
    · simp only [empty, if_false, run_patch]

/-- Going on after a child. -/
theorem run_then {α : Type} {p : Api (Except GoError α)} {f : Except GoError α → Api Outcome} {a : α}
    (first : p.run serve σ = (.ok a, σ')) : (p >>= f).run serve σ = (f (.ok a)).run serve σ' := by
  rw [Prog.run_bind, first]

/-- The child phase, when nothing goes wrong. -/
theorem run_reconcileChildren (whole : Whole r s) : (reconcileChildren r s).run serve σ = (.done (some 120),
    (serve (applyAll (desired r s) σ) (.updateStatus { s with status := nextStatus s (observed r s σ) })).2) := by
  have account : ∀ σ, (reconcileServiceAccount r s (childName r s)).run serve σ = (.ok (), applyAll [_] σ) :=
    fun σ => rfl
  have status : ∀ ms, observed r s (applyAll ms σ) = observed r s σ := fun ms => by simp [observed]
  simp only [desired, applyAll_append]
  show (reconcileServiceAccount r s (childName r s) >>= _).run serve σ = _
  refine (run_then (account σ)).trans ?_
  refine (run_then (run_reconcilePVC rfl fun pvc has => whole.sizes pvc (.inl has))).trans ?_
  refine (run_then (run_reconcilePVC rfl fun pvc has => whole.sizes pvc (.inr has))).trans ?_
  refine (run_then (run_reconcileDeployment whole.replicas)).trans ?_
  refine (run_then run_reconcileService).trans ?_
  refine (run_then run_reconcileIngress).trans ?_
  simp only [← applyAll_append, status]
  rfl

/-! ## One pass -/

/-- What is stored at a key once the finalizer is added. -/
def withFinalizer (t : Session) : Session := updated t (addFinalizer (applyDefaults t)).1

theorem withFinalizer_spec (unmarked : sessionFinalizer ∉ t.metadata.finalizers) :
    (withFinalizer t).spec = defaultSpec t.spec := by
  simp [withFinalizer, updated, addFinalizer, unmarked]

theorem run_reconcile_none (missing : σ.sessions.get k = none) :
    (Reconcile r k).run serve σ = (.done none, σ) := by
  simp only [Reconcile, api, Prog.perform_bind, Prog.run_call, serve_get_none missing]
  rfl

theorem run_reconcile_deleting (held : σ.sessions.get k = some t) (deleting : t.deleting = true) :
    (Reconcile r k).run serve σ = (.done none, (serve σ (.update (removeFinalizer (applyDefaults t)))).2) := by
  have key : (removeFinalizer (applyDefaults t)).key = k := σ.keyed k t held
  have written : ∃ out, (serve σ (.update (removeFinalizer (applyDefaults t)))).1 = .ok out := by
    rw [serve_update held key rfl]
    split <;> exact ⟨_, rfl⟩
  obtain ⟨out, ok⟩ := written
  simp only [Reconcile, api, Prog.perform_bind, Prog.run_call, serve_get held, applyDefaults_deleting, deleting, if_true,
    handleDelete, ok]
  rfl

theorem run_reconcile_marked (held : σ.sessions.get k = some t) (live : t.deleting = false)
    (marked : sessionFinalizer ∈ t.metadata.finalizers) :
    (Reconcile r k).run serve σ = (reconcileChildren r (applyDefaults t)).run serve σ := by
  have same : addFinalizer (applyDefaults t) = (applyDefaults t, false) := if_pos marked
  simp [Reconcile, api, serve_get held, live, ensureFinalizer, same]

theorem run_reconcile_unmarked (held : σ.sessions.get k = some t) (live : t.deleting = false)
    (unmarked : sessionFinalizer ∉ t.metadata.finalizers) : (Reconcile r k).run serve σ =
      (reconcileChildren r (stamp σ.sessions.next (withFinalizer t))).run serve (σ.commit (withFinalizer t)) := by
  have added : (addFinalizer (applyDefaults t)).2 = true := by
    unfold addFinalizer
    rw [applyDefaults_metadata, if_neg unmarked]
  have changed : withFinalizer t ≠ t := by
    intro same
    have finalizers := congrArg (fun s : Session => s.metadata.finalizers) same
    refine unmarked (finalizers ▸ ?_)
    simp [withFinalizer, updated, addFinalizer, unmarked]
  have key : (addFinalizer (applyDefaults t)).1.key = k := (addFinalizer_key _).trans (σ.keyed k t held)
  have version : (addFinalizer (applyDefaults t)).1.metadata.resourceVersion = version t := by
    simp [addFinalizer, unmarked]
    rfl
  have written := (serve_update held key version).trans (if_neg changed)
  simp only [Reconcile, api, Prog.perform_bind, Prog.run_call, serve_get held, applyDefaults_deleting, live, ensureFinalizer,
    added, if_true, Bool.false_eq_true, if_false, written]
  rfl

/-- A Session that has nothing to write is left alone. -/
theorem Settled.run (settled : Settled r t σ) (held : σ.sessions.get k = some t) :
    ((Reconcile r k).run serve σ).2 = σ := by
  have key : t.key = k := σ.keyed k t held
  cases deleting : t.deleting with
  | true =>
    obtain ⟨unmarked, defaulted⟩ := settled.removed deleting
    have kept : t.metadata.finalizers.filter (· ≠ sessionFinalizer) = t.metadata.finalizers := by
      rw [List.filter_eq_self]
      intro f mem
      exact decide_eq_true fun same => unmarked (same ▸ mem)
    have same : updated t (removeFinalizer (applyDefaults t)) = t := by
      simp only [updated, removeFinalizer, applyDefaults_metadata, applyDefaults_spec, kept, defaulted]
    have sent : (removeFinalizer (applyDefaults t)).key = k := key
    rw [run_reconcile_deleting held deleting, serve_update held sent rfl, if_pos same]
  | false =>
    have whole : Whole r (applyDefaults t) := ⟨Option.some_ne_none _, settled.sizes⟩
    have there := applyAll_of_applied (settled.applied deleting)
    have same : statusUpdated t { applyDefaults t with
        status := nextStatus (applyDefaults t) (observed r (applyDefaults t) σ) } = t := by
      have status : nextStatus (applyDefaults t) (observed r (applyDefaults t) σ) = t.status := settled.status deleting
      simp only [statusUpdated, status]
    rw [run_reconcile_marked held deleting (settled.marked deleting), run_reconcileChildren whole, there]
    have sent : ({ applyDefaults t with
        status := nextStatus (applyDefaults t) (observed r (applyDefaults t) σ) } : Session).key = k := key
    rw [serve_updateStatus held sent rfl, if_pos same]

/-- The child phase settles a Session that has the finalizer. -/
theorem settled_children (held : σ.sessions.get k = some t) (live : t.deleting = false)
    (marked : sessionFinalizer ∈ t.metadata.finalizers) (sizes : Sizes r t) :
    SettledAt r k ((reconcileChildren r (applyDefaults t)).run serve σ).2 := by
  have key : t.key = k := σ.keyed k t held
  have whole : Whole r (applyDefaults t) := ⟨Option.some_ne_none _, sizes⟩
  rw [run_reconcileChildren whole]
  let σ₁ := applyAll (desired r (applyDefaults t)) σ
  have held₁ : σ₁.sessions.get k = some t := by simpa [σ₁] using held
  have applied : Applied (desired r (applyDefaults t)) σ₁ := applied_applyAll desired_keys_nodup
  let sent : Session := { applyDefaults t with
    status := nextStatus (applyDefaults t) (observed r (applyDefaults t) σ) }
  have written : serve σ₁ (.updateStatus sent) = _ := serve_updateStatus held₁ key rfl
  show SettledAt r k (serve σ₁ (.updateStatus sent)).2
  rw [written]
  split
  · rename_i same
    intro s stored
    cases held₁.symm.trans stored
    have status := congrArg Session.status same
    refine ⟨sizes, fun deleting => ?_, fun _ => marked, fun _ => applied, fun _ => ?_⟩
    · cases live.symm.trans deleting
    · refine Eq.trans ?_ status
      simp [sent, statusUpdated, observed, σ₁, childName, desiredNamesLabels]
  · intro s stored
    have now := commit_live σ₁ (statusUpdated t sent) key live
    cases now.symm.trans stored
    refine ⟨sizes, fun deleting => ?_, fun _ => marked, fun _ => ?_, fun _ => ?_⟩
    · cases live.symm.trans deleting
    · intro m mem
      rw [Cluster.commit_children]
      exact applied m mem
    · have same : observed r (stamp σ₁.sessions.next (statusUpdated t sent)) (σ₁.commit (statusUpdated t sent)) =
          observed r (applyDefaults t) σ := by
        simp [observed, σ₁, childName, desiredNamesLabels, statusUpdated]
      rw [same]
      rfl

/-- One pass settles its key. -/
theorem settled_pass (sizes : ∀ s, σ.sessions.get k = some s → Sizes r s) :
    SettledAt r k ((Reconcile r k).run serve σ).2 := by
  cases held : σ.sessions.get k with
  | none =>
    rw [run_reconcile_none held]
    intro s stored
    cases held.symm.trans stored
  | some t =>
    have key : t.key = k := σ.keyed k t held
    cases deleting : t.deleting with
    | true =>
      have sent : (removeFinalizer (applyDefaults t)).key = k := key
      have written : serve σ (.update (removeFinalizer (applyDefaults t))) = _ := serve_update held sent rfl
      have settled : ∀ (s : Session) τ, s.spec = defaultSpec t.spec → s.deleting = true →
          sessionFinalizer ∉ s.metadata.finalizers → Settled r s τ := by
        intro s τ spec deleted unmarked
        have live : s.deleting ≠ false := by simp [deleted]
        refine ⟨?_, fun _ => ⟨unmarked, ?_⟩, fun l => absurd l live, fun l => absurd l live, fun l => absurd l live⟩
        · rw [Sizes, spec]
          exact sizes t held
        · rw [spec, defaultSpec_idem]
      rw [run_reconcile_deleting held deleting, written]
      split
      · rename_i same
        intro s stored
        cases held.symm.trans stored
        refine settled t _ (congrArg Session.spec same).symm deleting ?_
        rw [← congrArg (fun s : Session => s.metadata.finalizers) same]
        simp [updated, removeFinalizer]
      · intro s stored
        have here : (updated t (removeFinalizer (applyDefaults t))).key = k := key
        rcases Cluster.commit_get_self σ (updated t (removeFinalizer (applyDefaults t))) with ⟨-, now⟩ | ⟨-, gone⟩
        · rw [here] at now
          cases now.symm.trans stored
          exact settled _ _ rfl deleting (by simp [updated, removeFinalizer])
        · rw [here] at gone
          cases gone.symm.trans stored
    | false =>
      by_cases marked : sessionFinalizer ∈ t.metadata.finalizers
      · rw [run_reconcile_marked held deleting marked]
        exact settled_children held deleting marked (sizes t held)
      · rw [run_reconcile_unmarked held deleting marked]
        have now := commit_live σ (withFinalizer t) (k := k) ((addFinalizer_key _).trans key) deleting
        have spec : (withFinalizer t).spec = defaultSpec t.spec := withFinalizer_spec marked
        have defaulted : applyDefaults (stamp σ.sessions.next (withFinalizer t)) =
            stamp σ.sessions.next (withFinalizer t) := by
          rw [applyDefaults, stamp_spec, spec, defaultSpec_idem, ← spec]
          rfl
        rw [← defaulted]
        refine settled_children now deleting ?_ ?_
        · simp [withFinalizer, updated, addFinalizer, marked]
        · rw [Sizes, stamp_spec, spec]
          exact sizes t held

/-! ## Passes of other keys -/

/-- What concerns the Sessions at other keys is as it was. -/
structure Spares (r : SessionReconciler) (k : Key) (σ σ' : Cluster Manifest) : Prop where
  sessions : ∀ k', k' ≠ k → σ'.sessions.get k' = σ.sessions.get k'
  readyReplicas : σ'.readyReplicas = σ.readyReplicas
  children : ∀ s, s.key ≠ k → ∀ m ∈ desired r s, σ'.children.lookup m.key = σ.children.lookup m.key

theorem Spares.refl (σ : Cluster Manifest) : Spares r k σ σ := ⟨fun _ _ => rfl, rfl, fun _ _ _ _ => rfl⟩

theorem Spares.trans {σ'' : Cluster Manifest} (h : Spares r k σ σ') (h' : Spares r k σ' σ'') : Spares r k σ σ'' where
  sessions k' other := (h'.sessions k' other).trans (h.sessions k' other)
  readyReplicas := h'.readyReplicas.trans h.readyReplicas
  children s other m mem := (h'.children s other m mem).trans (h.children s other m mem)

theorem spares_commit (key : s.key = k) : Spares r k σ (σ.commit s) where
  sessions _ other := Cluster.commit_get_ne (key ▸ other)
  readyReplicas := σ.commit_readyReplicas s
  children _ _ _ _ := by rw [Cluster.commit_children]

theorem spares_applyAll (key : s.key = k) : Spares r k σ (applyAll (desired r s) σ) where
  sessions _ _ := by rw [applyAll_sessions]
  readyReplicas := applyAll_readyReplicas _
  children _ other _ mem := applyAll_lookup_of_ne fun _ mine same =>
    other ((mem_desired_session mem mine same.symm).trans key)

theorem spares_exchange {sent : Session} {merge : Session → Session → Session}
    (key : ∀ cur, σ.sessions.get sent.key = some cur → (merge cur sent).key = k) :
    Spares r k σ (exchange σ sent merge).2 := by
  cases checked : σ.sessions.check sent.key sent.metadata.resourceVersion with
  | error e =>
    have refused : (exchange σ sent merge).2 = σ := by
      simp only [exchange, checked, Cluster.replace]
      cases e <;> rfl
    rw [refused]
    exact .refl σ
  | ok cur =>
    rw [exchange_ok checked]
    split
    · exact .refl σ
    · exact spares_commit (key cur (Store.check_ok.1 checked).1)

theorem spares_update {sent : Session} (key : sent.key = k) : Spares r k σ (serve σ (.update sent)).2 :=
  spares_exchange fun _ _ => key

theorem spares_updateStatus {sent : Session} (key : sent.key = k) : Spares r k σ (serve σ (.updateStatus sent)).2 :=
  spares_exchange fun cur held => (σ.keyed _ cur held).trans key

theorem spares_children (whole : Whole r s) (key : s.key = k) :
    Spares r k σ ((reconcileChildren r s).run serve σ).2 := by
  rw [run_reconcileChildren whole]
  exact (spares_applyAll key).trans (spares_updateStatus key)

/-- A pass leaves the other keys alone. -/
theorem spares_pass (sizes : ∀ s, σ.sessions.get k = some s → Sizes r s) :
    Spares r k σ ((Reconcile r k).run serve σ).2 := by
  cases held : σ.sessions.get k with
  | none =>
    rw [run_reconcile_none held]
    exact .refl σ
  | some t =>
    have key : t.key = k := σ.keyed k t held
    cases deleting : t.deleting with
    | true =>
      rw [run_reconcile_deleting held deleting]
      exact spares_update key
    | false =>
      by_cases marked : sessionFinalizer ∈ t.metadata.finalizers
      · rw [run_reconcile_marked held deleting marked]
        exact spares_children ⟨Option.some_ne_none _, sizes t held⟩ key
      · rw [run_reconcile_unmarked held deleting marked]
        have sent : (withFinalizer t).key = k := (addFinalizer_key (applyDefaults t)).trans key
        have spec : (withFinalizer t).spec = defaultSpec t.spec := withFinalizer_spec marked
        refine (spares_commit sent).trans (spares_children ⟨?_, ?_⟩ sent)
        · rw [stamp_spec, spec]
          exact nofun
        · rw [stamp_spec, spec]
          exact sizes t held

/-- A settled key stays settled. -/
theorem SettledAt.spared {k' : Key} (settled : SettledAt r k' σ) (other : k' ≠ k) (spares : Spares r k σ σ') :
    SettledAt r k' σ' := by
  intro s stored
  rw [spares.sessions k' other] at stored
  have before := settled s stored
  refine ⟨before.sizes, before.removed, before.marked, fun live m mem => ?_, fun live => ?_⟩
  · rw [spares.children (applyDefaults s) (fun here => other ((σ.keyed k' s stored).symm.trans here)) m mem]
    exact before.applied live m mem
  · rw [← before.status live, observed, observed, spares.readyReplicas]

/-! ## Any number of passes -/

/-- Every size that is stored can be parsed. -/
def SizesParsed (r : SessionReconciler) (σ : Cluster Manifest) : Prop :=
  ∀ k s, σ.sessions.get k = some s → Sizes r s

theorem SizesParsed.pass (parsed : SizesParsed r σ) (k : Key) : SizesParsed r ((Reconcile r k).run serve σ).2 := by
  intro k' s stored
  by_cases here : k' = k
  · subst here
    exact (settled_pass (parsed k') s stored).sizes
  · rw [(spares_pass (parsed k)).sessions k' here] at stored
    exact parsed k' s stored

theorem passes_cons (k : Key) (ks : List Key) :
    passes r (k :: ks) σ = passes r ks ((Reconcile r k).run serve σ).2 := rfl

theorem passes_append (ks ks' : List Key) : passes r (ks ++ ks') σ = passes r ks' (passes r ks σ) := List.foldl_append

/-- A settled key stays settled, whatever is reconciled. -/
theorem SettledAt.passes {ks : List Key} (settled : SettledAt r k σ) (parsed : SizesParsed r σ) :
    SettledAt r k (passes r ks σ) := by
  induction ks generalizing σ with
  | nil => exact settled
  | cons k' ks ih =>
    refine ih ?_ (parsed.pass k')
    by_cases here : k = k'
    · subst here
      exact settled_pass (parsed k)
    · exact settled.spared here (spares_pass (parsed k'))

/-- Every key that was reconciled is settled. -/
theorem passes_settled {ks : List Key} (parsed : SizesParsed r σ) (mem : k ∈ ks) :
    SettledAt r k (passes r ks σ) := by
  induction ks generalizing σ with
  | nil => cases mem
  | cons k' ks ih =>
    rcases List.mem_cons.1 mem with rfl | later
    · exact (settled_pass (parsed k)).passes (parsed.pass k)
    · exact ih (parsed.pass k') later

theorem SettledAt.pass (settled : SettledAt r k σ) : ((Reconcile r k).run serve σ).2 = σ := by
  cases held : σ.sessions.get k with
  | none => rw [run_reconcile_none held]
  | some t => exact (settled t held).run held

/-- **Main result.** Once the keys `ks` have been reconciled, any number of further Reconciles of them, in any
order, leave the cluster exactly as it is: no version changes, so nothing is queued on their account. -/
theorem passes_idle {ks ks' : List Key} (parsed : SizesParsed r σ) (again : ks' ⊆ ks) :
    passes r (ks ++ ks') σ = passes r ks σ := by
  rw [passes_append]
  have settled : ∀ k ∈ ks', SettledAt r k (passes r ks σ) := fun k mem => passes_settled parsed (again mem)
  clear again
  induction ks' with
  | nil => rfl
  | cons k ks' ih =>
    rw [passes_cons, (settled k List.mem_cons_self).pass]
    exact ih fun k' mem => settled k' (List.mem_cons_of_mem _ mem)

/-- The two lookalikes. -/
theorem passes_idle_lookalikes : SizesParsed .default lookalikes ∧
    passes .default ([⟨"ns", "a"⟩, ⟨"ns", "a-home"⟩] ++ [⟨"ns", "a-home"⟩, ⟨"ns", "a"⟩]) lookalikes =
      passes .default [⟨"ns", "a"⟩, ⟨"ns", "a-home"⟩] lookalikes := by
  have parsed : SizesParsed .default lookalikes := fun _ _ _ _ _ => Option.some_ne_none _
  exact ⟨parsed, passes_idle parsed (by simp)⟩

end

end Codespace.Controller
