import Codespace.Controller.Fit

/-!
# Sessions never share children

Every derived name is the prefix, the name of the Session and, for a claim, a suffix. The
kind of a child says which suffixes there can be, and none of them is the end of another,
so the key of a child determines the Session (`mem_desired_session`). This does not depend
on the prefix or on how the names end.
-/

namespace Codespace.Controller
set_option autoImplicit false
open Versioned Interact

variable {χ : Type}

/-- What may follow the name of the Session in the name of a child. -/
def suffixes : Kind → List String
  | .persistentVolumeClaim => ["-home", "-scratch"]
  | _ => [""]

theorem home_ne_scratch (a b : String) : a ++ "-home" ≠ b ++ "-scratch" := by
  intro same
  have last := congrArg (fun text : String => text.toList.getLast?) same
  simp [String.toList_append, List.getLast?_append] at last

/-- A text with one of the suffixes of a kind has no other decomposition. -/
theorem suffixes_inj {kind : Kind} {a b s t : String} (hs : s ∈ suffixes kind) (ht : t ∈ suffixes kind)
    (same : a ++ s = b ++ t) : a = b := by
  have equal : s = t := by
    cases kind with
    | persistentVolumeClaim =>
      simp only [suffixes, List.mem_cons, List.not_mem_nil, or_false] at hs ht
      rcases hs with rfl | rfl <;> rcases ht with rfl | rfl
      · rfl
      · exact absurd same (home_ne_scratch a b)
      · exact absurd same.symm (home_ne_scratch b a)
      · rfl
    | _ => rw [List.mem_singleton.1 hs, List.mem_singleton.1 ht]
  rwa [equal, String.append_left_inj] at same

section

variable {r : SessionReconciler} {sess sess' : Session} {m m' : Manifest}

/-- The key of a child. -/
theorem mem_desired_key (mem : m ∈ desired r sess) : m.key.key.ns = sess.metadata.ns ∧
    ∃ suffix ∈ suffixes m.key.kind, m.key.key.name = r.namePrefix ++ sess.metadata.name ++ suffix := by
  rw [mem_desired] at mem
  rcases mem with rfl | ⟨pvc, storage, -, -, rfl⟩ | ⟨pvc, storage, -, -, rfl⟩ | ⟨replicas, -, rfl⟩ | rfl |
    ⟨net, -, -, rfl⟩
  · exact ⟨rfl, "", List.mem_singleton_self _, String.append_empty.symm⟩
  · exact ⟨rfl, "-home", List.mem_cons_self, String.append_assoc⟩
  · exact ⟨rfl, "-scratch", List.mem_cons_of_mem _ List.mem_cons_self, String.append_assoc⟩
  · exact ⟨rfl, "", List.mem_singleton_self _, String.append_empty.symm⟩
  · exact ⟨rfl, "", List.mem_singleton_self _, String.append_empty.symm⟩
  · exact ⟨rfl, "", List.mem_singleton_self _, String.append_empty.symm⟩

/-- **The key of a child determines the Session.** -/
theorem mem_desired_session (mem : m ∈ desired r sess) (mem' : m' ∈ desired r sess')
    (same : m.key = m'.key) : sess.key = sess'.key := by
  obtain ⟨ns, suffix, ending, name⟩ := mem_desired_key mem
  obtain ⟨ns', suffix', ending', name'⟩ := mem_desired_key mem'
  rw [same] at ns ending name
  have names := suffixes_inj ending ending' (name.symm.trans name')
  rw [String.append_right_inj] at names
  exact Key.mk.injEq .. ▸ ⟨ns.symm.trans ns', names⟩

/-- The manifests of one Session are for different objects. -/
theorem desired_keys_nodup : ((desired r sess).map Manifest.key).Nodup :=
  (desired_nodup r sess).map_on fun _ mem _ mem' same => desired_key_inj mem mem' same

end

/-! ## Two Reconciles -/

/-- The Service sends requests to pods made from the Deployment's template. -/
def Selects (svc : ServiceApply) (dep : DeploymentApply) : Prop :=
  svc.ns = dep.ns ∧
    ∀ key value, svc.selector.lookup key = some value → dep.template.labels.lookup key = some value

section

variable {child : ChildApi χ} {r : SessionReconciler} {k k' : Key} {v v' : Logged χ}

theorem Applies.mem {m : Manifest} (h : Applies r k v) (mem : m ∈ appliedIn v.2) :
    ∃ sess, sess.key = k ∧ m ∈ desired r sess := by
  rcases h with none | ⟨s, sess, -, carries, part⟩
  · rw [none] at mem
    cases mem
  · exact ⟨sess, carries.key, part.subset mem⟩

theorem Applies.keys_nodup (h : Applies r k v) : ((appliedIn v.2).map Manifest.key).Nodup := by
  rcases h with none | ⟨s, sess, -, -, part⟩
  · rw [none]
    exact List.nodup_nil
  · exact desired_keys_nodup.sublist (part.sublist.map _)

/-- A Service selects the pods of its own Session only. -/
theorem Applies.selects (h : Applies r k v) (h' : Applies r k' v') {svc : ServiceApply} {dep : DeploymentApply}
    (mem : .service svc ∈ appliedIn v.2) (mem' : .deployment dep ∈ appliedIn v'.2)
    (selects : Selects svc dep) : k = k' := by
  obtain ⟨sess, rfl, mem⟩ := h.mem mem
  obtain ⟨sess', rfl, mem'⟩ := h'.mem mem'
  obtain rfl := mem_desired_service mem
  obtain ⟨replicas, -, rfl⟩ := mem_desired_deployment mem'
  obtain ⟨ns, labels⟩ := selects
  have names := labels "app" _ (Finmap.lookup_insert _)
  rw [deploymentConfig, desiredNamesLabels, Finmap.lookup_insert, Option.some.injEq,
    String.append_right_inj] at names
  exact Key.mk.injEq .. ▸ ⟨ns, names.symm⟩

/-- **Main result.** The objects that the Reconciles of two Sessions apply are pairwise
different, and neither Service selects a pod of the other Session. -/
theorem children_apart {σ σ' : Cluster χ} {left left' : Api Outcome} (other : k ≠ k')
    (run : Exec (Crowded child).logged (Reconcile r k) (σ, []) left v)
    (run' : Exec (Crowded child).logged (Reconcile r k') (σ', []) left' v') :
    ((appliedIn v.2 ++ appliedIn v'.2).map Manifest.key).Nodup ∧
      (∀ svc dep, .service svc ∈ appliedIn v.2 → .deployment dep ∈ appliedIn v'.2 → ¬ Selects svc dep) ∧
      ∀ svc dep, .service svc ∈ appliedIn v'.2 → .deployment dep ∈ appliedIn v.2 → ¬ Selects svc dep := by
  have h := reconcile_applies run
  have h' := reconcile_applies run'
  refine ⟨?_, fun svc dep mem mem' selects => other (h.selects h' mem mem' selects),
    fun svc dep mem mem' selects => other (h'.selects h mem mem' selects).symm⟩
  rw [List.map_append, List.nodup_append']
  refine ⟨h.keys_nodup, h'.keys_nodup, fun key one both => ?_⟩
  obtain ⟨m, mem, rfl⟩ := List.mem_map.1 one
  obtain ⟨m', mem', same⟩ := List.mem_map.1 both
  obtain ⟨sess, rfl, desires⟩ := h.mem mem
  obtain ⟨sess', rfl, desires'⟩ := h'.mem mem'
  exact other (mem_desired_session desires desires' same.symm)

end

/-- A spec with both volumes. -/
def roomy : SessionSpec :=
  { SessionSpec.plain with home := some ⟨"1Gi", "", "/home"⟩, scratch := some ⟨"1Gi", "", "/scratch"⟩ }

/-- Two Sessions, one of them with the name of the other's claim. -/
def lookalikes : Cluster Manifest :=
  (Cluster.blank.commit (.plain ⟨"ns", "a"⟩ 1 roomy)).commit (.plain ⟨"ns", "a-home"⟩ 2 roomy)

theorem lookalikes_apart : ((appliedIn (reconcileFrom ⟨"ns", "a"⟩ (lookalikes, [])).2.2 ++
    appliedIn (reconcileFrom ⟨"ns", "a-home"⟩ (lookalikes, [])).2.2).map Manifest.key).Nodup :=
  (children_apart (by decide) (reconcileFrom_runs ⟨"ns", "a"⟩ _) (reconcileFrom_runs ⟨"ns", "a-home"⟩ _)).1

end Codespace.Controller
