import Codespace.Controller.Apart
import Codespace.Controller.Template
import Codespace.Text.Labels

/-!
# The names of the children

The API server accepts any DNS-1123 subdomain as the name of a Session. The controller puts
a prefix before it, and a suffix behind it for a claim, and uses the result for objects of
five kinds and for a label. The rule for Services is the narrowest: `ShortLabel` are the
names for which every derived one passes (`names_valid_iff`).
-/

namespace Codespace.Controller
set_option autoImplicit false
open Versioned Interact Text

variable {χ : Type}

/-! ## The rules -/

def labelsValid (labels : GoMap String String) : Bool := labels.all fun _ value => isLabelValue value

/-- The names in a manifest follow the rules of the API server. -/
def namesValid : Manifest → Bool
  | .serviceAccount m => isSubdomain m.name
  | .persistentVolumeClaim m => isSubdomain m.name
  | .deployment m => isSubdomain m.name && labelsValid m.labels && labelsValid m.matchLabels &&
      labelsValid m.template.labels && isSubdomain m.template.serviceAccountName &&
      m.template.volumes.all fun vol => isSubdomain vol.claimName
  | .service m => isDNS1035 m.name && labelsValid m.selector
  | .ingress m => isSubdomain m.name &&
      m.rules.all fun rule => rule.paths.all fun path => isDNS1035 path.backend.serviceName

/-- A name without dots that leaves room for the prefix in 63 letters. -/
def ShortLabel (name : String) : Prop := '.' ∉ name.toList ∧ name.length ≤ 60

instance (name : String) : Decidable (ShortLabel name) := inferInstanceAs (Decidable (_ ∧ _))

/-! ## Derived names -/

section

variable {name : String}

theorem derived_label (h : isLabel name.toList = true) : isLabel1035 ("cs-" ++ name).toList = true := by
  rw [String.toList_append]
  exact edged_prepend h (by decide) (by decide) (by decide)

theorem claim_label {suffix : String} (h : isLabel name.toList = true) (known : suffix ∈ ["-home", "-scratch"]) :
    isLabel ("cs-" ++ name ++ suffix).toList = true := by
  rw [String.toList_append]
  have front := isLabel_of_1035 (derived_label h)
  simp only [List.mem_cons, List.not_mem_nil, or_false] at known
  rcases known with rfl | rfl
  · exact edged_append front (by decide) (by decide) (by decide)
  · exact edged_append front (by decide) (by decide) (by decide)

theorem labelsValid_app (value : String) :
    labelsValid ((∅ : GoMap String String).insert "app" value) = isLabelValue value := by
  rfl

/-- What a short label gives. -/
structure Derived (name : String) : Prop where
  service : isDNS1035 ("cs-" ++ name) = true
  value : isLabelValue ("cs-" ++ name) = true
  object : isSubdomain ("cs-" ++ name) = true
  claim : ∀ suffix ∈ ["-home", "-scratch"], isSubdomain ("cs-" ++ name ++ suffix) = true

theorem ShortLabel.derived (short : ShortLabel name) (accepted : isSubdomain name = true) : Derived name := by
  obtain ⟨none, length⟩ := short
  obtain ⟨-, label⟩ := (isSubdomain_iff_of_no_dot none).1 accepted
  have long : ("cs-" ++ name).length = 3 + name.length := String.length_append ..
  have front := derived_label label
  refine ⟨?_, ?_, ?_, fun suffix known => ?_⟩
  · rw [isDNS1035, Bool.and_eq_true, decide_eq_true_eq]
    exact ⟨by omega, front⟩
  · exact isLabelValue_of_label (by omega) (isLabel_of_1035 front)
  · exact isSubdomain_of_label (by omega) (isLabel_of_1035 front)
  · refine isSubdomain_of_label ?_ (claim_label label known)
    rw [String.length_append, long]
    have ending : suffix.length ≤ 8 := by
      simp only [List.mem_cons, List.not_mem_nil, or_false] at known
      rcases known with rfl | rfl <;> decide
    omega

/-- The rule for Services asks for a short label. -/
theorem shortLabel_of_service (h : isDNS1035 ("cs-" ++ name) = true) : ShortLabel name := by
  rw [isDNS1035, Bool.and_eq_true, decide_eq_true_eq, String.length_append] at h
  obtain ⟨length, label⟩ := h
  have no := isLabel_no_dot (isLabel_of_1035 label)
  rw [String.toList_append] at no
  have three : "cs-".length = 3 := by decide
  exact ⟨fun dot => no (List.mem_append_right _ dot), by omega⟩

end

section

variable {r : SessionReconciler} {sess : Session}

/-- **The names of a Session.** Of the names that the API server accepts for a Session, all
derived ones follow their rules exactly for the short labels. -/
theorem namesValid_iff (standard : r.namePrefix = "cs-") (accepted : isSubdomain sess.metadata.name = true) :
    (∀ m ∈ desired r sess, namesValid m = true) ↔ ShortLabel sess.metadata.name := by
  have base : childName r sess = "cs-" ++ sess.metadata.name := by rw [← standard]; rfl
  have labels : (desiredNamesLabels r sess).2 = (∅ : GoMap String String).insert "app" (childName r sess) := rfl
  have claim : ∀ suffix, childName r sess ++ "-" ++ suffix = "cs-" ++ sess.metadata.name ++ ("-" ++ suffix) := by
    intro suffix
    rw [base, String.append_assoc]
  constructor
  · intro all
    have service := all (serviceManifest r sess) (mem_desired.2 (.inr (.inr (.inr (.inr (.inl rfl))))))
    simp only [serviceManifest, serviceConfig, namesValid, base, Bool.and_eq_true] at service
    exact shortLabel_of_service service.1
  · intro short m mem
    have derived := short.derived accepted
    rcases mem_desired.1 mem with rfl | ⟨pvc, storage, -, -, rfl⟩ | ⟨pvc, storage, -, -, rfl⟩ | ⟨replicas, -, rfl⟩ |
      rfl | ⟨net, -, -, rfl⟩
    · simp [namesValid, serviceAccountConfig, base, derived.object]
    · exact (congrArg isSubdomain (claim "home")).trans (derived.claim "-home" (by decide))
    · exact (congrArg isSubdomain (claim "scratch")).trans (derived.claim "-scratch" (by decide))
    · simp only [namesValid, deploymentConfig, labels, labelsValid_app, base, derived.value, derived.object,
        Bool.and_self, Bool.true_and, List.all_eq_true]
      intro vol mem
      rcases mem_volumes.1 mem with ⟨pvc, -, rfl⟩ | ⟨pvc, -, rfl⟩
      · exact derived.claim "-home" (by decide)
      · exact derived.claim "-scratch" (by decide)
    · simp [namesValid, serviceManifest, serviceConfig, labels, labelsValid_app, base, derived.service, derived.value]
    · simp [namesValid, ingressConfig, base, derived.service, derived.object]

end

/-! ## Runs -/

/-- The call applies a manifest with an invalid name. -/
def misnamed : Call → Bool
  | .apply _ m => !namesValid m
  | _ => false

/-- A call fails if it applies a manifest with an invalid name, and only then. -/
def NamesOnly (c : Call) (a : Answer c) : Prop := (failure c a).isSome = misnamed c

/-- The API server alone, with no failure but for invalid names. -/
def NameChecking (child : ChildApi χ) : Setting Call Answer (Cluster χ) :=
  .alone fun σ c a σ' => Answers child σ c a σ' ∧ NamesOnly c a

/-- Where a Reconcile ends: done with valid names, or failed with an invalid one. -/
structure Named (r : SessionReconciler) (sess : Session) (o : Outcome) (σ : Cluster χ) : Prop where
  done : o = .done (some 120) ↔ ∀ m ∈ desired r sess, namesValid m = true
  phase : ∃ t, σ.sessions.get sess.key = some t ∧
    (t.status.phase = "Error" ↔ ∃ m ∈ desired r sess, namesValid m = false)

section

variable {child : ChildApi χ} {r : SessionReconciler} {k : Key} {s sess : Session} {σ σ' : Cluster χ}

/-- It depends on the key and the desired manifests only. -/
theorem Named.congr {sess' : Session} {o : Outcome} (h : Named r sess o σ) (key : sess'.key = sess.key)
    (same : desired r sess' = desired r sess) : Named r sess' o σ :=
  ⟨same ▸ h.done, by rw [key, same]; exact h.phase⟩

/-- A call that names nothing succeeds. -/
theorem NamesOnly.succeeds {c : Call} {a : Answer c} (h : NamesOnly c a) (other : misnamed c = false) :
    failure c a = none := by
  rw [NamesOnly, other] at h
  simpa using h

/-- A status write is stored. -/
theorem updateStatus_stored {status : SessionStatus} {a : Answer (.updateStatus { sess with status := status })}
    (ans : (NameChecking child).answer σ (.updateStatus { sess with status := status }) a σ') :
    ∃ t, σ'.sessions.get sess.key = some t ∧ t.status = status := by
  have ok := ans.2.succeeds rfl
  obtain ⟨-, e, rfl⟩ | ⟨cur, found, rfl, -⟩ := answers_updateStatus ans.1
  · cases ok
  · obtain ⟨held, -⟩ := Store.check_ok.1 found
    have key : (statusUpdated cur { sess with status := status }).key = sess.key := σ.keyed _ cur held
    rcases Cluster.commit_get_self σ (statusUpdated cur { sess with status := status }) with ⟨-, now⟩ | ⟨gone, -⟩
    · rw [key] at now
      exact ⟨_, now, rfl⟩
    · exact absurd (σ.held _ _ held) gone

theorem reconcileChildren_named (whole : Whole r sess) : (reconcileChildren r sess).wp (NameChecking child)
    (fun _ _ => True) (Named r sess) σ := by
  have phase : ChildPhase (NameChecking child) (fun _ _ => True) r sess
      (fun ms _ _ => ∀ m ∈ ms, namesValid m = true) (fun _ => ∃ m ∈ desired r sess, namesValid m = false)
      (Named r sess) :=
    { rely := fun _ _ _ _ h _ => h
      relyFailed := fun _ _ h _ => h
      relyDone := fun _ _ _ h same => same ▸ h
      guarantee := fun _ _ _ _ _ => trivial
      guaranteeFailed := fun _ _ _ => trivial
      applied := by
        intro ms d m σ σ' valid part ans m' mem
        rcases List.mem_append.1 mem with old | new
        · exact valid m' old
        · rw [List.mem_singleton.1 new]
          simpa [misnamed, failure] using ans.2.symm
      rejected := by
        intro ms d m e σ σ' valid part ans
        exact ⟨m, part.subset (by simp), by simpa [misnamed, failure] using ans.2.symm⟩
      deployment := fun _ _ _ _ h _ => h
      noDeployment := fun _ _ _ _ _ _ ans => nomatch ans.2.succeeds rfl
      service := fun _ _ svc _ _ h ans => ⟨by rw [(answers_getService ans.1).2 svc rfl], h⟩
      noService := fun _ _ _ _ _ _ ans => nomatch ans.2.succeeds rfl
      panicked := fun _ _ _ _ _ broken => absurd whole broken
      reported := by
        rintro message m a σ σ' - ⟨m', mem, invalid⟩ ans
        obtain ⟨t, held, same⟩ := updateStatus_stored ans
        refine ⟨⟨nofun, fun valid => absurd (valid m' mem) (by simp [invalid])⟩, t, held, ?_⟩
        rw [same]
        exact ⟨fun _ => ⟨m', mem, invalid⟩, fun _ => rfl⟩
      finished := by
        rintro dep a σ σ' valid ans
        obtain ⟨t, held, same⟩ := updateStatus_stored ans
        refine ⟨⟨fun _ => valid, fun _ => rfl⟩, t, held, ?_⟩
        rw [same]
        refine ⟨fun error => absurd error ?_, fun ⟨m, mem, invalid⟩ => absurd (valid m mem) (by simp [invalid])⟩
        unfold nextStatus
        simp only
        split <;> decide }
  exact wp_reconcileChildren phase nofun

/-- One Reconcile of a live Session whose sizes can be parsed. -/
theorem reconcile_named (held : σ.sessions.get k = some s) (live : s.deleting = false) (sizes : Sizes r s) :
    (Reconcile r k).wp (NameChecking child) (fun _ _ => True) (Named r (applyDefaults s)) σ := by
  have read : ∀ σ₂ cur, (NameChecking child).answer σ (.get k) (.ok cur) σ₂ → σ₂ = σ ∧ cur = s :=
    fun σ₂ cur ans => answers_get_held ans.1 held
  refine wp_reconcile (fun _ _ => trivial) ?_ ?_ ?_ ?_
  · rintro _ σ₂ _ e rfl ans rfl
    exact nomatch ans.2.succeeds rfl
  · rintro _ σ₂ cur rfl ans del
    obtain ⟨-, rfl⟩ := read σ₂ cur ans
    rw [live] at del
    cases del
  · rintro _ σ₂ cur rfl ans - -
    obtain ⟨-, rfl⟩ := read σ₂ cur ans
    exact reconcileChildren_named ⟨nofun, sizes⟩
  · rintro _ σ₂ _ cur rfl ans rfl - -
    obtain ⟨rfl, rfl⟩ := read σ₂ cur ans
    refine ⟨trivial, ?_, fun sess σ₄ ans' => ?_⟩
    · rintro e σ₃ _ ans' rfl
      exact nomatch ans'.2.succeeds rfl
    obtain ⟨now, found, -, rfl⟩ := answers_update_ok ans'.1
    obtain ⟨finalizers, eq⟩ := addFinalizer_eq (applyDefaults cur)
    obtain rfl := Store.check_held found ((addFinalizer_key _).trans (σ₂.keyed k cur held)) held
    rw [eq]
    exact Prog.wp_mono (reconcileChildren_named ⟨nofun, sizes⟩) fun o σ' named =>
      named.congr rfl (desired_congr rfl rfl rfl rfl)

/-- **Main result.** The derived names of a Session follow their rules exactly for a short
label; exactly then its Reconcile gets done on an API server that checks names, and else it
is left in phase Error. -/
theorem derived_names_iff {o : Outcome} (standard : r.namePrefix = "cs-") (accepted : isSubdomain k.name = true)
    (held : σ.sessions.get k = some s) (live : s.deleting = false) (sizes : Sizes r s)
    (run : Exec (NameChecking child) (Reconcile r k) σ (.ret o) σ') :
    ((∀ m ∈ desired r (applyDefaults s), namesValid m = true) ↔ ShortLabel k.name) ∧
      (o = .done (some 120) ↔ ShortLabel k.name) ∧
      ∃ t, σ'.sessions.get k = some t ∧ (t.status.phase = "Error" ↔ ¬ ShortLabel k.name) := by
  have key : s.key = k := σ.keyed k s held
  have names : (∀ m ∈ desired r (applyDefaults s), namesValid m = true) ↔ ShortLabel k.name := by
    subst key
    exact namesValid_iff standard accepted
  have named := Prog.wp_result run (reconcile_named held live sizes)
  obtain ⟨t, stored, phase⟩ := named.phase
  rw [applyDefaults_key, key] at stored
  refine ⟨names, named.done.trans names, t, stored, phase.trans ?_⟩
  rw [← names]
  simp

end

/-- A Session called `a`. -/
def shortStart : Cluster Manifest := Cluster.blank.commit (.plain ⟨"ns", "a"⟩ 1 roomy)

/-- Its first Reconcile. -/
def shortRun : Outcome × Cluster Manifest := (Reconcile .default ⟨"ns", "a"⟩).run (answer replaceApi) shortStart

/-- No call of it fails, and every name is valid. -/
theorem shortRun_exec : Exec (NameChecking replaceApi) (Reconcile .default ⟨"ns", "a"⟩) shortStart
    (.ret shortRun.1) shortRun.2 := by
  have checked : (Reconcile .default ⟨"ns", "a"⟩).runChecks (answer replaceApi)
      (fun _ c a => (failure c a).isSome == misnamed c) shortStart = true := by decide +kernel
  refine Exec.of_checked_run (fun σ c ok => ?_) checked
  exact ⟨answers_answer replaceApi σ c, eq_of_beq ok⟩

theorem short_label_done : ShortLabel "a" ∧ shortRun.1 = .done (some 120) := by
  have short : ShortLabel "a" := by decide
  have sizes : Sizes .default (stamp 1 (.plain ⟨"ns", "a"⟩ 1 roomy)) := fun _ _ => Option.some_ne_none _
  exact ⟨short, (derived_names_iff rfl (by decide) rfl rfl sizes shortRun_exec).2.1.2 short⟩

/-- The names, of every Session that the API server accepts. -/
def NamesFollow (r : SessionReconciler) : Prop :=
  ∀ sess : Session, isSubdomain sess.metadata.name = true → ∀ m ∈ desired r sess, namesValid m = true

/-- A dot is fine in the name of a Session, and not in the name of its Service. -/
theorem dotted_not_valid : ¬ NamesFollow .default := by
  intro claim
  have service := claim (.plain ⟨"ns", "a.b"⟩ 1 roomy) (by decide +kernel) (serviceManifest _ _)
    (mem_desired.2 (.inr (.inr (.inr (.inr (.inl rfl))))))
  exact absurd service (by decide +kernel)

end Codespace.Controller
