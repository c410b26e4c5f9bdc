import Codespace.Controller.Settle

/-!
# Reconcile can be cut off and run again

Nobody else writes here: the setting is `Solo`, and the children are what was applied last
(`replaceApi`). A Reconcile is cut off wherever an `Exec` stops.

`Midway` is the invariant of every point of every attempt: the stored Session is either
untouched or settled, and every child is either what it was at the start or the one
desired manifest for its key. It survives any number of attempts because both forms of
the Session desire the same manifests. `Reconciled` adds that all of them are there, and
fixes the outcome.
-/

namespace Codespace.Controller
set_option autoImplicit false
open Versioned Interact

/-- The API server with no other client. -/
def Solo : Setting Call Answer (Cluster Manifest) := .alone (Answers replaceApi)

/-- A Reconcile that gets from `σ` as far as `σ'`. -/
def Attempt (r : SessionReconciler) (k : Key) (σ σ' : Cluster Manifest) : Prop :=
  ∃ left, Exec Solo (Reconcile r k) σ left σ'

/-- A Reconcile that goes from `σ` to `σ'` and reports no error. -/
def Completes (r : SessionReconciler) (k : Key) (σ σ' : Cluster Manifest) : Prop :=
  ∃ after, Exec Solo (Reconcile r k) σ (.ret (.done after)) σ'

/-! ## The children -/

/-- Every child is what it was at the start, or as desired. -/
def Between (start : GoMap ChildKey Manifest) (target : List Manifest) (σ : Cluster Manifest) : Prop :=
  ∀ ck, σ.children.lookup ck = start.lookup ck ∨ ∃ m ∈ target, m.key = ck ∧ σ.children.lookup ck = some m

/-- All these manifests are stored. -/
def Applied (ms : List Manifest) (σ : Cluster Manifest) : Prop :=
  ∀ m ∈ ms, σ.children.lookup m.key = some m

theorem Between.insert {start : GoMap ChildKey Manifest} {target : List Manifest}
    {σ : Cluster Manifest} (h : Between start target σ) {m : Manifest} (mem : m ∈ target) :
    Between start target { σ with children := σ.children.insert m.key m } := by
  intro ck
  by_cases same : ck = m.key
  · subst same
    exact .inr ⟨m, mem, rfl, Finmap.lookup_insert _⟩
  · simpa only [Finmap.lookup_insert_of_ne _ same] using h ck

theorem Applied.insert {r : SessionReconciler} {sess : Session} {ms : List Manifest}
    {σ : Cluster Manifest} (h : Applied ms σ) {m : Manifest} (part : ms ++ [m] <+: desired r sess) :
    Applied (ms ++ [m]) { σ with children := σ.children.insert m.key m } := by
  intro m' mem
  by_cases same : m'.key = m.key
  · rw [desired_key_inj (part.subset mem) (part.subset (by simp)) same]
    exact Finmap.lookup_insert _
  · have earlier : m' ∈ ms := by
      rcases List.mem_append.1 mem with earlier | last
      · exact earlier
      · exact absurd (congrArg Manifest.key (List.mem_singleton.1 last)) same
    exact (Finmap.lookup_insert_of_ne _ same).trans (h m' earlier)

/-- Two outcomes of the same Reconcile store the same children. -/
theorem children_eq {start : GoMap ChildKey Manifest} {target : List Manifest}
    {σ σ' : Cluster Manifest} (between : Between start target σ) (applied : Applied target σ)
    (between' : Between start target σ') (applied' : Applied target σ') :
    σ.children = σ'.children := by
  refine Finmap.ext_lookup fun ck => ?_
  rcases between ck with kept | ⟨m, mem, rfl, now⟩
  · rcases between' ck with kept' | ⟨m, mem, rfl, now⟩
    · exact kept.trans kept'.symm
    · exact (applied m mem).trans now.symm
  · exact now.trans (applied' m mem).symm

/-! ## The invariant -/

section

variable (r : SessionReconciler) (k : Key) (s : Session) (start : GoMap ChildKey Manifest)

/-- Any point of any number of attempts, of a Session that was `s` and had the children
`start`. -/
structure Midway (σ : Cluster Manifest) : Prop where
  stored : Holds k s σ ∨ Holds k (settle s) σ
  children : Between start (desired r (applyDefaults s)) σ

/-- The end of a complete Reconcile. -/
structure Reconciled (σ : Cluster Manifest) : Prop where
  stored : Holds k (settle s) σ
  children : Between start (desired r (applyDefaults s)) σ
  applied : Applied (desired r (applyDefaults s)) σ

end

section

variable {r : SessionReconciler} {k : Key} {s : Session} {start : GoMap ChildKey Manifest}
  {σ σ' : Cluster Manifest}

theorem Reconciled.midway (h : Reconciled r k s start σ) : Midway r k s start σ :=
  ⟨.inr h.stored, h.children⟩

/-- The child phase, from a settled Session. -/
theorem reconcileChildren_wp {sess : Session} (key : sess.key = k)
    (target : desired r sess = desired r (applyDefaults s)) (live : s.deleting = false)
    (stored : Holds k (settle s) σ) (between : Between start (desired r (applyDefaults s)) σ) :
    (reconcileChildren r sess).wp Solo (fun σ _ => Midway r k s start σ) (fun o σ =>
      Midway r k s start σ ∧ ∀ after, o = .done after → Reconciled r k s start σ) σ := by
  let I : List Manifest → Option Deployment → Cluster Manifest → Prop := fun ms _ σ =>
    Holds k (settle s) σ ∧ Between start (desired r (applyDefaults s)) σ ∧ Applied ms σ
  let F : Cluster Manifest → Prop := fun σ =>
    Holds k (settle s) σ ∧ Between start (desired r (applyDefaults s)) σ
  have settledLive : (settle s).deleting = false := by rw [settle_deleting, live]
  have midway : ∀ {σ}, F σ → Midway r k s start σ := fun h => ⟨.inr h.1, h.2⟩
  have phase : ChildPhase Solo (fun σ _ => Midway r k s start σ) r sess I F (fun o σ =>
      Midway r k s start σ ∧ ∀ after, o = .done after → Reconciled r k s start σ) :=
    { rely := fun _ _ _ _ h same => same ▸ h
      relyFailed := fun _ _ h same => same ▸ h
      relyDone := fun _ _ _ h same => same ▸ h
      guarantee := fun _ _ _ _ h => midway ⟨h.1, h.2.1⟩
      guaranteeFailed := fun _ _ h => midway h
      applied := by
        rintro ms d m σ σ' ⟨stored, between, applied⟩ part ans
        rcases answers_apply ans with ⟨rfl, e, bad⟩ | ⟨c, ok, rfl⟩
        · cases bad
        · cases ok
          exact ⟨stored, between.insert (target ▸ part.subset (by simp)), applied.insert part⟩
      rejected := by
        rintro ms d m e σ σ' ⟨stored, between, -⟩ part ans
        rcases answers_apply ans with ⟨rfl, -⟩ | ⟨c, ok, rfl⟩
        · exact ⟨stored, between⟩
        · cases ok
          exact ⟨stored, between.insert (target ▸ part.subset (by simp))⟩
      deployment := fun _ _ _ _ h ans => (answers_getDeployment ans).1 ▸ h
      noDeployment := fun _ _ _ _ _ h ans => (answers_getDeployment ans).1 ▸ ⟨h.1, h.2.1⟩
      service := fun _ _ svc _ _ h ans => by
        obtain ⟨same, read⟩ := answers_getService ans
        exact ⟨by rw [read svc rfl], same ▸ h⟩
      noService := fun _ _ _ _ _ h ans => (answers_getService ans).1 ▸ ⟨h.1, h.2.1⟩
      panicked := fun _ _ _ _ h _ => ⟨midway ⟨h.1, h.2.1⟩, nofun⟩
      reported := by
        rintro message m a σ σ' - ⟨stored, between⟩ ans
        obtain ⟨stored', same⟩ := stored.updateStatus ans key settledLive
        exact ⟨midway ⟨stored', fun ck => by rw [same]; exact between ck⟩, nofun⟩
      finished := by
        rintro dep a σ σ' ⟨stored, between, applied⟩ ans
        obtain ⟨stored', same⟩ := stored.updateStatus ans key settledLive
        have between' : Between start (desired r (applyDefaults s)) σ' :=
          fun ck => by rw [same]; exact between ck
        refine ⟨midway ⟨stored', between'⟩, fun _ _ => ⟨stored', between', ?_⟩⟩
        intro m mem
        rw [same]
        exact applied m (target ▸ mem) }
  exact wp_reconcileChildren phase ⟨stored, between, nofun⟩

/-! ### What an attempt may find stored -/

section

variable {cur : Session} (alike : Alike cur s ∨ Alike cur (settle s))

include alike

theorem version_live (live : s.deleting = false) : cur.deleting = false := by
  rcases alike with h | h
  · rw [h.deleting, live]
  · rw [h.deleting, settle_deleting, live]

theorem version_target : desired r (applyDefaults cur) = desired r (applyDefaults s) := by
  rcases alike with h | h
  · exact desired_alike h
  · rw [desired_alike h, desired_settle]

/-- With the finalizer it is settled already. -/
theorem version_settled (has : sessionFinalizer ∈ cur.metadata.finalizers) : Alike cur (settle s) := by
  rcases alike with h | h
  · rw [settle_of_finalizer (h.finalizers ▸ has)]
    exact h
  · exact h

theorem version_original (missing : sessionFinalizer ∉ cur.metadata.finalizers) : Alike cur s := by
  rcases alike with h | h
  · exact h
  · exact absurd (h.finalizers ▸ settle_finalizer s) missing

end

theorem Midway.found (mid : Midway r k s start σ) :
    ∃ cur, σ.sessions.get k = some cur ∧ (Alike cur s ∨ Alike cur (settle s)) := by
  rcases mid.stored with ⟨cur, held, alike⟩ | ⟨cur, held, alike⟩
  · exact ⟨cur, held, .inl alike⟩
  · exact ⟨cur, held, .inr alike⟩

/-- One attempt, from any point of earlier ones. -/
theorem reconcile_wp (mid : Midway r k s start σ) (live : s.deleting = false) :
    (Reconcile r k).wp Solo (fun σ _ => Midway r k s start σ) (fun o σ =>
      Midway r k s start σ ∧ ∀ after, o = .done after → Reconciled r k s start σ) σ := by
  obtain ⟨cur, held, alike⟩ := mid.found
  have read : ∀ σ₂ got, Answers replaceApi σ (.get k) (.ok got) σ₂ → σ₂ = σ ∧ got = cur :=
    fun σ₂ got ans => answers_get_held ans held
  refine wp_reconcile (fun _ same => same ▸ mid) ?_ ?_ ?_ ?_
  · rintro _ σ₂ _ e rfl ans rfl
    obtain ⟨rfl, ⟨found, -, eq⟩ | ⟨e', eq, missing⟩⟩ := answers_get ans
    · cases eq
    · cases eq
      refine ⟨mid, fun after eq => ?_⟩
      split at eq
      · rename_i notFound
        rw [missing notFound] at held
        cases held
      · cases eq
  · rintro _ σ₂ got rfl ans del
    obtain ⟨-, rfl⟩ := read σ₂ got ans
    rw [version_live alike live] at del
    cases del
  · rintro _ σ₂ got rfl ans - has
    obtain ⟨rfl, rfl⟩ := read σ₂ got ans
    -- the finalizer is there, so the Session is already settled and nothing is stored
    exact reconcileChildren_wp (σ₂.keyed k got held) (version_target alike) live ⟨got, held, version_settled alike has⟩
      mid.children
  · rintro _ σ₂ _ got rfl ans rfl - has
    obtain ⟨rfl, rfl⟩ := read σ₂ got ans
    have original := version_original alike has
    refine ⟨mid, ?_, ?_⟩
    · rintro e σ₃ _ ans' rfl
      obtain ⟨stored, children, -⟩ := Holds.ensureFinalizer held original live has ans'
      exact ⟨⟨stored, fun ck => by rw [children]; exact mid.children ck⟩, nofun⟩
    · intro sess σ₃ ans'
      obtain ⟨-, children, ok⟩ := Holds.ensureFinalizer held original live has ans'
      obtain ⟨stored, key, settled⟩ := ok sess rfl
      refine reconcileChildren_wp key ?_ live stored (fun ck => by rw [children]; exact mid.children ck)
      have defaulted : (settle s).spec = defaultSpec s.spec :=
        settle_spec_of_missing (original.finalizers ▸ has)
      have kept := settle_kept s
      exact desired_congr (settled.name.trans kept.1) (settled.ns.trans kept.2.1)
        (settled.uid.trans kept.2.2) (settled.spec.trans defaulted)

/-! ## Whole histories -/

/-- Any number of attempts stay midway. -/
theorem attempts_midway (held : σ.sessions.get k = some s) (live : s.deleting = false)
    (attempts : Relation.ReflTransGen (Attempt r k) σ σ') : Midway r k s σ.children σ' := by
  induction attempts with
  | refl => exact ⟨.inl ⟨s, held, .refl s⟩, fun _ => .inl rfl⟩
  | tail _ last mid =>
    obtain ⟨left, run⟩ := last
    exact Prog.wp_cut run (reconcile_wp mid live) (fun _ _ h => h) (fun _ _ h => h.1)

/-- A complete Reconcile after any number of attempts. -/
theorem completes_reconciled (held : σ.sessions.get k = some s) (live : s.deleting = false)
    {σ₁ : Cluster Manifest} (attempts : Relation.ReflTransGen (Attempt r k) σ σ₁)
    (last : Completes r k σ₁ σ') : Reconciled r k s σ.children σ' := by
  obtain ⟨after, run⟩ := last
  exact (Prog.wp_result run (reconcile_wp (attempts_midway held live attempts) live)).2 after rfl

end

/-- The spec and finalizers stored under the key, and all children, are the same. -/
structure SameOutcome (k : Key) (σ σ' : Cluster Manifest) : Prop where
  spec : (σ.sessions.get k).map Session.spec = (σ'.sessions.get k).map Session.spec
  finalizers : (σ.sessions.get k).map (·.metadata.finalizers) =
    (σ'.sessions.get k).map (·.metadata.finalizers)
  children : σ.children = σ'.children

theorem Reconciled.same {r : SessionReconciler} {k : Key} {s : Session}
    {start : GoMap ChildKey Manifest} {σ σ' : Cluster Manifest} (h : Reconciled r k s start σ)
    (h' : Reconciled r k s start σ') : SameOutcome k σ σ' := by
  obtain ⟨a, held, alike⟩ := h.stored
  obtain ⟨b, held', alike'⟩ := h'.stored
  refine ⟨?_, ?_, children_eq h.children h.applied h'.children h'.applied⟩
  · rw [held, held', Option.map_some, Option.map_some, alike.spec, alike'.spec]
  · rw [held, held', Option.map_some, Option.map_some, alike.finalizers, alike'.finalizers]

/-- A complete Reconcile of a settled Session changes nothing. -/
theorem Reconciled.again {r : SessionReconciler} {k : Key} {s : Session}
    {start : GoMap ChildKey Manifest} {σ σ' : Cluster Manifest} (h : Reconciled r k s start σ)
    (live : s.deleting = false) (more : Completes r k σ σ') : SameOutcome k σ' σ := by
  obtain ⟨cur, held, alike⟩ := h.stored
  have target : desired r (applyDefaults cur) = desired r (applyDefaults s) := version_target (.inr alike)
  have settled : settle cur = cur := settle_of_finalizer (alike.finalizers ▸ settle_finalizer s)
  have now : Reconciled r k cur σ.children σ :=
    ⟨⟨cur, held, by rw [settled]; exact .refl cur⟩, fun _ => .inl rfl, by rw [target]; exact h.applied⟩
  exact (completes_reconciled held (version_live (.inr alike) live) .refl more).same now

/-- **Main result.** Cut-off attempts do not matter: a Reconcile that completes after any
number of them leaves the spec, the finalizers and the children as a single complete
Reconcile from the start does; one more changes none of them; and the children are the
same from a start whose Session has its defaults stored or not, with any finalizers. -/
theorem reconcile_resumes {r : SessionReconciler} {k : Key} {s : Session}
    {σ σ₀ σ₁ σ₂ : Cluster Manifest} (held : σ.sessions.get k = some s) (live : s.deleting = false)
    (attempts : Relation.ReflTransGen (Attempt r k) σ σ₀) (last : Completes r k σ₀ σ₁)
    (single : Completes r k σ σ₂) :
    SameOutcome k σ₁ σ₂ ∧ (∀ σ₃, Completes r k σ₁ σ₃ → SameOutcome k σ₃ σ₁) ∧
      ∀ τ τ' t, τ.sessions.get k = some t → t.deleting = false →
        t.metadata.uid = s.metadata.uid → (t.spec = s.spec ∨ t.spec = defaultSpec s.spec) →
        τ.children = σ.children → Completes r k τ τ' → τ'.children = σ₁.children := by
  have resumed := completes_reconciled held live attempts last
  refine ⟨resumed.same (completes_reconciled held live .refl single),
    fun σ₃ more => resumed.again live more, ?_⟩
  intro τ τ' t held' live' uid spec start more
  have keys : t.key = s.key := (τ.keyed k t held').trans (σ.keyed k s held).symm
  have target : desired r (applyDefaults t) = desired r (applyDefaults s) := by
    refine desired_congr (congrArg Key.name keys) (congrArg Key.ns keys) uid ?_
    rcases spec with same | defaulted
    · exact congrArg defaultSpec same
    · rw [applyDefaults_spec, applyDefaults_spec, defaulted, defaultSpec_idem]
  have other := completes_reconciled held' live' .refl more
  rw [start] at other
  refine children_eq (target ▸ other.children) (target ▸ other.applied) resumed.children resumed.applied

/-- A Session with nothing set, reconciled after an attempt that was cut off between the
Update and the first child. -/
theorem reconcile_resumes_plain :
    let k : Key := ⟨"ns", "a"⟩
    let σ : Cluster Manifest := Cluster.blank.commit (Session.plain k 1 SessionSpec.plain)
    ∃ σ₀ σ₁ σ₂, Relation.ReflTransGen (Attempt .default k) σ σ₀ ∧ σ₀.sessions.get k ≠ σ.sessions.get k ∧
      Completes .default k σ₀ σ₁ ∧ SameOutcome k σ₁ σ₂ := by
  intro k σ
  let step := answer replaceApi
  let σ₀ := (step (step σ (.get k)).2 (.update (settle (stamp 1 (Session.plain k 1 SessionSpec.plain))))).2
  have cut : Attempt .default k σ σ₀ :=
    ⟨_, .call (answers_answer _ _ _) (.call (answers_answer _ _ _) (.refl _ _))⟩
  have completes : ∀ τ, ((Reconcile .default k).run step τ).1 = .done (some 120) →
      Completes .default k τ ((Reconcile .default k).run step τ).2 :=
    fun τ done => ⟨some 120, done ▸ Exec.of_run (answers_answer replaceApi) _ _⟩
  have held : σ.sessions.get k = some (stamp 1 (Session.plain k 1 SessionSpec.plain)) := rfl
  have last := completes σ₀ rfl
  have single := completes σ rfl
  exact ⟨σ₀, _, _, .single cut, by decide, last,
    (reconcile_resumes held rfl (.single cut) last single).1⟩

end Codespace.Controller
