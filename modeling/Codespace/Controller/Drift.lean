import Codespace.Api.Fields
import Codespace.Controller.Settle

/-!
# What Reconcile does about drift

The children as server-side apply keeps them, with an owner for each field. Others change
fields with plain updates and so take them over, and Reconcile applies without force: one
such field of a child makes the Apply of that child fail, and the rest of the Reconcile is
not run. `Faultless` is the setting in which no call fails for another reason. In the child
phase `Repairing` holds: what has been applied is as desired, and had no foreign field;
everything else is as it was.
-/

namespace Codespace.Controller
set_option autoImplicit false
open Versioned Interact FieldOwnership

/-! ## Outside writes -/

/-- A plain update of one field of a child by another manager; no value means removal. -/
structure OutsideWrite where
  child : ChildKey
  manager : String
  field : Field
  value : Option FieldValue

def outsideWrite (σ : Cluster Child) (w : OutsideWrite) : Cluster Child :=
  match σ.children.lookup w.child with
  | none => σ
  | some c => { σ with children := σ.children.insert w.child (c.update w.manager w.field w.value) }

/-- The cluster after a sequence of outside writes. -/
def drifted (σ : Cluster Child) (ws : List OutsideWrite) : Cluster Child := ws.foldl outsideWrite σ

/-! ## Calls that fail for ownership only -/

/-- The error a call was answered with. -/
def failure : (c : Call) → Answer c → Option ApiError
  | .get _, .error e => some e
  | .list _ _, .error e => some e
  | .create _, .error e => some e
  | .update _, .error e => some e
  | .updateStatus _, .error e => some e
  | .delete _, .error e => some e
  | .apply _ _, .error e => some e
  | .getDeployment _, .error e => some e
  | .getService _, .error e => some e
  | _, _ => none

def isApply : Call → Bool
  | .apply _ _ => true
  | _ => false

/-- If the call failed, it is an Apply that was rejected for field ownership. -/
def OnlyOwnership (c : Call) (a : Answer c) : Prop :=
  ∀ e ∈ failure c a, e.isConflict = true ∧ isApply c = true

instance (c : Call) (a : Answer c) : Decidable (OnlyOwnership c a) :=
  inferInstanceAs (Decidable (∀ _ ∈ _, _))

/-- The API server alone, with no failure but rejected Applies. -/
def Faultless : Setting Call Answer (Cluster Child) :=
  .alone fun σ c a σ' => Answers ssaApi σ c a σ' ∧ OnlyOwnership c a

/-! ## The child phase -/

/-- Every desired child has every field at its desired value. -/
def Restored (r : SessionReconciler) (sess : Session) (σ : Cluster Child) : Prop :=
  ∀ m ∈ desired r sess, ∃ c, σ.children.lookup m.key = some c ∧ c.Has m.config

/-- A field the manifest sets is another manager's, with another value. -/
def Foreign (r : SessionReconciler) (σ : Cluster Child) (m : Manifest) : Prop :=
  ∃ c, σ.children.lookup m.key = some c ∧ c.Conflict r.ssaFieldOwner m.config

/-- The manifests `ms` have been applied to the children of `σ₀`. -/
structure Repairing (r : SessionReconciler) (σ₀ : Cluster Child) (ms : List Manifest)
    (σ : Cluster Child) : Prop where
  done : ∀ m ∈ ms, ¬ Foreign r σ₀ m ∧ ∃ c, σ.children.lookup m.key = some c ∧ c.Has m.config
  rest : ∀ ck, (∀ m ∈ ms, m.key ≠ ck) → σ.children.lookup ck = σ₀.children.lookup ck

/-- A child with a foreign field was left alone. -/
def Stuck (r : SessionReconciler) (sess : Session) (σ₀ σ : Cluster Child) : Prop :=
  ∃ m ∈ desired r sess, Foreign r σ₀ m ∧ σ.children.lookup m.key = σ₀.children.lookup m.key

section

variable {r : SessionReconciler} {k : Key} {s sess : Session} {σ₀ σ σ' : Cluster Child}
  {ms : List Manifest} {m : Manifest}

theorem Stuck.not_restored (h : Stuck r sess σ₀ σ) : ¬ Restored r sess σ := by
  obtain ⟨m, mem, ⟨c, held, conflict⟩, same⟩ := h
  intro restored
  obtain ⟨c', held', has⟩ := restored m mem
  rw [same, held, Option.some.injEq] at held'
  exact conflict.not_has (held' ▸ has)

theorem conflict_foreign (conflict : ((σ.children.lookup m.key).getD .empty).Conflict r.ssaFieldOwner m.config) :
    Foreign r σ m := by
  cases held : σ.children.lookup m.key with
  | none => exact absurd (held ▸ conflict) Managed.empty_not_conflict
  | some c => exact ⟨c, held, by simpa [held] using conflict⟩

/-- The next manifest has not been applied yet. -/
theorem Repairing.next (h : Repairing r σ₀ ms σ) (fresh : ∀ m' ∈ ms, m'.key ≠ m.key) :
    σ.children.lookup m.key = σ₀.children.lookup m.key := h.rest m.key fresh

theorem Repairing.applied (h : Repairing r σ₀ ms σ) (fresh : ∀ m' ∈ ms, m'.key ≠ m.key)
    (ans : Faultless.answer σ (.apply r.ssaFieldOwner m) (.ok ()) σ') : Repairing r σ₀ (ms ++ [m]) σ' := by
  rcases answers_apply ans.1 with ⟨-, e, bad⟩ | ⟨c, ok, rfl⟩
  · cases bad
  rcases ssaApi_cases r.ssaFieldOwner (σ.children.lookup m.key) m with ⟨-, no⟩ | ⟨-, no⟩ | ⟨free, yes⟩
  · rw [no] at ok
    cases ok
  · rw [no] at ok
    cases ok
  rw [yes] at ok
  cases ok
  constructor
  · intro m' mem
    rcases List.mem_append.1 mem with earlier | last
    · obtain ⟨own, c, held, has⟩ := h.done m' earlier
      exact ⟨own, c, by rwa [Finmap.lookup_insert_of_ne _ (fresh m' earlier)], has⟩
    · rw [List.mem_singleton.1 last]
      refine ⟨fun ⟨c, held, conflict⟩ => free ?_, _, Finmap.lookup_insert _, Managed.applied_has _ _ _⟩
      rw [h.next fresh, held]
      exact conflict
  · intro ck other
    rw [Finmap.lookup_insert_of_ne _ (fun same => other m (by simp) same.symm)]
    exact h.rest ck fun m' mem => other m' (by simp [mem])

theorem Repairing.rejected (h : Repairing r σ₀ ms σ) (fresh : ∀ m' ∈ ms, m'.key ≠ m.key)
    (mem : m ∈ desired r sess) {e : ApiError}
    (ans : Faultless.answer σ (.apply r.ssaFieldOwner m) (.error e) σ') : Stuck r sess σ₀ σ' := by
  obtain ⟨conflict, -⟩ := ans.2 e rfl
  obtain ⟨rfl, refused⟩ := answers_apply_conflict ans.1 conflict
  rcases ssaApi_cases r.ssaFieldOwner (σ'.children.lookup m.key) m with ⟨-, no⟩ | ⟨foreign, -⟩ | ⟨-, no⟩
  · rw [no] at refused
    cases refused
    cases conflict
  · obtain ⟨c, held, conflict'⟩ := conflict_foreign foreign
    exact ⟨m, mem, ⟨c, h.next fresh ▸ held, conflict'⟩, h.next fresh⟩
  · rw [no] at refused
    cases refused

/-- In `desired`, each manifest is for another object than those before it. -/
theorem desired_fresh (part : ms ++ [m] <+: desired r sess) : ∀ m' ∈ ms, m'.key ≠ m.key := by
  intro m' mem same
  have eq := desired_key_inj (part.subset (List.mem_append.2 (.inl mem))) (part.subset (by simp)) same
  have distinct := (desired_nodup r sess).sublist part.sublist
  rw [List.nodup_append] at distinct
  exact distinct.2.2 m' mem m (by simp) eq

/-- What a Reconcile from `σ₀` comes to: everything restored, or a foreign field. -/
def Outcomes (r : SessionReconciler) (sess : Session) (σ₀ : Cluster Child) (σ : Cluster Child) : Prop :=
  Restored r sess σ ↔ ∀ m ∈ desired r sess, ¬ Foreign r σ₀ m

theorem Stuck.outcomes (h : Stuck r sess σ₀ σ) : Outcomes r sess σ₀ σ := by
  obtain ⟨m, mem, foreign, -⟩ := id h
  exact ⟨fun restored => absurd restored h.not_restored, fun none => absurd foreign (none m mem)⟩

theorem Repairing.outcomes (h : Repairing r σ₀ (desired r sess) σ) : Outcomes r sess σ₀ σ :=
  ⟨fun _ m mem => (h.done m mem).1, fun _ m mem => (h.done m mem).2⟩

/-- A status write leaves the children alone. -/
theorem updateStatus_children {sent : Session} {a : Answer (.updateStatus sent)}
    (ans : Faultless.answer σ (.updateStatus sent) a σ') : σ'.children = σ.children := by
  rcases answers_updateStatus ans.1 with ⟨rfl, -⟩ | ⟨cur, -, rfl, -⟩
  · rfl
  · exact Cluster.commit_children _

theorem reconcileChildren_repairs (whole : Whole r sess) (start : σ.children = σ₀.children) :
    (reconcileChildren r sess).wp Faultless (fun _ _ => True) (fun _ σ => Outcomes r sess σ₀ σ) σ := by
  have phase : ChildPhase Faultless (fun _ _ => True) r sess (fun ms _ σ => Repairing r σ₀ ms σ)
      (Stuck r sess σ₀) (fun _ σ => Outcomes r sess σ₀ σ) :=
    { rely := fun _ _ _ _ h same => same ▸ h
      relyFailed := fun _ _ h same => same ▸ h
      relyDone := fun _ _ _ h same => same ▸ h
      guarantee := fun _ _ _ _ _ => trivial
      guaranteeFailed := fun _ _ _ => trivial
      applied := fun _ _ _ _ _ h part ans => h.applied (desired_fresh part) ans
      rejected := fun _ _ _ _ _ _ h part ans =>
        h.rejected (desired_fresh part) (part.subset (by simp)) ans
      deployment := fun _ _ _ _ h ans => (answers_getDeployment ans.1).1 ▸ h
      noDeployment := fun _ _ e _ _ _ ans => nomatch (ans.2 e rfl).2
      service := fun _ _ svc _ _ h ans => by
        obtain ⟨same, read⟩ := answers_getService ans.1
        exact ⟨by rw [read svc rfl], same ▸ h⟩
      noService := fun _ _ e _ _ _ ans => nomatch (ans.2 e rfl).2
      panicked := fun _ _ _ _ _ broken => absurd whole broken
      reported := by
        rintro message m a σ σ' - ⟨m', mem, foreign, kept⟩ ans
        exact Stuck.outcomes ⟨m', mem, foreign, by rw [updateStatus_children ans, kept]⟩
      finished := by
        rintro dep a σ σ' h ans
        refine Repairing.outcomes ⟨?_, ?_⟩
        · rw [updateStatus_children ans]
          exact h.done
        · rw [updateStatus_children ans]
          exact h.rest }
  exact wp_reconcileChildren phase ⟨nofun, fun ck _ => by rw [start]⟩

/-- Every size in the spec is a quantity, as the CRD's validation has it. -/
def Sizes (r : SessionReconciler) (s : Session) : Prop :=
  ∀ pvc, s.spec.home = some pvc ∨ s.spec.scratch = some pvc → r.parseQuantity pvc.size ≠ none

theorem reconcile_repairs (held : σ.sessions.get k = some s) (live : s.deleting = false)
    (sizes : Sizes r s) : (Reconcile r k).wp Faultless (fun _ _ => True)
      (fun _ σ' => Outcomes r (applyDefaults s) σ σ') σ := by
  have whole : Whole r (applyDefaults s) := ⟨nofun, sizes⟩
  have read : ∀ σ₂ got, Faultless.answer σ (.get k) (.ok got) σ₂ → σ₂ = σ ∧ got = s :=
    fun σ₂ got ans => answers_get_held ans.1 held
  refine wp_reconcile (fun _ _ => trivial) ?_ ?_ ?_ ?_
  · rintro _ σ₂ _ e rfl ans rfl
    exact nomatch (ans.2 e rfl).2
  · rintro _ σ₂ got rfl ans del
    obtain ⟨-, rfl⟩ := read σ₂ got ans
    rw [live] at del
    cases del
  · rintro _ σ₂ got rfl ans - -
    obtain ⟨rfl, rfl⟩ := read σ₂ got ans
    exact reconcileChildren_repairs whole rfl
  · rintro _ σ₂ _ got rfl ans rfl - has
    obtain ⟨rfl, rfl⟩ := read σ₂ got ans
    refine ⟨trivial, ?_, ?_⟩
    · rintro e σ₃ _ ans' rfl
      exact nomatch (ans'.2 e rfl).2
    · intro sess σ₃ ans'
      obtain ⟨-, children, ok⟩ := Holds.ensureFinalizer held (.refl got) live has ans'.1
      obtain ⟨-, key, settled⟩ := ok sess rfl
      have kept := settle_kept got
      have spec : sess.spec = defaultSpec got.spec := settled.spec.trans (settle_spec_of_missing has)
      have target : desired r sess = desired r (applyDefaults got) :=
        desired_congr (settled.name.trans kept.1) (settled.ns.trans kept.2.1)
          (settled.uid.trans kept.2.2) spec
      have whole' : Whole r sess := ⟨by rw [spec]; exact whole.replicas, by rw [spec]; exact whole.sizes⟩
      have phase := reconcileChildren_repairs whole' children
      unfold Outcomes Restored at phase ⊢
      rw [← target]
      exact phase

/-! ## Main result -/

theorem outsideWrite_sessions (σ : Cluster Child) (w : OutsideWrite) :
    (outsideWrite σ w).sessions = σ.sessions := by
  unfold outsideWrite
  split <;> rfl

/-- Outside writes touch no Session. -/
@[simp] theorem drifted_sessions (σ : Cluster Child) (ws : List OutsideWrite) :
    (drifted σ ws).sessions = σ.sessions := by
  induction ws generalizing σ with
  | nil => rfl
  | cons w ws ih => exact (ih _).trans (outsideWrite_sessions σ w)

/-- Where a child had what is desired, outside writes take over whatever they change. -/
theorem drifted_usurped {ck : ChildKey} {cfg : Config Field FieldValue} {ws : List OutsideWrite}
    (start : ∀ c, σ.children.lookup ck = some c → c.Usurped r.ssaFieldOwner cfg)
    (others : ∀ w ∈ ws, w.manager ≠ r.ssaFieldOwner) :
    ∀ c, (drifted σ ws).children.lookup ck = some c → c.Usurped r.ssaFieldOwner cfg := by
  induction ws generalizing σ with
  | nil => exact start
  | cons w ws ih =>
    refine ih (fun c held => ?_) fun w' mem => others w' (by simp [mem])
    unfold outsideWrite at held
    cases child : σ.children.lookup w.child with
    | none => exact start c (by simpa [child] using held)
    | some c₀ =>
      simp only [child] at held
      by_cases same : ck = w.child
      · subst same
        rw [Finmap.lookup_insert, Option.some.injEq] at held
        rw [← held]
        exact (start c₀ child).update (others w (by simp)) _ _
      · rw [Finmap.lookup_insert_of_ne _ same] at held
        exact start c held

/-- **Main result.** After any outside writes, a Reconcile in which nothing fails but for
ownership restores every field exactly when no field it sets is another manager's with
another value. In particular, when all was as desired before others wrote, it restores
every field exactly when each still has its value or is gone. -/
theorem drift_repaired_iff {ws : List OutsideWrite} {o : Outcome}
    (held : σ.sessions.get k = some s) (live : s.deleting = false) (sizes : Sizes r s)
    (run : Exec Faultless (Reconcile r k) (drifted σ ws) (.ret o) σ') :
    (Restored r (applyDefaults s) σ' ↔ ∀ m ∈ desired r (applyDefaults s), ∀ c,
      (drifted σ ws).children.lookup m.key = some c → ¬ c.Conflict r.ssaFieldOwner m.config) ∧
    (Restored r (applyDefaults s) σ → (∀ w ∈ ws, w.manager ≠ r.ssaFieldOwner) →
      (Restored r (applyDefaults s) σ' ↔ ∀ m ∈ desired r (applyDefaults s), ∀ c,
        (drifted σ ws).children.lookup m.key = some c →
          ∀ f ∈ m.config.names, ∀ v, c.value f = some v → m.config.value f = some v)) := by
  have held' : (drifted σ ws).sessions.get k = some s := by simpa using held
  have outcomes := Prog.wp_result run (reconcile_repairs held' live sizes)
  have iff : Restored r (applyDefaults s) σ' ↔ ∀ m ∈ desired r (applyDefaults s), ∀ c,
      (drifted σ ws).children.lookup m.key = some c → ¬ c.Conflict r.ssaFieldOwner m.config := by
    rw [show Restored _ _ _ ↔ _ from outcomes]
    simp only [Foreign, not_exists, not_and]
  refine ⟨iff, fun before others => iff.trans ?_⟩
  refine forall₂_congr fun m mem => forall₂_congr fun c now => ?_
  have start : ∀ c, σ.children.lookup m.key = some c → c.Usurped r.ssaFieldOwner m.config := by
    intro c held
    obtain ⟨c', held', has⟩ := before m mem
    rw [held, Option.some.injEq] at held'
    exact held' ▸ has.usurped
  rw [(drifted_usurped start others c now).conflict_iff]
  simp only [not_exists, not_and, ne_eq, not_not]

end

/-! ## Two outside writes -/

/-- A new Session. -/
def newSession : Session := stamp 1 (.plain ⟨"ns", "a"⟩ 1 SessionSpec.plain)

/-- The run of one Reconcile without transport failures. -/
def runReconcile (σ : Cluster Child) : Outcome × Cluster Child :=
  (Reconcile .default ⟨"ns", "a"⟩).run (answer ssaApi) σ

theorem runReconcile_exec {σ : Cluster Child} (checked : (Reconcile .default ⟨"ns", "a"⟩).runChecks
    (answer ssaApi) (fun _ c a => decide (OnlyOwnership c a)) σ = true) :
    Exec Faultless (Reconcile .default ⟨"ns", "a"⟩) σ (.ret (runReconcile σ).1) (runReconcile σ).2 := by
  have answers : ∀ (σ : Cluster Child) c, decide (OnlyOwnership c (answer ssaApi σ c).1) = true →
      Faultless.answer σ c (answer ssaApi σ c).1 (answer ssaApi σ c).2 :=
    fun σ c ok => ⟨answers_answer ssaApi σ c, of_decide_eq_true ok⟩
  exact .of_checked_run answers checked

/-- The cluster after the first Reconcile of a new Session. -/
def firstApplied : Cluster Child := (runReconcile (Cluster.blank.commit newSession)).2

/-- What `kubectl scale --replicas=3` does. -/
def scaled : OutsideWrite := ⟨⟨.deployment, "ns", "cs-a"⟩, "kubectl", .replicas, some (.number 3)⟩

/-- What `kubectl label app-` does. -/
def unlabelled : OutsideWrite := ⟨⟨.deployment, "ns", "cs-a"⟩, "kubectl", .label "app", none⟩

/-- The Session as the first Reconcile stored it. -/
def appliedOnce : Session := stamp 3 { settle newSession with status := ⟨"Pending", "", ""⟩ }

/-- A label that was removed is restored. -/
theorem unlabelled_repaired : Restored .default (applyDefaults appliedOnce)
    (runReconcile (drifted firstApplied [unlabelled])).2 := by
  have free : ∀ m ∈ desired .default (applyDefaults appliedOnce),
      ((drifted firstApplied [unlabelled]).children.lookup m.key).all
        (fun c => !decide (c.Conflict SessionReconciler.default.ssaFieldOwner m.config)) = true := by decide
  have held : firstApplied.sessions.get ⟨"ns", "a"⟩ = some appliedOnce := rfl
  refine (drift_repaired_iff held rfl nofun (runReconcile_exec rfl)).1.2 fun m mem c now => ?_
  have := free m mem
  rw [now] at this
  simpa using this

/-- The property, of every state and every outside writes. -/
def RepairsDrift (r : SessionReconciler) (k : Key) : Prop :=
  ∀ (s : Session) (σ σ' : Cluster Child) (ws : List OutsideWrite) (o : Outcome),
    σ.sessions.get k = some s → s.deleting = false → Sizes r s →
    (∀ w ∈ ws, w.manager ≠ r.ssaFieldOwner) →
    Exec Faultless (Reconcile r k) (drifted σ ws) (.ret o) σ' → Restored r (applyDefaults s) σ'

/-- A Deployment that was scaled stays so. -/
theorem scaled_not_repaired : ¬ RepairsDrift .default ⟨"ns", "a"⟩ := by
  intro claim
  have held : firstApplied.sessions.get ⟨"ns", "a"⟩ = some appliedOnce := rfl
  have restored := claim appliedOnce firstApplied _ [scaled] _ held rfl nofun (by simp [scaled, SessionReconciler.default])
    (runReconcile_exec rfl)
  let m : Manifest := .deployment
    (deploymentConfig (applyDefaults appliedOnce) "cs-a" (desiredNamesLabels .default appliedOnce).2 1)
  have mem : m ∈ desired .default (applyDefaults appliedOnce) := by
    rw [mem_desired]
    exact .inr (.inr (.inr (.inl ⟨1, rfl, rfl⟩)))
  obtain ⟨c, now, has⟩ := restored m mem
  have stays : ((runReconcile (drifted firstApplied [scaled])).2.children.lookup m.key).bind
      (·.value .replicas) = some (.number 3) := rfl
  rw [now] at stays
  have wanted := has .replicas (by decide)
  have wrong : some (FieldValue.number 1) = some (.number 3) := wanted.symm.trans stays
  simp at wrong

end Codespace.Controller
