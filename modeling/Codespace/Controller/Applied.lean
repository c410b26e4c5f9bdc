import Codespace.Controller.Calls
import Codespace.Controller.Drift
import Codespace.Controller.Status

/-!
# What one Reconcile applies

A run of one Reconcile, alone or while others do anything at all, leaves a log of its
calls. `appliedIn` are the manifests in it and `readIn` the Sessions it got. At every
point of the run what was applied is a beginning of what is desired of the Session that
was read, with its defaults (`reconcile_applies`), and no Deployment is applied of a Session
with a size that cannot be parsed (`reconcile_sizes`).
-/

namespace Codespace.Controller
set_option autoImplicit false
open Versioned Interact

variable {χ : Type}

/-- The API server, while anybody may do anything. -/
def Crowded (child : ChildApi χ) : Setting Call Answer (Cluster χ) where
  answer := Answers child
  rely := fun _ _ => True
  rely_refl := fun _ => trivial
  rely_trans := fun _ _ => trivial

/-! ## Logs -/

def eventApplied (ev : Event Call Answer (Cluster χ)) : Option Manifest :=
  match ev.call with
  | .apply _ m => some m
  | _ => none

/-- The manifests that were applied, in order. -/
def appliedIn (l : Log Call Answer (Cluster χ)) : List Manifest := l.filterMap eventApplied

def eventRead : Event Call Answer (Cluster χ) → Option Session
  | ⟨.get _, .ok s, _, _⟩ => some s
  | _ => none

/-- The Sessions that were read, in order. -/
def readIn (l : Log Call Answer (Cluster χ)) : List Session := l.filterMap eventRead

/-- A call other than a Get and an Apply. -/
def Plain : Call → Prop
  | .get _ | .apply _ _ => False
  | _ => True

section

variable {l : Log Call Answer (Cluster χ)} {c : Call} {a : Answer c} {b b' : Cluster χ}

@[simp] theorem appliedIn_apply {o : String} {m : Manifest} {a : Answer (.apply o m)} :
    appliedIn (l ++ [⟨.apply o m, a, b, b'⟩]) = appliedIn l ++ [m] := by
  simp [appliedIn, eventApplied]

@[simp] theorem readIn_apply {o : String} {m : Manifest} {a : Answer (.apply o m)} :
    readIn (l ++ [⟨.apply o m, a, b, b'⟩]) = readIn l := by
  simp [readIn, eventRead]

@[simp] theorem appliedIn_get {k : Key} {a : Answer (.get k)} :
    appliedIn (l ++ [⟨.get k, a, b, b'⟩]) = appliedIn l := by
  simp [appliedIn, eventApplied]

theorem appliedIn_plain (plain : Plain c) : appliedIn (l ++ [⟨c, a, b, b'⟩]) = appliedIn l := by
  cases c <;> simp_all [appliedIn, eventApplied, Plain]

theorem readIn_plain (plain : Plain c) : readIn (l ++ [⟨c, a, b, b'⟩]) = readIn l := by
  cases c <;> simp_all [readIn, eventRead, Plain]

end

theorem call_cases (c : Call) : (∃ k, c = .get k) ∨ (∃ o m, c = .apply o m) ∨ Plain c := by
  cases c with
  | get k => exact .inl ⟨k, rfl⟩
  | apply o m => exact .inr (.inl ⟨o, m, rfl⟩)
  | _ => exact .inr (.inr trivial)

/-! ## The invariant -/

/-- `sess` is the Session `s` that was read at `k`, with its defaults. -/
structure Carries (k : Key) (s sess : Session) : Prop where
  read : s.key = k
  key : sess.key = k
  spec : sess.spec = defaultSpec s.spec

/-- `s` was read, and since then `ms` were applied. -/
structure Applying (s : Session) (ms : List Manifest) (v : Logged χ) : Prop where
  read : readIn v.2 = [s]
  applied : appliedIn v.2 = ms

/-- What was applied is a beginning of what is desired of the Session read. -/
def Applies (r : SessionReconciler) (k : Key) (v : Logged χ) : Prop :=
  appliedIn v.2 = [] ∨
    ∃ s sess, readIn v.2 = [s] ∧ Carries k s sess ∧ appliedIn v.2 <+: desired r sess

/-- All of it was applied. -/
def AppliesAll (r : SessionReconciler) (k : Key) (v : Logged χ) : Prop :=
  ∃ s sess, readIn v.2 = [s] ∧ Carries k s sess ∧ appliedIn v.2 = desired r sess

/-- Where a Reconcile that ends with this outcome leaves the log. -/
def Stops (r : SessionReconciler) (k : Key) (o : Outcome) (v : Logged χ) : Prop :=
  Applies r k v ∧ (o = .done (some 120) → AppliesAll r k v)

section

variable {child : ChildApi χ} {r : SessionReconciler} {k : Key} {s sess : Session} {ms : List Manifest}
  {v v' : Logged χ}

theorem Applying.rely (h : Applying s ms v) (m : (Crowded child).logged.rely v v') : Applying s ms v' :=
  ⟨m.2 ▸ h.read, m.2 ▸ h.applied⟩

theorem Applies.rely (h : Applies r k v) (m : (Crowded child).logged.rely v v') : Applies r k v' := by
  unfold Applies
  rw [m.2]
  exact h

theorem Stops.rely {o : Outcome} (h : Stops r k o v) (m : (Crowded child).logged.rely v v') :
    Stops r k o v' := by
  refine ⟨h.1.rely m, fun done => ?_⟩
  unfold AppliesAll
  rw [m.2]
  exact h.2 done

theorem Applying.plain (h : Applying s ms v) {c : Call} {a : Answer c}
    (ans : (Crowded child).logged.answer v c a v') (plain : Plain c) : Applying s ms v' := by
  obtain ⟨-, log⟩ := ans
  exact ⟨by rw [log, readIn_plain plain, h.read], by rw [log, appliedIn_plain plain, h.applied]⟩

theorem Applies.plain (h : Applies r k v) {c : Call} {a : Answer c}
    (ans : (Crowded child).logged.answer v c a v') (plain : Plain c) : Applies r k v' := by
  unfold Applies
  rw [ans.2, readIn_plain plain, appliedIn_plain plain]
  exact h

theorem Applying.apply (h : Applying s ms v) {o : String} {m : Manifest} {a : Answer (.apply o m)}
    (ans : (Crowded child).logged.answer v (.apply o m) a v') : Applying s (ms ++ [m]) v' := by
  obtain ⟨-, log⟩ := ans
  exact ⟨by rw [log, readIn_apply, h.read], by rw [log, appliedIn_apply, h.applied]⟩

theorem Applying.next (h : Applying s ms v) {o : String} {m : Manifest} {a : Answer (.apply o m)}
    (carries : Carries k s sess) (part : ms ++ [m] <+: desired r sess)
    (ans : (Crowded child).logged.answer v (.apply o m) a v') : Applies r k v' :=
  .inr ⟨s, sess, (h.apply ans).read, carries, (h.apply ans).applied ▸ part⟩

theorem Applying.applies (h : Applying s ms v) (carries : Carries k s sess) (part : ms <+: desired r sess) :
    Applies r k v := .inr ⟨s, sess, h.read, carries, h.applied ▸ part⟩

/-- The child phase of the Session that was read. -/
theorem Applying.reconcileChildren_wp (h : Applying s [] v) (carries : Carries k s sess) :
    (reconcileChildren r sess).wp (Crowded child).logged (fun v _ => Applies r k v) (Stops r k) v := by
  have phase : ChildPhase (Crowded child).logged (fun v _ => Applies r k v) r sess
      (fun ms _ v => Applying s ms v ∧ ms <+: desired r sess) (Applies r k) (Stops r k) :=
    { rely := fun _ _ _ _ h m => ⟨h.1.rely m, h.2⟩
      relyFailed := fun _ _ h m => h.rely m
      relyDone := fun _ _ _ h m => h.rely m
      guarantee := fun _ _ _ _ h => h.1.applies carries h.2
      guaranteeFailed := fun _ _ h => h
      applied := fun _ _ _ _ _ h part ans => ⟨h.1.apply ans, part⟩
      rejected := fun _ _ _ _ _ _ h part ans => h.1.next carries part ans
      deployment := fun _ _ _ _ h ans => ⟨h.1.plain ans trivial, h.2⟩
      noDeployment := fun _ _ _ _ _ h ans => (h.1.plain ans trivial).applies carries h.2
      service := fun _ _ svc _ _ h ans => by
        obtain ⟨-, read⟩ := answers_getService ans.1
        exact ⟨by rw [read svc rfl], h.1.plain ans trivial, h.2⟩
      noService := fun _ _ _ _ _ h ans => (h.1.plain ans trivial).applies carries h.2
      panicked := fun _ _ _ _ h _ => ⟨h.1.applies carries h.2, nofun⟩
      reported := fun _ _ _ _ _ _ h ans => ⟨h.plain ans trivial, nofun⟩
      finished := fun _ _ _ _ h ans => by
        have all := h.1.plain ans trivial
        exact ⟨all.applies carries h.2, fun _ => ⟨s, sess, all.read, carries, all.applied⟩⟩ }
  exact wp_reconcileChildren phase ⟨h, List.nil_prefix⟩

/-- The rule for one Reconcile, from a log without entries: until the child phase nothing is
applied, and its Session is the one that was read. -/
theorem reconcile_read_wp {σ : Cluster χ} {I : Logged χ → Prop} {Q : Outcome → Logged χ → Prop}
    (idle : ∀ v, appliedIn v.2 = [] → I v)
    (stopped : ∀ o v, o ≠ .done (some 120) → appliedIn v.2 = [] → Q o v)
    (children : ∀ s sess v, Applying s [] v → Carries k s sess →
      (reconcileChildren r sess).wp (Crowded child).logged (fun v _ => I v) Q v) :
    (Reconcile r k).wp (Crowded child).logged (fun v _ => I v) Q (σ, []) := by
  have start : ∀ {v₁ : Logged χ}, (Crowded child).logged.rely (σ, []) v₁ → v₁.2 = [] := fun m => m.2
  have got : ∀ {v₁ v₂ : Logged χ} {cur}, (Crowded child).logged.rely (σ, []) v₁ →
      (Crowded child).logged.answer v₁ (.get k) (.ok cur) v₂ → cur.key = k ∧ Applying cur [] v₂ := by
    intro v₁ v₂ cur m ans
    obtain ⟨-, held⟩ := answers_get_ok ans.1
    exact ⟨v₁.1.keyed k cur held, by rw [ans.2, start m]; rfl, by rw [ans.2, start m]; rfl⟩
  refine wp_reconcile (fun v₁ m => idle _ (by rw [start m]; rfl)) ?_ ?_ ?_ ?_
  · intro v₁ v₂ v₃ e m ans m'
    refine stopped _ _ ?_ ?_
    · split <;> nofun
    · rw [m'.2, ans.2, start m]
      rfl
  · intro v₁ v₂ cur m ans _ v₃ m'
    have h := (got m ans).2.rely m'
    refine ⟨idle _ h.applied, fun a v₄ ans' => ?_⟩
    have h' := h.plain ans' trivial
    cases a <;> exact fun v₅ m'' => stopped _ _ nofun (h'.rely m'').applied
  · intro v₁ v₂ cur m ans _ _
    obtain ⟨key, h⟩ := got m ans
    exact children _ _ _ h ⟨key, key, rfl⟩
  · intro v₁ v₂ v₃ cur m ans m' _ _
    obtain ⟨key, h₂⟩ := got m ans
    have h := h₂.rely m'
    refine ⟨idle _ h.applied, fun e v₄ v₅ ans' m'' => ?_, fun sess v₄ ans' => ?_⟩
    · exact stopped _ _ nofun ((h.plain ans' trivial).rely m'').applied
    · refine children _ _ _ (h.plain ans' trivial) ?_
      -- what the server answers has the spec that was sent
      obtain ⟨now, -, -, rfl⟩ := answers_update_ok ans'.1
      obtain ⟨finalizers, eq⟩ := addFinalizer_eq (applyDefaults cur)
      exact ⟨key, (addFinalizer_key _).trans key, by rw [stamp_spec, eq]; rfl⟩

theorem reconcile_applies_wp {σ : Cluster χ} :
    (Reconcile r k).wp (Crowded child).logged (fun v _ => Applies r k v) (Stops r k) (σ, []) :=
  reconcile_read_wp (fun _ none => .inl none) (fun _ _ other none => ⟨.inl none, fun done => absurd done other⟩)
    fun _ _ _ h carries => h.reconcileChildren_wp carries

/-- **One Reconcile.** At every point, what was applied is a beginning of what is desired of
the Session read. -/
theorem reconcile_applies {σ : Cluster χ} {left : Api Outcome}
    (run : Exec (Crowded child).logged (Reconcile r k) (σ, []) left v) : Applies r k v :=
  Prog.wp_cut run reconcile_applies_wp (fun _ _ h => h) (fun _ _ h => h.1)

/-- When it is done, all of it. -/
theorem reconcile_appliesAll {σ : Cluster χ}
    (run : Exec (Crowded child).logged (Reconcile r k) (σ, []) (.ret (.done (some 120))) v) : AppliesAll r k v :=
  (Prog.wp_result run reconcile_applies_wp).2 rfl

/-! ## Sizes -/

def NoDeployment (c : Call) : Prop := ∀ o d, c ≠ .apply o (.deployment d)

theorem childFailed_noDeployment (child : String) (e : GoError) :
    (childFailed sess child e).Only NoDeployment := by
  cases e with
  | panic m => exact trivial
  | err e =>
    refine ⟨nofun, fun a => ?_⟩
    cases a <;> exact trivial

/-- One manifest other than a Deployment, and what follows. -/
theorem patch_noDeployment {m : Manifest} {f : Except GoError Unit → Api Outcome}
    (other : ∀ d, m ≠ .deployment d) (failed : ∀ e, (f (.error e)).Only NoDeployment)
    (ok : (f (.ok ())).Only NoDeployment) : (patch r m >>= f).Only NoDeployment := by
  refine ⟨fun o d eq => by cases eq; exact other d rfl, fun a => ?_⟩
  cases a with
  | error e => exact failed _
  | ok _ => exact ok

/-- A claim, and what follows if its size could be parsed. -/
theorem reconcilePVC_noDeployment {name suffix : String} {spec : Option PVCSpec}
    {f : Except GoError Unit → Api Outcome} (failed : ∀ e, (f (.error e)).Only NoDeployment)
    (ok : (∀ pvc, spec = some pvc → r.parseQuantity pvc.size ≠ none) → (f (.ok ())).Only NoDeployment) :
    (reconcilePVC r sess name suffix spec >>= f).Only NoDeployment := by
  unfold reconcilePVC
  cases spec with
  | none => exact ok nofun
  | some pvc =>
    cases parsed : r.parseQuantity pvc.size with
    | none =>
      simp only [parsed]
      exact failed _
    | some storage =>
      simp only [parsed]
      refine patch_noDeployment nofun failed (ok ?_)
      rintro _ ⟨⟩
      simp [parsed]

/-- With a size that cannot be parsed, the child phase does not get to the Deployment. -/
theorem reconcileChildren_noDeployment (unsized : ¬ Sizes r sess) :
    (reconcileChildren r sess).Only NoDeployment := by
  refine patch_noDeployment nofun (childFailed_noDeployment _) ?_
  refine reconcilePVC_noDeployment (childFailed_noDeployment _) fun home => ?_
  refine reconcilePVC_noDeployment (childFailed_noDeployment _) fun scratch => ?_
  exact absurd (fun pvc volume => volume.elim (home pvc) (scratch pvc)) unsized

/-- A Deployment was applied of a Session with sizes that can be parsed only. -/
def SizesRead (r : SessionReconciler) (v : Logged χ) : Prop :=
  ∀ d, .deployment d ∈ appliedIn v.2 → ∃ s, readIn v.2 = [s] ∧ Sizes r s

theorem SizesRead.rely (h : SizesRead r v) (m : (Crowded child).logged.rely v v') : SizesRead r v' := by
  unfold SizesRead
  rw [m.2]
  exact h

/-- A call other than a Get and the Apply of a Deployment. -/
theorem SizesRead.call (h : SizesRead r v) {c : Call} {a : Answer c} (none : NoDeployment c)
    (noGet : ∀ k, c ≠ .get k) (ans : (Crowded child).logged.answer v c a v') : SizesRead r v' := by
  unfold SizesRead
  rw [ans.2]
  obtain ⟨k, rfl⟩ | ⟨o, m, rfl⟩ | plain := call_cases c
  · exact absurd rfl (noGet k)
  · intro d mem
    rw [appliedIn_apply, List.mem_append, List.mem_singleton] at mem
    rw [readIn_apply]
    exact mem.elim (h d) fun eq => absurd rfl (eq ▸ none o d)
  · rw [appliedIn_plain plain, readIn_plain plain]
    exact h

theorem ChildCall.not_get {c : Call} (call : ChildCall sess c) (k : Key) : c ≠ .get k := by
  rintro rfl
  exact call

/-- The child phase, whether the sizes of the Session read can be parsed or not. -/
theorem Applying.sizes_wp (h : Applying s [] v) (carries : Carries k s sess) :
    (reconcileChildren r sess).wp (Crowded child).logged (fun v _ => SizesRead r v)
      (fun _ v => SizesRead r v) v := by
  by_cases sizes : Sizes r s
  · have read : ∀ v : Logged χ, readIn v.2 = [s] → SizesRead r v := fun v read _ _ => ⟨s, read, sizes⟩
    have only : (reconcileChildren r sess).Only (ChildCall sess) := reconcileChildren_only
    have kept := only.keeps (W := (Crowded child).logged)
      (G := fun v _ => readIn v.2 = [s]) (I := fun v => readIn v.2 = [s]) (fun v v' h m => (congrArg readIn m.2).trans h)
      (fun v c a v' call h ans => by
        rw [ans.2]
        obtain ⟨k, rfl⟩ | ⟨o, m, rfl⟩ | plain := call_cases c
        · exact absurd rfl (call.not_get k)
        · rw [readIn_apply, h]
        · rw [readIn_plain plain, h])
      (fun _ _ _ h => h) h.read
    exact Prog.wp_weaken kept (fun v _ => read v) (fun _ v => read v)
  · have unsized : ¬ Sizes r sess := by
      unfold Sizes
      rw [carries.spec]
      exact sizes
    refine (reconcileChildren_only.and (reconcileChildren_noDeployment unsized)).keeps
      (fun v v' h m => h.rely m) (fun v c a v' call h ans => h.call call.2 call.1.not_get ans)
      (fun _ _ _ h => h) fun d mem => ?_
    rw [h.applied] at mem
    cases mem

/-- A Deployment is applied only if the sizes of the Session read can be parsed. -/
theorem reconcile_sizes {σ : Cluster χ} {left : Api Outcome}
    (run : Exec (Crowded child).logged (Reconcile r k) (σ, []) left v) : SizesRead r v := by
  have idle : ∀ v : Logged χ, appliedIn v.2 = [] → SizesRead r v := by
    intro v none d mem
    rw [none] at mem
    cases mem
  exact Prog.wp_cut run (reconcile_read_wp idle (fun _ v _ none => idle v none)
    fun _ _ _ h carries => h.sizes_wp carries) (fun _ _ h => h) (fun _ _ h => h)

end

/-- One Reconcile without failures: how it ends, the cluster and the log afterwards. -/
def reconcileFrom (k : Key) (v : Logged Manifest) : Outcome × Logged Manifest :=
  (Reconcile .default k).run (Setting.recorded (answer replaceApi)) v

theorem reconcileFrom_runs (k : Key) (v : Logged Manifest) : Exec (Crowded replaceApi).logged (Reconcile .default k)
    v (.ret (reconcileFrom k v).1) (reconcileFrom k v).2 :=
  .of_run (Setting.recorded_answers (answers_answer replaceApi)) _ _

end Codespace.Controller
