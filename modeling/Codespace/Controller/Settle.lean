import Codespace.Controller.History

/-!
# How a Reconcile leaves the stored Session

`settle` is the Session as a complete Reconcile leaves it: its defaults are stored together
with the finalizer, or not at all. Either way the same children are desired
(`desired_settle`). `Holds` says what is stored up to version and status, and the lemmas
about it say what the two writes of a Reconcile do to that.
-/

namespace Codespace.Controller
set_option autoImplicit false
open Versioned Interact

variable {χ : Type}

/-- Two Sessions that differ in version and status only. -/
structure Alike (a b : Session) : Prop where
  metadata : ∀ n, (stamp n a).metadata = (stamp n b).metadata
  spec : a.spec = b.spec

namespace Alike

theorem refl (a : Session) : Alike a a := ⟨fun _ => rfl, rfl⟩

theorem stamped (n : Nat) (a : Session) : Alike (stamp n a) a := ⟨fun _ => rfl, rfl⟩

variable {a b c : Session}

theorem trans (h : Alike a b) (h' : Alike b c) : Alike a c :=
  ⟨fun n => (h.metadata n).trans (h'.metadata n), h.spec.trans h'.spec⟩

theorem name (h : Alike a b) : a.metadata.name = b.metadata.name := by
  simpa using congrArg ObjectMeta.name (h.metadata 0)

theorem ns (h : Alike a b) : a.metadata.ns = b.metadata.ns := by
  simpa using congrArg ObjectMeta.ns (h.metadata 0)

theorem uid (h : Alike a b) : a.metadata.uid = b.metadata.uid := by
  simpa using congrArg ObjectMeta.uid (h.metadata 0)

theorem finalizers (h : Alike a b) : a.metadata.finalizers = b.metadata.finalizers := by
  simpa using congrArg ObjectMeta.finalizers (h.metadata 0)

theorem deleting (h : Alike a b) : a.deleting = b.deleting := by
  have same := congrArg ObjectMeta.deletionTimestamp (h.metadata 0)
  exact congrArg Option.isSome (by simpa using same)

end Alike

/-- The Session as a complete Reconcile leaves it: the defaults are stored together with
the finalizer, or not at all. -/
def settle (s : Session) : Session :=
  if sessionFinalizer ∈ s.metadata.finalizers then s else (addFinalizer (applyDefaults s)).1

theorem settle_finalizer (s : Session) : sessionFinalizer ∈ (settle s).metadata.finalizers := by
  unfold settle addFinalizer
  by_cases has : sessionFinalizer ∈ s.metadata.finalizers
  · simp [has]
  · simp [has]

theorem settle_of_finalizer {s : Session} (has : sessionFinalizer ∈ s.metadata.finalizers) :
    settle s = s := if_pos has

theorem settle_spec_of_missing {s : Session} (has : sessionFinalizer ∉ s.metadata.finalizers) :
    (settle s).spec = defaultSpec s.spec := by
  unfold settle addFinalizer
  simp [has]

theorem settle_kept (s : Session) : (settle s).metadata.name = s.metadata.name ∧
    (settle s).metadata.ns = s.metadata.ns ∧ (settle s).metadata.uid = s.metadata.uid := by
  unfold settle addFinalizer
  by_cases has : sessionFinalizer ∈ s.metadata.finalizers <;> simp [has]

@[simp] theorem settle_deleting (s : Session) : (settle s).deleting = s.deleting := by
  unfold settle addFinalizer
  by_cases has : sessionFinalizer ∈ s.metadata.finalizers <;> simp [has, Session.deleting]

/-- With or without the stored defaults, the defaulted spec is the same. -/
theorem settle_defaults (s : Session) : defaultSpec (settle s).spec = defaultSpec s.spec := by
  unfold settle addFinalizer
  by_cases has : sessionFinalizer ∈ s.metadata.finalizers
  · simp [has]
  · simp [has, defaultSpec_idem]

/-- So the desired manifests are too. -/
theorem desired_settle (r : SessionReconciler) (s : Session) :
    desired r (applyDefaults (settle s)) = desired r (applyDefaults s) :=
  desired_congr (settle_kept s).1 (settle_kept s).2.1 (settle_kept s).2.2 (settle_defaults s)

theorem desired_alike {r : SessionReconciler} {a b : Session} (h : Alike a b) :
    desired r (applyDefaults a) = desired r (applyDefaults b) :=
  desired_congr h.name h.ns h.uid (congrArg defaultSpec h.spec)

theorem settle_alike {a b : Session} (h : Alike a b) : Alike (settle a) (settle b) := by
  unfold settle addFinalizer
  rw [applyDefaults_metadata, applyDefaults_metadata, h.finalizers]
  by_cases has : sessionFinalizer ∈ b.metadata.finalizers
  · simpa only [has, if_true] using h
  · simp only [has, if_false]
    refine ⟨fun n => ?_, congrArg defaultSpec h.spec⟩
    have same := h.metadata n
    simp only [stamp, ObjectMeta.mk.injEq] at same ⊢
    simp_all

/-- The key holds a Session like `s`. -/
def Holds (k : Key) (s : Session) (σ : Cluster χ) : Prop :=
  ∃ cur, σ.sessions.get k = some cur ∧ Alike cur s

section

variable {child : ChildApi χ} {k : Key} {s : Session} {σ σ' : Cluster χ}

/-- A status write keeps the Session alike. -/
theorem Holds.updateStatus {t sent : Session} (h : Holds k t σ) {a : Answer (.updateStatus sent)}
    (ans : Answers child σ (.updateStatus sent) a σ') (key : sent.key = k)
    (live : t.deleting = false) :
    Holds k t σ' ∧ σ'.children = σ.children := by
  obtain ⟨cur, held, alike⟩ := h
  rcases answers_updateStatus ans with ⟨rfl, -⟩ | ⟨old, ok, rfl, -⟩
  · exact ⟨⟨cur, held, alike⟩, rfl⟩
  · obtain rfl := Store.check_held ok key held
    have oldKey : (statusUpdated cur sent).key = k := σ.keyed k cur held
    have oldLive : (statusUpdated cur sent).deleting = false := alike.deleting.trans live
    have same : Alike (stamp σ.sessions.next (statusUpdated cur sent)) cur := ⟨fun _ => rfl, rfl⟩
    exact ⟨⟨_, commit_live _ _ oldKey oldLive, same.trans alike⟩, Cluster.commit_children _⟩

/-- What a successful or lost Update of the defaulted Session with the finalizer leaves. -/
theorem Holds.ensureFinalizer {cur : Session} (held : σ.sessions.get k = some cur)
    (alike : Alike cur s) (live : s.deleting = false)
    (has : sessionFinalizer ∉ cur.metadata.finalizers)
    {a : Answer (.update (addFinalizer (applyDefaults cur)).1)}
    (ans : Answers child σ (.update (addFinalizer (applyDefaults cur)).1) a σ') :
    (Holds k s σ' ∨ Holds k (settle s) σ') ∧ σ'.children = σ.children ∧
      ∀ sess, a = .ok sess → Holds k (settle s) σ' ∧ sess.key = k ∧ Alike sess (settle s) := by
  have sent : (addFinalizer (applyDefaults cur)).1 = settle cur := by
    unfold settle
    rw [if_neg has]
  have curKey : cur.key = k := σ.keyed k cur held
  have sentKey : (settle cur).key = k := by
    rw [← sent]
    exact (addFinalizer_key _).trans curKey
  rw [sent] at ans
  rcases answers_update ans with ⟨rfl, e, rfl⟩ | ⟨old, ok, rfl, answered⟩
  · exact ⟨.inl ⟨cur, held, alike⟩, rfl, by rintro _ ⟨⟩⟩
  · obtain rfl := Store.check_held ok sentKey held
    -- the server keeps its own uid and deletion timestamp, and they are the ones sent
    have stored : Alike (updated cur (settle cur)) (settle s) := by
      have same : Alike (updated cur (settle cur)) (settle cur) := by
        refine ⟨fun n => ?_, rfl⟩
        simp [settle, addFinalizer, updated, stamp, has]
      exact same.trans (settle_alike alike)
    have oldKey : (updated cur (settle cur)).key = k := sentKey
    have oldLive : (updated cur (settle cur)).deleting = false := by
      rw [stored.deleting, settle_deleting, live]
    have now : (σ.commit (updated cur (settle cur))).sessions.get k =
        some (stamp σ.sessions.next (updated cur (settle cur))) := commit_live _ _ oldKey oldLive
    have settled : Holds k (settle s) (σ.commit (updated cur (settle cur))) :=
      ⟨_, now, (Alike.stamped _ _).trans stored⟩
    refine ⟨.inr settled, Cluster.commit_children _, fun sess eq => ?_⟩
    rcases answered with rfl | ⟨m, rfl⟩
    · cases eq
      exact ⟨settled, oldKey, (Alike.stamped _ _).trans stored⟩
    · cases eq

end
end Codespace.Controller
