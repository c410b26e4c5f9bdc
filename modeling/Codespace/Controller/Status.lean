import Codespace.Controller.History
import Codespace.Interact.Pool

/-!
# What the status remembers

`failStatus` writes `phase` and `reason`; `updateStatus` writes `phase` and `url`. Nobody
ever clears `reason`. The run keeps the log of all calls of all Reconciles, and `Honest`
ties the stored status to it: the reason is empty exactly as long as no error status has
been stored. A Reconcile that gets its status accepted wrote on top of the very object it
read (`Copy.current`), so its status follows the current spec and the Deployment it
observed, and the old reason stays.
-/

namespace Codespace.Controller
set_option autoImplicit false
open Versioned Interact

variable {χ : Type}

/-! ## Runs -/

/-- What happens outside Reconcile: the spec is edited, or anything that does not touch
this Session. -/
inductive Meanwhile (k : Key) : Cluster χ → Cluster χ → Prop
  | edit {σ σ' : Cluster χ} : SpecEdit k σ σ' → Meanwhile k σ σ'
  | elsewhere {σ σ' : Cluster χ} : Later σ.sessions σ'.sessions →
      σ'.sessions.get k = σ.sessions.get k → Meanwhile k σ σ'

/-- The API server while all that happens. -/
def Watched (child : ChildApi χ) (k : Key) : Setting Call Answer (Cluster χ) where
  answer := Answers child
  rely := Relation.ReflTransGen (Meanwhile k)
  rely_refl := fun _ => .refl
  rely_trans := fun a b => a.trans b

/-- A cluster, and the calls of all Reconciles so far. -/
abbrev Logged (χ : Type) := Pool.View Call Answer (Cluster χ)

/-- One event of a run: something outside, or a Reconcile that gets some way. -/
def Proceeds (child : ChildApi χ) (r : SessionReconciler) (k : Key) (v v' : Logged χ) : Prop :=
  (Meanwhile k v.1 v'.1 ∧ v'.2 = v.2) ∨ ∃ left, Exec (Watched child k).logged (Reconcile r k) v left v'

/-- An error status was stored by this call. -/
def ErrorStored (k : Key) (e : Event Call Answer (Cluster χ)) : Prop :=
  ∃ s a b c t, e = ⟨.updateStatus s, a, b, c⟩ ∧ s.status.phase = "Error" ∧
    c.sessions.get k = some t ∧ t.status = s.status

/-- A status that depends on the spec and the observed Deployment only. -/
structure StatusLaw (s : Session) (readyReplicas : Int32) : Prop where
  phase : s.status.phase = if 0 < readyReplicas then "Ready" else "Pending"
  url : s.status.url = statusURL s.spec
  reason : s.status.reason = ""

/-! ## The invariant -/

/-- The stored reason is empty exactly as long as no error status has been stored. -/
structure Honest (k : Key) (v : Logged χ) : Prop where
  stored : ∃ cur, v.1.sessions.get k = some cur ∧ cur.deleting = false ∧
    (cur.status.reason = "" ↔ ∀ e ∈ v.2, ¬ ErrorStored k e)

/-- `sess` is what the controller has of the Session: it was read, up to its defaults. -/
structure Copy (k : Key) (sess : Session) (σ : Cluster χ) : Prop where
  key : sess.key = k
  read : ∃ (σr : Cluster χ) (cur : Session), Later σr.sessions σ.sessions ∧
    σr.sessions.get k = some cur ∧ version cur = sess.metadata.resourceVersion ∧
    sess.status = cur.status ∧ sess.spec.networking = cur.spec.networking

section

variable {child : ChildApi χ} {r : SessionReconciler} {k : Key} {sess : Session} {σ σ' : Cluster χ}

theorem Meanwhile.later (m : Meanwhile k σ σ') : Later σ.sessions σ'.sessions := by
  cases m with
  | edit e => exact e.later
  | elsewhere later _ => exact later

theorem later_of_meanwhile (m : Relation.ReflTransGen (Meanwhile k) σ σ') :
    Later σ.sessions σ'.sessions := by
  induction m with
  | refl => exact .refl _
  | tail _ last ih => exact ih.trans last.later

theorem Copy.later (h : Copy k sess σ) (later : Later σ.sessions σ'.sessions) : Copy k sess σ' := by
  obtain ⟨σr, cur, before, rest⟩ := h.read
  exact ⟨h.key, σr, cur, before.trans later, rest⟩

/-- A write with the copy's version that is accepted finds what was read. -/
theorem Copy.current (h : Copy k sess σ) {cur : Session}
    (ok : σ.sessions.check k sess.metadata.resourceVersion = .ok cur) :
    sess.status = cur.status ∧ sess.spec.networking = cur.spec.networking := by
  obtain ⟨σr, got, later, held, version, status, spec⟩ := h.read
  rw [← version] at ok
  rw [later.check_later held ok]
  exact ⟨status, spec⟩

theorem Honest.meanwhile {l : Log Call Answer (Cluster χ)} (h : Honest k (σ, l))
    (m : Meanwhile k σ σ') : Honest k (σ', l) := by
  obtain ⟨cur, held, live, reason⟩ := h.stored
  cases m with
  | edit e =>
    obtain ⟨n, spec, now, -⟩ := e.stored held live
    exact ⟨_, now, live, reason⟩
  | elsewhere _ same => exact ⟨cur, same.trans held, live, reason⟩

theorem Honest.rely {v v' : Logged χ} (h : Honest k v) (m : (Watched child k).logged.rely v v') :
    Honest k v' := by
  obtain ⟨σ, l⟩ := v
  obtain ⟨σ', l'⟩ := v'
  obtain ⟨run, same⟩ : Relation.ReflTransGen (Meanwhile k) σ σ' ∧ l' = l := m
  subst same
  induction run with
  | refl => exact h
  | tail _ last ih => exact ih.meanwhile last

/-- A call that stores no error status and keeps the status keeps the invariant. -/
theorem Honest.quiet {v : Logged χ} (h : Honest k v) {e : Event Call Answer (Cluster χ)}
    (none : ¬ ErrorStored k e) {σ' : Cluster χ} {cur' : Session}
    (held : σ'.sessions.get k = some cur') (live : cur'.deleting = false)
    (kept : ∀ cur, v.1.sessions.get k = some cur → cur'.status.reason = cur.status.reason) :
    Honest k (σ', v.2 ++ [e]) := by
  obtain ⟨cur, before, -, reason⟩ := h.stored
  refine ⟨cur', held, live, ?_⟩
  rw [kept cur before, reason]
  simp only [List.mem_append, List.mem_singleton, or_imp, forall_and, forall_eq, none,
    not_false_eq_true, and_true]

theorem Honest.read {v : Logged χ} (h : Honest k v) {e : Event Call Answer (Cluster χ)}
    (none : ¬ ErrorStored k e) {σ' : Cluster χ} (same : σ'.sessions = v.1.sessions) :
    Honest k (σ', v.2 ++ [e]) := by
  obtain ⟨cur, held, live, -⟩ := h.stored
  refine h.quiet none (same ▸ held) live fun cur' held' => ?_
  rw [held, Option.some.injEq] at held'
  rw [held']

/-- No call but a status write stores an error status. -/
theorem not_errorStored {c : Call} {a : Answer c} {b c' : Cluster χ} (other : ∀ s, c ≠ .updateStatus s) :
    ¬ ErrorStored k (⟨c, a, b, c'⟩ : Event Call Answer (Cluster χ)) := by
  rintro ⟨s, a', b', c'', t, eq, -⟩
  cases eq
  exact other s rfl

/-- Storing an error status makes the reason one. -/
theorem Honest.report {v v' : Logged χ} (h : Honest k v) {a : Answer (.updateStatus sess)}
    (ans : (Watched child k).logged.answer v (.updateStatus sess) a v') (key : sess.key = k)
    (phase : sess.status.phase = "Error") (reason : sess.status.reason ≠ "") : Honest k v' := by
  obtain ⟨σ, l⟩ := v
  obtain ⟨σ', l'⟩ := v'
  obtain ⟨ans, same⟩ := ans
  simp only at ans same
  subst same
  obtain ⟨cur, held, live, before⟩ := h.stored
  rcases answers_updateStatus ans with ⟨rfl, e, rfl⟩ | ⟨old, ok, rfl, -⟩
  · refine ⟨cur, held, live, ?_⟩
    rw [before]
    refine ⟨fun none e mem => ?_, fun none e mem => none e (by simp [mem])⟩
    rcases List.mem_append.1 mem with earlier | now
    · exact none e earlier
    · -- the error was there already
      rw [List.mem_singleton.1 now]
      rintro ⟨s, a, b, c, t, eq, -, there, status⟩
      cases eq
      simp only at held
      rw [held, Option.some.injEq] at there
      subst there
      exact reason (status ▸ before.2 none)
  · obtain rfl := Store.check_held ok key held
    have stored := commit_live σ (statusUpdated cur sess) (σ.keyed k cur held) live
    refine ⟨_, stored, live, ?_⟩
    have wrote : ErrorStored k ⟨.updateStatus sess, a, σ, σ.commit (statusUpdated cur sess)⟩ :=
      ⟨sess, a, σ, _, _, rfl, phase, stored, rfl⟩
    exact ⟨fun empty => absurd empty reason, fun none => absurd wrote (none _ (by simp))⟩

end

/-! ## One Reconcile -/

/-- This Reconcile read the Deployment `dep`. -/
def Observed (r : SessionReconciler) (k : Key) (dep : Deployment)
    (evs : Log Call Answer (Cluster χ)) : Prop :=
  ∃ σ₁ σ₂, (⟨.getDeployment ⟨k.ns, r.namePrefix ++ k.name⟩, .ok dep, σ₁, σ₂⟩ :
    Event Call Answer (Cluster χ)) ∈ evs

/-- A Reconcile that has gone through all children ends with a status write, and if that is
accepted the law holds of what it stored exactly when no error was stored before. -/
def Finished (r : SessionReconciler) (k : Key) (l : Log Call Answer (Cluster χ)) (v : Logged χ) : Prop :=
  ∃ evs sent a b c, v.2 = l ++ evs ++ [⟨.updateStatus sent, a, b, c⟩] ∧
    ∀ got, a = .ok got → ∃ dep t, Observed r k dep evs ∧ c.sessions.get k = some t ∧
      (StatusLaw t dep.readyReplicas ↔ ∀ e ∈ l, ¬ ErrorStored k e)

/-- A Reconcile with log `l` before it, in its child phase. -/
structure Underway (r : SessionReconciler) (k : Key) (sess : Session)
    (l : Log Call Answer (Cluster χ)) (d : Option Deployment) (v : Logged χ) : Prop where
  honest : Honest k v
  copy : Copy k sess v.1
  events : ∃ evs, v.2 = l ++ evs ∧ (∀ e ∈ evs, ¬ ErrorStored k e) ∧
    ∀ dep, d = some dep → Observed r k dep evs

section

variable {child : ChildApi χ} {r : SessionReconciler} {k : Key} {sess : Session}
  {l : Log Call Answer (Cluster χ)} {d : Option Deployment} {v v' : Logged χ}

theorem Underway.rely (h : Underway r k sess l d v) (m : (Watched child k).logged.rely v v') :
    Underway r k sess l d v' :=
  ⟨h.honest.rely m, h.copy.later (later_of_meanwhile m.1), m.2 ▸ h.events⟩

/-- One more call that stores no error status. -/
theorem Underway.grow (h : Underway r k sess l d v) (honest : Honest k v') {sess' : Session}
    (copy : Copy k sess' v'.1) {e : Event Call Answer (Cluster χ)} (log : v'.2 = v.2 ++ [e])
    (quiet : ¬ ErrorStored k e) {d' : Option Deployment}
    (seen : ∀ dep, d' = some dep → d = some dep ∨ Observed r k dep [e]) :
    Underway r k sess' l d' v' := by
  obtain ⟨evs, eq, none, before⟩ := h.events
  refine ⟨honest, copy, evs ++ [e], by rw [log, eq, List.append_assoc], ?_, ?_⟩
  · intro e' mem
    rcases List.mem_append.1 mem with earlier | now
    · exact none e' earlier
    · rwa [List.mem_singleton.1 now]
  · intro dep got
    rcases seen dep got with earlier | ⟨σ₁, σ₂, mem⟩
    · obtain ⟨σ₁, σ₂, mem⟩ := before dep earlier
      exact ⟨σ₁, σ₂, List.mem_append.2 (.inl mem)⟩
    · exact ⟨σ₁, σ₂, List.mem_append.2 (.inr mem)⟩

/-- Any call but a write of the Session. -/
theorem Underway.call (h : Underway r k sess l d v) {c : Call} {a : Answer c}
    (other : ∀ s, c ≠ .updateStatus s) (same : v'.1.sessions = v.1.sessions)
    (log : v'.2 = v.2 ++ [⟨c, a, v.1, v'.1⟩]) : Underway r k sess l d v' := by
  obtain ⟨σ', l'⟩ := v'
  simp only at same log
  subst log
  exact h.grow (h.honest.read (not_errorStored other) same) (h.copy.later (by rw [same]; exact .refl _)) rfl
    (not_errorStored other) (fun _ got => .inl got)

/-- The accepted status of a Reconcile. -/
theorem Underway.finished {dep : Deployment} (h : Underway r k sess l (some dep) v)
    {a : Answer (.updateStatus { sess with status := nextStatus sess dep })}
    (ans : (Watched child k).logged.answer v (.updateStatus { sess with status := nextStatus sess dep }) a v') :
    Honest k v' ∧ Finished r k l v' := by
  obtain ⟨σ, log⟩ := v
  obtain ⟨σ', log'⟩ := v'
  obtain ⟨ans, same⟩ := ans
  simp only at ans same
  subst same
  obtain ⟨evs, eq, none, seen⟩ := h.events
  simp only at eq
  subst eq
  have quiet : ¬ ErrorStored k (⟨.updateStatus { sess with status := nextStatus sess dep }, a, σ, σ'⟩ :
      Event Call Answer (Cluster χ)) := by
    rintro ⟨s, a', b, c, t, eq, phase, -, -⟩
    cases eq
    simp only [nextStatus] at phase
    split at phase <;> simp at phase
  obtain ⟨cur, held, live, reason⟩ := h.honest.stored
  simp only at held
  rcases answers_updateStatus ans with ⟨rfl, e, rfl⟩ | ⟨old, ok, rfl, -⟩
  · exact ⟨h.honest.read quiet rfl, evs, _, _, _, _, rfl, by rintro _ ⟨⟩⟩
  · have current := h.copy.current (h.copy.key ▸ ok)
    obtain rfl := Store.check_held ok h.copy.key held
    have stored := commit_live σ
      (statusUpdated cur { sess with status := nextStatus sess dep }) (σ.keyed k cur held) live
    have kept : (nextStatus sess dep).reason = cur.status.reason := by
      show sess.status.reason = _
      rw [current.1]
    refine ⟨h.honest.quiet quiet stored live ?_, evs, _, _, _, _, rfl, fun got _ => ?_⟩
    · intro cur' held'
      rw [held, Option.some.injEq] at held'
      subst held'
      exact kept
    · refine ⟨dep, _, seen dep rfl, stored, ?_⟩
      have before : cur.status.reason = "" ↔ ∀ e ∈ l, ¬ ErrorStored k e := by
        rw [reason]
        exact ⟨fun all e mem => all e (by simp [mem]), fun all e mem =>
          (List.mem_append.1 mem).elim (all e) (none e)⟩
      rw [← before, ← kept]
      refine ⟨fun law => law.reason, fun empty => ⟨rfl, ?_, empty⟩⟩
      show statusURL sess.spec = statusURL cur.spec
      unfold statusURL
      rw [current.2]

/-- What a Reconcile leaves behind, however far it got. -/
def Left (r : SessionReconciler) (k : Key) (l : Log Call Answer (Cluster χ)) (o : Outcome)
    (v : Logged χ) : Prop :=
  Honest k v ∧ (o = .done (some 120) → Finished r k l v)

theorem Underway.apply {m : Manifest} (h : Underway r k sess l d v)
    {a : Answer (.apply r.ssaFieldOwner m)}
    (ans : (Watched child k).logged.answer v (.apply r.ssaFieldOwner m) a v') :
    Underway r k sess l d v' := by
  refine h.call (by simp) ?_ ans.2
  rcases answers_apply ans.1 with ⟨same, -⟩ | ⟨c, -, same⟩
  · rw [same]
  · rw [same]

theorem Underway.reconcileChildren_wp (h : Underway r k sess l none v) :
    (reconcileChildren r sess).wp (Watched child k).logged (fun v _ => Honest k v) (Left r k l) v := by
  have key := h.copy.key
  have phase : ChildPhase (Watched child k).logged (fun v _ => Honest k v) r sess
      (fun _ d v => Underway r k sess l d v) (Honest k) (Left r k l) :=
    { rely := fun _ _ _ _ h m => h.rely m
      relyFailed := fun _ _ h m => h.rely m
      relyDone := fun o v v' h m => ⟨h.1.rely m, fun eq => by
        obtain ⟨evs, sent, a, b, c, log, rest⟩ := h.2 eq
        exact ⟨evs, sent, a, b, c, m.2.trans log, rest⟩⟩
      guarantee := fun _ _ _ _ h => h.honest
      guaranteeFailed := fun _ _ h => h
      applied := fun _ _ _ _ _ h _ ans => h.apply ans
      rejected := fun _ _ _ _ _ _ h _ ans => (h.apply ans).honest
      deployment := by
        intro ms dep v v' h ans
        have same := (answers_getDeployment ans.1).1
        have seen := h.call (by simp) (by rw [same]) ans.2
        refine h.grow seen.honest seen.copy ans.2 (not_errorStored (by simp)) fun dep' eq => .inr ?_
        cases eq
        subst key
        exact ⟨_, _, List.mem_singleton_self _⟩
      noDeployment := fun _ _ _ _ _ h ans =>
        (h.call (by simp) (by rw [(answers_getDeployment ans.1).1]) ans.2).honest
      service := fun _ _ svc _ _ h ans => by
        obtain ⟨same, read⟩ := answers_getService ans.1
        exact ⟨by rw [read svc rfl], h.call (by simp) (by rw [same]) ans.2⟩
      noService := fun _ _ _ _ _ h ans =>
        (h.call (by simp) (by rw [(answers_getService ans.1).1]) ans.2).honest
      panicked := fun _ _ _ _ h _ => ⟨h.honest, nofun⟩
      reported := fun message _ a _ _ text h ans => ⟨h.report ans key rfl text, nofun⟩
      finished := fun dep a _ _ h ans => ⟨(h.finished ans).1, fun _ => (h.finished ans).2⟩ }
  exact wp_reconcileChildren phase h

/-- The Get that succeeds makes a copy. -/
theorem Honest.get (h : Honest k v) {got : Session}
    (ans : (Watched child k).logged.answer v (.get k) (.ok got) v') :
    Underway r k (applyDefaults got) v.2 none v' ∧ got.deleting = false ∧ got.key = k := by
  obtain ⟨σ, log⟩ := v
  obtain ⟨σ', log'⟩ := v'
  obtain ⟨read, same⟩ := ans
  simp only at read same
  subst same
  obtain ⟨rfl, held⟩ := answers_get_ok read
  obtain ⟨cur, held', live, -⟩ := h.stored
  simp only at held'
  rw [held, Option.some.injEq] at held'
  subst held'
  have key : got.key = k := σ'.keyed k got held
  refine ⟨⟨h.read (not_errorStored (by simp)) rfl, ⟨key, σ', got, .refl _, held, rfl, rfl, rfl⟩,
    [⟨.get k, .ok got, σ', σ'⟩], rfl, ?_, nofun⟩, live, key⟩
  intro e mem
  rw [List.mem_singleton.1 mem]
  exact not_errorStored (by simp)

/-- The Update of the finalizer keeps the status, and its answer is a copy too. -/
theorem Underway.ensureFinalizer (h : Underway r k sess l none v)
    {a : Answer (.update (addFinalizer sess).1)}
    (ans : (Watched child k).logged.answer v (.update (addFinalizer sess).1) a v') :
    Honest k v' ∧ ∀ got, a = .ok got → Underway r k got l none v' := by
  obtain ⟨σ, log⟩ := v
  obtain ⟨σ', log'⟩ := v'
  obtain ⟨ans, same⟩ := ans
  simp only at ans same
  subst same
  have quiet : ∀ b c', ¬ ErrorStored k (⟨.update (addFinalizer sess).1, a, b, c'⟩ :
    Event Call Answer (Cluster χ)) := fun _ _ => not_errorStored (by simp)
  rcases answers_update ans with ⟨rfl, e, rfl⟩ | ⟨old, ok, rfl, answered⟩
  · exact ⟨h.honest.read (quiet _ _) rfl, by rintro _ ⟨⟩⟩
  · obtain ⟨cur, held, live, reason⟩ := h.honest.stored
    have key : (addFinalizer sess).1.key = k := (addFinalizer_key sess).trans h.copy.key
    obtain rfl := Store.check_held ok key held
    have stored := commit_live σ (updated cur (addFinalizer sess).1) key live
    have honest := h.honest.quiet (quiet σ (σ.commit (updated cur (addFinalizer sess).1))) stored live
      fun cur' held' => by
        rw [held, Option.some.injEq] at held'
        rw [← held']
        rfl
    refine ⟨honest, fun got eq => ?_⟩
    rcases answered with rfl | ⟨m, rfl⟩
    · cases eq
      have copy : Copy k (stamp σ.sessions.next (updated cur (addFinalizer sess).1))
          (σ.commit (updated cur (addFinalizer sess).1)) :=
        ⟨key, _, _, .refl _, stored, rfl, rfl, rfl⟩
      exact h.grow honest copy rfl (quiet _ _) (fun _ none => by cases none)
    · cases eq

/-- One Reconcile. -/
theorem Honest.reconcile_wp (h : Honest k v) :
    (Reconcile r k).wp (Watched child k).logged (fun v _ => Honest k v) (Left r k v.2) v := by
  refine wp_reconcile (fun _ m => h.rely m) ?_ ?_ ?_ ?_
  · intro v₁ v₂ v₃ e m ans m'
    have honest : Honest k v₂ := by
      obtain ⟨σ₂, log₂⟩ := v₂
      have log := ans.2
      simp only at log
      subst log
      have same : σ₂ = v₁.1 := (answers_get ans.1).1
      exact (h.rely m).read (not_errorStored (by simp)) (by rw [same])
    exact ⟨honest.rely m', by split <;> exact nofun⟩
  · intro v₁ v₂ got m ans del
    rw [((h.rely m).get (r := r) ans).2.1] at del
    cases del
  · intro v₁ v₂ got m ans _ _
    have log : v₁.2 = v.2 := m.2
    exact log ▸ ((h.rely m).get ans).1.reconcileChildren_wp
  · intro v₁ v₂ v₃ got m ans m' _ _
    have log : v₁.2 = v.2 := m.2
    have underway := ((h.rely m).get (r := r) ans).1.rely m'
    rw [log] at underway
    refine ⟨underway.honest, fun e v₄ v₅ ans' m'' => ?_, fun sess v₄ ans' => ?_⟩
    · exact ⟨(underway.ensureFinalizer ans').1.rely m'', nofun⟩
    · exact ((underway.ensureFinalizer ans').2 sess rfl).reconcileChildren_wp

/-- A whole run. -/
theorem Honest.run (h : Honest k v) (run : Relation.ReflTransGen (Proceeds child r k) v v') :
    Honest k v' := by
  induction run with
  | refl => exact h
  | tail _ last ih =>
    rcases last with ⟨m, log⟩ | ⟨left, exec⟩
    · have outside : (Watched child k).logged.rely _ _ := ⟨.single m, log⟩
      exact ih.rely outside
    · exact Prog.wp_cut exec ih.reconcile_wp (fun _ _ h => h) (fun _ _ h => h.1)

/-- **Main result.** Start from a Session without a reason and take any run of edits, other
changes and Reconciles, each cut off anywhere. A further Reconcile that goes through all
children, and whose status is accepted, stores a status by the law exactly when no error
status was stored earlier in the run. -/
theorem status_law_iff {s : Session} {σ₀ σ σ' : Cluster χ} {l l' : Log Call Answer (Cluster χ)}
    (held : σ₀.sessions.get k = some s) (live : s.deleting = false) (reason : s.status.reason = "")
    (run : Relation.ReflTransGen (Proceeds child r k) (σ₀, []) (σ, l))
    (last : Exec (Watched child k).logged (Reconcile r k) (σ, l) (.ret (.done (some 120))) (σ', l')) :
    ∃ evs sent a b c, l' = l ++ evs ++ [⟨.updateStatus sent, a, b, c⟩] ∧
      ∀ got, a = .ok got → ∃ dep t, Observed r k dep evs ∧ c.sessions.get k = some t ∧
        (StatusLaw t dep.readyReplicas ↔ ∀ e ∈ l, ¬ ErrorStored k e) := by
  have start : Honest k (σ₀, ([] : Log Call Answer (Cluster χ))) :=
    ⟨s, held, live, by simp [reason]⟩
  have finished := (Prog.wp_result last (start.run run).reconcile_wp).2 rfl
  exact finished

end
/-! ## A failure that is remembered -/

/-- An API server on which every Apply times out. -/
def timingOut (σ : Cluster Manifest) : (c : Call) → Answer c × Cluster Manifest
  | .apply _ _ => (.error ⟨.other, "etcdserver: request timed out"⟩, σ)
  | c => answer replaceApi σ c

theorem timingOut_answers (σ : Cluster Manifest) (c : Call) :
    Answers replaceApi σ c (timingOut σ c).1 (timingOut σ c).2 := by
  cases c with
  | apply owner m => exact .inr ⟨_, rfl, .inl rfl⟩
  | _ => exact .inl rfl

/-- A new Session, and nothing logged. -/
def unreconciled : Logged Manifest :=
  (Cluster.blank.commit (.plain ⟨"ns", "a"⟩ 1 SessionSpec.plain), [])

/-- One Reconcile against `step`. -/
def afterReconcile (step : Cluster Manifest → (c : Call) → Answer c × Cluster Manifest)
    (v : Logged Manifest) : Logged Manifest :=
  ((Reconcile .default ⟨"ns", "a"⟩).run (Setting.recorded step) v).2

theorem afterReconcile_exec {step : Cluster Manifest → (c : Call) → Answer c × Cluster Manifest}
    (answers : ∀ σ c, Answers replaceApi σ c (step σ c).1 (step σ c).2) (v : Logged Manifest) :
    Exec (Watched replaceApi ⟨"ns", "a"⟩).logged (Reconcile .default ⟨"ns", "a"⟩) v
      (.ret ((Reconcile .default ⟨"ns", "a"⟩).run (Setting.recorded step) v).1) (afterReconcile step v) :=
  .of_run (Setting.recorded_answers answers) _ _

/-- A log that ends with an accepted status write. -/
def EndsAccepted (v : Logged χ) : Prop :=
  ∃ sent got b c, v.2.getLast? = some (⟨.updateStatus sent, .ok got, b, c⟩ : Event Call Answer (Cluster χ))

theorem Finished.accepted {r : SessionReconciler} {k : Key} {l : Log Call Answer (Cluster χ)}
    {v : Logged χ} (h : Finished r k l v) (last : EndsAccepted v) :
    ∃ evs sent got b c dep t, v.2 = l ++ evs ++ [⟨.updateStatus sent, .ok got, b, c⟩] ∧
      Observed r k dep evs ∧ c.sessions.get k = some t ∧
      (StatusLaw t dep.readyReplicas ↔ ∀ e ∈ l, ¬ ErrorStored k e) := by
  obtain ⟨evs, sent, a, b, c, log, law⟩ := h
  obtain ⟨sent', got, b', c', last⟩ := last
  rw [log, List.getLast?_append, List.getLast?_singleton, Option.some_or, Option.some.injEq] at last
  cases last
  obtain ⟨dep, t, rest⟩ := law got rfl
  exact ⟨evs, sent, got, b, c, dep, t, log, rest⟩

/-- The cluster after a first Reconcile without failures. -/
def reconciledOnce : Logged Manifest := afterReconcile (answer replaceApi) unreconciled

/-- The phase that a call writes. -/
def phaseSent (e : Event Call Answer (Cluster χ)) : Option String :=
  match e.call with
  | .updateStatus s => some s.status.phase
  | _ => none

theorem errorStored_phase {k : Key} {e : Event Call Answer (Cluster χ)} (stored : ErrorStored k e) :
    phaseSent e = some "Error" := by
  obtain ⟨s, a, b, c, t, rfl, phase, -⟩ := stored
  exact congrArg some phase

/-- The Reconcile after that one, too, stores a status by the law. -/
theorem reconciled_law : ∃ evs sent a b c dep t,
    (afterReconcile (answer replaceApi) reconciledOnce).2 = reconciledOnce.2 ++ evs ++ [⟨.updateStatus sent, a, b, c⟩] ∧
    Observed .default ⟨"ns", "a"⟩ dep evs ∧ c.sessions.get ⟨"ns", "a"⟩ = some t ∧ StatusLaw t dep.readyReplicas := by
  have run : Relation.ReflTransGen (Proceeds replaceApi .default ⟨"ns", "a"⟩) unreconciled reconciledOnce :=
    .single (.inr ⟨_, afterReconcile_exec (answers_answer replaceApi) unreconciled⟩)
  have again := afterReconcile_exec (answers_answer replaceApi) reconciledOnce
  have finished : Finished .default ⟨"ns", "a"⟩ reconciledOnce.2 (afterReconcile (answer replaceApi) reconciledOnce) :=
    status_law_iff rfl rfl rfl run again
  have accepted : EndsAccepted (afterReconcile (answer replaceApi) reconciledOnce) := ⟨_, _, _, _, rfl⟩
  obtain ⟨evs, sent, got, b, c, dep, t, log, seen, stored, iff⟩ := finished.accepted accepted
  refine ⟨evs, sent, .ok got, b, c, dep, t, log, seen, stored, iff.2 fun e mem error => ?_⟩
  have calm : (reconciledOnce.2.all fun e => phaseSent e ≠ some "Error") = true := by decide +kernel
  simp only [List.all_eq_true, decide_eq_true_eq] at calm
  exact calm e mem (errorStored_phase error)

/-- The law, of every run. -/
def Forgets (child : ChildApi χ) (r : SessionReconciler) (k : Key) : Prop :=
  ∀ (s : Session) (σ₀ σ σ' : Cluster χ) (l l' evs : Log Call Answer (Cluster χ)) sent got b c dep t,
    σ₀.sessions.get k = some s → s.deleting = false → s.status.reason = "" →
    Relation.ReflTransGen (Proceeds child r k) (σ₀, []) (σ, l) →
    Exec (Watched child k).logged (Reconcile r k) (σ, l) (.ret (.done (some 120))) (σ', l') →
    l' = l ++ evs ++ [⟨.updateStatus sent, .ok got, b, c⟩] → Observed r k dep evs →
    c.sessions.get k = some t → StatusLaw t dep.readyReplicas

/-- A first Reconcile that times out, and a second one without failures. -/
theorem timedOut_done :
    Exec (Watched replaceApi ⟨"ns", "a"⟩).logged (Reconcile .default ⟨"ns", "a"⟩)
      (afterReconcile timingOut unreconciled) (.ret (.done (some 120)))
      (afterReconcile (answer replaceApi) (afterReconcile timingOut unreconciled)) :=
  afterReconcile_exec (answers_answer replaceApi) (afterReconcile timingOut unreconciled)

theorem timedOut_accepted :
    EndsAccepted (afterReconcile (answer replaceApi) (afterReconcile timingOut unreconciled)) :=
  ⟨_, _, _, _, rfl⟩

/-- The fourth call of the first one stored an error status. -/
theorem timedOut_error : ∃ e ∈ (afterReconcile timingOut unreconciled).2, ErrorStored ⟨"ns", "a"⟩ e :=
  ⟨_, List.mem_of_getElem? (i := 3) rfl, _, _, _, _, _, rfl, rfl, rfl, rfl⟩

/-- After the second the phase is Pending, and the reason is still the timeout. -/
theorem timeout_remembered : ¬ Forgets replaceApi .default ⟨"ns", "a"⟩ := by
  intro claim
  have run : Relation.ReflTransGen (Proceeds replaceApi .default ⟨"ns", "a"⟩) unreconciled
      (afterReconcile timingOut unreconciled) :=
    .single (.inr ⟨_, afterReconcile_exec timingOut_answers unreconciled⟩)
  have start : Honest ⟨"ns", "a"⟩ unreconciled := 
    ⟨_, rfl, rfl, fun _ _ mem => absurd mem List.not_mem_nil, fun _ => rfl⟩
  have left := Prog.wp_result timedOut_done (start.run run).reconcile_wp
  obtain ⟨evs, sent, got, b, c, dep, t, log, seen, stored, iff⟩ := (left.2 rfl).accepted timedOut_accepted
  have lawful := claim _ _ _ _ _ _ evs sent got b c dep t rfl rfl rfl run timedOut_done log seen stored
  obtain ⟨e, mem, error⟩ := timedOut_error
  exact iff.1 lawful e mem error

end Codespace.Controller
