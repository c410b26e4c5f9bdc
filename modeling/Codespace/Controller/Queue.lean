import Codespace.Controller.Informed

/-!
# The controller at work

`Rests` is what the controller is there for: a Session under deletion is without the finalizer,
any other has it and the children that are desired of it. A Reconcile works with what the cache
holds, changes of its children may still be unheard when it ends, and one that fails is queued
again. So `reconcile_pass` shows that one Reconcile leaves its Session `Attended`, which is at
rest but for what has not been heard, or changes it, or fails.
-/

namespace Codespace.Controller
set_option autoImplicit false
open Versioned Interact

/-! ## What is claimed -/

/-- These manifests are stored, as far as the controller hears of changes, or nobody makes any. -/
def Stored (T : Set Kind) (ms : List Manifest) (children : GoMap ChildKey Manifest) : Prop :=
  ∀ m ∈ ms, m.key.kind ∈ owned ∨ m.key.kind ∉ T → children.lookup m.key = some m

/-- Nothing is left to do for the Session. -/
structure Rests (r : SessionReconciler) (T : Set Kind) (s : Session) (children : GoMap ChildKey Manifest) : Prop where
  deleted : s.deleting = true → sessionFinalizer ∉ s.metadata.finalizers
  marked : s.deleting = false → sessionFinalizer ∈ s.metadata.finalizers
  applied : s.deleting = false → Stored T (desired r (applyDefaults s)) children

/-! ## The invariant -/

/-- It has not been heard that this manifest is not stored any more. -/
def Informed.Unheard (w : Informed) (m : Manifest) : Prop :=
  m.key.kind ∈ owned ∧ (w.missed m.key = true ∨ some m ∈ w.view m.key :: w.waiting m.key)

/-- These manifests are stored, as far as the controller has heard. -/
def Kept (T : Set Kind) (ms : List Manifest) (w : Informed) : Prop :=
  ∀ m ∈ ms, m.key.kind ∈ owned ∨ m.key.kind ∉ T → w.children.lookup m.key = some m ∨ w.Unheard m

/-- Nothing is left to do for the Session, for all that the controller has heard. -/
structure Attended (r : SessionReconciler) (T : Set Kind) (s : Session) (w : Informed) : Prop where
  deleted : s.deleting = true → sessionFinalizer ∉ s.metadata.finalizers
  marked : s.deleting = false → sessionFinalizer ∈ s.metadata.finalizers
  applied : s.deleting = false → Kept T (desired r (applyDefaults s)) w

/-- Where the cache is current, this holds of the Session and its surroundings. -/
def Seen (k : Key) (P : Session → Informed → Prop) (w : Informed) : Prop :=
  ∀ s, w.cache k = some s → w.stored k = some s → P s w

/-- How far a Reconcile is that has applied these manifests. -/
structure Ready (r : SessionReconciler) (T : Set Kind) (sess : Session) (ms : List Manifest) (s : Session)
    (w : Informed) : Prop where
  live : s.deleting = false
  marked : sessionFinalizer ∈ s.metadata.finalizers
  asked : desired r (applyDefaults s) = desired r sess
  applied : Kept T ms w

section

variable {r : SessionReconciler} {T : Set Kind} {k : Key} {w w' : Informed} {s sess : Session}

/-! ## The current Session -/

/-- What is known of the current Session, after a step. -/
theorem Known.seen {P P' : Session → Informed → Prop} (known : Known w) (seen : Seen k P w) (ahead : Ahead w w')
    (kept : ∀ s, s.key = k → w.stored k = some s → w'.stored k = some s → P s w → Queues w w' k ∨ P' s w') :
    Queues w w' k ∨ Seen k P' w' := by
  by_cases queued : Queues w w' k
  · exact .inl queued
  refine .inr fun s cached stored => ?_
  have same : w'.cache k = w.cache k := by
    by_contra changed
    exact queued (.inl changed)
  rw [same] at cached
  have before := known.unchanged ahead cached stored
  exact (kept s (known.cached k s cached).2 before stored (seen s cached before)).resolve_left queued

/-- A Session that was just committed has not been seen. -/
theorem Known.unseen {P : Session → Informed → Prop} (known : Known w) (cache : w'.cache = w.cache)
    (fresh : ∀ s, w'.stored k = some s → w.world.cluster.sessions.next ≤ version s) : Seen k P w' := by
  intro s cached stored
  have := known.recorded.versions s (known.cached k s (cache ▸ cached)).1
  have := fresh s stored
  omega

/-! ## Its children -/

/-- A child that was stored as desired is so still, or it has not been heard that it is not, or the key
of its Session is queued. -/
theorem Kept.hears {ms : List Manifest} (known : Known w) (kept : Kept T ms w) (mine : ∀ m ∈ ms, m ∈ desired r sess)
    (hears : ∀ m ∈ ms, Hears w w' m.key)
    (changes : ∀ m ∈ ms, w'.children.lookup m.key ≠ w.children.lookup m.key → m.key.kind ∈ T) :
    Queues w w' sess.key ∨ Kept T ms w' := by
  by_cases queued : Queues w w' sess.key
  · exact .inl queued
  refine .inr fun m mem concerned => ?_
  have now := kept m mem concerned
  cases hears m mem with
  | moved viewed waits missed =>
    rcases now with stored | ⟨watched, unheard⟩
    · by_cases same : w'.children.lookup m.key = w.children.lookup m.key
      · exact .inl (same.trans stored)
      · -- it is the last state before the one that is on its way now
        have watched := concerned.resolve_right fun untouched => untouched (changes m mem same)
        have last := known.last m.key watched
        rw [stored] at last
        have before := List.mem_of_getLast? last
        refine .inr ⟨watched, .inr ?_⟩
        rw [viewed, waits, ← List.cons_append]
        exact List.mem_append_left _ before
    · refine .inr ⟨watched, ?_⟩
      rw [viewed, waits, missed, ← List.cons_append]
      exact unheard.imp_right fun before => List.mem_append_left _ before
  | heard same waits missed =>
    rcases now with stored | ⟨watched, lost | before⟩
    · exact .inl (same ▸ stored)
    · exact .inr ⟨watched, .inl (missed.trans lost)⟩
    · rw [waits] at before
      rcases List.mem_cons.1 before with view | later
      · by_cases arrived : w'.view m.key = w.view m.key
        · exact .inr ⟨watched, .inr (arrived.trans view.symm ▸ List.mem_cons_self)⟩
        · refine absurd (.inr ⟨m.key, m, arrived, .inl view.symm, ?_⟩) queued
          rw [desired_owner (mine m mem), (mem_desired_key (mine m mem)).1, owner_request]
      · exact .inr ⟨watched, .inr later⟩
  | missed same lost =>
    rcases now with stored | ⟨watched, -⟩
    · exact .inl (same ▸ stored)
    · exact .inr ⟨watched, .inl lost⟩

/-- The rest of the world leaves the children of a Session as they are, or is noticed. -/
theorem Kept.elsewhere {ms : List Manifest} (known : Known w) (kept : Kept T ms w)
    (mine : ∀ m ∈ ms, m ∈ desired r (applyDefaults s))
    (elsewhere : (controller r T).Elsewhere (AppliesOwn r) s.key w w') : Queues w w' s.key ∨ Kept T ms w' := by
  have noticed := kept.hears known mine (fun m mem => elsewhere_hears (mine m mem) elsewhere)
    fun m mem changed => elsewhere_changes (mine m mem) elsewhere changed
  exact noticed

/-- So does a call that applies none of them. -/
theorem Kept.calls {ms : List Manifest} (known : Known w) (kept : Kept T ms w) (mine : ∀ m ∈ ms, m ∈ desired r sess)
    {c : Call} {a : Answer c} (ans : InformedAnswer w c a w')
    (other : ∀ o m, c = .apply o m → ∀ m' ∈ ms, m.key ≠ m'.key) : Kept T ms w' := by
  have hears : ∀ m' ∈ ms, Hears w w' m'.key := fun m' mem => hears_answer ans fun o m eq => other o m eq m' mem
  refine (kept.hears known mine hears fun m' mem changed => ?_).resolve_left (answer_queues ans sess.key)
  obtain ⟨o, m, eq, key⟩ := answer_changes ans changed
  exact absurd key (other o m eq m' mem)

theorem applied_stored {m : Manifest} {o : String} (ans : InformedAnswer w (.apply o m) (.ok ()) w') :
    w'.children.lookup m.key = some m := by
  obtain ⟨σ, served, rfl⟩ := ans
  cases served with
  | answers ans =>
    obtain ⟨-, e, eq⟩ | ⟨c, ok, rfl⟩ := answers_apply ans
    · cases eq
    cases ok
    exact Finmap.lookup_insert _

/-- An apply that succeeds is stored. -/
theorem Kept.applied {ms : List Manifest} (known : Known w) (kept : Kept T ms w) (mine : ∀ m ∈ ms, m ∈ desired r sess)
    {m : Manifest} {o : String} (ans : InformedAnswer w (.apply o m) (.ok ()) w')
    (other : ∀ m' ∈ ms, m'.key = m.key → m' = m) : Kept T (ms ++ [m]) w' := by
  have rest : Kept T (ms.filter (·.key ≠ m.key)) w' := by
    refine Kept.calls known (fun m' mem => kept m' (List.mem_of_mem_filter mem))
      (fun m' mem => mine m' (List.mem_of_mem_filter mem)) ans ?_
    rintro _ _ ⟨⟩ m' mem same
    simp [same] at mem
  intro m' mem concerned
  by_cases here : m'.key = m.key
  · have same : m' = m := by
      rcases List.mem_append.1 mem with old | new
      · exact other m' old here
      · exact List.mem_singleton.1 new
    exact .inl (same ▸ applied_stored ans)
  · have old : m' ∈ ms := (List.mem_append.1 mem).resolve_right fun new =>
      here (congrArg Manifest.key (List.mem_singleton.1 new))
    exact rest m' (List.mem_filter.2 ⟨old, by simpa using here⟩) concerned

/-! ## One Reconcile -/

/-- An assertion about a program's surroundings, as long as its key is not queued. -/
def Quiet (k : Key) (P : Session → Informed → Prop) (v : Loop.Watched Informed) : Prop :=
  v.2 ∨ Known v.1 ∧ Seen k P v.1

/-- The surroundings of a Reconcile. -/
abbrev queueing (r : SessionReconciler) (T : Set Kind) (k : Key) : Setting Call Answer (Loop.Watched Informed) :=
  (controller r T).watched (AppliesOwn r) k

variable {v v' : Loop.Watched Informed} {P P' : Session → Informed → Prop}

theorem Quiet.answer (quiet : Quiet k P v) {c : Call} {a : Answer c} (ans : (queueing r T k).answer v c a v')
    (step : Known v.1 → Seen k P v.1 → Seen k P' v'.1) : Quiet k P' v' := by
  obtain ⟨ans, kept, -⟩ := ans
  rcases quiet with queued | ⟨known, seen⟩
  · exact .inl (kept queued)
  · exact .inr ⟨(ahead_answer ans).known known, step known seen⟩

/-- What a call does to the current Session. -/
theorem Quiet.calls (quiet : Quiet k P v) {c : Call} {a : Answer c} (ans : (queueing r T k).answer v c a v')
    (step : ∀ s, Known v.1 → P s v.1 → P' s v'.1) : Quiet k P' v' :=
  quiet.answer ans fun known seen => (known.seen seen (ahead_answer ans.1) fun s _ _ _ holds =>
    .inr (step s known holds)).resolve_left (answer_queues ans.1 k)

theorem Ready.elsewhere {ms : List Manifest} (known : Known w) (part : ms ⊆ desired r sess) (ready : Ready r T sess ms s w)
    (elsewhere : (controller r T).Elsewhere (AppliesOwn r) s.key w w') :
    Queues w w' s.key ∨ Ready r T sess ms s w' := by
  have mine : ∀ m ∈ ms, m ∈ desired r (applyDefaults s) := fun m mem => ready.asked ▸ part mem
  exact (ready.applied.elsewhere known mine elsewhere).imp_right fun applied => { ready with applied := applied }

theorem Attended.elsewhere (known : Known w) (attended : Attended r T s w)
    (elsewhere : (controller r T).Elsewhere (AppliesOwn r) s.key w w') : Queues w w' s.key ∨ Attended r T s w' := by
  by_cases live : s.deleting = false
  · refine ((attended.applied live).elsewhere known (fun _ mem => mem) elsewhere).imp_right fun applied => ?_
    exact { attended with applied := fun _ => applied }
  · exact .inr { attended with applied := fun live' => absurd live' live }

/-- Once it has heard of everything, nothing is left to do. -/
theorem Attended.rests (known : Known w) (attended : Attended r T s w)
    (heard : ∀ m ∈ desired r (applyDefaults s), m.key.kind ∈ owned → w.Heard m.key) : Rests r T s w.children := by
  refine ⟨attended.deleted, attended.marked, fun live m mem concerned => ?_⟩
  rcases attended.applied live m mem concerned with stored | ⟨watched, unheard⟩
  · exact stored
  · obtain ⟨waiting, missed⟩ := heard m mem watched
    have last := known.last m.key watched
    rw [waiting, List.getLast?_singleton, Option.some.injEq] at last
    rw [waiting, missed, List.mem_singleton] at unheard
    exact (unheard.resolve_left Bool.false_ne_true ▸ last).symm

/-- What the rest of the world cannot change unnoticed is stable. -/
theorem Quiet.rely (quiet : Quiet k P v) (rely : (queueing r T k).rely v v')
    (kept : ∀ {w w' s}, Known w → s.key = k → (controller r T).Elsewhere (AppliesOwn r) k w w' → P s w →
      Queues w w' k ∨ P s w') : Quiet k P v' := by
  refine Loop.stable_of_passes (L := controller r T) (A := fun w => Known w ∧ Seen k P w) ?_ quiet rely
  rintro w w' ⟨known, seen⟩ elsewhere
  have ahead := ahead_elsewhere elsewhere
  refine (known.seen seen ahead fun s key _ _ holds => ?_).imp_right fun seen' => ⟨ahead.known known, seen'⟩
  exact kept known key elsewhere holds

theorem Quiet.rely_ready {ms : List Manifest} (quiet : Quiet k (Ready r T sess ms) v) (part : ms ⊆ desired r sess)
    (rely : (queueing r T k).rely v v') : Quiet k (Ready r T sess ms) v' :=
  quiet.rely rely fun known key elsewhere ready => by
    subst key
    exact ready.elsewhere known part elsewhere

theorem Quiet.rely_attended (quiet : Quiet k (Attended r T) v) (rely : (queueing r T k).rely v v') :
    Quiet k (Attended r T) v' :=
  quiet.rely rely fun known key elsewhere attended => by
    subst key
    exact attended.elsewhere known elsewhere

/-- How a Reconcile ends. -/
def Passed (r : SessionReconciler) (T : Set Kind) (k : Key) (o : Outcome) (v : Loop.Watched Informed) : Prop :=
  (∀ after, o ≠ .done after) ∨ Quiet k (Attended r T) v

/-- What lasts while the world moves on. -/
theorem ahead_rely {I : Informed → Prop} (lasts : ∀ {w w'}, I w → Ahead w w' → I w') (start : I v.1)
    (rely : (queueing r T k).rely v v') : I v'.1 := by
  induction rely with
  | refl => exact start
  | tail _ last ih =>
    obtain ⟨-, same | ⟨elsewhere, -⟩⟩ := last
    · rw [same]
      exact ih
    · exact lasts ih (ahead_elsewhere elsewhere)

/-- The child phase. -/
theorem children_pass (key : sess.key = k) (start : Quiet k (Ready r T sess []) v) :
    (reconcileChildren r sess).wp (queueing r T k) (fun v c => AppliesOwn r k v.1 c) (Passed r T k) v := by
  have phase : ChildPhase (queueing r T k) (fun _ _ => True) r sess
      (fun ms _ v => ms ⊆ desired r sess ∧ Quiet k (Ready r T sess ms) v) (fun _ => True) (Passed r T k) :=
    { rely := fun ms _ v v' inv rely => ⟨inv.1, inv.2.rely_ready inv.1 rely⟩
      relyFailed := fun _ _ h _ => h
      relyDone := fun o v v' passed rely => passed.imp_right fun quiet => quiet.rely_attended rely
      guarantee := fun _ _ _ _ _ => trivial
      guaranteeFailed := fun _ _ _ => trivial
      applied := by
        rintro ms d m v v' ⟨part, quiet⟩ next ans
        have mem : m ∈ desired r sess := next.subset (by simp)
        have answered : InformedAnswer v.1 (.apply r.ssaFieldOwner m) (.ok ()) v'.1 := ans.1
        refine ⟨fun m' mem' => next.subset mem', quiet.calls ans fun s known ready => { ready with applied := ?_ }⟩
        exact ready.applied.applied known part answered fun m' mem' same => desired_key_inj (part mem') mem same
      rejected := fun _ _ _ _ _ _ _ _ _ => trivial
      deployment := by
        rintro ms dep v v' ⟨part, quiet⟩ ans
        have same : v'.1 = v.1 := ans.1
        exact ⟨part, quiet.calls ans fun s _ ready => same ▸ ready⟩
      noDeployment := fun _ _ _ _ _ _ _ => trivial
      service := by
        rintro ms d svc v v' ⟨part, quiet⟩ ans
        obtain ⟨same, found⟩ : v'.1 = v.1 ∧ ∀ svc', Except.ok svc = .ok svc' → svc' = ⟨_, _⟩ := ans.1
        exact ⟨by rw [found svc rfl], part, quiet.calls ans fun s _ ready => same ▸ ready⟩
      noService := fun _ _ _ _ _ _ _ => trivial
      panicked := fun _ _ _ _ _ _ => .inl nofun
      reported := fun _ _ _ _ _ _ _ _ => .inl nofun
      finished := by
        rintro dep a v v' ⟨-, quiet⟩ ans
        have answered : InformedAnswer v.1 (.updateStatus { sess with status := nextStatus sess dep }) a v'.1 := ans.1
        refine .inr (quiet.calls ans fun s known ready => ?_)
        have kept := ready.applied.calls known (fun m mem => mem) answered nofun
        refine ⟨fun deleting => ?_, fun _ => ready.marked, fun _ => ready.asked ▸ kept⟩
        cases deleting.symm.trans ready.live }
  have ends := wp_reconcileChildren phase ⟨List.nil_subset _, start⟩
  refine Prog.wp_weaken (reconcileChildren_makes.strengthen ends) (fun v c made o m eq => ?_) fun _ _ passed => passed
  subst eq
  exact ⟨sess, key, made.2.2⟩

/-- This Session has been read. -/
structure HasSeen (k : Key) (cur : Session) (w : Informed) : Prop where
  known : Known w
  past : cur ∈ w.world.past
  key : cur.key = k

theorem HasSeen.ahead {cur : Session} (seen : HasSeen k cur w) (ahead : Ahead w w') : HasSeen k cur w' :=
  ⟨ahead.known seen.known, ahead.past seen.past, seen.key⟩

theorem HasSeen.rely {cur : Session} (seen : HasSeen k cur v.1) (rely : (queueing r T k).rely v v') :
    HasSeen k cur v'.1 :=
  ahead_rely HasSeen.ahead seen rely

/-- An Update of what was read is committed, and the cache does not have it yet, or it is no change of what
is stored. -/
theorem HasSeen.updated {cur sent out : Session} (seen : HasSeen k cur w)
    (ans : InformedAnswer w (.update sent) (.ok out) w') (key : sent.key = k)
    (version : sent.metadata.resourceVersion = cur.metadata.resourceVersion) :
    (∃ n, out = stamp n (updated cur sent)) ∧ (∀ P, Seen k P w') ∨
      out = cur ∧ updated cur sent = cur ∧ w'.stored k = some cur := by
  obtain ⟨σ, served, rfl⟩ := ans
  have found : ∀ now, w.world.cluster.sessions.check sent.key sent.metadata.resourceVersion = .ok now → now = cur := by
    intro now ok
    obtain ⟨held, same⟩ := Store.check_ok.1 ok
    refine seen.known.recorded.unique now (seen.known.recorded.stored _ _ held) cur seen.past ?_ (same.trans version)
    exact (w.world.cluster.keyed _ _ held).trans (key.trans seen.key.symm)
  cases served with
  | answers ans =>
    obtain ⟨now, ok, rfl, rfl⟩ := answers_update_ok ans
    obtain rfl := found now ok
    refine .inl ⟨⟨_, rfl⟩, fun P => seen.known.unseen rfl fun s stored => ?_⟩
    have here : (Codespace.updated now sent).key = k := key
    rcases Cluster.commit_get_self w.world.cluster (Codespace.updated now sent) with ⟨-, held⟩ | ⟨-, gone⟩
    · rw [here] at held
      cases held.symm.trans stored
      simp
    · rw [here] at gone
      cases gone.symm.trans stored
  | sameUpdate ok same =>
    obtain rfl := found _ ok
    refine .inr ⟨rfl, same, ?_⟩
    rw [← key]
    exact (Store.check_ok.1 ok).1

/-- The deletion flow. -/
theorem handleDelete_pass {cur : Session} (seen : HasSeen k cur v.1) (deleting : cur.deleting = true) :
    (handleDelete (applyDefaults cur)).wp (queueing r T k) (fun v c => AppliesOwn r k v.1 c) (Passed r T k) v := by
  intro v₁ rely
  have seen₁ := seen.rely rely
  refine ⟨nofun, fun a v₂ ans => ?_⟩
  have answered : InformedAnswer v₁.1 (.update (removeFinalizer (applyDefaults cur))) a v₂.1 := ans.1
  cases a with
  | error e => exact fun v₃ _ => .inl nofun
  | ok out =>
    have known₂ := (ahead_answer answered).known seen₁.known
    have quiet : Quiet k (Attended r T) v₂ := by
      refine .inr ⟨known₂, ?_⟩
      rcases seen₁.updated answered seen.key rfl with ⟨-, fresh⟩ | ⟨-, same, stored⟩
      · exact fresh _
      intro s _ held
      cases stored.symm.trans held
      refine ⟨fun _ => ?_, fun live => ?_, fun live => ?_⟩
      · have finalizers := congrArg (fun s : Session => s.metadata.finalizers) same
        rw [← finalizers]
        simp [Codespace.updated, removeFinalizer]
      · cases deleting.symm.trans live
      · cases deleting.symm.trans live
    exact fun v₃ rely' => .inr (quiet.rely_attended rely')

/-- **One pass.** A Reconcile brings its Session to rest, unless it fails or its key is queued again. -/
theorem reconcile_pass (known : Known w) :
    (Reconcile r k).wp (queueing r T k) (fun v c => AppliesOwn r k v.1 c) (Passed r T k) (w, False) := by
  have lasts : ∀ {v : Loop.Watched Informed}, (queueing r T k).rely (w, False) v → Known v.1 :=
    fun rely => ahead_rely (fun known ahead => ahead.known known) known rely
  have read : ∀ {v v' : Loop.Watched Informed} {cur : Session}, (queueing r T k).rely (w, False) v →
      (queueing r T k).answer v (.get k) (.ok cur) v' → HasSeen k cur v'.1 ∧ v'.1.cache k = some cur := by
    rintro v v' cur rely ⟨⟨same, found, -⟩, -⟩
    have cached := found cur rfl
    obtain ⟨past, key⟩ := (lasts rely).cached k cur cached
    rw [same]
    exact ⟨⟨lasts rely, past, key⟩, cached⟩
  refine wp_reconcile (fun _ _ => nofun) ?_ ?_ ?_ ?_
  · rintro v₁ v₂ v₃ e rely ⟨⟨same, -, missing⟩, -⟩ rely'
    split
    · rename_i gone
      have quiet : Quiet k (Attended r T) v₂ := by
        refine .inr ⟨same ▸ lasts rely, fun s cached _ => ?_⟩
        rw [same, missing e rfl gone] at cached
        cases cached
      exact .inr (quiet.rely_attended rely')
    · exact .inl nofun
  · rintro v₁ v₂ cur rely ans deleting
    exact handleDelete_pass (read rely ans).1 deleting
  · rintro v₁ v₂ cur rely ans live marked
    obtain ⟨seen, cached⟩ := read rely ans
    refine children_pass seen.key (.inr ⟨seen.known, fun s cached' _ => ?_⟩)
    cases cached.symm.trans cached'
    exact ⟨live, marked, rfl, nofun⟩
  · rintro v₁ v₂ v₃ cur rely ans rely' live unmarked
    refine ⟨nofun, fun e v₄ v₅ _ _ => .inl nofun, fun sess v₄ ans' => ?_⟩
    have seen := (read rely ans).1.rely rely'
    have answered : InformedAnswer v₃.1 (.update (addFinalizer (applyDefaults cur)).1) (.ok sess) v₄.1 := ans'.1
    have known₄ := (ahead_answer answered).known seen.known
    obtain ⟨finalizers, eq⟩ := addFinalizer_eq (applyDefaults cur)
    have sent : (addFinalizer (applyDefaults cur)).1.key = k := by
      rw [eq]
      exact seen.key
    rcases seen.updated answered sent (by rw [eq]; rfl) with ⟨⟨n, rfl⟩, fresh⟩ | ⟨-, same, -⟩
    · exact children_pass sent (.inr ⟨known₄, fresh _⟩)
    · -- the Update would have added the finalizer
      refine absurd ?_ unmarked
      have finalizers := congrArg (fun s : Session => s.metadata.finalizers) same
      rw [← finalizers]
      simp [updated, addFinalizer, unmarked]

/-! ## Runs -/

/-- **The contract of the controller.** -/
theorem controller_works (r : SessionReconciler) (T : Set Kind) :
    (controller r T).Works Known (AppliesOwn r) fun k => Seen k (Attended r T) where
  others known others := (ahead_others others).known known
  call known _ ans := (ahead_answer ans).known known
  restart {w w'} known restart := by
    obtain ⟨world, cache, view⟩ := restart
    refine ⟨world ▸ known.recorded, fun k s held => ?_, fun ck _ => ?_⟩
    · rw [cache] at held
      rw [world]
      exact ⟨known.recorded.stored k s held, w.world.cluster.keyed k s held⟩
    · rw [(view ck).2.1, (view ck).1, List.getLast?_singleton, Informed.children, Informed.children, world]
  first k {w w'} _ _ := by
    by_cases cached : w'.cache k = none
    · refine .inr fun s held _ => ?_
      rw [cached] at held
      cases held
    · exact .inl cached
  lasts {k w w'} known seen elsewhere := by
    refine known.seen seen (ahead_elsewhere elsewhere) fun s key _ _ attended => ?_
    subst key
    exact attended.elsewhere known elsewhere
  pass k {w} known := by
    refine Prog.wp_mono (reconcile_pass known) fun o v passed => ?_
    rcases passed with failed | queued | ⟨-, seen⟩
    · exact .inr (.inl failed)
    · exact .inl queued
    · exact .inr (.inr seen)

/-- A cluster at the start, when the cache has just been filled. -/
structure Informed.Start (w : Informed) : Prop where
  world : Controller.Start w.world
  cache : ∀ k, w.cache k = w.stored k
  view : ∀ ck, w.view ck = w.children.lookup ck ∧ w.Heard ck

theorem Informed.Start.known (start : w.Start) : Known w := by
  refine ⟨start.world.recorded, fun k s held => ?_, fun ck _ => ?_⟩
  · rw [start.cache] at held
    exact ⟨start.world.recorded.stored k s held, w.world.cluster.keyed k s held⟩
  · rw [(start.view ck).2.1, (start.view ck).1, List.getLast?_singleton]

theorem Informed.Start.restarts (start : w.Start) : Restarts w w := ⟨rfl, start.cache, start.view⟩

/-- **Main result.** In every run of the controller, through failures, crashes and stale reads, with any number
of Reconciles at a time and others at work in between: a key that is neither queued nor worked on, whose Session
the cache has as it is stored, and of whose Deployment, Service and Ingress no change is on its way to the
controller, or was missed since they were applied, is at rest. -/
theorem controller_rests {P : Loop.State Key Call Answer Outcome Informed} {w : Informed} {s : Session}
    (start : w.Start) (run : Relation.ReflTransGen (controller r T).Step ((controller r T).started w) P)
    (idle : P.working k = none) (done : k ∉ P.queued) (current : P.world.cache k = P.world.stored k)
    (stored : P.world.stored k = some s)
    (heard : ∀ m ∈ desired r (applyDefaults s), m.key.kind ∈ owned → P.world.Heard m.key) :
    Rests r T s P.world.children := by
  have sound := (Loop.Sound.of_restart (controller_works r T) start.known start.restarts).run (controller_works r T) run
  exact (sound.good idle done s (current.trans stored) stored).rests sound.inv heard

end

/-! ## One Session -/

/-- A `serve` that answers from the cache. -/
def serveInformed (w : Informed) : (c : Call) → Answer c × Informed
  | .get k => (match w.cache k with
    | none => .error (.notFoundOf sessionResource k.name)
    | some s => .ok s, w)
  | .getDeployment k => ((serve w.world.cluster (.getDeployment k)).1, w)
  | .getService k => ((serve w.world.cluster (.getService k)).1, w)
  | .apply o m =>
    let (a, σ) := serve w.world.cluster (.apply o m)
    (a, (w.next σ).applied m a)
  | c => ((serve w.world.cluster c).1, w.next (serve w.world.cluster c).2)

theorem served_serve (σ : Cluster Manifest) (c : Call) : Served σ c (serve σ c).1 (serve σ c).2 := by
  have exchanged : ∀ {sent : Session} {merge : Session → Session → Session}
      {P : Except ApiError Session × Cluster Manifest → Prop}, P (σ.replace sent merge) →
      (∀ cur, σ.sessions.check sent.key sent.metadata.resourceVersion = .ok cur → merge cur sent = cur →
        P (.ok cur, σ)) → P (exchange σ sent merge) := by
    intro sent merge P replaced kept
    cases checked : σ.sessions.check sent.key sent.metadata.resourceVersion with
    | error e => simpa only [exchange, checked] using replaced
    | ok cur =>
      by_cases same : merge cur sent = cur
      · simpa only [exchange, checked, same, if_true] using kept cur checked same
      · simpa only [exchange, checked, same, if_false] using replaced
  cases c with
  | update s =>
    exact exchanged (P := fun x => Served σ (.update s) x.1 x.2) (.answers (.inl rfl)) fun _ => .sameUpdate
  | updateStatus s =>
    exact exchanged (P := fun x => Served σ (.updateStatus s) x.1 x.2) (.answers (.inl rfl)) fun _ => .sameStatus
  | _ => exact .answers (answers_answer ..)

theorem answer_serveInformed (w : Informed) (c : Call) : InformedAnswer w c (serveInformed w c).1 (serveInformed w c).2 := by
  cases c with
  | get k =>
    refine ⟨rfl, fun s ok => ?_, fun e error _ => ?_⟩
    · simp only [serveInformed] at ok
      split at ok
      · cases ok
      · rename_i held
        cases ok
        exact held
    · simp only [serveInformed] at error
      split at error
      · assumption
      · cases error
  | getDeployment k => rfl
  | getService k =>
    have ans := answers_answer replaceApi w.world.cluster (.getService k)
    exact ⟨rfl, fun svc ok => (answers_getService ans).2 svc ok⟩
  | _ => exact ⟨_, served_serve .., rfl⟩

/-- The key and the Session `ns/a`, before its first Reconcile. -/
def freshKey : Key := ⟨"ns", "a"⟩

def freshWorld : Informed :=
  let σ : Cluster Manifest := Cluster.blank.commit (.plain freshKey 0 roomy)
  ⟨⟨σ, storedIn σ⟩, σ.sessions.get, fun _ => none, fun _ => [], fun _ => false⟩

/-- Its first Reconcile, the events that tell of it, and the second Reconcile. -/
def freshReconcile (w : Informed) : Outcome × Informed := (Reconcile .default freshKey).run serveInformed w

def freshChild (kind : Kind) : ChildKey := ⟨kind, ⟨"ns", "cs-a"⟩⟩

def freshTold : Informed :=
  let w := (freshReconcile freshWorld).2
  (({ w with cache := Function.update w.cache freshKey (w.stored freshKey) } : Informed).hear
    (freshChild .deployment)).hear (freshChild .service)

/-- `ns/a` comes to rest. -/
theorem controller_rests_fresh : ∃ P s, Relation.ReflTransGen (controller .default Set.univ).Step
    ((controller .default Set.univ).started freshWorld) P ∧ P.working freshKey = none ∧ freshKey ∉ P.queued ∧
    P.world.stored freshKey = some s ∧ Rests .default Set.univ s P.world.children := by
  let L := controller .default Set.univ
  have start : freshWorld.Start := by
    refine ⟨⟨rfl, fun k s held => ?_⟩, fun _ => rfl, fun _ => ⟨rfl, rfl, rfl⟩⟩
    obtain ⟨-, rfl⟩ := (commit_cases held).resolve_left (by simp [Cluster.blank])
    decide
  -- the first pass
  have cached : freshKey ∈ (L.started freshWorld).queued := show freshWorld.cache freshKey ≠ none by decide
  have ends : (freshReconcile freshWorld).1 = .done (some 120) := by decide +kernel
  obtain ⟨Q₁, first, -⟩ := L.steps_of_pass answer_serveInformed cached rfl fun again => again _ ends
  -- the events that tell of it
  have known := (Loop.Sound.of_restart (controller_works .default Set.univ) start.known start.restarts).run
    (controller_works .default Set.univ) first
  let w₁ := (freshReconcile freshWorld).2
  let w₂ : Informed := { w₁ with cache := Function.update w₁.cache freshKey (w₁.stored freshKey) }
  let w₃ := w₂.hear (freshChild .deployment)
  let Q₂ : Set Key := L.told ⟨w₁, Q₁, fun _ => none⟩ w₂
  let Q₃ : Set Key := L.told ⟨w₂, Q₂, fun _ => none⟩ w₃
  let Q₄ : Set Key := L.told ⟨w₃, Q₃, fun _ => none⟩ freshTold
  have session : L.Step ⟨w₁, Q₁, fun _ => none⟩ ⟨w₂, Q₂, fun _ => none⟩ := .others <| .deliver
    fun s stored => ⟨known.inv.recorded.stored freshKey s stored, Cluster.keyed _ _ _ stored⟩
  have deployment : L.Step ⟨w₂, Q₂, fun _ => none⟩ ⟨w₃, Q₃, fun _ => none⟩ := .others (.hear _)
  have service : L.Step ⟨w₃, Q₃, fun _ => none⟩ ⟨freshTold, Q₄, fun _ => none⟩ := .others (.hear _)
  have changed : w₂.cache freshKey ≠ w₁.cache freshKey := by decide +kernel
  have queued : freshKey ∈ Q₄ := .inl (.inl (.inr (.inl changed)))
  -- the second pass, which changes nothing
  have ends' : (freshReconcile freshTold).1 = .done (some 120) := by decide +kernel
  obtain ⟨Q₅, second, calm⟩ := L.steps_of_pass (P := ⟨freshTold, Q₄, fun _ => none⟩) answer_serveInformed queued rfl
    fun again => again _ ends'
  have done : freshKey ∉ Q₅ := calm fun w c => answer_queues (answer_serveInformed w c) freshKey
  have current : (freshReconcile freshTold).2.cache freshKey = (freshReconcile freshTold).2.stored freshKey := by
    decide +kernel
  have heard : ((freshReconcile freshTold).2.stored freshKey).any (fun s => ∀ m ∈ desired .default (applyDefaults s),
      (freshReconcile freshTold).2.waiting m.key = [] ∧ (freshReconcile freshTold).2.missed m.key = false) = true := by
    decide +kernel
  obtain ⟨s, stored, all⟩ := (Option.any_eq_true ..).1 heard
  have all : ∀ m ∈ desired .default (applyDefaults s), (freshReconcile freshTold).2.waiting m.key = [] ∧
      (freshReconcile freshTold).2.missed m.key = false := of_decide_eq_true all
  have run := (((first.tail session).tail deployment).tail service).trans second
  exact ⟨_, s, run, rfl, done, stored, controller_rests start run rfl done current stored fun m mem _ => all m mem⟩

end Codespace.Controller
