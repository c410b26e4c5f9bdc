import Codespace.Api.Answers
import Codespace.Controller.Calls
import Codespace.Interact.Pool
import Mathlib.Data.Set.Basic

/-!
# The finalizer protocol

Reconciles of one Session, one after the other, among people who edit, delete and create
Sessions. A Reconcile reads through a cache: its Get may return any version that was ever
committed (`World.past`), or fail. Its writes go to the API server, which turns down what is
not current, so a stale read can at worst fail to write.

The invariant is `Recorded`: what is stored is remembered, a version names one object, and
every UID has been handed out.
-/

namespace Codespace.Controller
set_option autoImplicit false
open Versioned Interact

variable {χ : Type}

/-! ## Runs -/

/-- A cluster, and every Session that was ever committed. -/
structure World (χ : Type) where
  cluster : Cluster χ
  past : Set Session

/-- What the cluster holds. -/
def storedIn (σ : Cluster χ) : Set Session := {s | ∃ k, σ.sessions.get k = some s}

/-- The cluster moves on. -/
def World.next (w : World χ) (σ : Cluster χ) : World χ := ⟨σ, w.past ∪ storedIn σ⟩

/-- Somebody calls the API server, or something happens that is no matter of Sessions. -/
inductive Others (child : ChildApi χ) (w : World χ) : World χ → Prop where
  | call {c : Call} {a : Answer c} {σ : Cluster χ} : Answers child w.cluster c a σ → Others child w (w.next σ)
  | elsewhere {σ : Cluster χ} : σ.sessions = w.cluster.sessions → σ.nextUid = w.cluster.nextUid →
      Others child w (w.next σ)

/-- The answer to a call of the controller: a Get is answered from the cache. -/
def CachedAnswer (child : ChildApi χ) (w : World χ) : (c : Call) → Answer c → World χ → Prop
  | .get k, a, w' => w' = w ∧ ∀ s, a = .ok s → s ∈ w.past ∧ s.key = k
  | c, a, w' => ∃ σ, Answers child w.cluster c a σ ∧ w' = w.next σ

def Cached (child : ChildApi χ) : Setting Call Answer (World χ) where
  answer := CachedAnswer child
  rely := Relation.ReflTransGen (Others child)
  rely_refl := fun _ => .refl
  rely_trans := Relation.ReflTransGen.trans

/-- One event of a run: something that others do, or a Reconcile that gets some way. -/
def Moves (child : ChildApi χ) (r : SessionReconciler) (k : Key) (w w' : World χ) : Prop :=
  Others child w w' ∨ ∃ left, Exec (Cached child) (Reconcile r k) w left w'

abbrev Run (child : ChildApi χ) (r : SessionReconciler) (k : Key) :=
  Relation.ReflTransGen (Moves child r k)

/-- A run starts with what is stored, whose UIDs have been handed out. -/
structure Start (w : World χ) : Prop where
  past : w.past = storedIn w.cluster
  uids : ∀ k s, w.cluster.sessions.get k = some s → s.metadata.uid < w.cluster.nextUid

/-! ## What is claimed -/

/-- The Reconcile that made these calls has read this Session. -/
def HasRead (k : Key) (s : Session) (l : Log Call Answer (World χ)) : Prop :=
  ∃ a b rest, l = ⟨.get k, .ok s, a, b⟩ :: rest

/-- What a Reconcile of a Session under deletion sends. -/
def Unfinalized (s sent : Session) : Prop :=
  sent.metadata.finalizers = s.metadata.finalizers.filter (· ≠ sessionFinalizer)

/-- The Session with this UID had the finalizer at some time. -/
def Marked (uid : Nat) (w : World χ) : Prop :=
  ∃ s ∈ w.past, s.metadata.uid = uid ∧ sessionFinalizer ∈ s.metadata.finalizers

/-- The key holds no Session with this UID. -/
def Gone (k : Key) (uid : Nat) (w : World χ) : Prop :=
  ∀ s, w.cluster.sessions.get k = some s → s.metadata.uid ≠ uid

/-! ## The invariant -/

structure Recorded (w : World χ) : Prop where
  stored : ∀ k s, w.cluster.sessions.get k = some s → s ∈ w.past
  versions : ∀ s ∈ w.past, version s < w.cluster.sessions.next
  unique : ∀ s ∈ w.past, ∀ t ∈ w.past, s.key = t.key → version s = version t → s = t
  uids : ∀ s ∈ w.past, s.metadata.uid < w.cluster.nextUid

section

variable {child : ChildApi χ} {r : SessionReconciler} {k : Key} {w w' : World χ} {σ : Cluster χ} {s : Session}
  {uid : Nat}

theorem Start.recorded (start : Start w) : Recorded w where
  stored k s held := start.past ▸ ⟨k, held⟩
  versions s mem := by
    rw [start.past] at mem
    obtain ⟨k, held⟩ := mem
    exact w.cluster.sessions.version_lt held
  unique s mem t mem' key _ := by
    rw [start.past] at mem mem'
    obtain ⟨k, held⟩ := mem
    obtain ⟨k', held'⟩ := mem'
    have same : k = k' := by rw [← w.cluster.keyed _ _ held, key, w.cluster.keyed _ _ held']
    cases (same ▸ held).symm.trans held'
    rfl
  uids s mem := by
    rw [start.past] at mem
    obtain ⟨k, held⟩ := mem
    exact start.uids k s held

/-- The cluster has moved on: later versions, kept or fresh UIDs. -/
structure Onward (σ σ' : Cluster χ) : Prop where
  later : Later σ.sessions σ'.sessions
  nextUid : σ.nextUid ≤ σ'.nextUid
  uid : ∀ k s, σ'.sessions.get k = some s → (∃ cur, σ.sessions.get k = some cur ∧ cur.metadata.uid = s.metadata.uid) ∨
    σ.nextUid ≤ s.metadata.uid ∧ s.metadata.uid < σ'.nextUid

theorem Onward.refl (σ : Cluster χ) : Onward σ σ := ⟨.refl _, Nat.le_refl _, fun _ s held => .inl ⟨s, held, rfl⟩⟩

theorem onward_answers {c : Call} {a : Answer c} (ans : Answers child w.cluster c a σ) : Onward w.cluster σ := by
  rcases answers_state ans with rfl | rfl
  · exact .refl _
  · obtain ⟨next, uid⟩ := answer_uids child w.cluster c
    refine ⟨answer_later child w.cluster c, next, fun k s held => (uid k s held).imp_right fun ⟨fresh, more⟩ => ?_⟩
    exact ⟨Nat.le_of_eq fresh.symm, fresh ▸ more⟩

/-- The invariant survives whatever moves the cluster on. -/
theorem Recorded.onward (h : Recorded w) (onward : Onward w.cluster σ) : Recorded (w.next σ) where
  stored k s held := .inr ⟨k, held⟩
  versions s mem := by
    rcases mem with before | ⟨k, held⟩
    · exact (h.versions s before).trans_le onward.later.next
    · exact σ.sessions.version_lt held
  unique := by
    -- what is stored now was remembered before, or has a version that was not handed out yet
    have old : ∀ k s, σ.sessions.get k = some s → s ∈ w.past ∨ w.cluster.sessions.next ≤ version s :=
      fun k s held => (onward.later.held k s held).imp_left (h.stored k s)
    rintro s (before | ⟨k, held⟩) t (before' | ⟨k', held'⟩) key same
    · exact h.unique s before t before' key same
    · rcases old k' t held' with before' | fresh
      · exact h.unique s before t before' key same
      · have := h.versions s before
        omega
    · rcases old k s held with before | fresh
      · exact h.unique s before t before' key same
      · have := h.versions t before'
        omega
    · have here : k = k' := by rw [← σ.keyed _ _ held, key, σ.keyed _ _ held']
      cases (here ▸ held).symm.trans held'
      rfl
  uids s mem := by
    rcases mem with before | ⟨k, held⟩
    · exact (h.uids s before).trans_le onward.nextUid
    · rcases onward.uid k s held with ⟨cur, held', same⟩ | ⟨-, fresh⟩
      · rw [← same]
        exact (h.uids cur (h.stored k cur held')).trans_le onward.nextUid
      · exact fresh

theorem Others.onward (others : Others child w w') : Onward w.cluster w'.cluster ∧ w' = w.next w'.cluster := by
  cases others with
  | call ans => exact ⟨onward_answers ans, rfl⟩
  | @elsewhere σ same next =>
    refine ⟨⟨?_, Nat.le_of_eq next.symm, fun k s held => .inl ⟨s, same ▸ held, rfl⟩⟩, rfl⟩
    show Later w.cluster.sessions σ.sessions
    rw [same]
    exact .refl _

theorem cached_onward {c : Call} {a : Answer c} (ans : (Cached child).answer w c a w') :
    w' = w ∨ Onward w.cluster w'.cluster ∧ w' = w.next w'.cluster := by
  cases c with
  | get k => exact .inl ans.1
  | _ =>
    obtain ⟨σ, ans, rfl⟩ := ans
    exact .inr ⟨onward_answers ans, rfl⟩

/-- What survives whatever moves the cluster on survives a whole run. -/
structure Lasting (I : World χ → Prop) : Prop where
  onward : ∀ {w : World χ} {σ : Cluster χ}, I w → Onward w.cluster σ → I (w.next σ)

namespace Lasting

variable {I : World χ → Prop}

theorem others (lasting : Lasting I) (h : I w) (others : Others child w w') : I w' := by
  rw [others.onward.2]
  exact lasting.onward h others.onward.1

theorem stable (lasting : Lasting I) (h : I w) (rely : (Cached child).rely w w') : I w' := by
  induction rely with
  | refl => exact h
  | tail _ last ih => exact lasting.others ih last

theorem answer (lasting : Lasting I) (h : I w) {c : Call} {a : Answer c} (ans : (Cached child).answer w c a w') :
    I w' := by
  rcases cached_onward ans with rfl | ⟨onward, eq⟩
  · exact h
  · rw [eq]
    exact lasting.onward h onward

theorem exec (lasting : Lasting I) {p p' : Api Outcome} (h : I w) (e : Exec (Cached child) p w p' w') : I w' := by
  induction e with
  | refl => exact h
  | other rely _ ih => exact ih (lasting.stable h rely)
  | call ans _ ih => exact ih (lasting.answer h ans)

theorem run (lasting : Lasting I) (h : I w) (run : Run child r k w w') : I w' := by
  induction run with
  | refl => exact h
  | tail _ last ih =>
    rcases last with others | ⟨left, e⟩
    · exact lasting.others ih others
    · exact lasting.exec ih e

end Lasting

theorem recorded_lasting : Lasting (Recorded (χ := χ)) := ⟨Recorded.onward⟩

theorem past_lasting (s : Session) : Lasting fun w : World χ => s ∈ w.past := ⟨fun mem _ => .inl mem⟩

theorem marked_lasting (uid : Nat) : Lasting (Marked (χ := χ) uid) :=
  ⟨fun ⟨s, mem, same⟩ _ => ⟨s, .inl mem, same⟩⟩

/-- A UID that was handed out and is gone stays gone. -/
theorem gone_lasting (k : Key) (uid : Nat) :
    Lasting fun w : World χ => Gone k uid w ∧ uid < w.cluster.nextUid := by
  refine ⟨fun ⟨gone, used⟩ onward => ⟨fun s held => ?_, used.trans_le onward.nextUid⟩⟩
  rcases onward.uid k s held with ⟨cur, held', same⟩ | ⟨fresh, -⟩
  · exact same ▸ gone cur held'
  · omega

/-! ## One Reconcile -/

/-- What a Reconcile may ask: after reading a deletion it sends the one Update, and the owner
of every child it applies has had the finalizer. -/
def Asks (k : Key) (v : Pool.View Call Answer (World χ)) (c : Call) : Prop :=
  (∀ s, HasRead k s v.2 → s.deleting = true → v.2.map (·.call) = [.get k] ∧ ∃ sent, Unfinalized s sent ∧ c = .update sent) ∧
  ∀ owner m, c = .apply owner m → Marked m.owner.uid v.1

/-- How a Reconcile that has read a deletion ends. -/
def Ends (k : Key) (out : Outcome) (v : Pool.View Call Answer (World χ)) : Prop :=
  ∀ s, HasRead k s v.2 → s.deleting = true →
    (∃ sent, Unfinalized s sent ∧ v.2.map (·.call) = [.get k, .update sent]) ∧
    ((∀ f ∈ s.metadata.finalizers, f = sessionFinalizer) → out = .done none →
      Gone k s.metadata.uid v.1 ∧ s.metadata.uid < v.1.cluster.nextUid)

/-- After reading a Session that is not under deletion: its owner UID is marked. -/
structure Live (k : Key) (uid : Nat) (v : Pool.View Call Answer (World χ)) : Prop where
  read : v.2 ≠ [] ∧ ∀ s, HasRead k s v.2 → s.deleting = false
  marked : Marked uid v.1

variable {v v' : Pool.View Call Answer (World χ)}

theorem HasRead.unique {s t : Session} {l : Log Call Answer (World χ)} (h : HasRead k s l) (h' : HasRead k t l) :
    s = t := by
  obtain ⟨a, b, rest, rfl⟩ := h
  obtain ⟨a', b', rest', eq⟩ := h'
  cases (List.cons.inj eq).1
  rfl

/-- The first call stays the first. -/
theorem HasRead.of_append {l : Log Call Answer (World χ)} {e : Event Call Answer (World χ)} (some : l ≠ [])
    (h : HasRead k s (l ++ [e])) : HasRead k s l := by
  obtain ⟨a, b, rest, eq⟩ := h
  cases l with
  | nil => exact absurd rfl some
  | cons e' l =>
    obtain ⟨rfl, -⟩ := List.cons.inj eq
    exact ⟨a, b, l, rfl⟩

theorem Live.rely (h : Live k uid v) (rely : (Cached child).logged.rely v v') : Live k uid v' := by
  obtain ⟨moved, log⟩ := rely
  exact ⟨log ▸ h.read, (marked_lasting uid).stable h.marked moved⟩

theorem Live.answer (h : Live k uid v) {c : Call} {a : Answer c} (ans : (Cached child).logged.answer v c a v') :
    Live k uid v' := by
  obtain ⟨ans, log⟩ := ans
  refine ⟨⟨?_, fun s read => ?_⟩, (marked_lasting uid).answer h.marked ans⟩
  · rw [log]
    simp
  · rw [log] at read
    exact h.read.2 s (read.of_append h.read.1)

theorem Live.ends (h : Live k uid v) (out : Outcome) : Ends k out v := by
  intro s read deleting
  cases deleting.symm.trans (h.read.2 s read)

theorem Live.asks (h : Live k uid v) {c : Call} (owner : ∀ o m, c = .apply o m → m.owner.uid = uid) : Asks k v c := by
  refine ⟨fun s read deleting => ?_, fun o m eq => owner o m eq ▸ h.marked⟩
  cases deleting.symm.trans (h.read.2 s read)

/-- The children name an owner that is marked. -/
theorem reconcileChildren_asks {sess : Session} (h : Live k sess.metadata.uid v) :
    (reconcileChildren r sess).wp (Cached child).logged (Asks k) (Ends k) v := by
  have live : (reconcileChildren r sess).wp (Cached child).logged (Asks k)
      (fun _ v => Live k sess.metadata.uid v) v := by
    refine reconcileChildren_only.keeps (fun v v' h rely => h.rely rely) (fun v c a v' _ h ans => h.answer ans)
      (fun v c made h => h.asks fun o m eq => ?_) h
    subst eq
    exact congrArg OwnerReference.uid (show m.owner = ownerReference sess from made)
  exact Prog.wp_mono live fun out v h => h.ends out

/-- An Update of what was read, however long ago, succeeds only if that is still what is stored. -/
theorem Recorded.accepted (h : Recorded w) (mem : s ∈ w.past) {sent out : Session}
    (ans : Answers child w.cluster (.update sent) (.ok out) σ) (key : sent.key = s.key)
    (version : sent.metadata.resourceVersion = s.metadata.resourceVersion) :
    σ = w.cluster.commit (updated s sent) ∧ out = stamp w.cluster.sessions.next (updated s sent) := by
  obtain ⟨cur, ok, rfl, rfl⟩ := answers_update_ok ans
  obtain ⟨found, same⟩ := Store.check_ok.1 ok
  have here : cur.key = s.key := (w.cluster.keyed _ _ found).trans key
  cases h.unique cur (h.stored _ _ found) s mem here (same.trans version)
  exact ⟨rfl, rfl⟩

/-- A Session under deletion without finalizers is gone once that is stored. -/
theorem gone_of_commit {σ : Cluster χ} {s : Session} (deleting : s.deleting = true) (none : s.metadata.finalizers = []) :
    (σ.commit s).sessions.get s.key = Option.none := by
  rcases Cluster.commit_get_self σ s with ⟨held, -⟩ | ⟨-, gone⟩
  · exact absurd none (held deleting)
  · exact gone

theorem unfinalized (s : Session) : Unfinalized s (removeFinalizer (applyDefaults s)) := by
  rw [Unfinalized, removeFinalizer, applyDefaults_metadata]

/-- The deletion flow. -/
theorem handleDelete_asks (recorded : Recorded v.1) (mem : s ∈ v.1.past) (key : s.key = k) (read : HasRead k s v.2)
    (log : v.2.map (·.call) = [.get k]) (deleting : s.deleting = true) :
    (handleDelete (applyDefaults s)).wp (Cached child).logged (Asks k) (Ends k) v := by
  rintro v₁ ⟨moved, same⟩
  rw [← same] at read log
  refine ⟨⟨fun t read' _ => ?_, fun o m eq => by cases eq⟩, fun a v₂ ⟨ans, log₂⟩ => ?_⟩
  · cases read.unique read'
    exact ⟨log, _, unfinalized s, rfl⟩
  have read₂ : HasRead k s v₂.2 := by
    obtain ⟨b, b', rest, eq⟩ := read
    exact ⟨b, b', _, by rw [log₂, eq]; rfl⟩
  have calls : v₂.2.map (·.call) = [.get k, .update (removeFinalizer (applyDefaults s))] := by
    rw [log₂, List.map_append, log]
    rfl
  cases a with
  | error e =>
    rintro v₃ ⟨-, same₃⟩ t read' -
    rw [same₃] at read' ⊢
    cases read₂.unique read'
    exact ⟨⟨_, unfinalized s, calls⟩, fun _ eq => by cases eq⟩
  | ok out =>
    rintro v₃ ⟨moved₃, same₃⟩ t read' -
    rw [same₃] at read' ⊢
    cases read₂.unique read'
    refine ⟨⟨_, unfinalized s, calls⟩, fun only _ => ?_⟩
    have recorded₁ := recorded_lasting.stable recorded moved
    have mem₁ : s ∈ v₁.1.past := (past_lasting s).stable mem moved
    obtain ⟨σ, ans, eq⟩ := ans
    obtain ⟨rfl, -⟩ := recorded₁.accepted mem₁ ans rfl rfl
    refine (gone_lasting k s.metadata.uid).stable ⟨fun s' held => ?_, ?_⟩ moved₃
    · have none : (updated s (removeFinalizer (applyDefaults s))).metadata.finalizers = [] := by
        refine List.filter_eq_nil_iff.2 fun f mem => ?_
        simpa using only f mem
      have gone := gone_of_commit (σ := v₁.1.cluster) (s := updated s (removeFinalizer (applyDefaults s))) deleting none
      rw [eq] at held
      rw [show (updated s (removeFinalizer (applyDefaults s))).key = k from key] at gone
      cases held.symm.trans gone
    · rw [eq]
      exact (recorded₁.uids s mem₁).trans_le (onward_answers ans).nextUid

/-- The finalizer is there, or it is added before any child is applied. -/
theorem ensureFinalizer_asks {f : Except ApiError Session → Api Outcome} (recorded : Recorded v.1) (mem : s ∈ v.1.past)
    (read : v.2 ≠ [] ∧ ∀ t, HasRead k t v.2 → t.deleting = false) (live : s.deleting = false)
    (error : ∀ e, f (.error e) = .ret (.failed e.message)) (ok : ∀ sess, f (.ok sess) = reconcileChildren r sess) :
    (ensureFinalizer (applyDefaults s) >>= f).wp (Cached child).logged (Asks k) (Ends k) v := by
  unfold ensureFinalizer addFinalizer
  by_cases has : sessionFinalizer ∈ s.metadata.finalizers
  · rw [applyDefaults_metadata, if_pos has]
    show (f (.ok (applyDefaults s))).wp _ _ _ v
    rw [ok]
    refine reconcileChildren_asks ⟨read, s, mem, ?_, has⟩
    rw [applyDefaults_metadata]
  · rw [applyDefaults_metadata, if_neg has]
    rintro v₁ ⟨moved, same⟩
    rw [← same] at read
    have quiet : ∀ {v' : Pool.View Call Answer (World χ)} {out : Outcome},
        (v'.2 ≠ [] ∧ ∀ t, HasRead k t v'.2 → t.deleting = false) → Ends k out v' :=
      fun read t read' deleting => by cases deleting.symm.trans (read.2 t read')
    refine ⟨⟨fun t read' deleting => ?_, fun o m eq => by cases eq⟩, fun a v₂ ⟨ans, log₂⟩ => ?_⟩
    · cases deleting.symm.trans (read.2 t read')
    have read₂ : v₂.2 ≠ [] ∧ ∀ t, HasRead k t v₂.2 → t.deleting = false := by
      rw [log₂]
      exact ⟨by simp, fun t read' => read.2 t (read'.of_append read.1)⟩
    cases a with
    | error e =>
      show (f (.error e)).wp _ _ _ v₂
      rw [error]
      rintro v₃ ⟨-, same₃⟩
      exact quiet (same₃ ▸ read₂)
    | ok out =>
      show (f (.ok out)).wp _ _ _ v₂
      rw [ok]
      have recorded₁ := recorded_lasting.stable recorded moved
      have mem₁ : s ∈ v₁.1.past := (past_lasting s).stable mem moved
      obtain ⟨σ, ans, eq⟩ := ans
      obtain ⟨rfl, rfl⟩ := recorded₁.accepted mem₁ ans rfl rfl
      refine reconcileChildren_asks ⟨read₂, _, ?_, rfl, List.mem_append_right _ (List.mem_singleton.2 rfl)⟩
      rw [eq]
      refine .inr ⟨s.key, ?_⟩
      rcases Cluster.commit_get_self v₁.1.cluster (updated s _) with ⟨-, now⟩ | ⟨gone, -⟩
      · exact now
      · exact absurd (fun deleting => by cases deleting.symm.trans live) gone

/-- Every call of a Reconcile, and how it ends. -/
theorem reconcile_asks (recorded : Recorded w) :
    (Reconcile r k).wp (Cached child).logged (Asks k) (Ends k) (w, []) := by
  rintro v₁ ⟨moved, same⟩
  have none : ∀ s, ¬ HasRead k s v₁.2 := by
    rintro s ⟨a, b, rest, eq⟩
    cases (same.symm.trans eq : ([] : Log Call Answer (World χ)) = _)
  refine ⟨⟨fun s read => absurd read (none s), fun o m eq => by cases eq⟩, fun a v₂ ⟨ans, log₂⟩ => ?_⟩
  obtain ⟨unmoved, found⟩ : v₂.1 = v₁.1 ∧ ∀ s, a = .ok s → s ∈ v₁.1.past ∧ s.key = k := ans
  have log₂ : v₂.2 = [⟨.get k, a, v₁.1, v₂.1⟩] := by rw [log₂, same]; rfl
  have recorded₂ : Recorded v₂.1 := unmoved ▸ recorded_lasting.stable recorded moved
  cases a with
  | error e =>
    have unread : ∀ s, ¬ HasRead k s v₂.2 := by
      rintro s ⟨a, b, rest, eq⟩
      cases (log₂.symm.trans eq)
    show (if e.isNotFound then .ret (.done .none) else .ret (.failed e.message) : Api Outcome).wp _ _ _ v₂
    split
    · rintro v₃ ⟨-, same₃⟩ s read
      exact absurd (same₃ ▸ read) (unread s)
    · rintro v₃ ⟨-, same₃⟩ s read
      exact absurd (same₃ ▸ read) (unread s)
  | ok s =>
    obtain ⟨mem, key⟩ := found s rfl
    rw [← unmoved] at mem
    have read : HasRead k s v₂.2 := ⟨_, _, _, log₂⟩
    cases deleting : s.deleting with
    | true =>
      show (if (applyDefaults s).deleting then handleDelete (applyDefaults s) else _).wp _ _ _ v₂
      rw [applyDefaults_deleting, if_pos deleting]
      exact handleDelete_asks recorded₂ mem key read (by rw [log₂]; rfl) deleting
    | false =>
      show (if (applyDefaults s).deleting then handleDelete (applyDefaults s) else _).wp _ _ _ v₂
      rw [applyDefaults_deleting, if_neg (by simp [deleting])]
      refine ensureFinalizer_asks recorded₂ mem ⟨by simp [log₂], fun t read' => ?_⟩ deleting (fun _ => rfl) fun _ => rfl
      exact read.unique read' ▸ deleting

/-- **Main result.** In every run, at every point of a Reconcile: after reading a deletion it has
made one Get and at most one other call, which takes the finalizer off, and has made it once it
returns; whoever owns a child that is about to be applied has had the finalizer; and where the
deleted Session had no other finalizer, it is gone for good once the Reconcile succeeds. -/
theorem finalizer_protocol {w₀ : World χ} {left : Api Outcome} (start : Start w₀) (run : Run child r k w₀ w)
    (e : Exec (Cached child).logged (Reconcile r k) (w, []) left v) :
    (∀ s, HasRead k s v.2 → s.deleting = true → ∃ sent, Unfinalized s sent ∧
      v.2.map (·.call) <+: [.get k, .update sent] ∧ ∀ out, left = .ret out → v.2.map (·.call) = [.get k, .update sent]) ∧
    (∀ owner m next, left = .call (.apply owner m) next → Marked m.owner.uid v.1) ∧
    (∀ s, HasRead k s v.2 → s.deleting = true → (∀ f ∈ s.metadata.finalizers, f = sessionFinalizer) →
      left = .ret (.done none) → ∀ w', Run child r k v.1 w' → Gone k s.metadata.uid w') := by
  have recorded : Recorded w := recorded_lasting.run start.recorded run
  have here := Prog.wp_exec e (reconcile_asks recorded)
  cases left with
  | ret out =>
    have ends : Ends k out v := here v ((Cached child).logged.rely_refl v)
    refine ⟨fun s read deleting => ?_, by rintro o m next ⟨⟩, fun s read deleting only eq w' later => ?_⟩
    · obtain ⟨⟨sent, unfinalized, calls⟩, -⟩ := ends s read deleting
      exact ⟨sent, unfinalized, calls ▸ List.prefix_rfl, fun _ _ => calls⟩
    · cases eq
      exact ((gone_lasting k _).run ((ends s read deleting).2 only rfl) later).1
  | call c next =>
    have asks : Asks k v c := (here v ((Cached child).logged.rely_refl v)).1
    refine ⟨fun s read deleting => ?_, fun o m next eq => ?_, by rintro s - - - ⟨⟩⟩
    · obtain ⟨calls, sent, unfinalized, -⟩ := asks.1 s read deleting
      exact ⟨sent, unfinalized, calls ▸ ⟨[.update sent], rfl⟩, by rintro out ⟨⟩⟩
    · cases eq
      exact asks.2 o m rfl

end

/-! ## One deletion -/

/-- The Session `ns/a`, under deletion, which nothing but the controller holds. -/
def departing : Session where
  metadata := ⟨"a", "ns", 1, 0, ∅, ∅, [sessionFinalizer], some "2025-01-01T00:00:00Z"⟩
  spec := .plain
  status := ⟨"", "", ""⟩

/-- A cluster with this Session, before anything happens. -/
def departingWorld : World Manifest :=
  let σ : Cluster Manifest := { Cluster.blank.commit departing with nextUid := 2 }
  ⟨σ, storedIn σ⟩

theorem departing_get (k : Key) : departingWorld.cluster.sessions.get k =
    if k = ⟨"ns", "a"⟩ then some (stamp 1 departing) else none := by
  have held : departing.Held := by decide
  show (Cluster.blank.commit departing).sessions.get k = _
  rw [Cluster.commit_held held]
  exact Store.get_write ..

theorem finalizer_protocol_departing : ∃ v, Exec (Cached replaceApi).logged (Reconcile .default ⟨"ns", "a"⟩)
    (departingWorld, []) (.ret (.done none)) v ∧ Gone ⟨"ns", "a"⟩ 1 v.1 := by
  have start : Start departingWorld := by
    refine ⟨rfl, fun k s held => ?_⟩
    rw [departing_get] at held
    split at held
    · cases held
      exact Nat.lt_succ_self 1
    · cases held
  have found : stamp 1 departing ∈ departingWorld.past := ⟨⟨"ns", "a"⟩, (departing_get _).trans (if_pos rfl)⟩
  let sent := removeFinalizer (applyDefaults (stamp 1 departing))
  let after := departingWorld.cluster.commit sent
  have accepted : answer replaceApi departingWorld.cluster (.update sent) =
      (.ok (stamp departingWorld.cluster.sessions.next sent), after) := by
    have current : departingWorld.cluster.sessions.check sent.key sent.metadata.resourceVersion = .ok (stamp 1 departing) :=
      Store.check_ok.2 ⟨(departing_get _).trans (if_pos rfl), rfl⟩
    simp only [answer, Cluster.replace, current]
    rfl
  let reading : Event Call Answer (World Manifest) :=
    ⟨.get ⟨"ns", "a"⟩, .ok (stamp 1 departing), departingWorld, departingWorld⟩
  have get : (Cached replaceApi).logged.answer (departingWorld, []) (.get ⟨"ns", "a"⟩) (.ok (stamp 1 departing))
      (departingWorld, [reading]) := ⟨⟨rfl, by rintro s ⟨⟩; exact ⟨found, rfl⟩⟩, rfl⟩
  have update : (Cached replaceApi).logged.answer (departingWorld, [reading]) (.update sent)
      (.ok (stamp departingWorld.cluster.sessions.next sent)) (departingWorld.next after,
        [reading, ⟨.update sent, .ok (stamp departingWorld.cluster.sessions.next sent), departingWorld, departingWorld.next after⟩]) :=
    ⟨⟨after, .inl accepted.symm, rfl⟩, rfl⟩
  have e : Exec (Cached replaceApi).logged (Reconcile .default ⟨"ns", "a"⟩) (departingWorld, [])
      (.ret (.done none)) _ := .call get (.call update (.refl _ _))
  refine ⟨_, e, (finalizer_protocol start .refl e).2.2 _ ⟨_, _, _, rfl⟩ rfl (fun f mem => ?_) rfl _ .refl⟩
  exact List.mem_singleton.1 mem

end Codespace.Controller
