import Codespace.Controller.Finalizer
import Codespace.Controller.Idle
import Codespace.Interact.Workqueue

/-!
# What the controller is told

`SetupWithManager` and what runs it: the Sessions are read from a cache that lags behind the
API server, and so do the watches for children of a kind in `owned`. An event of a Session or of
such a child queues the Session's key when it arrives. Meanwhile others call the API server, and
change children of the kinds in `T`. A watch that breaks lists the children when it is taken up
again, and so misses states that a child had in between.

`Known` is what always holds of all that, `Ahead` what every step does to the world, and `Hears`
what it does to a child as the controller sees it.
-/

namespace Codespace.Controller
set_option autoImplicit false
open Versioned Interact

/-! ## The surroundings -/

/-- The kinds in `Owns`. -/
def owned : List Kind := [.deployment, .service, .ingress]

/-- The API server, the Sessions as the cache has them, and the children as the watches have them,
with the states that are on their way, in their order. A child is marked if a watch has missed a
state of it since the controller last applied it. -/
structure Informed where
  world : World Manifest
  cache : Key → Option Session
  view : ChildKey → Option Manifest
  waiting : ChildKey → List (Option Manifest)
  missed : ChildKey → Bool

namespace Informed

variable (w : Informed)

/-- What is stored at a key. -/
def stored (k : Key) : Option Session := w.world.cluster.sessions.get k

def children : GoMap ChildKey Manifest := w.world.cluster.children

/-- What is told of a child after a step. -/
def told (σ : Cluster Manifest) (ck : ChildKey) : List (Option Manifest) :=
  if ck.kind ∈ owned ∧ σ.children.lookup ck ≠ w.children.lookup ck then [σ.children.lookup ck] else []

/-- The API server moves on, and the controller does not know yet. -/
def next (σ : Cluster Manifest) : Informed :=
  { w with world := w.world.next σ, waiting := fun ck => w.waiting ck ++ w.told σ ck }

/-- An apply that succeeds makes up for what was missed. -/
def applied (m : Manifest) : Except ApiError Unit → Informed
  | .ok () => { w with missed := Function.update w.missed m.key false }
  | .error _ => w

/-- The next state of a child arrives. -/
def hear (ck : ChildKey) : Informed :=
  { w with
    view := Function.update w.view ck ((w.waiting ck).headD (w.view ck))
    waiting := Function.update w.waiting ck (w.waiting ck).tail }

/-- These states of a child are left to arrive, others have been missed. -/
def miss (ck : ChildKey) (left : List (Option Manifest)) : Informed :=
  { w with waiting := Function.update w.waiting ck left, missed := Function.update w.missed ck true }

/-- The controller has heard of every change of a child. -/
def Heard (ck : ChildKey) : Prop := w.waiting ck = [] ∧ w.missed ck = false

end Informed

/-- What the API server does: it answers, it may reject an apply, and a write of what is stored
already changes nothing. -/
inductive Served (σ : Cluster Manifest) : (c : Call) → Answer c → Cluster Manifest → Prop where
  | answers {c : Call} {a : Answer c} {σ' : Cluster Manifest} : Answers replaceApi σ c a σ' → Served σ c a σ'
  | rejected {o : String} {m : Manifest} (e : ApiError) : Served σ (.apply o m) (.error e) σ
  | sameUpdate {cur sent : Session} : σ.sessions.check sent.key sent.metadata.resourceVersion = .ok cur →
      updated cur sent = cur → Served σ (.update sent) (.ok cur) σ
  | sameStatus {cur sent : Session} : σ.sessions.check sent.key sent.metadata.resourceVersion = .ok cur →
      statusUpdated cur sent = cur → Served σ (.updateStatus sent) (.ok cur) σ

/-- The answers to the controller, whose Gets are answered from caches. -/
def InformedAnswer (w : Informed) : (c : Call) → Answer c → Informed → Prop
  | .get k, a, w' => w' = w ∧ (∀ s, a = .ok s → w.cache k = some s) ∧
      ∀ e, a = .error e → e.isNotFound = true → w.cache k = none
  | .getDeployment _, _, w' => w' = w
  | .getService k, a, w' => w' = w ∧ ∀ svc, a = .ok svc → svc = ⟨k.name, k.ns⟩
  | .apply o m, a, w' => ∃ σ, Served w.world.cluster (.apply o m) a σ ∧ w' = (w.next σ).applied m a
  | c, a, w' => ∃ σ, Served w.world.cluster c a σ ∧ w' = w.next σ

/-- What happens without the controller: calls of others, changes of children and of what is no
matter of Sessions, an event for the cache, which brings any version that was committed, and the
next event of a child. A watch that breaks may miss a state of a child, but not its last one. -/
inductive InformedOthers (T : Set Kind) (w : Informed) : Informed → Prop where
  | call {c : Call} {a : Answer c} {σ : Cluster Manifest} : (∀ o m, c ≠ .apply o m) →
      Served w.world.cluster c a σ → InformedOthers T w (w.next σ)
  | elsewhere {σ : Cluster Manifest} : σ.sessions = w.world.cluster.sessions →
      σ.nextUid = w.world.cluster.nextUid →
      (∀ ck, σ.children.lookup ck ≠ w.children.lookup ck → ck.kind ∈ T) → InformedOthers T w (w.next σ)
  | deliver {k : Key} {found : Option Session} : (∀ s, found = some s → s ∈ w.world.past ∧ s.key = k) →
      InformedOthers T w { w with cache := Function.update w.cache k found }
  | hear (ck : ChildKey) : InformedOthers T w (w.hear ck)
  | miss {ck : ChildKey} {lost kept : Option Manifest} {before after : List (Option Manifest)} :
      w.waiting ck = before ++ lost :: kept :: after → InformedOthers T w (w.miss ck (before ++ kept :: after))

/-! ## The queue -/

/-- `handler.EnqueueRequestForOwner` for an object with this owner. -/
def ownerRequest (ns : String) (o : OwnerReference) : Option Key :=
  if o.controller = true ∧ o.apiVersion = "codespace.codespace.dev/v1" ∧ o.kind = "Session" then some ⟨ns, o.name⟩
  else none

/-- An event queues this key: its Session has changed in the cache, or a child that has it for its owner, or
had it before. -/
def Queues (w w' : Informed) (k : Key) : Prop :=
  w'.cache k ≠ w.cache k ∨ ∃ ck m, w'.view ck ≠ w.view ck ∧ (w.view ck = some m ∨ w'.view ck = some m) ∧
    ownerRequest ck.key.ns m.owner = some k

/-- After a start the cache is as the API server lists it, and so are the children. -/
def Restarts (w w' : Informed) : Prop :=
  w'.world = w.world ∧ (∀ k, w'.cache k = w.stored k) ∧ ∀ ck, w'.view ck = w.children.lookup ck ∧ w'.Heard ck

/-- The controller. -/
def controller (r : SessionReconciler) (T : Set Kind) : Loop Key Call Answer Outcome Informed where
  code := Reconcile r
  retry := fun o => ∀ after, o ≠ .done after
  answer := InformedAnswer
  others := InformedOthers T
  touches := Queues
  restart := Restarts
  first := fun w => {k | w.cache k ≠ none}

/-! ## What is known -/

/-- The invariant of the surroundings. -/
structure Known (w : Informed) : Prop where
  recorded : Recorded w.world
  cached : ∀ k s, w.cache k = some s → s ∈ w.world.past ∧ s.key = k
  last : ∀ ck, ck.kind ∈ owned → (w.view ck :: w.waiting ck).getLast? = some (w.children.lookup ck)

/-- The controller applies the children of the Session whose key it works on. -/
def AppliesOwn (r : SessionReconciler) (k : Key) (_ : Informed) (c : Call) : Prop :=
  ∀ o m, c = .apply o m → ∃ sess, sess.key = k ∧ ∃ m' ∈ desired r sess, m'.key = m.key

section

variable {r : SessionReconciler} {T : Set Kind} {k : Key} {w w' : Informed} {s sess : Session}

/-! ## The world moves on -/

/-- What every step does to the world. -/
structure Ahead (w w' : Informed) : Prop where
  known : Known w → Known w'
  past : w.world.past ⊆ w'.world.past
  onward : Onward w.world.cluster w'.world.cluster

theorem served_onward {σ σ' : Cluster Manifest} {c : Call} {a : Answer c} (served : Served σ c a σ') :
    Onward σ σ' := by
  cases served with
  | answers ans => exact onward_answers (w := ⟨σ, ∅⟩) ans
  | rejected e => exact .refl _
  | sameUpdate found same => exact .refl _
  | sameStatus found same => exact .refl _

theorem Informed.told_same {σ : Cluster Manifest} (same : σ.children = w.children) (ck : ChildKey) : w.told σ ck = [] := by
  rw [Informed.told, same, if_neg fun changed => changed.2 rfl]

theorem Ahead.next {σ : Cluster Manifest} (onward : Onward w.world.cluster σ) : Ahead w (w.next σ) where
  known known := by
    refine ⟨known.recorded.onward onward, fun k s held => (known.cached k s held).imp_left .inl, fun ck watched => ?_⟩
    show (w.view ck :: (w.waiting ck ++ w.told σ ck)).getLast? = some (σ.children.lookup ck)
    by_cases changed : σ.children.lookup ck ≠ w.children.lookup ck
    · have told : w.told σ ck = [σ.children.lookup ck] := if_pos ⟨watched, changed⟩
      rw [told, ← List.cons_append, List.getLast?_append, List.getLast?_singleton, Option.some_or]
    · have told : w.told σ ck = [] := if_neg fun both => changed both.2
      rw [told, List.append_nil, not_not.1 changed]
      exact known.last ck watched
  past := Set.subset_union_left
  onward := onward

theorem Ahead.refl (w : Informed) : Ahead w w := ⟨id, subset_rfl, .refl _⟩

/-- What is heard of children is no matter of Sessions. -/
theorem Ahead.heard (ahead : Ahead w w') {view : ChildKey → Option Manifest} {waiting : ChildKey → List (Option Manifest)}
    {missed : ChildKey → Bool}
    (last : ∀ ck, (view ck :: waiting ck).getLast? = (w'.view ck :: w'.waiting ck).getLast?) :
    Ahead w { w' with view := view, waiting := waiting, missed := missed } where
  known known := by
    obtain ⟨recorded, cached, before⟩ := ahead.known known
    exact ⟨recorded, cached, fun ck watched => (last ck).trans (before ck watched)⟩
  past := ahead.past
  onward := ahead.onward

theorem ahead_others (others : InformedOthers T w w') : Ahead w w' := by
  cases others with
  | call _ served => exact .next (served_onward served)
  | @elsewhere σ same next _ =>
    have moved : Others replaceApi w.world (w.world.next σ) := .elsewhere same next
    exact .next moved.onward.1
  | @deliver k found delivered =>
    refine ⟨fun known => ⟨known.recorded, fun k' s held => ?_, known.last⟩, subset_rfl, .refl _⟩
    by_cases here : k' = k
    · subst here
      exact delivered s (by simpa using held)
    · exact known.cached k' s (by simpa [here] using held)
  | hear ck =>
    refine (Ahead.refl w).heard fun ck' => ?_
    by_cases here : ck' = ck
    · subst here
      rw [Function.update_self, Function.update_self]
      cases w.waiting ck' <;> rfl
    · rw [Function.update_of_ne here, Function.update_of_ne here]
  | @miss ck lost kept before after waits =>
    refine (Ahead.refl w).heard fun ck' => ?_
    by_cases here : ck' = ck
    · subst here
      rw [Function.update_self, waits, ← List.cons_append, ← List.cons_append, List.getLast?_append, List.getLast?_append,
        List.getLast?_cons_cons]
    · rw [Function.update_of_ne here]

theorem ahead_answer {c : Call} {a : Answer c} (ans : InformedAnswer w c a w') : Ahead w w' := by
  have same : w' = w → Ahead w w' := fun eq => eq ▸ .refl w
  cases c with
  | get k => exact same ans.1
  | getDeployment k => exact same ans
  | getService k => exact same ans.1
  | apply o m =>
    obtain ⟨σ, served, rfl⟩ := ans
    have next : Ahead w (w.next σ) := .next (served_onward served)
    cases a with
    | ok => exact next.heard fun _ => rfl
    | error e => exact next
  | _ =>
    obtain ⟨σ, served, rfl⟩ := ans
    exact .next (served_onward served)

theorem ahead_elsewhere (elsewhere : (controller r T).Elsewhere (AppliesOwn r) k w w') : Ahead w w' := by
  cases elsewhere with
  | others moved => exact ahead_others moved
  | call _ _ ans => exact ahead_answer ans

/-- A version that was read is not committed again. -/
theorem Known.unchanged (known : Known w) (ahead : Ahead w w') (cached : w.cache k = some s)
    (stored : w'.stored k = some s) : w.stored k = some s := by
  rcases ahead.onward.later.held k s stored with before | fresh
  · exact before
  · have := known.recorded.versions s (known.cached k s cached).1
    omega

/-! ## The children -/

theorem owner_request (sess : Session) : ownerRequest sess.metadata.ns (ownerReference sess) = some sess.key := rfl

theorem desired_owner {m : Manifest} (mem : m ∈ desired r sess) : m.owner = ownerReference sess := by
  rw [mem_desired] at mem
  rcases mem with rfl | ⟨_, _, _, _, rfl⟩ | ⟨_, _, _, _, rfl⟩ | ⟨_, _, rfl⟩ | rfl | ⟨_, _, _, rfl⟩ <;> rfl

/-- A call that is served changes the child it applies, and no other. -/
theorem served_children {σ σ' : Cluster Manifest} {c : Call} {a : Answer c} (served : Served σ c a σ') {ck : ChildKey}
    (changed : σ'.children.lookup ck ≠ σ.children.lookup ck) : ∃ o m, c = .apply o m ∧ m.key = ck := by
  cases served with
  | answers ans =>
    by_contra other
    have same : σ'.children.lookup ck = σ.children.lookup ck := by
      rcases answers_state ans with rfl | rfl
      · rfl
      by_cases apply : ∃ o m, c = .apply o m
      · obtain ⟨o, m, rfl⟩ := apply
        have elsewhere : ck ≠ m.key := fun eq => other ⟨o, m, rfl, eq.symm⟩
        exact Finmap.lookup_insert_of_ne _ elsewhere
      · rw [answer_children fun o m eq => apply ⟨o, m, eq⟩]
    exact changed same
  | rejected e => exact absurd rfl changed
  | sameUpdate found same => exact absurd rfl changed
  | sameStatus found same => exact absurd rfl changed

theorem answer_changes {c : Call} {a : Answer c} (ans : InformedAnswer w c a w') {ck : ChildKey}
    (changed : w'.children.lookup ck ≠ w.children.lookup ck) : ∃ o m, c = .apply o m ∧ m.key = ck := by
  have same : w' = w → ∃ o m, c = .apply o m ∧ m.key = ck := fun eq => absurd (by rw [eq]) changed
  cases c with
  | get k => exact same ans.1
  | getDeployment k => exact same ans
  | getService k => exact same ans.1
  | apply o m =>
    obtain ⟨σ, served, rfl⟩ := ans
    refine served_children served ?_
    cases a <;> exact changed
  | _ =>
    obtain ⟨σ, served, rfl⟩ := ans
    exact served_children served changed

/-- The rest of the world changes a child of this Session only if its kind is one that others change. -/
theorem elsewhere_changes {m : Manifest} (mine : m ∈ desired r sess)
    (elsewhere : (controller r T).Elsewhere (AppliesOwn r) sess.key w w')
    (changed : w'.children.lookup m.key ≠ w.children.lookup m.key) : m.key.kind ∈ T := by
  cases elsewhere with
  | others moved =>
    cases moved with
    | @call c a σ other served =>
      obtain ⟨o, m, rfl, -⟩ := served_children served changed
      exact absurd rfl (other o m)
    | elsewhere _ _ touched => exact touched _ changed
    | deliver _ => exact absurd rfl changed
    | hear _ => exact absurd rfl changed
    | miss _ => exact absurd rfl changed
  | @call k' c a _ other allowed ans =>
    obtain ⟨o, m', rfl, key⟩ := answer_changes ans changed
    obtain ⟨sess', rfl, m'', theirs, key'⟩ := allowed o m' rfl
    exact absurd (mem_desired_session theirs mine (key'.trans key)) other

/-! ## What is heard of them -/

/-- What a step does to a child as the controller sees it, unless it applies the child: the child changes,
and its new state is on its way; or a state arrives; or one is missed. -/
inductive Hears (w w' : Informed) (ck : ChildKey) : Prop where
  | moved : w'.view ck = w.view ck → w'.waiting ck = w.waiting ck ++ w.told w'.world.cluster ck →
      w'.missed ck = w.missed ck → Hears w w' ck
  | heard : w'.children = w.children → w.waiting ck = w'.view ck :: w'.waiting ck → w'.missed ck = w.missed ck →
      Hears w w' ck
  | missed : w'.children = w.children → w'.missed ck = true → Hears w w' ck

theorem Hears.same (w w' : Informed) (children : w'.children = w.children) {ck : ChildKey} (view : w'.view ck = w.view ck)
    (waiting : w'.waiting ck = w.waiting ck) (missed : w'.missed ck = w.missed ck) : Hears w w' ck := by
  refine .moved view ?_ missed
  rw [w.told_same children, waiting, List.append_nil]

theorem hears_answer {c : Call} {a : Answer c} (ans : InformedAnswer w c a w') {ck : ChildKey}
    (other : ∀ o m, c = .apply o m → m.key ≠ ck) : Hears w w' ck := by
  have same : w' = w → Hears w w' ck := fun eq => eq ▸ .same w w rfl rfl rfl rfl
  cases c with
  | get k => exact same ans.1
  | getDeployment k => exact same ans
  | getService k => exact same ans.1
  | apply o m =>
    obtain ⟨σ, served, rfl⟩ := ans
    cases a with
    | ok => exact .moved rfl rfl (Function.update_of_ne (Ne.symm (other o m rfl)) ..)
    | error e => exact .moved rfl rfl rfl
  | _ =>
    obtain ⟨σ, served, rfl⟩ := ans
    exact .moved rfl rfl rfl

theorem hears_others (others : InformedOthers T w w') (ck : ChildKey) : Hears w w' ck := by
  cases others with
  | call _ _ => exact .moved rfl rfl rfl
  | elsewhere _ _ _ => exact .moved rfl rfl rfl
  | @deliver k found _ => exact .same w { w with cache := Function.update w.cache k found } rfl rfl rfl rfl
  | hear ck' =>
    by_cases here : ck = ck'
    · subst here
      have view : (w.hear ck).view ck = (w.waiting ck).headD (w.view ck) := Function.update_self ..
      have rest : (w.hear ck).waiting ck = (w.waiting ck).tail := Function.update_self ..
      cases waits : w.waiting ck with
      | nil =>
        rw [waits] at view rest
        exact .same w (w.hear ck) rfl view (rest.trans waits.symm) rfl
      | cons now later =>
        rw [waits] at view rest
        refine .heard rfl ?_ rfl
        rw [waits, view, rest]
        rfl
    · exact .same w (w.hear ck') rfl (Function.update_of_ne here ..) (Function.update_of_ne here ..) rfl
  | @miss ck' lost kept before after waits =>
    by_cases here : ck = ck'
    · subst here
      exact .missed rfl (Function.update_self ..)
    · exact .same w (w.miss ck' _) rfl rfl (Function.update_of_ne here ..) (Function.update_of_ne here ..)

theorem elsewhere_hears {m : Manifest} (mine : m ∈ desired r sess)
    (elsewhere : (controller r T).Elsewhere (AppliesOwn r) sess.key w w') : Hears w w' m.key := by
  cases elsewhere with
  | others moved => exact hears_others moved m.key
  | @call k' c a _ other allowed ans =>
    refine hears_answer ans fun o m' eq same => ?_
    obtain ⟨sess', rfl, m'', theirs, key⟩ := allowed o m' eq
    exact other (mem_desired_session theirs mine (key.trans same))

/-- A call does not queue anything: it is heard of later. -/
theorem answer_queues {c : Call} {a : Answer c} (ans : InformedAnswer w c a w') (k : Key) : ¬ Queues w w' k := by
  have same : w'.cache = w.cache ∧ w'.view = w.view := by
    have same : w' = w → w'.cache = w.cache ∧ w'.view = w.view := fun eq => eq ▸ ⟨rfl, rfl⟩
    cases c with
    | get k => exact same ans.1
    | getDeployment k => exact same ans
    | getService k => exact same ans.1
    | apply o m =>
      obtain ⟨σ, -, rfl⟩ := ans
      cases a <;> exact ⟨rfl, rfl⟩
    | _ =>
      obtain ⟨σ, -, rfl⟩ := ans
      exact ⟨rfl, rfl⟩
  rintro (cached | ⟨ck, -, viewed, -⟩)
  · exact cached (congrFun same.1 k)
  · exact viewed (congrFun same.2 ck)

end

end Codespace.Controller
