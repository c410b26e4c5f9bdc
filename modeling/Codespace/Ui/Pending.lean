import Codespace.Ui.Reducer
import Codespace.Ui.Scaling

/-!
# Pending scale markers

`scale` of `useSessions` notes the number of replicas it asks for before it sends the request,
and the note goes when a message about that Session is delivered, whatever the message says.
The table prints the note beside the number of the row where the two differ. A request that
fails sends no message, so its note stays (`Abandoned`), unless a message about the Session is
delivered later for another reason.

`Board` is the hook with the numbers stored at the server and what is on its way between them.
-/

namespace Codespace.Ui
set_option autoImplicit false
open Server Keyed

/-! ## Calls, answers and messages -/

/-- `${namespace}/${name}`. -/
def pendingKey (k : Key) : String := k.ns ++ "/" ++ k.name

/-- A call of `api.scale` that has not been answered, by its number. -/
structure ScaleCall where
  id : Nat
  key : Key
  replicas : Int
  deriving DecidableEq

structure Board where
  rows : List Session
  pendingTargets : String → Option Int
  calls : List ScaleCall
  /-- `spec.replicas` of the Sessions that exist. -/
  stored : Key → Option (Option Int32)
  /-- The messages on their way, by their objects. -/
  events : List Session
  issued : Nat

/-- The number that is shown for `spec.replicas`. -/
def count (replicas : Option Int32) : Int := (replicas.map Int32.toInt).getD 1

inductive ScaleAct where
  | scale (id : Nat) (k : Key) (replicas : Int)
  | fail (id : Nat)
  | unchanged (id : Nat)
  | change (id : Nat)
  | deliver (obj : Session)

inductive ScaleStep : Board → ScaleAct → Board → Prop where
  /-- `scale`, where the user may. -/
  | scale {b : Board} {k : Key} {n : Int} (there : b.stored k ≠ none) : ScaleStep b (.scale b.issued k n) { b with
      pendingTargets := Function.update b.pendingTargets (pendingKey k) (some n)
      calls := b.calls ++ [⟨b.issued, k, n⟩]
      issued := b.issued + 1 }
  | fail {b : Board} {c : ScaleCall} (mem : c ∈ b.calls) : ScaleStep b (.fail c.id) { b with calls := b.calls.erase c }
  /-- Success, with nothing to change. -/
  | unchanged {b : Board} {c : ScaleCall} {m : Int32} (mem : c ∈ b.calls) (asked : m.toInt = c.replicas)
      (same : b.stored c.key = some (some m)) : ScaleStep b (.unchanged c.id) { b with calls := b.calls.erase c }
  /-- Success: the number is stored and a message sent. -/
  | change {b : Board} {c : ScaleCall} {m : Int32} {old : Option Int32} {obj : Session} (mem : c ∈ b.calls)
      (asked : m.toInt = c.replicas) (was : b.stored c.key = some old) (other : old ≠ some m) (about : obj.key = c.key)
      (tells : obj.spec.replicas = some m) : ScaleStep b (.change c.id) { b with
        calls := b.calls.erase c
        stored := Function.update b.stored c.key (some (some m))
        events := b.events ++ [obj] }
  | deliver {b : Board} {obj : Session} {rest : List Session} (next : b.events = obj :: rest) :
    ScaleStep b (.deliver obj) { b with
      rows := receive b.rows (.modified, obj)
      pendingTargets := Function.update b.pendingTargets (pendingKey obj.key) none
      events := rest }

/-- A run whose every step passes. -/
inductive ScaleRun (ok : Board → ScaleAct → Prop) (b₀ : Board) : List ScaleAct → Board → Prop where
  | start : ScaleRun ok b₀ [] b₀
  | step {acts : List ScaleAct} {a : ScaleAct} {b b' : Board} (before : ScaleRun ok b₀ acts b) (passes : ok b a)
      (step : ScaleStep b a b') : ScaleRun ok b₀ (acts ++ [a]) b'

/-- A page that has just been loaded. -/
structure Fresh (b : Board) : Prop where
  distinct : (b.rows.map Session.key).Nodup
  rows : ∀ k, (row Session.key k b.rows).map (·.spec.replicas) = b.stored k
  names : ∀ k, b.stored k ≠ none → '/' ∉ k.ns.toList
  markers : ∀ key, b.pendingTargets key = none
  calls : b.calls = []
  events : b.events = []

/-- Every request is answered, and every message delivered. -/
def Answered (b : Board) : Prop := b.calls = [] ∧ b.events = []

/-- Every marker that is left is the number that the row of its Session shows. -/
def MarkersTrue (b : Board) : Prop := ∀ key n, b.pendingTargets key = some n →
  ∃ k s, key = pendingKey k ∧ row Session.key k b.rows = some s ∧ current s = n

/-! ## The condition -/

/-- The last call for a Session, unless a message about the Session was delivered since. -/
def standing (k : Key) (acts : List ScaleAct) : Option (Nat × Int) := acts.foldl (fun last act => match act with
  | .scale id k' n => if k' = k then some (id, n) else last
  | .deliver obj => if obj.key = k then none else last
  | _ => last) none

/-- The last call for a Session failed, it asked for a number that is not stored, and no message
about the Session has been delivered since. -/
def Abandoned (acts : List ScaleAct) (b : Board) (k : Key) : Prop := ∃ id n, standing k acts = some (id, n) ∧
  .fail id ∈ acts ∧ ∀ r, b.stored k = some r → count r ≠ n

/-- A message finds the row of its own Session. -/
def FindsRow (b : Board) : ScaleAct → Prop
  | .deliver obj => FindsOwn b.rows (.modified, obj)
  | _ => True

/-! ## Steps -/

theorem pendingKey_inj {k k' : Key} (plain : '/' ∉ k.ns.toList) (plain' : '/' ∉ k'.ns.toList)
    (same : pendingKey k = pendingKey k') : k = k' := by
  have lists : ∀ k : Key, (pendingKey k).toList = k.ns.toList ++ '/' :: k.name.toList := fun k => by
    simp [pendingKey]
  have parts := congrArg String.toList same
  rw [lists, lists] at parts
  have pieces := congrArg (List.splitOn '/') parts
  rw [List.splitOn_append_cons_self_of_not_mem plain, List.splitOn_append_cons_self_of_not_mem plain'] at pieces
  have ns := (List.cons.inj pieces).1
  rw [ns] at parts
  have name := List.tail_eq_of_cons_eq (List.append_cancel_left parts)
  exact congrArg₂ Key.mk (String.toList_inj.1 ns) (String.toList_inj.1 name)

section

variable {acts : List ScaleAct} {b b' : Board} {k : Key}

theorem standing_step (a : ScaleAct) : standing k (acts ++ [a]) = match a with
    | .scale id k' n => if k' = k then some (id, n) else standing k acts
    | .deliver obj => if obj.key = k then none else standing k acts
    | _ => standing k acts := by
  rw [standing, List.foldl_append]
  rfl

theorem standing_scale {id : Nat} {n : Int} {k' : Key} {call : Nat × Int} :
    standing k' (acts ++ [.scale id k n]) = some call ↔
      k = k' ∧ call = (id, n) ∨ k ≠ k' ∧ standing k' acts = some call := by
  rw [standing_step]
  by_cases here : k = k'
  · simp [here, eq_comm]
  · simp [here]

theorem standing_deliver {obj : Session} {call : Nat × Int} :
    standing k (acts ++ [.deliver obj]) = some call ↔ obj.key ≠ k ∧ standing k acts = some call := by
  rw [standing_step]
  by_cases here : obj.key = k
  · simp [here]
  · simp [here]

end

/-! ## The invariant -/

/-- What holds after every step: markers and calls agree with the record of the run, and the
table with the stored numbers once the messages on their way are delivered. -/
structure OnRecord (acts : List ScaleAct) (b : Board) : Prop where
  distinct : (b.rows.map Session.key).Nodup
  names : ∀ k, b.stored k ≠ none → '/' ∉ k.ns.toList
  about : ∀ obj ∈ b.events, b.stored obj.key ≠ none
  marked : ∀ key n, b.pendingTargets key = some n →
    ∃ k id, key = pendingKey k ∧ b.stored k ≠ none ∧ standing k acts = some (id, n)
  marker : ∀ k id n, standing k acts = some (id, n) → b.stored k ≠ none ∧ b.pendingTargets (pendingKey k) = some n
  synced : ∀ k, (latest b.rows (b.events.map (EventType.modified, ·)) k).map (·.spec.replicas) = b.stored k
  outcome : ∀ k id n, standing k acts = some (id, n) → ⟨id, k, n⟩ ∈ b.calls ∨ .fail id ∈ acts ∨
    (∃ obj ∈ b.events, obj.key = k) ∨ ∃ r, b.stored k = some r ∧ count r = n

theorem Fresh.onRecord {b : Board} (fresh : Fresh b) : OnRecord [] b where
  distinct := fresh.distinct
  names := fresh.names
  about := by simp [fresh.events]
  marked key n marker := by simp [fresh.markers] at marker
  marker k id n standing := by cases standing
  synced k := by
    rw [fresh.events]
    exact fresh.rows k
  outcome k id n standing := by cases standing

section

variable {acts : List ScaleAct} {b : Board}

/-- The keys of the markers tell Sessions apart. -/
theorem OnRecord.apart (h : OnRecord acts b) {k k' : Key} (there : b.stored k ≠ none) (there' : b.stored k' ≠ none)
    (other : k ≠ k') : pendingKey k ≠ pendingKey k' := fun same =>
  other (pendingKey_inj (h.names k there) (h.names k' there') same)

theorem OnRecord.scale (h : OnRecord acts b) {k : Key} {n : Int} (there : b.stored k ≠ none) :
    OnRecord (acts ++ [.scale b.issued k n]) { b with
      pendingTargets := Function.update b.pendingTargets (pendingKey k) (some n)
      calls := b.calls ++ [⟨b.issued, k, n⟩]
      issued := b.issued + 1 } where
  distinct := h.distinct
  names := h.names
  about := h.about
  synced := h.synced
  marked key m marker := by
    change Function.update b.pendingTargets (pendingKey k) (some n) key = some m at marker
    by_cases here : key = pendingKey k
    · subst here
      rw [Function.update_self, Option.some_inj] at marker
      exact ⟨k, b.issued, rfl, there, standing_scale.2 (.inl ⟨rfl, by rw [marker]⟩)⟩
    · rw [Function.update_of_ne here] at marker
      obtain ⟨k', id, rfl, there', last⟩ := h.marked key m marker
      have other : k ≠ k' := fun same => here (congrArg pendingKey same.symm)
      exact ⟨k', id, rfl, there', standing_scale.2 (.inr ⟨other, last⟩)⟩
  marker k' id m last := by
    rcases standing_scale.1 last with ⟨rfl, ⟨⟩⟩ | ⟨here, last⟩
    · exact ⟨there, Function.update_self ..⟩
    · obtain ⟨there', marker⟩ := h.marker k' id m last
      exact ⟨there', (Function.update_of_ne (h.apart there' there (Ne.symm here)) ..).trans marker⟩
  outcome k' id m last := by
    rcases standing_scale.1 last with ⟨rfl, ⟨⟩⟩ | ⟨-, last⟩
    · exact .inl (List.mem_append_right _ (List.mem_singleton_self _))
    · refine (h.outcome k' id m last).imp (List.mem_append_left _) ?_
      exact Or.imp_left (List.mem_append_left _)

/-- An answer that stores nothing, where the outcome of its call is on record. -/
theorem OnRecord.answer (h : OnRecord acts b) {c : ScaleCall} {a : ScaleAct}
    (silent : ∀ k, standing k (acts ++ [a]) = standing k acts)
    (known : a = .fail c.id ∨ ∃ r, b.stored c.key = some r ∧ count r = c.replicas) :
    OnRecord (acts ++ [a]) { b with calls := b.calls.erase c } where
  distinct := h.distinct
  names := h.names
  about := h.about
  synced := h.synced
  marked key m marker := by
    simp only [silent]
    exact h.marked key m marker
  marker k id m last := h.marker k id m ((silent k).symm.trans last)
  outcome k id m last := by
    rw [silent] at last
    rcases h.outcome k id m last with waits | failed | rest
    · by_cases this : c = ⟨id, k, m⟩
      · subst this
        rcases known with rfl | stored
        · exact .inr (.inl (List.mem_append_right _ (List.mem_singleton_self _)))
        · exact .inr (.inr (.inr stored))
      · exact .inl ((List.mem_erase_of_ne (Ne.symm this)).2 waits)
    · exact .inr (.inl (List.mem_append_left _ failed))
    · exact .inr (.inr rest)

theorem OnRecord.change (h : OnRecord acts b) {c : ScaleCall} {m : Int32} {obj : Session}
    (there : b.stored c.key ≠ none) (about : obj.key = c.key) (tells : obj.spec.replicas = some m) :
    OnRecord (acts ++ [.change c.id]) { b with
      calls := b.calls.erase c
      stored := Function.update b.stored c.key (some (some m))
      events := b.events ++ [obj] } := by
  have exists_iff : ∀ k, Function.update b.stored c.key (some (some m)) k ≠ none ↔ b.stored k ≠ none := by
    intro k
    by_cases here : k = c.key
    · subst here
      simp [there]
    · rw [Function.update_of_ne here]
  refine ⟨h.distinct, fun k there => h.names k ((exists_iff k).1 there), ?_, ?_, ?_, ?_, ?_⟩
  · intro obj' mem
    rcases List.mem_append.1 mem with old | new
    · exact (exists_iff _).2 (h.about obj' old)
    · cases List.mem_singleton.1 new
      exact (exists_iff _).2 (about ▸ there)
  · intro key n marker
    obtain ⟨k, id, same, there', last⟩ := h.marked key n marker
    exact ⟨k, id, same, (exists_iff k).2 there', (standing_step _).trans last⟩
  · intro k id n last
    obtain ⟨there', marker⟩ := h.marker k id n ((standing_step _).symm.trans last)
    exact ⟨(exists_iff k).2 there', marker⟩
  · intro k
    have later : latest b.rows ((b.events ++ [obj]).map (EventType.modified, ·)) =
        announce (latest b.rows (b.events.map (EventType.modified, ·))) (.modified, obj) := by
      rw [List.map_append, latest, List.foldl_append]
      rfl
    show (latest b.rows ((b.events ++ [obj]).map (EventType.modified, ·)) k).map (·.spec.replicas) =
      Function.update b.stored c.key (some (some m)) k
    rw [later]
    by_cases here : k = c.key
    · subst here
      rw [← about, Function.update_self]
      simp [announce, tells]
    · rw [Function.update_of_ne here, ← h.synced k, announce, Function.update_of_ne (about ▸ here)]
  · intro k id n last
    by_cases here : k = c.key
    · exact .inr (.inr (.inl ⟨obj, List.mem_append_right _ (List.mem_singleton_self _), about.trans here.symm⟩))
    · rcases h.outcome k id n ((standing_step _).symm.trans last) with waits | failed | ⟨obj', mem, same⟩ | stored
      · have other : (⟨id, k, n⟩ : ScaleCall) ≠ c := fun eq => here (congrArg ScaleCall.key eq)
        exact .inl ((List.mem_erase_of_ne other).2 waits)
      · exact .inr (.inl (List.mem_append_left _ failed))
      · exact .inr (.inr (.inl ⟨obj', List.mem_append_left _ mem, same⟩))
      · refine .inr (.inr (.inr ?_))
        simpa only [Function.update_of_ne here] using stored

theorem OnRecord.deliver (h : OnRecord acts b) {obj : Session} {rest : List Session} (next : b.events = obj :: rest)
    (finds : FindsOwn b.rows (.modified, obj)) : OnRecord (acts ++ [.deliver obj]) { b with
      rows := receive b.rows (.modified, obj)
      pendingTargets := Function.update b.pendingTargets (pendingKey obj.key) none
      events := rest } := by
  have table := receive_own h.distinct finds
  have within : ∀ obj' ∈ rest, obj' ∈ b.events := fun obj' mem => next ▸ List.mem_cons_of_mem _ mem
  refine ⟨table.nodup, h.names, fun obj' mem => h.about obj' (within obj' mem), ?_, ?_, ?_, ?_⟩
  · intro key n marker
    change Function.update b.pendingTargets (pendingKey obj.key) none key = some n at marker
    by_cases here : key = pendingKey obj.key
    · rw [here, Function.update_self] at marker
      cases marker
    · rw [Function.update_of_ne here] at marker
      obtain ⟨k, id, rfl, there, last⟩ := h.marked key n marker
      have other : obj.key ≠ k := fun same => here (congrArg pendingKey same.symm)
      exact ⟨k, id, rfl, there, standing_deliver.2 ⟨other, last⟩⟩
  · intro k id n last
    obtain ⟨here, last⟩ := standing_deliver.1 last
    obtain ⟨there, marker⟩ := h.marker k id n last
    have told := h.about obj (next ▸ List.mem_cons_self)
    exact ⟨there, (Function.update_of_ne (h.apart there told (Ne.symm here)) ..).trans marker⟩
  · intro k
    have rows : (row Session.key · (receive b.rows (.modified, obj))) = announce (row Session.key · b.rows) (.modified, obj) :=
      funext table.eq
    have synced := h.synced k
    rw [next, List.map_cons, latest, List.foldl_cons, ← rows] at synced
    exact synced
  · intro k id n last
    obtain ⟨here, last⟩ := standing_deliver.1 last
    rcases h.outcome k id n last with waits | failed | ⟨obj', mem, same⟩ | stored
    · exact .inl waits
    · exact .inr (.inl (List.mem_append_left _ failed))
    · rw [next] at mem
      rcases List.mem_cons.1 mem with rfl | later
      · exact absurd same here
      · exact .inr (.inr (.inl ⟨obj', later, same⟩))
    · exact .inr (.inr (.inr stored))

theorem OnRecord.step {b' : Board} {a : ScaleAct} (h : OnRecord acts b) (finds : FindsRow b a) (step : ScaleStep b a b') :
    OnRecord (acts ++ [a]) b' := by
  cases step with
  | scale there => exact h.scale there
  | fail mem => exact h.answer (fun _ => standing_step _) (.inl rfl)
  | @unchanged c m mem asked same => exact h.answer (fun _ => standing_step _) (.inr ⟨some m, same, asked⟩)
  | change mem asked was other about tells => exact h.change (by rw [was]; exact Option.some_ne_none _) about tells
  | deliver next => exact h.deliver next finds

theorem run_onRecord {b₀ : Board} (fresh : Fresh b₀) (run : ScaleRun FindsRow b₀ acts b) : OnRecord acts b := by
  induction run with
  | start => exact fresh.onRecord
  | step _ finds step ih => exact ih.step finds step

/-- **Main result.** Once everything is answered and delivered, the markers that are left are
true exactly if no Session's last call was abandoned. -/
theorem markers_iff {b₀ : Board} (fresh : Fresh b₀) (run : ScaleRun FindsRow b₀ acts b) (answered : Answered b) :
    MarkersTrue b ↔ ∀ k, ¬ Abandoned acts b k := by
  have h := run_onRecord fresh run
  have synced : ∀ k, (row Session.key k b.rows).map (·.spec.replicas) = b.stored k := by
    intro k
    have after := h.synced k
    rwa [answered.2] at after
  constructor
  · rintro true_ k ⟨id, n, last, -, differs⟩
    obtain ⟨there, marker⟩ := h.marker k id n last
    obtain ⟨k', s, same, found, shown⟩ := true_ _ n marker
    have stored : b.stored k' = some s.spec.replicas := by rw [← synced, found, Option.map_some]
    have here : k = k' := by
      by_contra other
      exact h.apart there (by rw [stored]; exact Option.some_ne_none _) other same
    exact differs _ (here ▸ stored) shown
  · intro kept key n marker
    obtain ⟨k, id, same, there, last⟩ := h.marked key n marker
    have row := synced k
    obtain ⟨r, stored⟩ := Option.ne_none_iff_exists'.1 there
    rw [stored, Option.map_eq_some_iff] at row
    obtain ⟨s, found, shows⟩ := row
    refine ⟨k, s, same, found, ?_⟩
    have asked : count r = n := by
      rcases h.outcome k id n last with waits | failed | ⟨obj, mem, -⟩ | ⟨r', stored', asked⟩
      · simp [answered.1] at waits
      · by_contra differs
        exact kept k ⟨id, n, last, failed, fun r' stored' => by
          cases stored.symm.trans stored'
          exact differs⟩
      · simp [answered.2] at mem
      · cases stored.symm.trans stored'
        exact asked
    rw [← asked, ← shows]
    rfl

end

/-- The Session `ns/a` with some replicas. -/
def withReplicas (n : Int32) : Session := scaled n (.plain ⟨"ns", "a"⟩ 1 SessionSpec.plain)

/-- A page that shows this Session, with one replica. -/
def singleBoard : Board := ⟨[withReplicas 1], fun _ => none, [], fun k => if k = ⟨"ns", "a"⟩ then some (some 1) else none, [], 0⟩

theorem singleBoard_fresh : Fresh singleBoard where
  distinct := List.nodup_singleton _
  rows k := by
    by_cases here : k = ⟨"ns", "a"⟩
    · subst here
      rfl
    · have other : (withReplicas 1).key ≠ k := Ne.symm here
      simp [singleBoard, row, other, here]
  names k there := by
    have here : k = ⟨"ns", "a"⟩ := by
      by_contra other
      exact there (if_neg other)
    rw [here]
    decide +kernel
  markers _ := rfl
  calls := rfl
  events := rfl

/-- Two calls overlap, and the second fails; the message for the first comes after it. -/
theorem overlapping_markers : ∃ b, ScaleRun FindsRow singleBoard [.scale 0 ⟨"ns", "a"⟩ 2, .scale 1 ⟨"ns", "a"⟩ 3,
    .fail 1, .change 0, .deliver (withReplicas 2)] b ∧ Answered b ∧ MarkersTrue b := by
  have called : ScaleRun FindsRow singleBoard ([] ++ [.scale 0 ⟨"ns", "a"⟩ 2]) _ :=
    .step .start trivial (.scale (by decide))
  have again : ScaleRun FindsRow singleBoard (_ ++ [.scale 1 ⟨"ns", "a"⟩ 3]) _ := .step called trivial (.scale (by decide))
  have failed : ScaleRun FindsRow singleBoard (_ ++ [.fail 1]) _ :=
    .step again trivial (.fail (c := ⟨1, ⟨"ns", "a"⟩, 3⟩) (by decide))
  have about : (withReplicas 2).key = ⟨"ns", "a"⟩ := rfl
  have changed : ScaleRun FindsRow singleBoard (_ ++ [.change 0]) _ := .step failed trivial
    (.change (c := ⟨0, ⟨"ns", "a"⟩, 2⟩) (by decide) (by decide) rfl (by decide) about rfl)
  have delivered : ScaleRun FindsRow singleBoard (_ ++ [.deliver (withReplicas 2)]) _ :=
    .step changed (by rintro s ⟨⟩; rfl) (.deliver rfl)
  refine ⟨_, delivered, ⟨rfl, rfl⟩, (markers_iff singleBoard_fresh delivered ⟨rfl, rfl⟩).2 ?_⟩
  rintro k ⟨id, n, last, -⟩
  by_cases here : ⟨"ns", "a"⟩ = k
  · subst here
    cases last
  · simp [standing, here] at last

/-- A call that fails leaves its marker. -/
theorem failed_marker_stays : ¬ ∀ (b₀ b : Board) (acts : List ScaleAct), Fresh b₀ →
    ScaleRun (fun _ _ => True) b₀ acts b → Answered b → MarkersTrue b := by
  intro claim
  have called : ScaleRun (fun _ _ => True) singleBoard ([] ++ [.scale 0 ⟨"ns", "a"⟩ 2]) _ :=
    .step .start trivial (.scale (by decide))
  have failed : ScaleRun (fun _ _ => True) singleBoard (_ ++ [.fail 0]) _ :=
    .step called trivial (.fail (c := ⟨0, ⟨"ns", "a"⟩, 2⟩) (by decide))
  obtain ⟨k, s, -, found, shown⟩ := claim _ _ _ singleBoard_fresh failed ⟨rfl, rfl⟩ "ns/a" 2 (by decide)
  have mem : s ∈ [withReplicas 1] := List.mem_of_find?_eq_some found
  rw [List.mem_singleton.1 mem] at shown
  exact absurd shown (by decide)

end Codespace.Ui
