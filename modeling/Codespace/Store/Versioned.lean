import Mathlib.Data.Finmap
import Mathlib.Data.Finset.Sort

/-!
# A store with optimistic concurrency

Every object carries the version of the write that stored it, and every write takes a
fresh version, so a version names one object for good. A writer that has read an object
may therefore hand back the version it read: if the store still holds that version, it
holds the very object that was read (`check_later`), whatever happened in between.

`Later` is what any sequence of writes and erasures by anybody amounts to.
-/

namespace Versioned
set_option autoImplicit false

/-- Objects that carry the version they were stored under. -/
class Stamped (V : Type) where
  version : V → Nat
  stamp : Nat → V → V
  version_stamp : ∀ n v, version (stamp n v) = n

export Stamped (version stamp version_stamp)

attribute [simp] version_stamp

variable {K V : Type} [DecidableEq K] [Stamped V]

/-- A keyed store. `next` is the version the next write will take; every stored version
is below it. -/
structure Store (K V : Type) [DecidableEq K] [Stamped V] where
  objects : Finmap fun _ : K => V
  next : Nat
  fresh : ∀ k v, objects.lookup k = some v → version v < next

namespace Store

/-- The object at a key. -/
def get (st : Store K V) (k : K) : Option V := st.objects.lookup k

/-- A store without objects. -/
def empty : Store K V := ⟨∅, 1, nofun⟩

/-- Store an object under a fresh version. -/
def write (st : Store K V) (k : K) (v : V) : Store K V where
  objects := st.objects.insert k (stamp st.next v)
  next := st.next + 1
  fresh := by
    intro k' v' held
    by_cases same : k' = k
    · subst same
      rw [Finmap.lookup_insert, Option.some.injEq] at held
      subst held
      simp
    · rw [Finmap.lookup_insert_of_ne _ same] at held
      exact Nat.lt_succ_of_lt (st.fresh k' v' held)

/-- Remove the object at a key. -/
def erase (st : Store K V) (k : K) : Store K V where
  objects := st.objects.erase k
  next := st.next
  fresh := by
    intro k' v' held
    by_cases same : k' = k
    · subst same
      rw [Finmap.lookup_erase] at held
      cases held
    · rw [Finmap.lookup_erase_ne same] at held
      exact st.fresh k' v' held

@[simp] theorem get_empty (k : K) : (empty : Store K V).get k = none := rfl

@[simp] theorem get_write_self (st : Store K V) (k : K) (v : V) :
    (st.write k v).get k = some (stamp st.next v) := Finmap.lookup_insert _

@[simp] theorem get_write_ne (st : Store K V) {k k' : K} (v : V) (ne : k' ≠ k) :
    (st.write k v).get k' = st.get k' := Finmap.lookup_insert_of_ne _ ne

@[simp] theorem get_erase_self (st : Store K V) (k : K) : (st.erase k).get k = none :=
  Finmap.lookup_erase _ _

@[simp] theorem get_erase_ne (st : Store K V) {k k' : K} (ne : k' ≠ k) :
    (st.erase k).get k' = st.get k' := Finmap.lookup_erase_ne ne

@[simp] theorem next_write (st : Store K V) (k : K) (v : V) : (st.write k v).next = st.next + 1 := rfl

@[simp] theorem next_erase (st : Store K V) (k : K) : (st.erase k).next = st.next := rfl

theorem get_write (st : Store K V) (k k' : K) (v : V) :
    (st.write k v).get k' = if k' = k then some (stamp st.next v) else st.get k' := by
  split
  · rename_i same; subst same; exact get_write_self ..
  · rename_i ne; exact get_write_ne _ _ ne

theorem version_lt (st : Store K V) {k : K} {v : V} (held : st.get k = some v) :
    version v < st.next := st.fresh k v held

/-! ## Listing -/

section List

variable (r : K → K → Prop) [DecidableRel r] [IsTrans K r] [Std.Antisymm r] [Std.Total r]

/-- The stored objects, in the order of their keys. -/
def list (st : Store K V) : List V := (st.objects.keys.sort r).filterMap st.get

theorem mem_keys {st : Store K V} {k : K} : k ∈ st.objects.keys ↔ ∃ v, st.get k = some v :=
  Finmap.mem_keys.trans Finmap.mem_iff

theorem mem_list {st : Store K V} {v : V} : v ∈ st.list r ↔ ∃ k, st.get k = some v := by
  simp only [list, List.mem_filterMap, Finset.mem_sort]
  constructor
  · rintro ⟨k, -, held⟩
    exact ⟨k, held⟩
  · rintro ⟨k, held⟩
    exact ⟨k, mem_keys.2 ⟨v, held⟩, held⟩

/-- Sorting a subset keeps the order of the larger set. -/
theorem filter_sort {s t : Finset K} (sub : s ⊆ t) : (t.sort r).filter (· ∈ s) = s.sort r := by
  have sorted : ((t.sort r).filter (· ∈ s)).Pairwise r := (Finset.pairwise_sort t r).filter _
  have nodup : ((t.sort r).filter (· ∈ s)).Nodup := (Finset.sort_nodup t r).filter _
  have elements : ((t.sort r).filter (· ∈ s)).toFinset = s := by
    ext k
    simp only [List.mem_toFinset, List.mem_filter, Finset.mem_sort, decide_eq_true_eq]
    exact ⟨fun h => h.2, fun h => ⟨sub h, h⟩⟩
  have same := (List.toFinset_sort r nodup).2 sorted
  rw [elements] at same
  exact same.symm

/-- Keys that contribute nothing do not matter for a sorted traversal. -/
theorem filterMap_sort {W : Type} {g : K → Option W} {s t : Finset K} (sub : s ⊆ t)
    (outside : ∀ k, k ∉ s → g k = none) : (t.sort r).filterMap g = (s.sort r).filterMap g := by
  rw [← filter_sort r sub, List.filterMap_filter]
  congr 1
  funext k
  by_cases h : k ∈ s
  · simp [h]
  · simp [h, outside k h]

/-- Two stores that hold the same objects satisfying `p` list the same objects satisfying `p`. -/
theorem filter_list_congr {st st' : Store K V} (p : V → Bool)
    (same : ∀ k, (st.get k).filter p = (st'.get k).filter p) :
    (st.list r).filter p = (st'.list r).filter p := by
  have missing : ∀ (st : Store K V) k, k ∉ st.objects.keys → (st.get k).filter p = none := by
    intro st k h
    have : st.get k = none := by
      cases held : st.get k with
      | none => rfl
      | some v => exact absurd (mem_keys.2 ⟨v, held⟩) h
    rw [this]
    rfl
  have flat : ∀ st : Store K V, (st.list r).filter p =
      (st.objects.keys.sort r).filterMap fun k => (st.get k).filter p := by
    intro st
    rw [list, List.filter_filterMap]
  have left : st.objects.keys ⊆ st.objects.keys ∪ st'.objects.keys := Finset.subset_union_left
  have right : st'.objects.keys ⊆ st.objects.keys ∪ st'.objects.keys := Finset.subset_union_right
  rw [flat st, flat st', ← filterMap_sort r left (missing st), ← filterMap_sort r right (missing st')]
  congr 1
  funext k
  exact same k

/-- Where every object tells its key, no key is listed twice. -/
theorem nodup_list (st : Store K V) {key : V → K} (keyed : ∀ k v, st.get k = some v → key v = k) :
    ((st.list r).map key).Nodup := by
  have keys : (st.list r).map key = st.objects.keys.sort r := by
    rw [list, List.map_filterMap]
    refine (List.filterMap_congr fun k mem => ?_).trans List.filterMap_some
    obtain ⟨v, held⟩ := mem_keys.1 ((Finset.mem_sort r).1 mem)
    rw [held, Option.map_some, keyed k v held]
  rw [keys]
  exact Finset.sort_nodup _ _

end List

/-! ## The check of a conditional write -/

/-- Why a conditional write is turned down. -/
inductive Refusal where
  | missing
  | stale
  deriving DecidableEq, Repr

/-- The object at a key, provided its version is `n`. -/
def check (st : Store K V) (k : K) (n : Nat) : Except Refusal V :=
  match st.get k with
  | none => .error .missing
  | some v => if version v = n then .ok v else .error .stale

theorem check_ok {st : Store K V} {k : K} {n : Nat} {v : V} :
    st.check k n = .ok v ↔ st.get k = some v ∧ version v = n := by
  unfold check
  cases held : st.get k with
  | none => simp
  | some w =>
    by_cases same : version w = n
    · simp only [same, if_true, Except.ok.injEq, Option.some.injEq]
      exact ⟨fun e => ⟨e, e ▸ same⟩, fun e => e.1⟩
    · simp only [same, if_false, Option.some.injEq, reduceCtorEq, false_iff, not_and]
      rintro rfl
      exact same

/-- What passes the check is what is stored. -/
theorem check_held {st : Store K V} {k k' : K} {n : Nat} {v held : V} (ok : st.check k n = .ok v) (same : k = k')
    (stored : st.get k' = some held) : held = v :=
  Option.some.inj (stored.symm.trans (same ▸ (check_ok.1 ok).1))

theorem check_current {st : Store K V} {k : K} {v : V} (held : st.get k = some v) :
    st.check k (version v) = .ok v := check_ok.2 ⟨held, rfl⟩

end Store

/-! ## What others may have done -/

/-- `st'` came from `st` by writes and erasures: an object it holds was there before, or
carries a version that `st` had not handed out. -/
structure Later (st st' : Store K V) : Prop where
  next : st.next ≤ st'.next
  held : ∀ k v, st'.get k = some v → st.get k = some v ∨ st.next ≤ version v

namespace Later

theorem refl (st : Store K V) : Later st st := ⟨Nat.le_refl _, fun _ _ h => .inl h⟩

theorem trans {st₁ st₂ st₃ : Store K V} (a : Later st₁ st₂) (b : Later st₂ st₃) :
    Later st₁ st₃ := by
  refine ⟨a.next.trans b.next, fun k v h => ?_⟩
  rcases b.held k v h with before | fresh
  · exact a.held k v before
  · exact .inr (a.next.trans fresh)

theorem write (st : Store K V) (k : K) (v : V) : Later st (st.write k v) := by
  refine ⟨Nat.le_succ _, fun k' v' h => ?_⟩
  by_cases same : k' = k
  · subst same
    rw [Store.get_write_self, Option.some.injEq] at h
    subst h
    exact .inr (by simp)
  · exact .inl (by rwa [Store.get_write_ne _ _ same] at h)

theorem erase (st : Store K V) (k : K) : Later st (st.erase k) := by
  refine ⟨Nat.le_refl _, fun k' v' h => ?_⟩
  by_cases same : k' = k
  · subst same
    rw [Store.get_erase_self] at h
    cases h
  · exact .inl (by rwa [Store.get_erase_ne _ same] at h)

/-- An object that still has the version that was read is the object that was read. -/
theorem same_version {st st' : Store K V} (later : Later st st') {k : K} {v v' : V}
    (read : st.get k = some v) (now : st'.get k = some v') (same : version v' = version v) :
    v' = v := by
  rcases later.held k v' now with before | fresh
  · exact Option.some.inj (before.symm.trans read)
  · have := st.version_lt read
    omega

/-- **Optimistic concurrency.** A check that succeeds with a version read earlier finds
the object that was read then. -/
theorem check_later {st st' : Store K V} (later : Later st st') {k : K} {v v' : V}
    (read : st.get k = some v) (ok : st'.check k (version v) = .ok v') : v' = v := by
  obtain ⟨now, same⟩ := Store.check_ok.1 ok
  exact later.same_version read now same

end Later

end Versioned
