import Mathlib.Data.List.Induction
import Mathlib.Data.List.Nodup
import Mathlib.Data.Option.Basic

/-!
# A list of rows kept up by updates

A client shows a collection as a list of rows, each with its own key, and keeps it up by
updates: a row is put in place of the one with its key, or first if there is none; the
rows of a key are dropped. What the rows show of a key after some updates depends on the
last update of that key only (`row_replay_touched`), and on the rows before if there is
none (`row_replay_untouched`).

`Shows R rows target` says that the rows show a collection: a row for every key of the
target, related to what the target holds, and no others.
-/

namespace Keyed
set_option autoImplicit false

variable {K V W : Type} [DecidableEq K] (key : V → K)

/-- The first row of a key. -/
def row (k : K) (rows : List V) : Option V := rows.find? (key · = k)

/-- A row in place of the first one with its key, or before all others. -/
def put (v : V) (rows : List V) : List V :=
  match rows.findIdx? (key · = key v) with
  | none => v :: rows
  | some ix => rows.set ix v

/-- The rows of the other keys. -/
def drop (k : K) (rows : List V) : List V := rows.filter (key · ≠ k)

inductive Update (K V : Type) where
  | put (v : V)
  | drop (k : K)
  | skip
  deriving DecidableEq

def apply (rows : List V) : Update K V → List V
  | .put v => put key v rows
  | .drop k => drop key k rows
  | .skip => rows

/-- The rows after some updates. -/
def replay (rows : List V) (updates : List (Update K V)) : List V := updates.foldl (apply key) rows

/-- The update is one of this key. -/
def Update.touches (k : K) : Update K V → Prop
  | .put v => key v = k
  | .drop k' => k' = k
  | .skip => False

/-- The rows are those of a collection, up to a relation, each key's once. -/
structure Shows (R : V → W → Prop) (rows : List V) (target : K → Option W) : Prop where
  nodup : (rows.map key).Nodup
  rows : ∀ k, Option.Rel R (row key k rows) (target k)

variable {key} {k : K} {v : V} {rows : List V}

/-! ## One row -/

theorem row_cons : row key k (v :: rows) = if key v = k then some v else row key k rows := by
  by_cases same : key v = k <;> simp [row, same]

theorem row_eq_none : row key k rows = none ↔ k ∉ rows.map key := by
  simp [row, List.find?_eq_none]

/-- Where no key has two rows, the row of a key is the one that has it. -/
theorem row_eq_some (nodup : (rows.map key).Nodup) : row key k rows = some v ↔ v ∈ rows ∧ key v = k := by
  induction rows with
  | nil => simp [row]
  | cons r rows ih =>
    obtain ⟨first, rest⟩ := List.nodup_cons.1 nodup
    rw [row_cons]
    split
    · rename_i here
      constructor
      · rintro ⟨⟩
        exact ⟨List.mem_cons_self, here⟩
      · rintro ⟨mem, same⟩
        rcases List.mem_cons.1 mem with rfl | later
        · rfl
        · exact absurd (List.mem_map.2 ⟨v, later, same.trans here.symm⟩) first
    · rename_i elsewhere
      rw [ih rest, List.mem_cons]
      constructor
      · exact fun ⟨mem, same⟩ => ⟨.inr mem, same⟩
      · rintro ⟨rfl | mem, same⟩
        · exact absurd same elsewhere
        · exact ⟨mem, same⟩

theorem row_map {f : V → V} (same : ∀ v, key (f v) = key v) :
    row key k (rows.map f) = (row key k rows).map f := by
  induction rows with
  | nil => rfl
  | cons r rows ih =>
    rw [List.map_cons, row_cons, row_cons, same, ih]
    split <;> rfl

theorem row_perm {rows' : List V} (perm : rows.Perm rows') (nodup : (rows.map key).Nodup) :
    row key k rows = row key k rows' := by
  have nodup' := (perm.map key).nodup_iff.1 nodup
  refine Option.ext fun v => ?_
  rw [row_eq_some nodup, row_eq_some nodup', perm.mem_iff]

theorem row_set {ix : Nat} (found : rows.findIdx? (key · = key v) = some ix) :
    row key k (rows.set ix v) = if key v = k then some v else row key k rows := by
  induction rows generalizing ix with
  | nil => cases found
  | cons r rows ih =>
    rw [List.findIdx?_cons] at found
    split at found
    · rename_i here
      cases found
      have here : key r = key v := of_decide_eq_true here
      rw [List.set_cons_zero, row_cons, row_cons, here]
      split <;> rfl
    · rename_i elsewhere
      have elsewhere : key r ≠ key v := fun same => elsewhere (decide_eq_true same)
      obtain ⟨ix', later, rfl⟩ := Option.map_eq_some_iff.1 found
      rw [List.set_cons_succ, row_cons, row_cons, ih later]
      split
      · rename_i here
        rw [if_neg fun same => elsewhere (here.trans same.symm)]
      · rfl

/-! ## One update -/

theorem row_put : row key k (put key v rows) = if key v = k then some v else row key k rows := by
  unfold put
  split
  · exact row_cons
  · rename_i ix found
    exact row_set found

theorem row_drop {k' : K} : row key k (drop key k' rows) = if k' = k then none else row key k rows := by
  induction rows with
  | nil => simp [drop, row]
  | cons r rows ih =>
    have recurse : drop key k' (r :: rows) = if key r = k' then drop key k' rows else r :: drop key k' rows := by
      by_cases same : key r = k' <;> simp [drop, same]
    rw [recurse, row_cons]
    by_cases here : key r = k'
    · subst here
      rw [if_pos rfl, ih]
      split <;> rfl
    · rw [if_neg here, row_cons, ih]
      by_cases same : key r = k
      · rw [if_pos same, if_pos same, if_neg fun same' => here (same.trans same'.symm)]
      · rw [if_neg same, if_neg same]

theorem nodup_put (nodup : (rows.map key).Nodup) : ((put key v rows).map key).Nodup := by
  unfold put
  split
  · rename_i none
    refine List.nodup_cons.2 ⟨?_, nodup⟩
    rw [List.mem_map]
    rintro ⟨r, mem, same⟩
    have differs := List.findIdx?_eq_none_iff.1 none r mem
    exact of_decide_eq_false differs same
  · rename_i ix found
    obtain ⟨inside, same, -⟩ := List.findIdx?_eq_some_iff_getElem.1 found
    have unchanged : (rows.set ix v).map key = rows.map key := by
      have bound : ix < (rows.map key).length := by rwa [List.length_map]
      have at_ix : (rows.map key)[ix] = key v := by
        rw [List.getElem_map]
        exact of_decide_eq_true same
      rw [List.map_set, ← at_ix, List.set_getElem_self]
    rwa [unchanged]

theorem nodup_drop (nodup : (rows.map key).Nodup) : ((drop key k rows).map key).Nodup :=
  nodup.sublist (List.filter_sublist.map key)

theorem nodup_apply (nodup : (rows.map key).Nodup) (u : Update K V) : ((apply key rows u).map key).Nodup := by
  cases u with
  | put v => exact nodup_put nodup
  | drop k => exact nodup_drop nodup
  | skip => exact nodup

theorem row_apply_untouched {u : Update K V} (untouched : ¬ u.touches key k) :
    row key k (apply key rows u) = row key k rows := by
  cases u with
  | put v => exact row_put.trans (if_neg untouched)
  | drop k' => exact row_drop.trans (if_neg untouched)
  | skip => rfl

/-- What an update leaves of its own key does not depend on the rows before. -/
theorem row_apply_touched {u : Update K V} (touched : u.touches key k) (rows' : List V) :
    row key k (apply key rows u) = row key k (apply key rows' u) := by
  cases u with
  | put v => exact (row_put.trans (if_pos touched)).trans (row_put.trans (if_pos touched)).symm
  | drop k' => exact (row_drop.trans (if_pos touched)).trans (row_drop.trans (if_pos touched)).symm
  | skip => cases touched

/-! ## Runs of updates -/

theorem replay_append (updates updates' : List (Update K V)) :
    replay key rows (updates ++ updates') = replay key (replay key rows updates) updates' :=
  List.foldl_append ..

theorem nodup_replay (nodup : (rows.map key).Nodup) (updates : List (Update K V)) :
    ((replay key rows updates).map key).Nodup := by
  induction updates generalizing rows with
  | nil => exact nodup
  | cons u updates ih => exact ih (nodup_apply nodup u)

theorem row_replay_congr {rows' : List V} (same : row key k rows = row key k rows')
    (updates : List (Update K V)) :
    row key k (replay key rows updates) = row key k (replay key rows' updates) := by
  induction updates generalizing rows rows' with
  | nil => exact same
  | cons u updates ih =>
    refine ih ?_
    by_cases touched : u.touches key k
    · exact row_apply_touched touched rows'
    · rw [row_apply_untouched touched, row_apply_untouched touched, same]

theorem row_replay_untouched {updates : List (Update K V)} (untouched : ∀ u ∈ updates, ¬ u.touches key k) :
    row key k (replay key rows updates) = row key k rows := by
  induction updates generalizing rows with
  | nil => rfl
  | cons u updates ih =>
    exact (ih fun u' mem => untouched u' (List.mem_cons_of_mem _ mem)).trans
      (row_apply_untouched (untouched u List.mem_cons_self))

theorem row_replay_touched {updates : List (Update K V)} (touched : ∃ u ∈ updates, u.touches key k)
    (rows' : List V) : row key k (replay key rows updates) = row key k (replay key rows' updates) := by
  induction updates generalizing rows rows' with
  | nil =>
    obtain ⟨u, mem, -⟩ := touched
    cases mem
  | cons u updates ih =>
    by_cases here : u.touches key k
    · exact row_replay_congr (row_apply_touched here rows') updates
    · refine ih ?_ _
      obtain ⟨u', mem, touches⟩ := touched
      rcases List.mem_cons.1 mem with rfl | later
      · exact absurd touches here
      · exact ⟨u', later, touches⟩

/-- Rows put one after the other are there afterwards. -/
theorem row_replay_puts {vs : List V} (nodup : (vs.map key).Nodup) (mem : v ∈ vs) :
    row key (key v) (replay key rows (vs.map .put)) = some v := by
  induction vs generalizing rows with
  | nil => cases mem
  | cons w vs ih =>
    obtain ⟨first, rest⟩ := List.nodup_cons.1 nodup
    rcases List.mem_cons.1 mem with rfl | later
    · have untouched : ∀ u ∈ vs.map Update.put, ¬ u.touches key (key v) := by
        intro u put same
        obtain ⟨w, mem, rfl⟩ := List.mem_map.1 put
        exact first (List.mem_map.2 ⟨w, mem, same⟩)
      refine (row_replay_untouched untouched).trans ?_
      exact row_put.trans (if_pos rfl)
    · exact ih rest later

/-! ## What the rows show -/

section

variable {R : V → W → Prop} {target : K → Option W} {updates : List (Update K V)}

theorem rel_none_iff {a : Option V} {b : Option W} (rel : Option.Rel R a b) : a = none ↔ b = none := by
  cases rel <;> simp

theorem Shows.put {target' : K → Option W} {w : W} (shows : Shows key R rows target) (rel : R v w)
    (here : target' (key v) = some w) (elsewhere : ∀ k, k ≠ key v → target' k = target k) :
    Shows key R (put key v rows) target' := by
  refine ⟨nodup_put shows.nodup, fun k => ?_⟩
  rw [row_put]
  split
  · rename_i same
    rw [← same, here]
    exact .some rel
  · rename_i other
    rw [elsewhere k (Ne.symm other)]
    exact shows.rows k

theorem Shows.drop {target' : K → Option W} {k₀ : K} (shows : Shows key R rows target)
    (here : target' k₀ = none) (elsewhere : ∀ k, k ≠ k₀ → target' k = target k) :
    Shows key R (drop key k₀ rows) target' := by
  refine ⟨nodup_drop shows.nodup, fun k => ?_⟩
  rw [row_drop]
  split
  · rename_i same
    rw [← same, here]
    exact .none
  · rename_i other
    rw [elsewhere k (Ne.symm other)]
    exact shows.rows k

/-- The rows show the target after the updates are made, whatever they were, where the updates
of a key show it, and the rows do where a key has no update. -/
theorem shows_replay_iff {rows' : List V} (before : Shows key R (replay key rows updates) target)
    (nodup : (rows'.map key).Nodup) :
    Shows key R (replay key rows' updates) target ↔
      ∀ k, (∀ u ∈ updates, ¬ u.touches key k) → Option.Rel R (row key k rows') (target k) := by
  constructor
  · intro shows k untouched
    have rel := shows.rows k
    rwa [row_replay_untouched untouched] at rel
  · intro shown
    refine ⟨nodup_replay nodup updates, fun k => ?_⟩
    by_cases touched : ∃ u ∈ updates, u.touches key k
    · rw [row_replay_touched touched rows]
      exact before.rows k
    · have untouched : ∀ u ∈ updates, ¬ u.touches key k := fun u mem touches => touched ⟨u, mem, touches⟩
      rw [row_replay_untouched untouched]
      exact shown k untouched

/-- Putting a row for everything in the target leaves the rows showing it just where no row
was there for anything else. -/
theorem shows_puts_iff {vs : List V} (nodup : (rows.map key).Nodup) (distinct : (vs.map key).Nodup)
    (shown : ∀ k, Option.Rel R (row key k vs) (target k)) :
    Shows key R (replay key rows (vs.map .put)) target ↔ ∀ v ∈ rows, target (key v) ≠ none := by
  have untouched : ∀ k, target k = none → ∀ u ∈ vs.map Update.put, ¬ u.touches key k := by
    intro k absent u put same
    obtain ⟨v, mem, rfl⟩ := List.mem_map.1 put
    have missing := (rel_none_iff (shown k)).2 absent
    exact row_eq_none.1 missing (List.mem_map.2 ⟨v, mem, same⟩)
  constructor
  · intro shows v mem absent
    have missing := (rel_none_iff (shows.rows (key v))).2 absent
    rw [row_replay_untouched (untouched _ absent)] at missing
    exact row_eq_none.1 missing (List.mem_map.2 ⟨v, mem, rfl⟩)
  · intro present
    refine ⟨nodup_replay nodup _, fun k => ?_⟩
    have rel := shown k
    cases found : row key k vs with
    | none =>
      rw [found] at rel
      have absent := (rel_none_iff rel).1 rfl
      have missing : row key k rows = none := by
        rw [row_eq_none, List.mem_map]
        rintro ⟨v, mem, rfl⟩
        exact present v mem absent
      rwa [row_replay_untouched (untouched k absent), missing]
    | some v =>
      rw [found] at rel
      obtain ⟨mem, rfl⟩ := (row_eq_some distinct).1 found
      rwa [row_replay_puts distinct mem]

end

/-! ## Rows told apart by less than their key -/

/-- The map from keys to values that an update leaves. -/
def Update.settle (key : V → K) (target : K → Option V) : Update K V → K → Option V
  | .put v => Function.update target (key v) (some v)
  | .drop k => Function.update target k none
  | .skip => target

/-- What is told of a value: that it is there now, or that it is gone. -/
inductive Change (V : Type) where
  | put (v : V)
  | drop (v : V)
  deriving DecidableEq

/-- The update it is taken for by somebody who tells values apart by a label. -/
def Change.by {L : Type} (label : V → L) : Change V → Update L V
  | .put v => .put v
  | .drop v => .drop (label v)

section

variable {L : Type} [DecidableEq L] {label : V → L} {target : K → Option V} {c : Change V}

/-- What the label leads to is of the value's own key: the row that is replaced, or all the
rows that are dropped. -/
def Own (label : V → L) (key : V → K) (rows : List V) : Change V → Prop
  | .put v => ∀ r, row label (label v) rows = some r → key r = key v
  | .drop v => ∀ r ∈ rows, label r = label v → key r = key v

theorem shows_self (nodup : (rows.map key).Nodup) : Shows key Eq rows (row key · rows) := by
  refine ⟨nodup, fun k => ?_⟩
  cases row key k rows with
  | none => exact .none
  | some v => exact .some rfl

theorem Shows.eq (shows : Shows key Eq rows target) (k : K) : row key k rows = target k := by
  have rel := shows.rows k
  revert rel
  cases row key k rows <;> cases target k <;> rintro ⟨⟩ <;> simp_all

theorem Shows.apply (shows : Shows key Eq rows target) (u : Update K V) :
    Shows key Eq (apply key rows u) (u.settle key target) := by
  cases u with
  | put v => exact shows.put rfl (Function.update_self ..) fun k other => Function.update_of_ne other ..
  | drop k => exact shows.drop (Function.update_self ..) fun k' other => Function.update_of_ne other ..
  | skip => exact shows

theorem apply_own (coarse : ∀ v w, key v = key w → label v = label w) (own : Own label key rows c) :
    apply label rows (c.by label) = apply key rows (c.by key) := by
  cases c with
  | put v =>
    have index : rows.findIdx? (label · = label v) = rows.findIdx? (key · = key v) := by
      induction rows with
      | nil => rfl
      | cons r rows ih =>
        simp only [Own, row_cons] at own
        rw [List.findIdx?_cons, List.findIdx?_cons]
        by_cases here : label r = label v
        · have same : key r = key v := own r (if_pos here)
          simp [here, same]
        · have other : key r ≠ key v := fun same => here (coarse r v same)
          rw [ih fun r' found => own r' ((if_neg here).trans found)]
          simp [here, other]
    simp only [Change.by, apply, put, index]
  | drop v =>
    refine List.filter_congr fun r mem => ?_
    have iff : label r = label v ↔ key r = key v := ⟨own r mem, coarse r v⟩
    simp [iff]

/-- A row that is replaced by one of another key is lost. -/
theorem row_set_lost {ix : Nat} {r : V} (nodup : (rows.map key).Nodup)
    (found : rows.findIdx? (label · = label v) = some ix) (first : row label (label v) rows = some r)
    (other : key r ≠ key v) : row key (key r) (rows.set ix v) = none := by
  induction rows generalizing ix with
  | nil => cases found
  | cons s rows ih =>
    obtain ⟨fresh, rest⟩ := List.nodup_cons.1 nodup
    rw [List.findIdx?_cons] at found
    rw [row_cons] at first
    by_cases here : label s = label v
    · rw [if_pos (decide_eq_true here)] at found
      rw [if_pos here] at first
      cases found
      cases first
      rw [List.set_cons_zero, row_cons, if_neg (Ne.symm other), row_eq_none]
      exact fresh
    · rw [if_neg (by simpa using here)] at found
      rw [if_neg here] at first
      obtain ⟨ix', later, rfl⟩ := Option.map_eq_some_iff.1 found
      have apart : key s ≠ key r := fun same =>
        fresh (List.mem_map.2 ⟨r, List.mem_of_find?_eq_some first, same.symm⟩)
      rw [List.set_cons_succ, row_cons, if_neg apart]
      exact ih rest later first

theorem own_of_shows (before : Shows key Eq rows target)
    (after : Shows key Eq (apply label rows (c.by label)) ((c.by key).settle key target)) : Own label key rows c := by
  -- a row of another key is in the target before and after
  have kept : ∀ r ∈ rows, ∀ v, key r ≠ key v → ((c.by key).settle key target = Function.update target (key v) (some v) ∨
      (c.by key).settle key target = Function.update target (key v) none) →
      row key (key r) (Keyed.apply label rows (c.by label)) = some r := by
    intro r mem v other settled
    rw [after.eq]
    have held := before.eq (key r)
    rw [(row_eq_some before.nodup).2 ⟨mem, rfl⟩] at held
    rcases settled with eq | eq <;> rw [eq, Function.update_of_ne other, ← held]
  cases c with
  | put v =>
    intro r first
    by_contra other
    have there : row key (key r) (Keyed.put label v rows) = some r :=
      kept r (List.mem_of_find?_eq_some first) v other (.inl rfl)
    unfold Keyed.put at there
    split at there
    · rename_i none
      have differs := List.findIdx?_eq_none_iff.1 none r (List.mem_of_find?_eq_some first)
      have labelled : label r = label v := of_decide_eq_true (List.find?_some first :)
      exact of_decide_eq_false differs labelled
    · rename_i ix found
      cases there.symm.trans (row_set_lost before.nodup found first other)
  | drop v =>
    intro r mem here
    by_contra other
    have there : row key (key r) (Keyed.drop label (label v) rows) = some r := kept r mem v other (.inr rfl)
    have left := (List.mem_filter.1 (List.mem_of_find?_eq_some there)).2
    exact of_decide_eq_true left here

/-- The rows that a client keeps by a label, and the map they should show. -/
def relabelled (label : V → L) (rows : List V) (changes : List (Change V)) : List V :=
  replay label rows (changes.map (·.by label))

def settled (key : V → K) (rows : List V) (changes : List (Change V)) : K → Option V :=
  changes.foldl (fun target c => (c.by key).settle key target) (row key · rows)

theorem relabelled_concat (changes : List (Change V)) :
    relabelled label rows (changes ++ [c]) = apply label (relabelled label rows changes) (c.by label) := by
  rw [relabelled, List.map_append, replay_append]
  rfl

theorem settled_concat (changes : List (Change V)) :
    settled key rows (changes ++ [c]) = (c.by key).settle key (settled key rows changes) := by
  rw [settled, List.foldl_append]
  rfl

/-- The rows show the map all the way exactly if at every change the label leads to the value's
own key. -/
theorem relabelled_shows_iff {E : Type} (f : E → Change V) (coarse : ∀ v w, key v = key w → label v = label w)
    (nodup : (rows.map key).Nodup) (events : List E) :
    (∀ p, p <+: events → Shows key Eq (relabelled label rows (p.map f)) (settled key rows (p.map f))) ↔
      ∀ p e, p ++ [e] <+: events → Own label key (relabelled label rows (p.map f)) (f e) := by
  constructor
  · intro shows p e part
    have after := shows (p ++ [e]) part
    rw [List.map_append, List.map_singleton, relabelled_concat, settled_concat] at after
    exact own_of_shows (shows p ((List.prefix_append p [e]).trans part)) after
  · intro own p
    induction p using List.reverseRecOn with
    | nil => exact fun _ => shows_self nodup
    | append_singleton p e ih =>
      intro part
      have before := ih ((List.prefix_append p [e]).trans part)
      rw [List.map_append, List.map_singleton, relabelled_concat, settled_concat, apply_own coarse (own p e part)]
      exact before.apply _

end

end Keyed
