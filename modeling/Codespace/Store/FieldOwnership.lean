import Mathlib.Data.Finset.Basic
import Mathlib.Data.Fintype.Defs
import Mathlib.Data.Finset.Insert

/-!
# Objects whose fields have owners

Server-side apply. An object is a set of fields with values, and each field has the set of
managers that own it. A manager applies a configuration, the fields it wants with their
values; it is rejected if that would change a field somebody else owns. An update is
unconditional: it changes one field and takes it over.

`apply_cases` is all there is to say about an Apply. `Usurped` is the invariant for a
sequence of updates by others: a field with another value than the configuration's is
owned by somebody else, so such a field makes the next Apply fail. `Solely` is the other
extreme, an object nobody else has touched: there an Apply replaces the content.
-/

namespace FieldOwnership
set_option autoImplicit false

variable {F V M : Type}

/-- The fields a manager wants, with their values. -/
structure Config (F V : Type) where
  names : Finset F
  value : F → Option V
  mem_names : ∀ f, f ∈ names ↔ (value f).isSome = true

/-- An object: the values of its fields, and who owns them. -/
structure Managed (F V M : Type) where
  value : F → Option V
  owners : F → Finset M

namespace Config

theorem value_none (cfg : Config F V) {f : F} (out : f ∉ cfg.names) : cfg.value f = none := by
  rw [cfg.mem_names] at out
  simpa using out

/-- The fields of a list of entries. -/
def entries [DecidableEq F] (es : List (F × V)) : Config F V where
  names := (es.map Prod.fst).toFinset
  value f := es.lookup f
  mem_names f := by
    rw [List.mem_toFinset, List.mem_map, List.lookup_isSome_iff]
    exact exists_congr fun e => and_congr_right fun _ => by rw [beq_iff_eq, eq_comm]

/-- The fields of two configurations; the first one counts where both have a field. -/
def add [DecidableEq F] (a b : Config F V) : Config F V where
  names := a.names ∪ b.names
  value f := (a.value f).or (b.value f)
  mem_names f := by simp [a.mem_names, b.mem_names]

end Config

namespace Managed

/-- An object without fields. -/
def empty : Managed F V M := ⟨fun _ => none, fun _ => ∅⟩

/-- A field of the configuration has another value, and another owner. -/
def Conflict (c : Managed F V M) (m : M) (cfg : Config F V) : Prop :=
  ∃ f ∈ cfg.names, cfg.value f ≠ c.value f ∧ ∃ o ∈ c.owners f, o ≠ m

/-- The object has the values of the configuration. -/
def Has (c : Managed F V M) (cfg : Config F V) : Prop := ∀ f ∈ cfg.names, c.value f = cfg.value f

/-- What the configuration does not find at its value is gone, or somebody else's. -/
structure Usurped (c : Managed F V M) (m : M) (cfg : Config F V) : Prop where
  gone : ∀ f ∈ cfg.names, c.value f = none → c.owners f = ∅
  taken : ∀ f ∈ cfg.names, ∀ v, c.value f = some v → cfg.value f ≠ some v → ∃ o ∈ c.owners f, o ≠ m

/-- Every field belongs to one manager alone. -/
structure Solely (c : Managed F V M) (m : M) : Prop where
  gone : ∀ f, c.value f = none → c.owners f = ∅
  mine : ∀ f v, c.value f = some v → c.owners f = {m}

section

variable {c : Managed F V M} {m : M} {cfg : Config F V}

theorem Conflict.not_has (h : c.Conflict m cfg) : ¬ c.Has cfg := by
  obtain ⟨f, mem, ne, -⟩ := h
  exact fun has => ne (has f mem).symm

theorem empty_not_conflict : ¬ (empty : Managed F V M).Conflict m cfg := by
  rintro ⟨f, -, -, o, mem, -⟩
  exact absurd mem (Finset.notMem_empty o)

theorem empty_solely : (empty : Managed F V M).Solely m := ⟨fun _ _ => rfl, nofun⟩

theorem Solely.not_conflict (h : c.Solely m) : ¬ c.Conflict m cfg := by
  rintro ⟨f, -, -, o, mem, ne⟩
  cases held : c.value f with
  | none => exact absurd (h.gone f held ▸ mem) (Finset.notMem_empty o)
  | some v => exact ne (Finset.mem_singleton.1 (h.mine f v held ▸ mem))

/-- After updates by others an Apply fails exactly on a field that has another value. -/
theorem Usurped.conflict_iff (h : c.Usurped m cfg) :
    c.Conflict m cfg ↔ ∃ f ∈ cfg.names, ∃ v, c.value f = some v ∧ cfg.value f ≠ some v := by
  constructor
  · rintro ⟨f, mem, ne, o, owner, -⟩
    cases held : c.value f with
    | none => exact absurd (h.gone f mem held ▸ owner) (Finset.notMem_empty o)
    | some v => exact ⟨f, mem, v, held, held ▸ ne⟩
  · rintro ⟨f, mem, v, held, ne⟩
    exact ⟨f, mem, held ▸ ne, h.taken f mem v held ne⟩

end

section

variable [DecidableEq F] [DecidableEq V] [DecidableEq M] {c : Managed F V M} {m : M} {cfg : Config F V}

instance (c : Managed F V M) (m : M) (cfg : Config F V) : Decidable (c.Conflict m cfg) :=
  inferInstanceAs (Decidable (∃ _ ∈ _, _))

/-- The object after an Apply without conflict: the manager co-owns what it applied, and
what it owned and no longer applies is given up. -/
def applied (c : Managed F V M) (m : M) (cfg : Config F V) : Managed F V M where
  value f :=
    if f ∈ cfg.names then cfg.value f else if c.owners f = {m} then none else c.value f
  owners f := if f ∈ cfg.names then insert m (c.owners f) else (c.owners f).erase m

/-- Apply without force. -/
def apply (c : Managed F V M) (m : M) (cfg : Config F V) : Option (Managed F V M) :=
  if c.Conflict m cfg then none else some (c.applied m cfg)

/-- Give a field another value, or remove it. -/
def update (c : Managed F V M) (m : M) (f : F) (v : Option V) : Managed F V M :=
  if c.value f = v then c else
    { value := fun g => if g = f then v else c.value g
      owners := fun g => if g = f then (if v = none then ∅ else {m}) else c.owners g }

/-- An Apply is rejected on a conflict, and otherwise gives every field its value. -/
theorem apply_cases (c : Managed F V M) (m : M) (cfg : Config F V) :
    (c.apply m cfg = none ∧ c.Conflict m cfg) ∨
      (c.apply m cfg = some (c.applied m cfg) ∧ ¬ c.Conflict m cfg) := by
  unfold apply
  by_cases conflict : c.Conflict m cfg
  · exact .inl ⟨if_pos conflict, conflict⟩
  · exact .inr ⟨if_neg conflict, conflict⟩

omit [DecidableEq V] in
theorem applied_has (c : Managed F V M) (m : M) (cfg : Config F V) : (c.applied m cfg).Has cfg :=
  fun _ mem => if_pos mem

omit [DecidableEq V] in
/-- Where nobody else owns anything, an Apply replaces the content. -/
theorem Solely.applied (h : c.Solely m) : (c.applied m cfg).Solely m ∧ (c.applied m cfg).value = cfg.value := by
  have owners : ∀ f, c.owners f = ∅ ∨ c.owners f = {m} := by
    intro f
    cases held : c.value f with
    | none => exact .inl (h.gone f held)
    | some v => exact .inr (h.mine f v held)
  have value : (c.applied m cfg).value = cfg.value := by
    funext f
    by_cases mem : f ∈ cfg.names
    · exact if_pos mem
    · rw [cfg.value_none mem]
      simp only [Managed.applied, mem, if_false]
      cases held : c.value f with
      | none => simp
      | some v => simp [h.mine f v held]
  refine ⟨⟨fun f none => ?_, fun f v some => ?_⟩, value⟩
  · have out : f ∉ cfg.names := by
      rw [cfg.mem_names, ← value, none]
      simp
    simp only [Managed.applied, out, if_false]
    rcases owners f with e | e <;> simp [e]
  · have mem : f ∈ cfg.names := by
      rw [cfg.mem_names, ← value, some]
      rfl
    simp only [Managed.applied, mem, if_true]
    rcases owners f with e | e <;> simp [e]

/-! ## Updates by others -/

omit [DecidableEq F] [DecidableEq V] [DecidableEq M] in
theorem Has.usurped (h : c.Has cfg) : c.Usurped m cfg := by
  refine ⟨fun f mem none => ?_, fun f mem v held ne => absurd ((h f mem).symm.trans held) ne⟩
  rw [h f mem] at none
  rw [cfg.mem_names, none] at mem
  cases mem

omit [DecidableEq M] in
theorem Usurped.update (h : c.Usurped m cfg) {o : M} (other : o ≠ m) (f : F) (v : Option V) :
    (c.update o f v).Usurped m cfg := by
  unfold Managed.update
  by_cases same : c.value f = v
  · simpa only [same, if_true] using h
  simp only [same, if_false]
  refine ⟨fun g mem none => ?_, fun g mem w held ne => ?_⟩
  · by_cases here : g = f
    · simp only [here, if_true] at none ⊢
      simp [none]
    · simp only [here, if_false] at none ⊢
      exact h.gone g mem none
  · by_cases here : g = f
    · simp only [here, if_true] at held ⊢
      exact ⟨o, by simp [held], other⟩
    · simp only [here, if_false] at held ⊢
      exact h.taken g mem w held ne

end

end Managed
end FieldOwnership
