import Codespace.Go.Json
import Mathlib.Data.Finset.Sort

/-!
# What Go encodes, it decodes

A `Codec` is what `encoding/json` makes of the values of a type and how it decodes them, with
the proof that a variable that holds nothing yet gets the value back. There is one for each
kind of type: strings, integers, slices, maps with their keys in order, pointers. A struct is
encoded member by member; `decode_always` and `decode_omitEmpty` decode it in the same steps.
-/

namespace Go
set_option autoImplicit false

structure Codec (α : Type) where
  encode : α → Json
  decode : Decoder α
  /-- What a variable holds that nothing was stored in. -/
  zero : α
  reads : ∀ a, decode (encode a) zero = (a, false)

def decodeBool : Decoder Bool
  | .bool b, _ => (b, false)
  | .null, old => (old, false)
  | _, old => (old, true)

def decodeInt64 : Decoder Int
  | .int n, old => if -2 ^ 63 ≤ n ∧ n < 2 ^ 63 then (n, false) else (old, true)
  | .null, old => (old, false)
  | _, old => (old, true)

namespace Codec

def string : Codec String := ⟨.str, decodeString, "", fun _ => rfl⟩

def int32 : Codec Int32 where
  encode := fun n => .int n.toInt
  decode := decodeInt32
  zero := 0
  reads := fun n => by
    have range : -2147483648 ≤ n.toInt ∧ n.toInt ≤ 2147483647 := ⟨n.minValue_le_toInt, n.toInt_le⟩
    rw [decodeInt32, if_pos range, Int32.ofInt_toInt]

def bool : Codec Bool where
  encode := .bool
  decode := decodeBool
  zero := false
  reads := fun _ => rfl

section

variable {α : Type} (c : Codec α)

theorem reads_elements (as : List α) : decodeElements c.zero c.decode (as.map c.encode) [] = (as, false) := by
  induction as with
  | nil => rfl
  | cons a as ih =>
    simp only [List.map_cons, decodeElements, List.head?_nil, Option.getD_none, c.reads, List.tail_nil, ih]
    rfl

/-- A slice; the operator has no use for the difference between a nil one and an empty one. -/
def slice : Codec (List α) where
  encode := fun as => .arr (as.map c.encode)
  decode := decodeSlice c.zero c.decode
  zero := []
  reads := c.reads_elements

/-- A pointer to something that is not itself encoded as null. -/
def pointer (solid : ∀ a, c.encode a ≠ .null) : Codec (Option α) where
  encode := fun a => (a.map c.encode).getD .null
  decode := decodePointer c.zero c.decode
  zero := none
  reads := fun a => by
    cases a with
    | none => rfl
    | some a =>
      have filled : decodePointer c.zero c.decode (c.encode a) none =
          (some (c.decode (c.encode a) c.zero).1, (c.decode (c.encode a) c.zero).2) := by
        cases encoded : c.encode a with
        | null => exact absurd encoded (solid a)
        | _ => rfl
      exact filled.trans (by rw [c.reads])

end

/-! ## Maps -/

theorem names_trans : IsTrans String (· ≤ ·) := inferInstance

theorem names_antisymm : Std.Antisymm fun a b : String => a ≤ b := inferInstance

theorem names_total : Std.Total fun a b : String => a ≤ b := inferInstance

attribute [local instance] names_trans names_antisymm names_total

section

variable {β : Type} (c : Codec β)

/-- Every value is decoded into a variable of its own. -/
def decodeMap (zero : β) (element : Decoder β) : Decoder (Finmap fun _ : String => β)
  | .obj ms, old => ms.foldl (fun (m, failed) (key, v) =>
      let (b, failed') := element v zero
      (m.insert key b, failed || failed')) (old, false)
  | .null, _ => (∅, false)
  | _, old => (old, true)

/-- Storing the entries of some keys. -/
theorem foldl_entries (m : Finmap fun _ : String => β) (keys : List String) (old : Finmap fun _ : String => β)
    (failed : Bool) :
    (keys.map fun key => (key, c.encode ((m.lookup key).getD c.zero))).foldl (fun (m, failed) (key, v) =>
      ((m.insert key (c.decode v c.zero).1, failed || (c.decode v c.zero).2) :
        (Finmap fun _ : String => β) × Bool)) (old, failed) =
      (keys.foldl (fun m' key => m'.insert key ((m.lookup key).getD c.zero)) old, failed) := by
  induction keys generalizing old with
  | nil => rfl
  | cons key keys ih => simpa [c.reads] using ih _

theorem lookup_entries (zero : β) (m : Finmap fun _ : String => β) (keys : List String)
    (old : Finmap fun _ : String => β) (key : String) :
    (keys.foldl (fun m' key => m'.insert key ((m.lookup key).getD zero)) old).lookup key =
      if key ∈ keys then some ((m.lookup key).getD zero) else old.lookup key := by
  induction keys generalizing old with
  | nil => rfl
  | cons first keys ih =>
    rw [List.foldl_cons, ih]
    by_cases here : key = first
    · subst here
      simp
    · by_cases later : key ∈ keys <;> simp [later, here]

/-- A map, with its keys in order. -/
def map : Codec (Finmap fun _ : String => β) where
  encode := fun m => .obj ((m.keys.sort (· ≤ ·)).map fun key => (key, c.encode ((m.lookup key).getD c.zero)))
  decode := decodeMap c.zero c.decode
  zero := ∅
  reads := fun m => by
    refine (c.foldl_entries m _ ∅ false).trans (Prod.ext (Finmap.ext_lookup fun key => ?_) rfl)
    simp only [lookup_entries, Finset.mem_sort, Finmap.mem_keys]
    by_cases here : key ∈ m
    · obtain ⟨v, held⟩ := Finmap.mem_iff.1 here
      simp [here, held]
    · simp [here, Finmap.lookup_eq_none.2 here]

theorem decodeMap_string : decodeMap "" decodeString = decodeStringMap := by
  funext v old
  cases v <;> rfl

end

def stringMap : Codec (Finmap fun _ : String => String) where
  encode := string.map.encode
  decode := decodeStringMap
  zero := ∅
  reads := decodeMap_string ▸ string.map.reads

/-! ## Structs -/

/-- A member that is always there. -/
def always {β : Type} (c : Codec β) (name : String) (b : β) : List (String × Json) := [(name, c.encode b)]

/-- A member with `omitempty`. -/
def omitEmpty {β : Type} [DecidableEq β] (c : Codec β) (name : String) (b : β) : List (String × Json) :=
  if b = c.zero then [] else [(name, c.encode b)]

section

variable {α β : Type} (c : Codec β) {field : String → Option (Decoder α)} {name : String} {get : α → β}
  {set : α → β → α}

/-- A member of a field that is read. -/
theorem decode_member {decode : Decoder β} (found : field name = some (onField get set decode)) {a : α} {b : β} {v : Json}
    (reads : decode v (get a) = (b, false)) (ms : List (String × Json)) :
    decodeStruct field (.obj ((name, v) :: ms)) a = decodeStruct field (.obj ms) (set a b) := by
  rw [decodeStruct_cons, found]
  simp only [onField, reads, Bool.false_or]

/-- The member of a field that nothing was stored in. -/
theorem decode_always (found : field name = some (onField get set c.decode)) {a : α} (clear : get a = c.zero) (b : β)
    (ms : List (String × Json)) :
    decodeStruct field (.obj (c.always name b ++ ms)) a = decodeStruct field (.obj ms) (set a b) := by
  exact decode_member found (clear ▸ c.reads b) ms

theorem decode_omitEmpty [DecidableEq β] (found : field name = some (onField get set c.decode)) {a : α}
    (clear : get a = c.zero) (kept : set a (get a) = a) (b : β) (ms : List (String × Json)) :
    decodeStruct field (.obj (c.omitEmpty name b ++ ms)) a = decodeStruct field (.obj ms) (set a b) := by
  by_cases empty : b = c.zero
  · rw [omitEmpty, if_pos empty, List.nil_append, empty, ← clear, kept]
  · have present : c.omitEmpty name b = c.always name b := if_neg empty
    rw [present]
    exact c.decode_always found clear b ms

end

end Codec

end Go
