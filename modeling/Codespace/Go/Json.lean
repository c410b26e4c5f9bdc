import Mathlib.Data.Finmap
import Mathlib.Data.Rat.Floor

/-!
# How Go decodes JSON

The rules of `encoding/json` for values decoded into typed variables. A decoder gets the
value and what the variable holds, and returns what it holds afterwards and whether there
was an error: a member of the wrong type is skipped, decoding goes on, and the error is
reported at the end. `null` leaves a variable alone, and clears a pointer. Members match
a field name up to case, unknown ones are ignored, and of several the last one counts, on
top of what the earlier ones stored.

A number decoded into an interface becomes a float64 (`toFloat64`); into an integer only a
literal without fraction and exponent that is in range is accepted.
-/

namespace Go
set_option autoImplicit false

/-- A JSON value. `int` is a literal of digits with an optional sign, `dec` any other number. -/
inductive Json where
  | null
  | bool (b : Bool)
  | int (n : Int)
  | dec (q : Rat)
  | str (s : String)
  | arr (elements : List Json)
  | obj (members : List (String × Json))

/-- A decoder: the variable afterwards, and whether there was an error. -/
abbrev Decoder (α : Type) := Json → α → α × Bool

def decodeString : Decoder String
  | .str s, _ => (s, false)
  | .null, old => (old, false)
  | _, old => (old, true)

def decodeInt32 : Decoder Int32
  | .int n, old => if -2147483648 ≤ n ∧ n ≤ 2147483647 then (Int32.ofInt n, false) else (old, true)
  | .null, old => (old, false)
  | _, old => (old, true)

/-- A pointer: `null` clears it, anything else is decoded into a new or the present variable. -/
def decodePointer {α : Type} (zero : α) (element : Decoder α) : Decoder (Option α)
  | .null, _ => (none, false)
  | v, old => let (a, failed) := element v (old.getD zero); (some a, failed)

/-- The elements of a slice, each on top of the present one at its index. -/
def decodeElements {α : Type} (zero : α) (element : Decoder α) : List Json → List α → List α × Bool
  | [], _ => ([], false)
  | v :: vs, old =>
    let (a, failed) := element v (old.head?.getD zero)
    let (as, failed') := decodeElements zero element vs old.tail
    (a :: as, failed || failed')

def decodeSlice {α : Type} (zero : α) (element : Decoder α) : Decoder (List α)
  | .arr vs, old => decodeElements zero element vs old
  | .null, _ => ([], false)
  | _, old => (old, true)

def decodeStringMap : Decoder (Finmap fun _ : String => String)
  | .obj ms, old => ms.foldl (fun (m, failed) (key, v) =>
      let (s, failed') := decodeString v ""
      (m.insert key s, failed || failed')) (old, false)
  | .null, _ => (∅, false)
  | _, old => (old, true)

/-- The letter that stands for a letter's case variants. -/
def foldChar (c : Char) : Char :=
  if c = '\u017f' then 'S' else if c = '\u212a' then 'K' else c.toUpper

/-- A member matches a field of this name. -/
def matchesField (name member : String) : Bool :=
  member.toList.map foldChar = name.toList.map foldChar

/-- A struct: `field` gives the decoder of the field a member matches, if there is one. -/
def decodeStruct {α : Type} (field : String → Option (Decoder α)) : Decoder α
  | .obj ms, old => ms.foldl (fun (a, failed) (key, v) =>
      match field key with
      | none => (a, failed)
      | some decode => let (a', failed') := decode v a; (a', failed || failed')) (old, false)
  | .null, old => (old, false)
  | _, old => (old, true)

/-- The members of a struct one after the other. -/
theorem decodeStruct_cons {α : Type} (field : String → Option (Decoder α)) (key : String) (v : Json)
    (ms : List (String × Json)) (old : α) : decodeStruct field (.obj ((key, v) :: ms)) old =
      match field key with
      | none => decodeStruct field (.obj ms) old
      | some decode => ((decodeStruct field (.obj ms) (decode v old).1).1,
          (decode v old).2 || (decodeStruct field (.obj ms) (decode v old).1).2) := by
  have flag : ∀ (ms : List (String × Json)) (a : α) (failed : Bool), ms.foldl (fun (a, failed) (key, v) =>
      match field key with
      | none => (a, failed)
      | some decode => let (a', failed') := decode v a; (a', failed || failed')) (a, failed) =
      ((decodeStruct field (.obj ms) a).1, failed || (decodeStruct field (.obj ms) a).2) := by
    intro ms
    induction ms with
    | nil => simp [decodeStruct]
    | cons m ms ih =>
      intro a failed
      rw [decodeStruct, List.foldl_cons, List.foldl_cons]
      rw [ih, ih]
      cases field m.1 with
      | none => rw [Bool.false_or]
      | some decode => simp only [Bool.false_or, Bool.or_assoc]
  rw [decodeStruct, List.foldl_cons, flag]
  dsimp only
  cases field key with
  | none => rw [Bool.false_or]
  | some decode => simp only [Bool.false_or]

/-- The decoder of one field of a struct. -/
def onField {α β : Type} (get : α → β) (set : α → β → α) (decode : Decoder β) : Decoder α :=
  fun v a => let (b, failed) := decode v (get a); (set a b, failed)

/-! ## Numbers -/

def roundHalfEven (q : Rat) : Int :=
  let below := q.floor
  let rest := q - below
  if rest < 1 / 2 then below
  else if 1 / 2 < rest then below + 1
  else if below % 2 = 0 then below else below + 1

/-- `q * 2 ^ e`. -/
def scale (q : Rat) (e : Int) : Rat :=
  if 0 ≤ e then q * (2 ^ e.toNat : Nat) else q / (2 ^ (-e).toNat : Nat)

/-- The float64 nearest to a number, or none if it is out of range. -/
def toFloat64 (q : Rat) : Option Rat :=
  if q = 0 then some 0 else
    let guess : Int := (Nat.log2 q.num.natAbs : Int) - Nat.log2 q.den
    let log := if scale 1 guess ≤ |q| then guess else guess - 1
    let e := max (log - 52) (-1074)
    let v := scale (roundHalfEven (scale q (-e))) e
    if |v| < scale 1 1024 then some v else none

/-- A float64 converted to int32: truncated, or whatever the platform makes of it. -/
def truncateToInt32 (outOfRange : Rat → Int32) (q : Rat) : Int32 :=
  let n := if 0 ≤ q then q.floor else q.ceil
  if -2147483648 ≤ n ∧ n ≤ 2147483647 then Int32.ofInt n else outOfRange q

theorem roundHalfEven_intCast (n : Int) : roundHalfEven n = n := by
  simp [roundHalfEven]

/-- Scaling up and down again. -/
theorem scale_scale_neg (q : Rat) (k : Nat) : scale (scale q k) (-k) = q := by
  rcases k with _ | k
  · simp [scale]
  · rw [scale, scale, if_neg (by omega), if_pos (by omega)]
    simp

theorem scale_intCast (n : Int) (k : Nat) : scale n k = ((n * 2 ^ k : Int) : Rat) := by
  rw [scale, if_pos (by omega)]
  simp

/-- Integers up to 2 ^ 53 are kept. -/
theorem toFloat64_intCast {n : Int} (small : n.natAbs < 2 ^ 53) : toFloat64 n = some (n : Rat) := by
  by_cases zero : n = 0
  · simp [toFloat64, zero]
  obtain ⟨k, exponent⟩ : ∃ k : Nat, max ((Nat.log2 n.natAbs : Int) - 52) (-1074) = -(k : Int) := by
    have log_lt : Nat.log2 n.natAbs < 53 := (Nat.log2_lt (by omega)).2 small
    exact ⟨(-max ((Nat.log2 n.natAbs : Int) - 52) (-1074)).toNat, by omega⟩
  have guess : scale 1 (Nat.log2 n.natAbs) ≤ |(n : Rat)| := by
    have power : 2 ^ Nat.log2 n.natAbs ≤ n.natAbs := Nat.log2_self_le (by omega)
    rw [scale, if_pos (by omega), one_mul, Int.toNat_natCast, ← Int.cast_abs, Int.abs_eq_natAbs]
    exact_mod_cast power
  have bounded : |(n : Rat)| < scale 1 1024 := by
    have power : ∀ m : Nat, 53 ≤ m → |(n : Rat)| < (2 ^ m : Nat) := by
      intro m le
      rw [← Int.cast_abs, Int.abs_eq_natAbs]
      exact_mod_cast small.trans_le (Nat.pow_le_pow_right (by omega) le)
    rw [scale, if_pos (by omega), one_mul]
    exact power (1024 : Int).toNat (by omega)
  have exact : scale (roundHalfEven (scale n k)) (-k) = n := by
    rw [scale_intCast, roundHalfEven_intCast, ← scale_intCast, scale_scale_neg]
  have one : Nat.log2 1 = 0 := by decide
  unfold toFloat64
  rw [if_neg (by exact_mod_cast zero)]
  simp only [Rat.num_intCast, Rat.den_intCast, one, Nat.cast_zero, sub_zero, if_pos guess, exponent,
    neg_neg, exact, if_pos bounded]

theorem truncateToInt32_intCast (outOfRange : Rat → Int32) {n : Int} (low : -2147483648 ≤ n) (high : n ≤ 2147483647) :
    truncateToInt32 outOfRange n = Int32.ofInt n := by
  simp [truncateToInt32, low, high]

namespace Json

/-- The number that a literal stands for. -/
def number : Json → Option Rat
  | .int n => some n
  | .dec q => some q
  | _ => none

/-- The float64 of a number decoded into an interface. -/
def float64 : Json → Option Rat
  | .int n => toFloat64 n
  | .dec q => toFloat64 q
  | _ => none

mutual

/-- The value has no number that a float64 cannot hold. -/
def floatable : Json → Bool
  | .int n => (toFloat64 n).isSome
  | .dec q => (toFloat64 q).isSome
  | .arr vs => floatableElements vs
  | .obj ms => floatableMembers ms
  | _ => true

def floatableElements : List Json → Bool
  | [] => true
  | v :: vs => v.floatable && floatableElements vs

def floatableMembers : List (String × Json) → Bool
  | [] => true
  | (_, v) :: ms => v.floatable && floatableMembers ms

end

/-- The last member with this very name, as decoding into a map keeps it. -/
def member (ms : List (String × Json)) (key : String) : Option Json := ms.reverse.lookup key

/-- What marshalling a decoded object gives back: each key once, in order. -/
def remarshal : Json → Json
  | .obj ms => .obj ((ms.map Prod.fst).dedup.mergeSort (fun a b => decide (a ≤ b)) |>.filterMap
      fun key => (member ms key).map fun v => (key, v))
  | v => v

end Json

/-- `json.NewDecoder(body).Decode(&m)` for a `map[string]interface{}`. -/
def decodeAnyMap : Json → Option (List (String × Json))
  | .obj ms => if Json.floatableMembers ms then some ms else none
  | .null => some []
  | _ => none

example : toFloat64 (1 / 10) = some (3602879701896397 / 36028797018963968) := by decide +kernel

end Go
