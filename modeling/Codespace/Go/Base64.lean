import Mathlib.Data.List.Basic
import Mathlib.Data.Char

/-!
# `base64.RawURLEncoding`

A Go string is the list of its bytes here, and a byte the character with its number. Decoding
skips line breaks and does not look at the bits that are left over. What was encoded is
decoded again.
-/

namespace Go
set_option autoImplicit false

/-- A Go string, byte by byte. -/
abbrev Bytes := List Char

namespace Base64

def alphabet : Bytes := "ABCDEFGHIJKLMNOPQRSTUVWXYZabcdefghijklmnopqrstuvwxyz0123456789-_".toList

def digit (n : Nat) : Char := alphabet.getD n 'A'

def value (c : Char) : Option Nat := if c ∈ alphabet then some (alphabet.idxOf c) else none

theorem digits : ∀ n < 64, value (digit n) = some n ∧ digit n ≠ '\n' ∧ digit n ≠ '\r' := by decide +kernel

theorem value_digit {n : Nat} (small : n < 64) : value (digit n) = some n := (digits n small).1

/-- The digits of some bytes. -/
def toDigits : List Nat → List Nat
  | x :: y :: z :: bytes => x / 4 :: (x % 4 * 16 + y / 16) :: (y % 16 * 4 + z / 64) :: z % 64 :: toDigits bytes
  | [x, y] => [x / 4, x % 4 * 16 + y / 16, y % 16 * 4]
  | [x] => [x / 4, x % 4 * 16]
  | [] => []

/-- The bytes of some digits. A single digit at the end is an error. -/
def ofDigits : List Nat → Option (List Nat)
  | a :: b :: c :: d :: digits => do
    let bytes ← ofDigits digits
    return (a * 4 + b / 16) :: (b % 16 * 16 + c / 4) :: (c % 4 * 64 + d) :: bytes
  | [a, b, c] => some [a * 4 + b / 16, b % 16 * 16 + c / 4]
  | [a, b] => some [a * 4 + b / 16]
  | [_] => none
  | [] => some []

theorem ofDigits_toDigits (bytes : List Nat) (small : ∀ x ∈ bytes, x < 256) :
    ofDigits (toDigits bytes) = some bytes := by
  fun_induction toDigits bytes with
  | case1 x y z bytes ih =>
    have hx : x < 256 := small x (by simp)
    have hy : y < 256 := small y (by simp)
    have hz : z < 256 := small z (by simp)
    rw [ofDigits, ih fun b mem => small b (by simp [mem])]
    simp only [Option.pure_def, Option.bind_eq_bind, Option.bind_some, Option.some.injEq, List.cons.injEq, and_true]
    omega
  | case2 x y =>
    have hx : x < 256 := small x (by simp)
    have hy : y < 256 := small y (by simp)
    simp only [ofDigits, Option.some.injEq, List.cons.injEq, and_true]
    omega
  | case3 x =>
    have hx : x < 256 := small x (by simp)
    simp only [ofDigits, Option.some.injEq, List.cons.injEq, and_true]
    omega
  | case4 => rfl

theorem toDigits_small (bytes : List Nat) (small : ∀ x ∈ bytes, x < 256) : ∀ n ∈ toDigits bytes, n < 64 := by
  fun_induction toDigits bytes with
  | case1 x y z bytes ih =>
    have hx : x < 256 := small x (by simp)
    have hy : y < 256 := small y (by simp)
    have hz : z < 256 := small z (by simp)
    have rest := ih fun b mem => small b (by simp [mem])
    intro n mem
    simp only [List.mem_cons] at mem
    rcases mem with rfl | rfl | rfl | rfl | mem
    · omega
    · omega
    · omega
    · omega
    · exact rest n mem
  | case2 x y =>
    have hx : x < 256 := small x (by simp)
    have hy : y < 256 := small y (by simp)
    simp only [List.forall_mem_cons, List.not_mem_nil, false_implies, implies_true, and_true]
    omega
  | case3 x =>
    have hx : x < 256 := small x (by simp)
    simp only [List.forall_mem_cons, List.not_mem_nil, false_implies, implies_true, and_true]
    omega
  | case4 => simp

/-- `EncodeToString`. -/
def encodeToString (s : Bytes) : Bytes := (toDigits (s.map Char.toNat)).map digit

/-- `DecodeString`. -/
def decodeString (s : Bytes) : Option Bytes := do
  let digits ← (s.filter fun c => c ≠ '\n' ∧ c ≠ '\r').mapM value
  let bytes ← ofDigits digits
  return bytes.map Char.ofNat

theorem mapM_value {digits : List Nat} (small : ∀ n ∈ digits, n < 64) :
    (digits.map digit).mapM value = some digits := by
  induction digits with
  | nil => rfl
  | cons n digits ih =>
    rw [List.forall_mem_cons] at small
    rw [List.map_cons, List.mapM_cons, value_digit small.1, ih small.2]
    rfl

theorem decode_encode {s : Bytes} (bytes : ∀ c ∈ s, c.toNat < 256) : decodeString (encodeToString s) = some s := by
  have small : ∀ x ∈ s.map Char.toNat, x < 256 := by
    intro x mem
    obtain ⟨c, here, rfl⟩ := List.mem_map.1 mem
    exact bytes c here
  have inside := toDigits_small _ small
  have kept : (encodeToString s).filter (fun c => c ≠ '\n' ∧ c ≠ '\r') = encodeToString s := by
    rw [List.filter_eq_self]
    intro c mem
    obtain ⟨n, here, rfl⟩ := List.mem_map.1 mem
    exact decide_eq_true (digits n (inside n here)).2
  have back : (s.map Char.toNat).map Char.ofNat = s := by
    rw [List.map_map]
    exact (List.map_congr_left fun c _ => Char.ofNat_toNat c).trans (List.map_id s)
  rw [decodeString, kept, encodeToString, mapM_value inside]
  simp only [Option.pure_def, Option.bind_eq_bind, Option.bind_some, ofDigits_toDigits _ small, back]

end Base64

end Go
