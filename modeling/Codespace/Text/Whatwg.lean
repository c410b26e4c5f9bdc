import Mathlib.Data.List.DropRight

/-!
# Where a reference leads in a browser

The URL parser of the WHATWG standard for a reference that is resolved against an `http` or
`https` URL, as far as the origin of the result goes. A backslash counts as a slash there.
A reference without a scheme stays on the origin of the base, unless it begins with two
slashes. How hosts are parsed, and what references with a scheme are, are parameters.
-/

namespace Whatwg
set_option autoImplicit false

/-- The special schemes that have hosts. -/
inductive Scheme where
  | http
  | https
  deriving DecidableEq, Repr

def Scheme.defaultPort : Scheme → Nat
  | .http => 80
  | .https => 443

/-- An origin. The default port is none. -/
structure Origin (H : Type) where
  scheme : Scheme
  host : H
  port : Option Nat
  deriving DecidableEq, Repr

/-- The parts of the parser that are not looked into. -/
structure Parser (H : Type) where
  /-- The host parser. -/
  host : List Char → Option H
  /-- The origin of a reference with a scheme. -/
  absolute : Origin H → List Char → Option (Origin H)

/-- A slash of either kind. -/
def isSlash (c : Char) : Bool := c = '/' || c = '\\'

/-- C0 controls and the space, which are dropped at both ends. -/
def isPadding (c : Char) : Bool := c ≤ ' '

/-- Tabs and line breaks, which are dropped everywhere. -/
def isGap (c : Char) : Bool := c ∈ ['\t', '\n', '\r']

/-- The input as the parser's states see it. -/
def tidy (input : List Char) : List Char :=
  ((input.dropWhile isPadding).rdropWhile isPadding).filter (!isGap ·)

def isAlpha (c : Char) : Bool := ('a' ≤ c && c ≤ 'z') || ('A' ≤ c && c ≤ 'Z')

def isSchemeChar (c : Char) : Bool := isAlpha c || ('0' ≤ c && c ≤ '9') || c ∈ ['+', '-', '.']

/-- Scheme start state and scheme state: a scheme with its colon is there. -/
def hasScheme (input : List Char) : Bool :=
  input.head?.any isAlpha && (input.dropWhile isSchemeChar).head? = some ':'

/-- The text of an authority. -/
def authorityText (input : List Char) : List Char :=
  input.takeWhile fun c => !isSlash c && c ≠ '?' && c ≠ '#'

/-- Authority state: what stands before the last `@` are credentials. -/
def afterCredentials (text : List Char) : List Char := text.rtakeWhile (· ≠ '@')

/-- Host state: the host ends at a colon that is not in brackets. -/
def splitPort : (inBrackets : Bool) → List Char → List Char × Option (List Char)
  | _, [] => ([], none)
  | inBrackets, c :: text =>
    if c = ':' ∧ inBrackets = false then ([], some text)
    else
      let rest := splitPort (if c = '[' then true else if c = ']' then false else inBrackets) text
      (c :: rest.1, rest.2)

/-- Port state. -/
def readPort (scheme : Scheme) : Option (List Char) → Option (Option Nat)
  | none => some none
  | some [] => some none
  | some (d :: digits) =>
    if (d :: digits).all Char.isDigit then
      let port := (d :: digits).foldl (fun n d => 10 * n + (d.toNat - '0'.toNat)) 0
      if 65535 < port then none
      else some (if port = scheme.defaultPort then none else some port)
    else none

variable {H : Type} (parser : Parser H)

/-- The origin that an authority names. -/
def Parser.authority (scheme : Scheme) (input : List Char) : Option (Origin H) :=
  let (hostText, portText) := splitPort false (afterCredentials (authorityText input))
  if hostText = [] then none
  else do
    let host ← parser.host hostText
    let port ← readPort scheme portText
    return ⟨scheme, host, port⟩

/-- What stands behind two slashes or more, if the input begins with them. -/
def behindSlashes : List Char → Option (List Char)
  | a :: b :: rest => if isSlash a ∧ isSlash b then some (rest.dropWhile isSlash) else none
  | _ => none

/-- The origin of a reference, resolved against a URL of the origin `base`. -/
def Parser.resolve (base : Origin H) (input : List Char) : Option (Origin H) :=
  if hasScheme (tidy input) then parser.absolute base (tidy input)
  else match behindSlashes (tidy input) with
    | some named => parser.authority base.scheme named
    | none => some base

/-! ## Rooted references -/

/-- The first character, the gaps aside, is a slash. -/
def leads : List Char → Bool
  | [] => false
  | c :: s => if isGap c then leads s else isSlash c

/-- What neither slash is. -/
theorem isSlash_eq_false {p : Char → Bool} (slash : p '/' = false) (backslash : p '\\' = false) {c : Char}
    (holds : p c = true) : isSlash c = false := by
  rw [Bool.eq_false_iff]
  intro either
  simp only [isSlash, Bool.or_eq_true, decide_eq_true_eq] at either
  rcases either with rfl | rfl
  · cases slash.symm.trans holds
  · cases backslash.symm.trans holds

/-- What is dropped at the end does not matter, if no slash is. -/
theorem leads_rdropWhile {p : Char → Bool} (other : ∀ c, p c = true → isSlash c = false) (s : List Char) :
    leads (s.rdropWhile p) = leads s := by
  induction s using List.reverseRecOn with
  | nil => simp
  | append_singleton s c ih =>
    rw [List.rdropWhile_concat]
    split
    · rename_i dropped
      have last : ∀ s : List Char, leads (s ++ [c]) = leads s := by
        intro s
        induction s with
        | nil => simp [leads, other c dropped]
        | cons a s ih => rw [List.cons_append, leads, leads, ih]
      rw [ih, last]
    · rfl

/-- Dropping at the end does not pass what is kept. -/
theorem rdropWhile_cons {p : Char → Bool} {c : Char} (kept : p c = false) (s : List Char) :
    (c :: s).rdropWhile p = c :: s.rdropWhile p := by
  induction s using List.reverseRecOn with
  | nil => simp [kept]
  | append_singleton s x ih =>
    rw [← List.cons_append, List.rdropWhile_concat, List.rdropWhile_concat, ih]
    split <;> rfl

/-- What the parser sees of a rooted reference. -/
theorem tidy_rooted (s : List Char) : tidy ('/' :: s) = '/' :: (s.rdropWhile isPadding).filter (!isGap ·) := by
  rw [tidy, List.dropWhile_cons_of_neg (by decide), rdropWhile_cons (by decide), List.filter_cons_of_pos (by decide)]

/-- A rooted reference names an authority exactly if a slash leads the rest. -/
theorem behindSlashes_rooted (s : List Char) : behindSlashes (tidy ('/' :: s)) =
    if leads s then some ((tidy ('/' :: s)).dropWhile isSlash) else none := by
  rw [tidy_rooted, ← leads_rdropWhile (p := isPadding) (fun _ => isSlash_eq_false rfl rfl) s]
  generalize s.rdropWhile isPadding = s
  rw [List.dropWhile_cons_of_pos (by decide)]
  induction s with
  | nil => rfl
  | cons c s ih =>
    rw [leads]
    cases gap : isGap c with
    | true =>
      rw [if_pos rfl, List.filter_cons_of_neg (by simp [gap])]
      exact ih
    | false =>
      rw [if_neg Bool.false_ne_true, List.filter_cons_of_pos (by simp [gap])]
      cases slash : isSlash c with
      | true =>
        rw [behindSlashes, if_pos ⟨by decide, slash⟩, if_pos rfl, List.dropWhile_cons_of_pos slash]
      | false => rw [behindSlashes, if_neg (by simp [slash]), if_neg Bool.false_ne_true]

/-- A rooted reference stays on its base unless a slash leads its rest. -/
theorem Parser.resolve_rooted (base : Origin H) (s : List Char) : parser.resolve base ('/' :: s) =
    if leads s then parser.authority base.scheme ((tidy ('/' :: s)).dropWhile isSlash) else some base := by
  have relative : hasScheme (tidy ('/' :: s)) = false := by
    rw [tidy_rooted]
    rfl
  rw [resolve, relative, if_neg Bool.false_ne_true, behindSlashes_rooted]
  cases leads s <;> rfl

end Whatwg
