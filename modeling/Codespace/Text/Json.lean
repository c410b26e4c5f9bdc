import Codespace.Go.Strings
import Codespace.Text.Regex
import Mathlib.Data.Bool.AllAny

/-!
# JSON texts

Values as their texts spell them, and a parser for the grammar of JSON. A number is the
numeral of its text. An object is the list of its members in the order of the text. A string
is one of Unicode characters: an escape for half of a surrogate pair stands for none.
-/

namespace Text.Json
set_option autoImplicit false

/-! ## Values -/

def isDigit (c : Char) : Bool := '0' ≤ c && c ≤ '9'

def digit : Regex Char := .one isDigit

/-- One or more digits. -/
def digits : Regex Char := .cat digit (.star digit)

def optional (r : Regex Char) : Regex Char := .alt r .empty

/-- A numeral: sign, whole part, fraction and exponent. -/
def numeral : Regex Char :=
  let whole := Regex.alt (.lit '0') (.cat (.one fun c => '1' ≤ c && c ≤ '9') (.star digit))
  let fraction := optional (.cat (.lit '.') digits)
  let exponent := optional (.cat (.one (· ∈ ['e', 'E'])) (.cat (optional (.one (· ∈ ['+', '-']))) digits))
  .cat (optional (.lit '-')) (.cat whole (.cat fraction exponent))

structure Numeral where
  text : List Char
  valid : numeral.accepts text = true
  deriving DecidableEq

inductive Value where
  | null
  | bool (b : Bool)
  | number (n : Numeral)
  | string (s : String)
  | array (elements : List Value)
  | object (members : List (String × Value))

/-- Induction over a value, its elements and its members. -/
@[elab_as_elim, induction_eliminator]
theorem Value.induction {P : Value → Prop} (null : P .null) (bool : ∀ b, P (.bool b))
    (number : ∀ n, P (.number n)) (string : ∀ s, P (.string s))
    (array : ∀ vs, (∀ v ∈ vs, P v) → P (.array vs))
    (object : ∀ ms, (∀ m ∈ ms, P m.2) → P (.object ms)) (v : Value) : P v :=
  Value.rec null bool number string array object
    (fun _ mem => absurd mem List.not_mem_nil)
    (fun _ _ first others => List.forall_mem_cons.2 ⟨first, others⟩)
    (fun _ mem => absurd mem List.not_mem_nil)
    (fun _ _ first others => List.forall_mem_cons.2 ⟨first, others⟩)
    (fun _ _ holds => holds) v

/-! ## The parser -/

def isSpace (c : Char) : Bool := c ∈ [' ', '\t', '\n', '\r']

def skip (text : List Char) : List Char := text.dropWhile isSpace

def hexValue (c : Char) : Option Nat :=
  if isDigit c then some (c.toNat - '0'.toNat)
  else if 'a' ≤ c ∧ c ≤ 'f' then some (c.toNat - 'a'.toNat + 10)
  else if 'A' ≤ c ∧ c ≤ 'F' then some (c.toNat - 'A'.toNat + 10)
  else none

/-- The code unit that four hexadecimal digits give. -/
def codeUnit (a b c d : Char) : Option Nat := do
  return (((← hexValue a) * 16 + (← hexValue b)) * 16 + (← hexValue c)) * 16 + (← hexValue d)

/-- What an escape other than a code unit stands for. -/
def escaped (c : Char) : Option Char :=
  if c ∈ ['"', '\\', '/'] then some c
  else if c = 'b' then some '\x08'
  else if c = 'f' then some '\x0c'
  else if c = 'n' then some '\n'
  else if c = 'r' then some '\r'
  else if c = 't' then some '\t'
  else none

/-- The first half of a surrogate pair. -/
def leads (unit : Nat) : Bool := 0xD800 ≤ unit && unit < 0xDC00

def trails (unit : Nat) : Bool := 0xDC00 ≤ unit && unit < 0xE000

abbrev Parser (α : Type) := List Char → Option (α × List Char)

def more {α : Type} (a : α) : Option (List α × List Char) → Option (List α × List Char) :=
  Option.map fun (as, rest) => (a :: as, rest)

/-- The characters up to the closing quote; `lead` is a first half that waits for its second. -/
def characters (lead : Option Nat) : Parser (List Char)
  | '\\' :: 'u' :: a :: b :: c :: d :: rest =>
    match codeUnit a b c d with
    | none => none
    | some unit =>
      match lead with
      | some high =>
        if trails unit then
          more (Char.ofNat (0x10000 + (high - 0xD800) * 0x400 + (unit - 0xDC00))) (characters none rest)
        else none
      | none =>
        if leads unit then characters (some unit) rest
        else if trails unit then none
        else more (Char.ofNat unit) (characters none rest)
  | '\\' :: e :: rest =>
    match escaped e with
    | none => none
    | some c => if lead.isSome then none else more c (characters none rest)
  | c :: rest =>
    if lead.isSome || c = '\\' || c < ' ' then none
    else if c = '"' then some ([], rest)
    else more c (characters none rest)
  | [] => none

def stringText : Parser String
  | '"' :: text => (characters none text).map fun (cs, rest) => (.ofList cs, rest)
  | _ => none

def numeric (c : Char) : Bool := isDigit c || c ∈ ['-', '+', '.', 'e', 'E']

def numberText (text : List Char) : Option (Numeral × List Char) :=
  if valid : numeral.accepts (text.takeWhile numeric) = true then
    some (⟨text.takeWhile numeric, valid⟩, text.dropWhile numeric)
  else none

section

variable {α : Type} (item : Parser α) (close : Char)

/-- Items with commas between them, and the closing bracket. -/
def separated : Nat → Parser (List α)
  | 0, _ => none
  | fuel + 1, text =>
    match item (skip text) with
    | none => none
    | some (a, rest) =>
      match skip rest with
      | [] => none
      | c :: rest =>
        if c = close then some ([a], rest)
        else if c = ',' then more a (separated fuel rest)
        else none

/-- What stands between brackets. -/
def bracketed (fuel : Nat) (text : List Char) : Option (List α × List Char) :=
  match skip text with
  | [] => none
  | c :: rest => if c = close then some ([], rest) else separated item close fuel (c :: rest)

end

def member (value : Parser Value) : Parser (String × Value) := fun text =>
  match stringText text with
  | none => none
  | some (name, rest) =>
    match skip rest with
    | ':' :: rest => (value (skip rest)).map fun (v, rest) => ((name, v), rest)
    | _ => none

def value : Nat → Parser Value
  | 0, _ => none
  | fuel + 1, text =>
    if text.head? = some '"' then (stringText text).map fun (s, rest) => (.string s, rest)
    else if text.head? = some '[' then
      (bracketed (value fuel) ']' fuel text.tail).map fun (vs, rest) => (.array vs, rest)
    else if text.head? = some '\x7b' then
      (bracketed (member (value fuel)) '\x7d' fuel text.tail).map fun (ms, rest) => (.object ms, rest)
    else if "null".toList <+: text then some (.null, text.drop 4)
    else if "true".toList <+: text then some (.bool true, text.drop 4)
    else if "false".toList <+: text then some (.bool false, text.drop 5)
    else (numberText text).map fun (n, rest) => (.number n, rest)

/-- The value that a text spells as a whole. -/
def parse (text : String) : Option Value :=
  match value text.length (skip text.toList) with
  | some (v, rest) => if skip rest = [] then some v else none
  | none => none

/-! ## What the parser makes of a text -/

section

variable {rest : List Char}

theorem numeric_digit {c : Char} (h : isDigit c = true) : numeric c = true := by
  rw [numeric, h, Bool.true_or]

theorem numeral_over : numeral.Over numeric := by
  have optionSign : ∀ c ∈ ['+', '-'], numeric c = true := List.all_iff_forall_prop.1 (by decide)
  have exponent : ∀ c ∈ ['e', 'E'], numeric c = true := List.all_iff_forall_prop.1 (by decide)
  refine ⟨⟨?_, trivial⟩, ⟨?_, ?_, fun c => numeric_digit⟩, ⟨⟨?_, fun c => numeric_digit, fun c => numeric_digit⟩, trivial⟩,
    ⟨⟨?_, ⟨?_, trivial⟩, fun c => numeric_digit, fun c => numeric_digit⟩, trivial⟩⟩
  all_goals intro c passes
  · rw [of_decide_eq_true passes]
    decide
  · rw [of_decide_eq_true passes]
    decide
  · obtain ⟨low, high⟩ := Bool.and_eq_true_iff.1 passes
    have above : '0' ≤ c := Char.le_trans (by decide) (of_decide_eq_true low)
    exact numeric_digit (by rw [isDigit, high, decide_eq_true above]; rfl)
  · rw [of_decide_eq_true passes]
    decide
  · exact exponent c (of_decide_eq_true passes)
  · exact optionSign c (of_decide_eq_true passes)

theorem Numeral.numeric (n : Numeral) : ∀ c ∈ n.text, Json.numeric c = true :=
  numeral_over.all (Regex.accepts_iff.1 n.valid)

theorem Numeral.text_ne (n : Numeral) : n.text ≠ [] := by
  intro eq
  have valid := n.valid
  rw [eq] at valid
  cases valid

theorem numeric_shows {c : Char} (h : numeric c = true) : isSpace c = false := by
  refine decide_eq_false fun mem => ?_
  have spaces : ∀ c ∈ [' ', '\t', '\n', '\r'], numeric c = false :=
    List.all_iff_forall_prop.1 (by decide)
  cases h.symm.trans (spaces c mem)

/-- A text goes on behind a number with something that no number has. -/
def Stops (rest : List Char) : Prop := ∀ c, rest.head? = some c → numeric c = false

theorem numberText_append (n : Numeral) (stops : Stops rest) :
    numberText (n.text ++ rest) = some (n, rest) := by
  have first : (n.text ++ rest).takeWhile Json.numeric = n.text := by
    rw [List.takeWhile_append_of_pos n.numeric]
    cases rest with
    | nil => rw [List.takeWhile_nil, List.append_nil]
    | cons c rest => rw [List.takeWhile_cons_of_neg (by simp [stops c rfl]), List.append_nil]
  have second : (n.text ++ rest).dropWhile Json.numeric = rest := by
    rw [List.dropWhile_append_of_pos n.numeric]
    cases rest with
    | nil => rfl
    | cons c rest => rw [List.dropWhile_cons_of_neg (by simp [stops c rfl])]
  unfold numberText
  rw [dif_pos (first.symm ▸ n.valid), second]
  simp only [first]

/-! ### Strings -/

theorem characters_quote : characters none ('"' :: rest) = some ([], rest) := by
  rw [characters]
  · rfl
  · rintro a b c d rest' ⟨⟩
  · rintro e rest' ⟨⟩

theorem characters_plain {c : Char} (visible : ' ' ≤ c) (noQuote : c ≠ '"') (noEscape : c ≠ '\\') :
    characters none (c :: rest) = more c (characters none rest) := by
  rw [characters]
  · simp [noEscape, noQuote, Char.not_lt.2 visible]
  · exact fun a b c' d rest' eq => absurd eq noEscape
  · exact fun e rest' eq => absurd eq noEscape

theorem characters_escaped {e c : Char} (stands : escaped e = some c) :
    characters none ('\\' :: e :: rest) = more c (characters none rest) := by
  have notUnit : e ≠ 'u' := by
    rintro rfl
    cases stands
  rw [characters]
  · simp [stands]
  · exact fun a b c' d rest' eq => absurd eq notUnit

theorem characters_unit {a b c d : Char} {unit : Nat} (stands : codeUnit a b c d = some unit)
    (low : unit < 0xD800) : characters none ('\\' :: 'u' :: a :: b :: c :: d :: rest) =
      more (Char.ofNat unit) (characters none rest) := by
  have noLead : leads unit = false := by
    simp only [leads, Bool.and_eq_false_iff, decide_eq_false_iff_not]
    omega
  have noTrail : trails unit = false := by
    simp only [trails, Bool.and_eq_false_iff, decide_eq_false_iff_not]
    omega
  rw [characters, stands]
  simp [noLead, noTrail]

/-! ### Lists in brackets -/

/-- There is a character to see first, other than this one. -/
def Shows (other : Char) (text : List Char) : Prop :=
  ∃ c w, text = c :: w ∧ isSpace c = false ∧ c ≠ other

theorem skip_cons {c : Char} (visible : isSpace c = false) : skip (c :: rest) = c :: rest :=
  List.dropWhile_cons_of_neg (by simp [visible])

theorem Shows.skip {other : Char} {text : List Char} (h : Shows other text) :
    Json.skip (text ++ rest) = text ++ rest := by
  obtain ⟨c, w, rfl, visible, -⟩ := h
  exact skip_cons visible

variable {α : Type} {item : Parser α} {close : Char} {enc : α → List Char}

theorem Shows.ne_nil {other : Char} {text : List Char} (h : Shows other text) : text ≠ [] := by
  obtain ⟨c, w, rfl, -⟩ := h
  exact List.cons_ne_nil c w

/-- The parser of an item reads its text back, whatever may follow in a list. -/
def Reads (item : Parser α) (close : Char) (enc : α → List Char) (a : α) : Prop :=
  ∀ c rest, c = ',' ∨ c = close → item (enc a ++ c :: rest) = some (a, c :: rest)

theorem length_le_joined {part : List Char} {parts : List (List Char)} (mem : part ∈ parts) :
    part.length ≤ ([','].intercalate parts).length := by
  induction parts with
  | nil => cases mem
  | cons part' parts ih =>
    cases parts with
    | nil => rw [List.intercalate_singleton, List.mem_singleton.1 mem]
    | cons part'' parts =>
      rw [List.intercalate_cons_cons, List.length_append, List.length_append]
      rcases List.mem_cons.1 mem with rfl | behind
      · omega
      · have := ih behind
        omega

theorem count_le_joined {parts : List (List Char)} (each : ∀ part ∈ parts, part ≠ []) :
    parts.length ≤ ([','].intercalate parts).length := by
  induction parts with
  | nil => exact Nat.zero_le _
  | cons part parts ih =>
    have first : 0 < part.length := List.length_pos_iff.2 (each part List.mem_cons_self)
    have others := ih fun part' mem => each part' (List.mem_cons_of_mem part mem)
    cases parts with
    | nil =>
      rw [List.intercalate_singleton]
      exact first
    | cons part' parts =>
      rw [List.intercalate_cons_cons, List.length_append, List.length_append, List.length_cons]
      omega

theorem separated_joined (visible : isSpace close = false) (noComma : ',' ≠ close) {a : α} {as : List α}
    {fuel : Nat} (enough : as.length < fuel)
    (each : ∀ b ∈ a :: as, Reads item close enc b ∧ Shows close (enc b)) :
    separated item close fuel ([','].intercalate ((a :: as).map enc) ++ close :: rest) =
      some (a :: as, rest) := by
  induction as generalizing a fuel with
  | nil =>
    obtain ⟨fuel, rfl⟩ := Nat.exists_eq_succ_of_ne_zero (Nat.ne_zero_of_lt enough)
    obtain ⟨reads, shows⟩ := each a List.mem_cons_self
    rw [List.map_singleton, List.intercalate_singleton, separated, shows.skip, reads _ _ (.inr rfl)]
    simp only [skip_cons visible, if_pos]
  | cons b as ih =>
    obtain ⟨fuel, rfl⟩ := Nat.exists_eq_succ_of_ne_zero (Nat.ne_zero_of_lt enough)
    obtain ⟨reads, shows⟩ := each a List.mem_cons_self
    have behind := ih (Nat.lt_of_succ_lt_succ enough) fun b' mem => each b' (List.mem_cons_of_mem a mem)
    rw [List.map_cons, List.map_cons, List.intercalate_cons_cons, List.append_assoc, List.append_assoc]
    rw [List.singleton_append, ← List.map_cons, separated, shows.skip, reads _ _ (.inl rfl)]
    simp only [skip_cons (c := ',') rfl, if_neg noComma, if_pos, behind]
    rfl

theorem bracketed_joined (visible : isSpace close = false) (noComma : ',' ≠ close) {as : List α}
    {fuel : Nat} (enough : as.length ≤ fuel)
    (each : ∀ b ∈ as, Reads item close enc b ∧ Shows close (enc b)) :
    bracketed item close fuel ([','].intercalate (as.map enc) ++ close :: rest) = some (as, rest) := by
  cases as with
  | nil =>
    rw [List.map_nil, List.intercalate_nil, List.nil_append, bracketed, skip_cons visible]
    exact if_pos rfl
  | cons a as =>
    have whole : separated item close fuel ([','].intercalate ((a :: as).map enc) ++ close :: rest) = _ :=
      separated_joined visible noComma enough each
    obtain ⟨-, c, w, eq, shown, other⟩ := each a List.mem_cons_self
    have start : ∃ w', [','].intercalate ((a :: as).map enc) ++ close :: rest = c :: w' := by
      cases as <;> simp [eq]
    obtain ⟨w', eq'⟩ := start
    rw [eq'] at whole ⊢
    rw [bracketed, skip_cons shown]
    simp only [if_neg other, whole]

/-- A text in brackets, read with as much fuel as it is long, where each item is read with
as much as its own text is long. -/
theorem bracketed_text {first last : Char} (visible : isSpace close = false) (noComma : ',' ≠ close)
    (shows : ∀ a, Shows close (enc a)) {as : List α} {fuel : Nat}
    (reads : ∀ a ∈ as, (enc a).length ≤ fuel → Reads item close enc a)
    (enough : (first :: [','].intercalate (as.map enc) ++ [last]).length ≤ fuel + 1) :
    bracketed item close fuel ([','].intercalate (as.map enc) ++ close :: rest) = some (as, rest) := by
  rw [List.length_append, List.length_cons, List.length_singleton] at enough
  have count : as.length ≤ ([','].intercalate (as.map enc)).length := by
    have parts := count_le_joined (List.forall_mem_map.2 fun a (_ : a ∈ as) => (shows a).ne_nil)
    rwa [List.length_map] at parts
  refine bracketed_joined visible noComma (by omega) fun a mem => ⟨reads a mem ?_, shows a⟩
  have part := length_le_joined (List.mem_map_of_mem (f := enc) mem)
  omega

/-! ### Values -/

variable {text : List Char} {fuel : Nat}

theorem value_quote : value (fuel + 1) ('"' :: text) =
    (stringText ('"' :: text)).map fun (s, rest) => (.string s, rest) := by
  rw [value]
  exact if_pos rfl

theorem value_array : value (fuel + 1) ('[' :: text) =
    (bracketed (value fuel) ']' fuel text).map fun (vs, rest) => (.array vs, rest) := by
  rw [value, if_neg (by simp)]
  exact if_pos rfl

theorem value_object : value (fuel + 1) ('\x7b' :: text) =
    (bracketed (member (value fuel)) '\x7d' fuel text).map fun (ms, rest) => (.object ms, rest) := by
  rw [value, if_neg (by simp), if_neg (by simp)]
  exact if_pos rfl

theorem value_number {c : Char} (number : numeric c = true) : value (fuel + 1) (c :: text) =
    (numberText (c :: text)).map fun (n, rest) => (.number n, rest) := by
  have other : ∀ c' ∈ ['"', '[', '\x7b', 'n', 't', 'f'], c ≠ c' := by
    rintro c' mem rfl
    have none : ∀ c ∈ ['"', '[', '\x7b', 'n', 't', 'f'], numeric c = false :=
    List.all_iff_forall_prop.1 (by decide)
    cases number.symm.trans (none c mem)
  have noHead : ∀ c' ∈ ['"', '[', '\x7b'], (c :: text).head? ≠ some c' := fun c' mem eq =>
    other c' (List.mem_append_left ['n', 't', 'f'] mem) (Option.some.inj eq)
  have noWord : ∀ word : List Char, word.head?.any (· ∈ ['n', 't', 'f']) = true → ¬ word <+: c :: text := by
    intro word first front
    obtain ⟨c', start, mem⟩ := (Option.any_eq_true _ _).1 first
    obtain ⟨w, rfl⟩ := List.head?_eq_some_iff.1 start
    exact other c' (List.mem_append_right ['"', '[', '\x7b'] (of_decide_eq_true mem))
      (List.cons_prefix_cons.1 front).1.symm
  rw [value, if_neg (noHead '"' (by decide)), if_neg (noHead '[' (by decide)), if_neg (noHead '\x7b' (by decide))]
  rw [if_neg (noWord _ (by decide)), if_neg (noWord _ (by decide)), if_neg (noWord _ (by decide))]

end

end Text.Json
