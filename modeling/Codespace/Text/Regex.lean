import Mathlib.Computability.Language

/-!
# Regular expressions

Regular expressions over any alphabet, with a test for single letters, and the languages
they stand for. `accepts` decides membership letter by letter, by derivatives: `deriv c r`
stands for what may follow the letter `c` (`mem_deriv`).

The second part reads patterns in the notation that Go's `regexp` shares with others:
letters, `.`, sets in brackets, the repetitions `*`, `+` and `?` of one of these, and the
anchors at both ends. A pattern with anything else is not read.
-/

namespace Text
set_option autoImplicit false
open Computability

/-- A regular expression; `one p` stands for a single letter that passes the test. -/
inductive Regex (α : Type) where
  | nothing
  | empty
  | one (p : α → Bool)
  | cat (r r' : Regex α)
  | alt (r r' : Regex α)
  | star (r : Regex α)

namespace Regex

variable {α : Type}

/-- The words a regular expression stands for. -/
def lang : Regex α → Language α
  | nothing => 0
  | empty => 1
  | one p => {w | ∃ c, p c = true ∧ w = [c]}
  | cat r r' => r.lang * r'.lang
  | alt r r' => r.lang + r'.lang
  | star r => r.lang∗

def nullable : Regex α → Bool
  | nothing | one _ => false
  | empty | star _ => true
  | cat r r' => r.nullable && r'.nullable
  | alt r r' => r.nullable || r'.nullable

/-- What may follow the letter `c`. -/
def deriv (c : α) : Regex α → Regex α
  | nothing | empty => nothing
  | one p => if p c then empty else nothing
  | cat r r' => if r.nullable then alt (cat (r.deriv c) r') (r'.deriv c) else cat (r.deriv c) r'
  | alt r r' => alt (r.deriv c) (r'.deriv c)
  | star r => cat (r.deriv c) (star r)

/-- The whole word is one that the expression stands for. -/
def accepts (r : Regex α) : List α → Bool
  | [] => r.nullable
  | c :: w => (r.deriv c).accepts w

/-! ## Derivatives -/

theorem cons_mem_mul {l m : Language α} {c : α} {w : List α} :
    c :: w ∈ l * m ↔ (∃ u v, c :: u ∈ l ∧ v ∈ m ∧ u ++ v = w) ∨ ([] ∈ l ∧ c :: w ∈ m) := by
  rw [Language.mem_mul]
  constructor
  · rintro ⟨u, left, v, right, eq⟩
    cases u with
    | nil => exact .inr ⟨left, eq ▸ right⟩
    | cons a u =>
      cases eq
      exact .inl ⟨u, v, left, right, rfl⟩
  · rintro (⟨u, v, left, right, rfl⟩ | ⟨left, right⟩)
    · exact ⟨c :: u, left, v, right, rfl⟩
    · exact ⟨[], left, c :: w, right, rfl⟩

theorem cons_mem_kstar {l : Language α} {c : α} {w : List α} :
    c :: w ∈ l∗ ↔ ∃ u v, c :: u ∈ l ∧ v ∈ l∗ ∧ u ++ v = w := by
  constructor
  · intro mem
    obtain ⟨parts, eq, all⟩ := Language.mem_kstar_iff_exists_nonempty.1 mem
    cases parts with
    | nil => cases eq
    | cons part parts =>
      obtain ⟨first, rest⟩ := List.forall_mem_cons.1 all
      cases part with
      | nil => exact absurd rfl first.2
      | cons a u =>
        cases eq
        exact ⟨u, parts.flatten, first.1, Language.join_mem_kstar fun y mem => (rest y mem).1, rfl⟩
  · rintro ⟨u, v, first, rest, rfl⟩
    obtain ⟨parts, rfl, all⟩ := Language.mem_kstar.1 rest
    exact Language.mem_kstar.2 ⟨(c :: u) :: parts, rfl, List.forall_mem_cons.2 ⟨first, all⟩⟩

theorem nullable_iff (r : Regex α) : r.nullable = true ↔ [] ∈ r.lang := by
  induction r with
  | nothing => simp [nullable, lang, Language.notMem_zero]
  | empty => simp [nullable, lang]
  | one p =>
    simp only [nullable, lang, Bool.false_eq_true, false_iff]
    rintro ⟨c, -, eq⟩
    cases eq
  | cat r r' ih ih' => simp [nullable, lang, ih, ih', Language.mem_mul]
  | alt r r' ih ih' => rw [nullable, Bool.or_eq_true, ih, ih', lang, Language.mem_add]
  | star r _ => simp [nullable, lang, Language.nil_mem_kstar]

theorem mem_deriv {r : Regex α} {c : α} {w : List α} : w ∈ (r.deriv c).lang ↔ c :: w ∈ r.lang := by
  induction r generalizing w with
  | nothing => exact Iff.rfl
  | empty =>
    simp only [deriv, lang, Language.mem_one, reduceCtorEq, iff_false]
    exact Language.notMem_zero _
  | one p =>
    have follows : c :: w ∈ (one p).lang ↔ p c = true ∧ w = [] := by
      constructor
      · rintro ⟨a, passes, eq⟩
        cases eq
        exact ⟨passes, rfl⟩
      · rintro ⟨passes, rfl⟩
        exact ⟨c, passes, rfl⟩
    rw [follows, deriv]
    cases p c with
    | false => simp [lang, Language.notMem_zero]
    | true => simp [lang, Language.mem_one]
  | cat r r' ih ih' =>
    have left : w ∈ (cat (r.deriv c) r').lang ↔ ∃ u v, c :: u ∈ r.lang ∧ v ∈ r'.lang ∧ u ++ v = w := by
      simp only [lang, Language.mem_mul, ih]
      exact ⟨fun ⟨u, first, v, rest, eq⟩ => ⟨u, v, first, rest, eq⟩,
        fun ⟨u, v, first, rest, eq⟩ => ⟨u, first, v, rest, eq⟩⟩
    rw [lang, cons_mem_mul, ← nullable_iff, ← ih', ← left, deriv]
    cases r.nullable with
    | false => simp
    | true =>
      show w ∈ (cat (r.deriv c) r').lang + (r'.deriv c).lang ↔ _
      rw [Language.mem_add]
      simp [lang]
  | alt r r' ih ih' => simp only [deriv, lang, Language.mem_add, ih, ih']
  | star r ih =>
    simp only [deriv, lang, Language.mem_mul, cons_mem_kstar, ih]
    exact ⟨fun ⟨u, first, v, rest, eq⟩ => ⟨u, v, first, rest, eq⟩,
      fun ⟨u, v, first, rest, eq⟩ => ⟨u, first, v, rest, eq⟩⟩

/-- The matcher decides the language. -/
theorem accepts_iff {r : Regex α} {w : List α} : r.accepts w = true ↔ w ∈ r.lang := by
  induction w generalizing r with
  | nil => exact nullable_iff r
  | cons c w ih => exact ih.trans mem_deriv

/-! ## Words and runs of one letter -/

def lit [DecidableEq α] (c : α) : Regex α := one fun a => a = c

/-- A word, then the expression. -/
def follow [DecidableEq α] (w : List α) (r : Regex α) : Regex α := w.foldr (fun c r => cat (lit c) r) r

theorem mem_follow [DecidableEq α] {u w : List α} {r : Regex α} :
    w ∈ (follow u r).lang ↔ ∃ v ∈ r.lang, w = u ++ v := by
  induction u generalizing w with
  | nil => exact ⟨fun mem => ⟨w, mem, rfl⟩, fun ⟨v, mem, eq⟩ => eq ▸ mem⟩
  | cons c u ih =>
    have step : w ∈ (follow (c :: u) r).lang ↔ ∃ w' ∈ (follow u r).lang, w = c :: w' := by
      show w ∈ (lit c).lang * (follow u r).lang ↔ _
      rw [Language.mem_mul]
      constructor
      · rintro ⟨_, ⟨a, same, rfl⟩, w', mem, rfl⟩
        exact ⟨w', mem, by rw [of_decide_eq_true same]; rfl⟩
      · rintro ⟨w', mem, rfl⟩
        exact ⟨[c], ⟨c, decide_eq_true rfl, rfl⟩, w', mem, rfl⟩
    rw [step]
    constructor
    · rintro ⟨w', mem, rfl⟩
      obtain ⟨v, rest, rfl⟩ := ih.1 mem
      exact ⟨v, rest, rfl⟩
    · rintro ⟨v, rest, rfl⟩
      exact ⟨u ++ v, ih.2 ⟨v, rest, rfl⟩, rfl⟩

theorem mem_star_one {p : α → Bool} {w : List α} : w ∈ (star (one p)).lang ↔ ∀ c ∈ w, p c = true := by
  induction w with
  | nil => exact ⟨fun _ c mem => absurd mem List.not_mem_nil, fun _ => Language.nil_mem_kstar _⟩
  | cons a w ih =>
    rw [List.forall_mem_cons, ← ih]
    constructor
    · intro mem
      obtain ⟨u, v, ⟨c, passes, eq⟩, rest, rfl⟩ := cons_mem_kstar.1 mem
      cases eq
      exact ⟨passes, rest⟩
    · rintro ⟨passes, rest⟩
      exact cons_mem_kstar.2 ⟨[], w, ⟨a, passes, rfl⟩, rest, rfl⟩

/-- The letters that a word of the expression can have all pass a test. -/
def Over (p : α → Bool) : Regex α → Prop
  | nothing | empty => True
  | one q => ∀ c, q c = true → p c = true
  | cat r r' | alt r r' => r.Over p ∧ r'.Over p
  | star r => r.Over p

theorem Over.all {p : α → Bool} {r : Regex α} {w : List α} (h : r.Over p) (mem : w ∈ r.lang) :
    ∀ c ∈ w, p c = true := by
  induction r generalizing w with
  | nothing => exact absurd mem (Language.notMem_zero w)
  | empty =>
    rw [lang, Language.mem_one] at mem
    exact fun c there => absurd (mem ▸ there) List.not_mem_nil
  | one q =>
    obtain ⟨c, passes, rfl⟩ := mem
    exact fun c' there => List.mem_singleton.1 there ▸ h c passes
  | cat r r' ih ih' =>
    obtain ⟨u, left, v, right, rfl⟩ := Language.mem_mul.1 mem
    intro c there
    exact (List.mem_append.1 there).elim (ih h.1 left c) (ih' h.2 right c)
  | alt r r' ih ih' => exact mem.elim (ih h.1) (ih' h.2)
  | star r ih =>
    obtain ⟨parts, rfl, all⟩ := Language.mem_kstar.1 mem
    intro c there
    obtain ⟨part, mem, there⟩ := List.mem_flatten.1 there
    exact ih h (all part mem) c there

end Regex

/-! ## Patterns -/

/-- A piece of a pattern: a test for one letter, or a repetition of the piece before. -/
inductive Token where
  | letter (p : Char → Bool)
  | star
  | plus
  | quest

/-- What a set in brackets contains. An empty set and ranges are not read. -/
def readSet : List Char → Option (Char → Bool)
  | '^' :: cs => if cs = [] ∨ '-' ∈ cs then none else some fun c => c ∉ cs
  | cs => if cs = [] ∨ '-' ∈ cs then none else some fun c => c ∈ cs

/-- The pieces of a pattern; inside brackets, `set` holds what was read of the set. -/
def tokens : (set : Option (List Char)) → List Char → Option (List Token)
  | none, [] => some []
  | some _, [] => none
  | some cs, ']' :: rest => do
    let p ← readSet cs
    return .letter p :: (← tokens none rest)
  | some cs, c :: rest => if c ∈ ['[', '\\'] then none else tokens (some (cs ++ [c])) rest
  | none, '[' :: rest => tokens (some []) rest
  | none, c :: rest => do
    let ts ← tokens none rest
    if c ∈ "()|\x7b\x7d]\\^$".toList then none
    else if c = '*' then return .star :: ts
    else if c = '+' then return .plus :: ts
    else if c = '?' then return .quest :: ts
    -- the dot is any letter but a line break
    else if c = '.' then return .letter (· ≠ '\n') :: ts
    else return .letter (fun a => a = c) :: ts

/-- The pieces put together. A repetition must follow a letter. -/
def assemble : List Token → Option (Regex Char)
  | [] => some .empty
  | .letter p :: .star :: ts => (assemble ts).map (.cat (.star (.one p)))
  | .letter p :: .plus :: ts => (assemble ts).map (.cat (.cat (.one p) (.star (.one p))))
  | .letter p :: .quest :: ts => (assemble ts).map (.cat (.alt (.one p) .empty))
  | .letter p :: ts => (assemble ts).map (.cat (.one p))
  | _ => none

def anything : Regex Char := .star (.one fun _ => true)

/-- The expression a text must match as a whole for the pattern to be found in it. -/
def compile (pattern : List Char) : Option (Regex Char) :=
  let body := if pattern.head? = '^' then pattern.tail else pattern
  let core := if body.getLast? = '$' then body.dropLast else body
  ((tokens none core).bind assemble).map fun r =>
    let r := if pattern.head? = '^' then r else .cat anything r
    if body.getLast? = '$' then r else .cat r anything

/-- Whether a pattern is found in a text; none is, where it cannot be read. -/
def regexMatch (text pattern : String) : Bool :=
  (compile pattern.toList).any fun r => r.accepts text.toList

example : regexMatch "seat/4711" "^se[^/]+/.*1$" = true := by decide +kernel

end Text
