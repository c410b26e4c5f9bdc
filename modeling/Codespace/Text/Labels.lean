import Codespace.Go.Strings

/-!
# Names made of labels

The rules that DNS and Kubernetes have for names: which letters there may be inside, which
at the two ends, how many, and labels joined by dots. A label stays one when something is
put before or behind it (`edged_prepend`, `edged_append`), and the rules are compared by
`edged_mono`.
-/

namespace Text
set_option autoImplicit false

section

variable {first last inner : Char → Bool} {w : List Char}

/-- A nonempty word of `inner` letters that starts with a `first` and ends with a `last` one. -/
def edged (first last inner : Char → Bool) (w : List Char) : Bool :=
  !w.isEmpty && w.all inner && w.head?.all first && w.getLast?.all last

theorem edged_iff : edged first last inner w = true ↔ w ≠ [] ∧ (∀ c ∈ w, inner c = true) ∧
    (∀ c ∈ w.head?, first c = true) ∧ ∀ c ∈ w.getLast?, last c = true := by
  simp [edged, Option.all_eq_true, and_assoc]

theorem edged_prepend {first' : Char → Bool} {front : List Char} (h : edged first last inner w = true)
    (some : front ≠ []) (all : front.all inner = true) (head : front.head?.all first' = true) :
    edged first' last inner (front ++ w) = true := by
  obtain ⟨nonempty, within, -, ends⟩ := edged_iff.1 h
  refine edged_iff.2 ⟨by simp [some], fun c mem => ?_, ?_, ?_⟩
  · exact (List.mem_append.1 mem).elim (List.all_eq_true.1 all c) (within c)
  · rw [List.head?_append_of_ne_nil _ some]
    exact (Option.all_eq_true _ _).1 head
  · rwa [List.getLast?_append_of_ne_nil _ nonempty]

theorem edged_append {last' : Char → Bool} {back : List Char} (h : edged first last inner w = true)
    (some : back ≠ []) (all : back.all inner = true) (ends : back.getLast?.all last' = true) :
    edged first last' inner (w ++ back) = true := by
  obtain ⟨nonempty, within, head, -⟩ := edged_iff.1 h
  refine edged_iff.2 ⟨by simp [some], fun c mem => ?_, ?_, ?_⟩
  · exact (List.mem_append.1 mem).elim (within c) (List.all_eq_true.1 all c)
  · rwa [List.head?_append_of_ne_nil _ nonempty]
  · rw [List.getLast?_append_of_ne_nil _ some]
    exact (Option.all_eq_true _ _).1 ends

theorem edged_mono {first' last' inner' : Char → Bool} (h : edged first last inner w = true)
    (starts : ∀ c, first c = true → first' c = true) (ends : ∀ c, last c = true → last' c = true)
    (within : ∀ c, inner c = true → inner' c = true) : edged first' last' inner' w = true := by
  obtain ⟨nonempty, all, head, tail⟩ := edged_iff.1 h
  exact edged_iff.2 ⟨nonempty, fun c mem => within c (all c mem), fun c mem => starts c (head c mem),
    fun c mem => ends c (tail c mem)⟩

end

/-! ## The rules -/

def lowerAlnum (c : Char) : Bool := c.isLower || c.isDigit

def labelLetter (c : Char) : Bool := lowerAlnum c || c = '-'

/-- A label in the sense of RFC 1123. -/
def isLabel : List Char → Bool := edged lowerAlnum lowerAlnum labelLetter

/-- A label in the sense of RFC 1035: it starts with a letter. -/
def isLabel1035 : List Char → Bool := edged Char.isLower lowerAlnum labelLetter

/-- A DNS-1123 subdomain: labels joined by dots. -/
def isSubdomain (name : String) : Bool := name.length ≤ 253 && (name.toList.splitOn '.').all isLabel

/-- A DNS-1035 label. -/
def isDNS1035 (name : String) : Bool := name.length ≤ 63 && isLabel1035 name.toList

/-- The value of a Kubernetes label. -/
def isLabelValue (value : String) : Bool :=
  value.length ≤ 63 && (value = "" || edged Char.isAlphanum Char.isAlphanum
    (fun c => c.isAlphanum || c = '-' || c = '_' || c = '.') value.toList)

section

variable {w : List Char} {name : String}

theorem isLabel_of_1035 (h : isLabel1035 w = true) : isLabel w = true :=
  edged_mono h (fun c lower => by simp [lowerAlnum, lower]) (fun _ => id) fun _ => id

theorem isLabel_no_dot (h : isLabel w = true) : '.' ∉ w := fun mem =>
  absurd ((edged_iff.1 h).2.1 _ mem) (by decide)

/-- Without a dot, a subdomain is a label. -/
theorem isSubdomain_iff_of_no_dot (none : '.' ∉ name.toList) :
    isSubdomain name = true ↔ name.length ≤ 253 ∧ isLabel name.toList = true := by
  simp [isSubdomain, List.splitOn_eq_singleton none]

theorem isSubdomain_of_label (length : name.length ≤ 253) (h : isLabel name.toList = true) :
    isSubdomain name = true := (isSubdomain_iff_of_no_dot (isLabel_no_dot h)).2 ⟨length, h⟩

/-- The letters of a subdomain. -/
theorem isSubdomain_letters (h : isSubdomain name = true) : ∀ c ∈ name.toList, labelLetter c = true ∨ c = '.' := by
  simp only [isSubdomain, Bool.and_eq_true, List.all_eq_true] at h
  intro c mem
  have whole : ['.'].intercalate (name.toList.splitOn '.') = name.toList := List.intercalate_splitOn '.'
  rw [← whole] at mem
  rcases Go.mem_intercalate mem with dot | ⟨label, there, inside⟩
  · exact .inr dot
  · exact .inl ((edged_iff.1 (h.2 label there)).2.1 c inside)

theorem isAlphanum_of_lower {c : Char} (lower : lowerAlnum c = true) : c.isAlphanum = true := by
  simp only [lowerAlnum, Bool.or_eq_true] at lower
  show ((c.isUpper || c.isLower) || c.isDigit) = true
  rw [Bool.or_eq_true, Bool.or_eq_true]
  exact lower.imp .inr id

theorem isLabelValue_of_label (length : name.length ≤ 63) (h : isLabel name.toList = true) :
    isLabelValue name = true := by
  have letters : edged Char.isAlphanum Char.isAlphanum
      (fun c => c.isAlphanum || c = '-' || c = '_' || c = '.') name.toList = true := by
    refine edged_mono h (fun _ => isAlphanum_of_lower) (fun _ => isAlphanum_of_lower) fun c letter => ?_
    simp only [labelLetter, Bool.or_eq_true, decide_eq_true_eq] at letter ⊢
    exact .inl (.inl (letter.imp_left isAlphanum_of_lower))
  simp [isLabelValue, length, letters]

end

end Text
