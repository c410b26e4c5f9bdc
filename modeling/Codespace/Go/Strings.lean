import Mathlib.Data.List.Sort
import Mathlib.Data.List.TakeWhile
import Mathlib.Data.String.Basic

/-!
# Go strings, and sets of them kept in lists

`strings.TrimSpace`, `strings.Split` at one character and `sort.Strings`. Go code has no
sets; it keeps one as a list, with a map to see what is in it already. `addNew` is a step
of such a loop. `Lists l P` says that `l` is the strictly sorted list of what satisfies `P`.
-/

namespace Go
set_option autoImplicit false

/-- `unicode.IsSpace`. -/
def isSpace (c : Char) : Bool :=
  c ∈ ['\t', '\n', '\x0b', '\x0c', '\r', ' ', '\u0085', '\u00a0', '\u1680', '\u2028', '\u2029', '\u202f',
    '\u205f', '\u3000'] || ('\u2000' ≤ c && c ≤ '\u200a')

/-- `strings.TrimSpace`. -/
def trimSpace (s : String) : String :=
  String.ofList ((s.toList.dropWhile isSpace).reverse.dropWhile isSpace).reverse

/-- `strings.Split(s, sep)`. -/
def split (sep : Char) (s : String) : List String := (s.toList.splitOn sep).map String.ofList

/-- A piece consists of elements of the whole, other than the separator. -/
theorem mem_splitOn {α : Type} [DecidableEq α] {sep : α} {xs piece : List α} (mem : piece ∈ xs.splitOn sep) :
    ∀ c ∈ piece, c ∈ xs ∧ c ≠ sep := by
  induction xs generalizing piece with
  | nil =>
    rw [List.splitOn_nil, List.mem_singleton] at mem
    simp [mem]
  | cons x xs ih =>
    rw [List.splitOn_cons_eq_if_modifyHead] at mem
    split at mem
    · rcases List.mem_cons.1 mem with rfl | mem
      · simp
      · exact fun c here => ⟨List.mem_cons_of_mem x (ih mem c here).1, (ih mem c here).2⟩
    · rename_i other
      have ne : x ≠ sep := by simpa using other
      cases pieces : xs.splitOn sep with
      | nil => exact absurd pieces (List.splitOn_ne_nil sep xs)
      | cons first rest =>
        rw [pieces] at mem ih
        rcases List.mem_cons.1 mem with rfl | mem
        · intro c here
          rcases List.mem_cons.1 here with rfl | here
          · exact ⟨List.mem_cons_self, ne⟩
          · have there := ih List.mem_cons_self c here
            exact ⟨List.mem_cons_of_mem x there.1, there.2⟩
        · intro c here
          have there := ih (List.mem_cons_of_mem first mem) c here
          exact ⟨List.mem_cons_of_mem x there.1, there.2⟩

/-- What joined lists consist of. -/
theorem mem_intercalate {α : Type} {sep : α} {parts : List (List α)} {a : α} (mem : a ∈ [sep].intercalate parts) :
    a = sep ∨ ∃ part ∈ parts, a ∈ part := by
  induction parts with
  | nil => exact absurd mem List.not_mem_nil
  | cons part parts ih =>
    by_cases last : parts = []
    · subst last
      exact .inr ⟨part, List.mem_cons_self, by simpa using mem⟩
    · rw [List.intercalate_cons_of_ne_nil last, List.mem_append, List.mem_append, List.mem_singleton] at mem
      rcases mem with (mem | rfl) | mem
      · exact .inr ⟨part, List.mem_cons_self, mem⟩
      · exact .inl rfl
      · exact (ih mem).imp_right fun ⟨other, there, inside⟩ => ⟨other, List.mem_cons_of_mem part there, inside⟩

/-- Nothing is left of white space, and of nothing else. -/
theorem trimSpace_eq_empty_iff (s : String) : trimSpace s = "" ↔ ∀ c ∈ s.toList, isSpace c = true := by
  have empty : ∀ l : List Char, l.dropWhile isSpace = [] ↔ ∀ c ∈ l, isSpace c = true := fun l => List.dropWhile_eq_nil_iff
  rw [trimSpace, ← String.toList_inj, String.toList_ofList, String.toList_empty, List.reverse_eq_nil_iff, empty]
  simp only [List.mem_reverse]
  constructor
  · intro rest
    have first := List.takeWhile_append_dropWhile (p := isSpace) (l := s.toList)
    intro c mem
    rw [← first, List.mem_append] at mem
    exact mem.elim (fun here => List.mem_takeWhile_imp here) (rest c)
  · exact fun all c mem => all c ((List.dropWhile_suffix isSpace).subset mem)

/-- The pieces of white space are white space. -/
theorem trimSpace_piece {sep : Char} {s piece : String} (blank : trimSpace s = "") (mem : piece ∈ split sep s) :
    trimSpace piece = "" := by
  obtain ⟨chars, here, rfl⟩ := List.mem_map.1 mem
  rw [trimSpace_eq_empty_iff] at *
  intro c inside
  rw [String.toList_ofList] at inside
  exact blank c (mem_splitOn here c inside).1

/-- `sort.Strings`. -/
def sortStrings (l : List String) : List String := l.insertionSort (· ≤ ·)

@[simp] theorem mem_sortStrings {l : List String} {s : String} : s ∈ sortStrings l ↔ s ∈ l :=
  List.mem_insertionSort _

theorem sortStrings_sorted (l : List String) : (sortStrings l).Pairwise (· ≤ ·) :=
  List.pairwise_insertionSort _ l

theorem sortStrings_of_sorted {l : List String} (sorted : l.Pairwise (· ≤ ·)) : sortStrings l = l :=
  sorted.insertionSort_eq

/-- Sorted and without duplicates is strictly sorted. -/
theorem sortStrings_strict {l : List String} (nodup : l.Nodup) : (sortStrings l).Pairwise (· < ·) := by
  have distinct : (sortStrings l).Nodup := ((List.perm_insertionSort (· ≤ ·) l).nodup_iff).2 nodup
  exact ((sortStrings_sorted l).and distinct).imp fun ⟨le, ne⟩ => lt_of_le_of_ne le ne

/-! ## Sets -/

section

variable {α β : Type} [DecidableEq α]

/-- Append what is not there yet. -/
def addNew (out : List α) (a : α) : List α := if a ∈ out then out else out ++ [a]

theorem mem_addNew {out : List α} {a b : α} : b ∈ addNew out a ↔ b ∈ out ∨ b = a := by
  unfold addNew
  split
  · rename_i there
    exact ⟨.inl, fun h => h.elim id fun eq => eq ▸ there⟩
  · simp

theorem nodup_addNew {out : List α} {a : α} (nodup : out.Nodup) : (addNew out a).Nodup := by
  unfold addNew
  split
  · exact nodup
  · rename_i missing
    exact nodup.append (List.nodup_singleton a) (List.disjoint_singleton.2 missing)

/-- The loop that collects what passes a test. -/
def collect (keep : α → Bool) (f : β → α) (l : List β) (out : List α) : List α :=
  l.foldl (fun out b => if keep (f b) then addNew out (f b) else out) out

theorem mem_collect {keep : α → Bool} {f : β → α} {l : List β} {out : List α} {a : α} :
    a ∈ collect keep f l out ↔ a ∈ out ∨ keep a = true ∧ ∃ b ∈ l, f b = a := by
  unfold collect
  induction l generalizing out with
  | nil => simp
  | cons b l ih =>
    rw [List.foldl_cons, ih]
    cases kept : keep (f b) with
    | true =>
      rw [if_pos rfl, mem_addNew]
      constructor
      · rintro ((there | rfl) | ⟨ok, b', mem, rfl⟩)
        · exact .inl there
        · exact .inr ⟨kept, b, List.mem_cons_self, rfl⟩
        · exact .inr ⟨ok, b', List.mem_cons_of_mem b mem, rfl⟩
      · rintro (there | ⟨ok, b', mem, rfl⟩)
        · exact .inl (.inl there)
        · rcases List.mem_cons.1 mem with rfl | mem
          · exact .inl (.inr rfl)
          · exact .inr ⟨ok, b', mem, rfl⟩
    | false =>
      rw [if_neg Bool.false_ne_true]
      refine or_congr_right (and_congr_right fun ok => ⟨?_, ?_⟩)
      · rintro ⟨b', mem, eq⟩
        exact ⟨b', List.mem_cons_of_mem b mem, eq⟩
      · rintro ⟨b', mem, rfl⟩
        rcases List.mem_cons.1 mem with rfl | mem
        · exact absurd ok (by simp [kept])
        · exact ⟨b', mem, rfl⟩

theorem nodup_collect {keep : α → Bool} {f : β → α} {l : List β} {out : List α} (nodup : out.Nodup) :
    (collect keep f l out).Nodup := by
  unfold collect
  induction l generalizing out with
  | nil => exact nodup
  | cons b l ih =>
    rw [List.foldl_cons]
    split
    · exact ih (nodup_addNew nodup)
    · exact ih nodup

end

/-- The strictly sorted list of the strings that satisfy `P`. -/
structure Lists (l : List String) (P : String → Prop) : Prop where
  sorted : l.Pairwise (· < ·)
  mem_iff : ∀ s, s ∈ l ↔ P s

theorem Lists.unique {l l' : List String} {P : String → Prop} (h : Lists l P) (h' : Lists l' P) : l = l' := by
  have nodup : ∀ {l : List String}, l.Pairwise (· < ·) → l.Nodup := fun sorted => sorted.imp fun lt => ne_of_lt lt
  have perm : l.Perm l' := (List.perm_ext_iff_of_nodup (nodup h.sorted) (nodup h'.sorted)).2 fun s =>
    (h.mem_iff s).trans (h'.mem_iff s).symm
  exact perm.eq_of_pairwise (fun a b _ _ ab ba => absurd (ab.trans ba) (lt_irrefl a)) h.sorted h'.sorted

theorem Lists.congr {l : List String} {P Q : String → Prop} (h : Lists l P) (same : ∀ s, P s ↔ Q s) : Lists l Q :=
  ⟨h.sorted, fun s => (h.mem_iff s).trans (same s)⟩

/-- A list without duplicates, sorted. -/
theorem lists_sortStrings {l : List String} (nodup : l.Nodup) : Lists (sortStrings l) (· ∈ l) :=
  ⟨sortStrings_strict nodup, fun _ => mem_sortStrings⟩

/-- What remains of a sorted list. -/
theorem Lists.filter {l : List String} {P : String → Prop} (h : Lists l P) (p : String → Bool) :
    Lists (l.filter p) fun s => P s ∧ p s = true :=
  ⟨h.sorted.filter p, fun s => by rw [List.mem_filter, h.mem_iff]⟩

end Go
