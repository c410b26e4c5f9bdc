import Codespace.Go.Strings
import Mathlib.Data.List.DropRight

/-!
# Lists in strings

A list of names is often passed on as one string, with a separator between the names. It is
read by splitting the string, trimming the pieces, and keeping the first of equal ones that are
not empty (`items`). Joining what was read gives a normal form of the string: it reads the same
(`items_joined`).
-/

namespace Go
set_option autoImplicit false

/-! ## First occurrences -/

section

variable {α β : Type} [DecidableEq α]

/-- `out` lists the elements of `l` in the order in which they first occur. -/
structure Firsts (l out : List α) : Prop where
  mem_iff : ∀ a, a ∈ out ↔ a ∈ l
  order : out.Pairwise fun a b => l.idxOf a < l.idxOf b

theorem Firsts.nil : Firsts ([] : List α) [] := ⟨fun _ => Iff.rfl, .nil⟩

theorem Firsts.nodup {l out : List α} (h : Firsts l out) : out.Nodup :=
  h.order.imp fun lt same => absurd (same ▸ lt) (lt_irrefl _)

theorem Firsts.unique {l out out' : List α} (h : Firsts l out) (h' : Firsts l out') : out = out' := by
  have perm : out.Perm out' := (List.perm_ext_iff_of_nodup h.nodup h'.nodup).2 fun a =>
    (h.mem_iff a).trans (h'.mem_iff a).symm
  exact perm.eq_of_pairwise (fun _ _ _ _ ab ba => absurd (ab.trans ba) (lt_irrefl _)) h.order h'.order

theorem Firsts.add {l out : List α} (h : Firsts l out) (a : α) : Firsts (l ++ [a]) (addNew out a) := by
  have before : ∀ b ∈ out, (l ++ [a]).idxOf b = l.idxOf b := fun b there => by
    rw [List.idxOf_append, if_pos ((h.mem_iff b).1 there)]
  have order : out.Pairwise fun b c => (l ++ [a]).idxOf b < (l ++ [a]).idxOf c := by
    refine h.order.imp_of_mem fun {b c} hb hc lt => ?_
    rwa [before b hb, before c hc]
  refine ⟨fun b => ?_, ?_⟩
  · rw [mem_addNew, h.mem_iff, List.mem_append, List.mem_singleton]
  · unfold addNew
    split
    · exact order
    · rename_i missing
      refine List.pairwise_append.2 ⟨order, List.pairwise_singleton _ _, fun b there c new => ?_⟩
      obtain rfl := List.mem_singleton.1 new
      rw [before b there, List.idxOf_append, if_neg fun there => missing ((h.mem_iff c).2 there)]
      exact (List.idxOf_lt_length_of_mem ((h.mem_iff b).1 there)).trans_le (Nat.le_add_left _ _)

/-- What the loop of `collect` keeps. -/
theorem Firsts.collect {keep : α → Bool} {f : β → α} {seen out : List α} (h : Firsts seen out) (l : List β) :
    Firsts (seen ++ (l.map f).filter keep) (collect keep f l out) := by
  unfold Go.collect
  induction l generalizing seen out with
  | nil => simpa using h
  | cons b l ih =>
    rw [List.foldl_cons, List.map_cons, List.filter_cons]
    split
    · rw [List.append_cons]
      exact ih (h.add (f b))
    · exact ih h

theorem firsts_eraseDups (l : List α) : Firsts l l.eraseDups := by
  induction l using List.reverseRecOn with
  | nil => exact .nil
  | append_singleton l a ih =>
    have step : (l ++ [a]).eraseDups = addNew l.eraseDups a := by
      rw [List.eraseDups_append]
      by_cases there : a ∈ l <;> simp [addNew, List.removeAll, List.eraseDups_cons, there]
    rw [step]
    exact ih.add a

theorem eraseDups_of_nodup {l : List α} (nodup : l.Nodup) : l.eraseDups = l := by
  induction l with
  | nil => rfl
  | cons a l ih =>
    obtain ⟨fresh, nodup⟩ := List.nodup_cons.1 nodup
    have others : l.filter (fun b => !b == a) = l :=
      List.filter_eq_self.2 fun b mem => by simpa using ne_of_mem_of_not_mem mem fresh
    rw [List.eraseDups_cons, others, ih nodup]

end

/-! ## Trimming and splitting -/

theorem mem_trimSpace {s : String} {c : Char} (mem : c ∈ (trimSpace s).toList) : c ∈ s.toList := by
  rw [trimSpace, String.toList_ofList] at mem
  exact (List.dropWhile_suffix isSpace).subset ((List.rdropWhile_prefix isSpace _).subset mem)

/-- What is trimmed stays as it is. -/
theorem trimSpace_trimSpace (s : String) : trimSpace (trimSpace s) = trimSpace s := by
  have ends : ∀ l : List Char, (l.rdropWhile isSpace).rdropWhile isSpace = l.rdropWhile isSpace :=
    List.rdropWhile_idempotent isSpace
  have start : ((s.toList.dropWhile isSpace).rdropWhile isSpace).dropWhile isSpace =
      (s.toList.dropWhile isSpace).rdropWhile isSpace := by
    refine List.dropWhile_eq_self_iff.2 fun here => ?_
    have first := List.IsPrefix.getElem (List.rdropWhile_prefix isSpace (s.toList.dropWhile isSpace)) here
    rw [first]
    exact List.dropWhile_get_zero_not isSpace s.toList _
  have whole : ∀ t, trimSpace t = String.ofList ((t.toList.dropWhile isSpace).rdropWhile isSpace) := fun _ => rfl
  rw [whole (trimSpace s), whole s, String.toList_ofList, start, ends]

theorem mem_split {sep : Char} {s piece : String} (mem : piece ∈ split sep s) : sep ∉ piece.toList := by
  obtain ⟨chars, here, rfl⟩ := List.mem_map.1 mem
  rw [String.toList_ofList]
  exact fun inside => (mem_splitOn here sep inside).2 rfl

/-- `strings.Join(names, sep)`. -/
def joined (sep : Char) (names : List String) : String := (String.singleton sep).intercalate names

theorem split_joined {sep : Char} {names : List String} (some : names ≠ []) (whole : ∀ n ∈ names, sep ∉ n.toList) :
    split sep (joined sep names) = names := by
  have pieces : ∀ l ∈ names.map String.toList, sep ∉ l := List.forall_mem_map.2 whole
  rw [split, joined, String.toList_intercalate, String.toList_singleton,
    List.splitOn_intercalate sep pieces (List.map_eq_nil_iff.not.2 some), List.map_map]
  exact List.map_id'' (fun n => String.ofList_toList) names

/-! ## Items -/

/-- The loop that reads a list. -/
def items (sep : Char) (s : String) : List String := collect (fun p => p ≠ "") trimSpace (split sep s) []

/-- What can be an item. -/
structure IsItem (sep : Char) (n : String) : Prop where
  some : n ≠ ""
  trimmed : trimSpace n = n
  whole : sep ∉ n.toList

section

variable {sep : Char} {s : String} {names : List String}

/-- The pieces of a string that hold something, trimmed. -/
def pieces (sep : Char) (s : String) : List String := ((split sep s).map trimSpace).filter (· ≠ "")

theorem items_firsts (sep : Char) (s : String) : Firsts (pieces sep s) (items sep s) := Firsts.nil.collect (split sep s)

theorem mem_pieces {n : String} : n ∈ pieces sep s ↔ n ≠ "" ∧ ∃ piece ∈ split sep s, trimSpace piece = n := by
  rw [pieces, List.mem_filter, List.mem_map, and_comm, decide_eq_true_iff]

theorem items_isItem {n : String} (mem : n ∈ items sep s) : IsItem sep n := by
  obtain ⟨some, piece, here, rfl⟩ := mem_pieces.1 (((items_firsts sep s).mem_iff n).1 mem)
  exact ⟨some, trimSpace_trimSpace piece, fun inside => mem_split here (mem_trimSpace inside)⟩

/-- There is nothing to read in white space. -/
theorem items_blank (blank : trimSpace s = "") : items sep s = [] := by
  refine List.eq_nil_iff_forall_not_mem.2 fun n mem => ?_
  obtain ⟨some, piece, here, rfl⟩ := mem_pieces.1 (((items_firsts sep s).mem_iff n).1 mem)
  exact some (trimSpace_piece blank here)

/-- The pieces of joined names are the names. -/
theorem pieces_joined (fit : ∀ n ∈ names, IsItem sep n) : pieces sep (joined sep names) = names := by
  by_cases none : names = []
  · subst none
    have blank : trimSpace (joined sep []) = "" := by rw [joined, String.intercalate_nil]; decide
    have nothing := (items_firsts sep (joined sep [])).mem_iff
    rw [items_blank blank] at nothing
    exact List.eq_nil_iff_forall_not_mem.2 fun n mem => List.not_mem_nil ((nothing n).2 mem)
  · rw [pieces, split_joined none fun n mem => (fit n mem).whole, List.map_congr_left fun n mem => (fit n mem).trimmed,
      List.map_id', List.filter_eq_self]
    exact fun n mem => decide_eq_true (fit n mem).some

/-- Joined names are read without the later ones of equal names. -/
theorem items_joined (fit : ∀ n ∈ names, IsItem sep n) : items sep (joined sep names) = names.eraseDups := by
  have read := items_firsts sep (joined sep names)
  rw [pieces_joined fit] at read
  exact read.unique (firsts_eraseDups names)

end

end Go
