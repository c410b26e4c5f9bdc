import Mathlib.Data.List.Basic
import Mathlib.Data.List.DropRight
import Mathlib.Data.List.TakeWhile

/-!
# Texts split at their gaps

What splitting a text at every longest run of blanks leaves of it. Each piece is without blanks,
but the first and the last are empty where the text begins or ends with one. `Spells` is the
relation of pieces and text, and `pieces` computes it (`pieces_eq_iff`).
-/

namespace Text.Words
set_option autoImplicit false

variable {α : Type} (blank : α → Bool)

/-- One more letter of the first piece. -/
def extend (a : α) : List (List α) → List (List α)
  | [] => [[a]]
  | w :: ws => (a :: w) :: ws

/-- The pieces of a text, within a gap or not. -/
def pieces (gap : Bool) : List α → List (List α)
  | [] => [[]]
  | a :: text =>
    if blank a then if gap then pieces true text else [] :: pieces true text
    else extend a (pieces false text)

def Visible (w : List α) : Prop := ∀ a ∈ w, blank a = false

def Blank (gap : List α) : Prop := ∀ a ∈ gap, blank a = true

/-- These are the pieces of the text. -/
inductive Spells : List (List α) → List α → Prop where
  | last {w : List α} (visible : Visible blank w) : Spells [w] w
  | next {w gap text : List α} {ws : List (List α)} (visible : Visible blank w) (present : gap ≠ [])
      (blanks : Blank blank gap) (ends : ∀ a ∈ text.head?, blank a = false) (rest : Spells ws text) :
      Spells (w :: ws) (w ++ gap ++ text)

variable {blank}

theorem Spells.extend {ws : List (List α)} {text : List α} (spells : Spells blank ws text) {a : α}
    (visible : blank a = false) : Spells blank (extend a ws) (a :: text) := by
  cases spells with
  | last all => exact .last (List.forall_mem_cons.2 ⟨visible, all⟩)
  | next all present blanks ends rest => exact .next (List.forall_mem_cons.2 ⟨visible, all⟩) present blanks ends rest

theorem head_dropWhile (text : List α) : ∀ a ∈ (text.dropWhile blank).head?, blank a = false := by
  intro a head
  have stopped := List.head?_dropWhile_not blank text
  rw [Option.mem_def.1 head] at stopped
  simpa using stopped

/-- Within a gap, the rest of the gap is passed over. -/
theorem spells_pieces (text : List α) : Spells blank (pieces blank true text) (text.dropWhile blank) ∧
    Spells blank (pieces blank false text) text := by
  induction text with
  | nil => exact ⟨.last (List.forall_mem_nil _), .last (List.forall_mem_nil _)⟩
  | cons a text ih =>
    by_cases gap : blank a = true
    · simp only [pieces, gap, if_true, Bool.false_eq_true, if_false, List.dropWhile_cons]
      refine ⟨ih.1, ?_⟩
      have split : a :: text = [] ++ (a :: text.takeWhile blank) ++ text.dropWhile blank := by simp
      have blanks : Blank blank (a :: text.takeWhile blank) :=
        List.forall_mem_cons.2 ⟨gap, fun _ mem => List.mem_takeWhile_imp mem⟩
      rw [split]
      exact .next (List.forall_mem_nil _) (List.cons_ne_nil _ _) blanks (head_dropWhile text) ih.1
    · have visible : blank a = false := Bool.not_eq_true _ ▸ gap
      simp only [pieces, visible, Bool.false_eq_true, if_false, List.dropWhile_cons]
      exact ⟨ih.2.extend visible, ih.2.extend visible⟩

theorem pieces_visible {w : List α} (visible : Visible blank w) : pieces blank false w = [w] := by
  induction w with
  | nil => rfl
  | cons a w ih =>
    obtain ⟨first, others⟩ := List.forall_mem_cons.1 visible
    simp [pieces, first, ih others, extend]

theorem pieces_gap {gap text : List α} (blanks : Blank blank gap) :
    pieces blank true (gap ++ text) = pieces blank true text := by
  induction gap with
  | nil => rfl
  | cons a gap ih =>
    obtain ⟨first, others⟩ := List.forall_mem_cons.1 blanks
    simp [pieces, first, ih others]

theorem pieces_ended {text : List α} (ends : ∀ a ∈ text.head?, blank a = false) :
    pieces blank true text = pieces blank false text := by
  cases text with
  | nil => rfl
  | cons a text => simp [pieces, ends a rfl]

theorem pieces_next {w gap text : List α} (visible : Visible blank w) (present : gap ≠ []) (blanks : Blank blank gap)
    (ends : ∀ a ∈ text.head?, blank a = false) :
    pieces blank false (w ++ gap ++ text) = w :: pieces blank false text := by
  induction w with
  | nil =>
    obtain ⟨a, gap, rfl⟩ := List.exists_cons_of_ne_nil present
    obtain ⟨first, others⟩ := List.forall_mem_cons.1 blanks
    simp [pieces, first, pieces_gap others, pieces_ended ends]
  | cons a w ih =>
    obtain ⟨first, others⟩ := List.forall_mem_cons.1 visible
    have rest := ih others
    rw [List.append_assoc] at rest
    simp [pieces, first, rest, extend]

theorem pieces_eq_iff {text : List α} {ws : List (List α)} : pieces blank false text = ws ↔ Spells blank ws text := by
  constructor
  · rintro rfl
    exact (spells_pieces text).2
  · intro spells
    induction spells with
    | last visible => exact pieces_visible visible
    | next visible present blanks ends _ ih => rw [pieces_next visible present blanks ends, ih]

/-- A piece is empty only where the text begins or ends with a gap. -/
theorem Spells.nonempty {ws : List (List α)} {text : List α} (spells : Spells blank ws text)
    (begins : ∀ a ∈ text.head?, blank a = false) (ends : ∀ a ∈ text.getLast?, blank a = false) (present : text ≠ []) :
    ∀ w ∈ ws, w ≠ [] := by
  induction spells with
  | last visible => simpa using present
  | @next w gap text ws visible divided blanks endsGap rest ih =>
    have named : w ≠ [] := by
      rintro rfl
      obtain ⟨a, gap, rfl⟩ := List.exists_cons_of_ne_nil divided
      exact absurd (begins a rfl) (by simp [blanks a List.mem_cons_self])
    have more : text ≠ [] := by
      rintro rfl
      have last : (w ++ gap ++ []).getLast? = some (gap.getLast divided) := by
        rw [List.append_nil, List.getLast?_append_of_ne_nil _ divided, List.getLast?_eq_getLast_of_ne_nil divided]
      exact absurd (ends _ last) (by simp [blanks _ (List.getLast_mem divided)])
    have tail : (w ++ gap ++ text).getLast? = text.getLast? := List.getLast?_append_of_ne_nil _ more
    rw [tail] at ends
    exact List.forall_mem_cons.2 ⟨named, ih endsGap ends more⟩

/-! ## Trimming -/

/-- A text without the gaps at its ends. -/
def trim (blank : α → Bool) (text : List α) : List α := (text.dropWhile blank).rdropWhile blank

theorem trim_eq_nil_iff {text : List α} : trim blank text = [] ↔ Blank blank text := by
  rw [trim, List.rdropWhile_eq_nil_iff]
  constructor
  · intro all a mem
    by_contra visible
    have rest : text.dropWhile blank ≠ [] := fun none => visible (List.dropWhile_eq_nil_iff.1 none a mem)
    obtain ⟨b, others, split⟩ := List.exists_cons_of_ne_nil rest
    have first : blank b = false := head_dropWhile text b (by rw [split, List.head?_cons]; rfl)
    exact absurd (all b (by rw [split]; exact List.mem_cons_self)) (by simp [first])
  · exact fun all a mem => all a ((List.dropWhile_suffix blank).subset mem)

end Text.Words
