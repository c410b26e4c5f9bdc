import Codespace.Text.Json

/-!
# How Go encodes JSON

`json.Marshal`, for a value that has a JSON text. In strings it escapes quotes, backslashes
and control characters, and besides them `<`, `>`, `&` and the two line separators of
Unicode. There is no space between tokens, so the text has no control character at all
(`encode_visible`). A struct gives its members in the order of its fields, a map in that of
its keys.

What is encoded is parsed back (`parse_marshal`).
-/

namespace Go
set_option autoImplicit false
open Text Text.Json

/-! ## The encoder -/

/-- The letter of a short escape. -/
def shortEscape (c : Char) : Option Char :=
  if c ∈ ['"', '\\'] then some c
  else if c = '\x08' then some 'b'
  else if c = '\x0c' then some 'f'
  else if c = '\n' then some 'n'
  else if c = '\r' then some 'r'
  else if c = '\t' then some 't'
  else none

def unicodeEscape (c : Char) : List Char :=
  let n := c.toNat
  ['\\', 'u', Nat.digitChar (n / 4096 % 16), Nat.digitChar (n / 256 % 16), Nat.digitChar (n / 16 % 16),
    Nat.digitChar (n % 16)]

def htmlSafe (c : Char) : Bool := ' ' ≤ c && c ∉ ['"', '\\', '<', '>', '&', '\u2028', '\u2029']

def appendRune (c : Char) : List Char :=
  if htmlSafe c then [c]
  else match shortEscape c with
  | some e => ['\\', e]
  | none => unicodeEscape c

def appendString (s : String) : List Char := '"' :: s.toList.flatMap appendRune ++ ['"']

mutual

def encode : Value → List Char
  | .null => "null".toList
  | .bool true => "true".toList
  | .bool false => "false".toList
  | .number n => n.text
  | .string s => appendString s
  | .array vs => '[' :: [','].intercalate (encodeElements vs) ++ [']']
  | .object ms => '\x7b' :: [','].intercalate (encodeMembers ms) ++ ['\x7d']

def encodeElements : List Value → List (List Char)
  | [] => []
  | v :: vs => encode v :: encodeElements vs

def encodeMembers : List (String × Value) → List (List Char)
  | [] => []
  | (name, v) :: ms => (appendString name ++ ':' :: encode v) :: encodeMembers ms

end

def Marshal (v : Value) : String := .ofList (encode v)

def encodeMember (m : String × Value) : List Char := appendString m.1 ++ ':' :: encode m.2

@[simp] theorem encodeElements_eq (vs : List Value) : encodeElements vs = vs.map encode := by
  induction vs with
  | nil => rfl
  | cons v vs ih => rw [encodeElements, ih, List.map_cons]

@[simp] theorem encodeMembers_eq (ms : List (String × Value)) : encodeMembers ms = ms.map encodeMember := by
  induction ms with
  | nil => rfl
  | cons m ms ih => rw [encodeMembers, ih, List.map_cons, encodeMember]

/-! ## No control characters -/

theorem visible_short {c e : Char} (h : shortEscape c = some e) : ' ' ≤ e ∧ escaped e = some c := by
  unfold shortEscape at h
  split at h
  · rename_i mem
    cases h
    rcases List.mem_pair.1 mem with rfl | rfl
    · decide
    · decide
  repeat' split at h
  all_goals first
    | cases h
      subst_vars
      decide
    | cases h

theorem digitChar_visible : ∀ n < 16, ' ' ≤ Nat.digitChar n := by
  decide

theorem appendRune_visible {c c' : Char} (mem : c' ∈ appendRune c) : ' ' ≤ c' := by
  unfold appendRune at mem
  split at mem
  · rename_i safe
    rw [List.mem_singleton.1 mem]
    exact of_decide_eq_true (Bool.and_eq_true_iff.1 safe).1
  split at mem
  · rename_i e short
    rcases List.mem_cons.1 mem with rfl | mem
    · decide
    · exact List.mem_singleton.1 mem ▸ (visible_short short).1
  · simp only [unicodeEscape, List.mem_cons, List.not_mem_nil, or_false] at mem
    have digit : ∀ n, ' ' ≤ Nat.digitChar (n % 16) := fun n => digitChar_visible _ (Nat.mod_lt n (by decide))
    rcases mem with rfl | rfl | rfl | rfl | rfl | rfl
    · decide
    · decide
    all_goals exact digit _

theorem appendString_visible {s : String} {c : Char} (mem : c ∈ appendString s) : ' ' ≤ c := by
  rw [appendString, List.cons_append, List.mem_cons, List.mem_append, List.mem_singleton] at mem
  rcases mem with rfl | mem | rfl
  · decide
  · obtain ⟨c', -, mem⟩ := List.mem_flatMap.1 mem
    exact appendRune_visible mem
  · decide

theorem numeric_visible {c : Char} (h : numeric c = true) : ' ' ≤ c := by
  have marks : ∀ c ∈ ['-', '+', '.', 'e', 'E'], ' ' ≤ c := List.all_iff_forall_prop.1 (by decide)
  rcases Bool.or_eq_true_iff.1 h with digit | mark
  · exact Char.le_trans (by decide) (of_decide_eq_true (Bool.and_eq_true_iff.1 digit).1)
  · exact marks c (of_decide_eq_true mark)

theorem bracketed_visible {first last : Char} {parts : List (List Char)} (h : ' ' ≤ first) (h' : ' ' ≤ last)
    (each : ∀ part ∈ parts, ∀ c ∈ part, ' ' ≤ c) :
    ∀ c ∈ first :: [','].intercalate parts ++ [last], ' ' ≤ c := by
  intro c mem
  rw [List.cons_append, List.mem_cons, List.mem_append, List.mem_singleton] at mem
  rcases mem with rfl | mem | rfl
  · exact h
  · rcases Go.mem_intercalate mem with rfl | ⟨part, there, mem⟩
    · decide
    · exact each part there c mem
  · exact h'

theorem encode_visible (v : Value) : ∀ c ∈ encode v, ' ' ≤ c := by
  induction v with
  | null => exact List.all_iff_forall_prop.1 (by decide)
  | bool b =>
    cases b with
    | true => exact List.all_iff_forall_prop.1 (by decide)
    | false => exact List.all_iff_forall_prop.1 (by decide)
  | number n => exact fun c mem => numeric_visible (n.numeric c mem)
  | string s => exact fun c mem => appendString_visible mem
  | array vs ih =>
    rw [encode, encodeElements_eq]
    refine bracketed_visible (by decide) (by decide) fun part mem => ?_
    obtain ⟨v, inside, rfl⟩ := List.mem_map.1 mem
    exact ih v inside
  | object ms ih =>
    rw [encode, encodeMembers_eq]
    refine bracketed_visible (by decide) (by decide) fun part mem c there => ?_
    obtain ⟨m, inside, rfl⟩ := List.mem_map.1 mem
    rw [encodeMember, List.mem_append, List.mem_cons] at there
    rcases there with name | rfl | text
    · exact appendString_visible name
    · decide
    · exact ih m inside c text

/-! ## The way back -/

theorem hexValue_digitChar : ∀ n < 16, hexValue (Nat.digitChar n) = some n := by
  decide

theorem codeUnit_digits {n : Nat} (h : n < 0x10000) : codeUnit (Nat.digitChar (n / 4096 % 16))
    (Nat.digitChar (n / 256 % 16)) (Nat.digitChar (n / 16 % 16)) (Nat.digitChar (n % 16)) = some n := by
  have digit : ∀ k, hexValue (Nat.digitChar (k % 16)) = some (k % 16) := fun k =>
    hexValue_digitChar _ (Nat.mod_lt k (by decide))
  simp only [codeUnit, digit, Option.pure_def, Option.bind_eq_bind, Option.bind_some, Option.some.injEq]
  omega

/-- What is escaped without a short escape comes before the surrogates. -/
theorem unsafe_low {c : Char} (h : htmlSafe c = false) : c.toNat < 0xD800 := by
  have marks : ∀ c ∈ ['"', '\\', '<', '>', '&', '\u2028', '\u2029'], c.toNat < 0xD800 :=
    List.all_iff_forall_prop.1 (by decide)
  rcases Bool.and_eq_false_iff.1 h with control | mark
  · have below : c < ' ' := Char.not_le.1 (of_decide_eq_false control)
    have : c.toNat < 32 := below
    omega
  · exact marks c (Decidable.not_not.1 (of_decide_eq_false mark))

theorem characters_rune (c : Char) (rest : List Char) :
    characters none (appendRune c ++ rest) = more c (characters none rest) := by
  unfold appendRune
  split
  · rename_i safe
    obtain ⟨visible, noMark⟩ := Bool.and_eq_true_iff.1 safe
    have plain := of_decide_eq_true noMark
    refine characters_plain (of_decide_eq_true visible) ?_ ?_
    · rintro rfl
      exact plain (by decide)
    · rintro rfl
      exact plain (by decide)
  rename_i notSafe
  split
  · rename_i e short
    exact characters_escaped (visible_short short).2
  · have low : c.toNat < 0xD800 := unsafe_low (Bool.eq_false_iff.2 notSafe)
    have back := codeUnit_digits (Nat.lt_trans low (by decide))
    have unit : characters none (unicodeEscape c ++ rest) = more (Char.ofNat c.toNat) (characters none rest) :=
      characters_unit back low
    rwa [Char.ofNat_toNat] at unit

theorem characters_runes (cs rest : List Char) :
    characters none (cs.flatMap appendRune ++ '"' :: rest) = some (cs, rest) := by
  induction cs with
  | nil => exact characters_quote
  | cons c cs ih =>
    rw [List.flatMap_cons, List.append_assoc, characters_rune, ih]
    rfl

theorem stringText_appendString (s : String) (rest : List Char) :
    stringText (appendString s ++ rest) = some (s, rest) := by
  rw [appendString, List.cons_append, List.cons_append, List.append_assoc, List.singleton_append]
  rw [stringText, characters_runes, Option.map_some]
  dsimp only
  rw [String.ofList_toList]

/-- A value is seen from its first character on. -/
theorem encode_shows (v : Value) : Shows ']' (encode v) := by
  cases v with
  | null => exact ⟨'n', "ull".toList, rfl, rfl, by decide⟩
  | bool b =>
    cases b with
    | true => exact ⟨'t', "rue".toList, rfl, rfl, by decide⟩
    | false => exact ⟨'f', "alse".toList, rfl, rfl, by decide⟩
  | number n =>
    rw [encode]
    obtain ⟨c, w, eq⟩ := List.exists_cons_of_ne_nil n.text_ne
    have number : numeric c = true := n.numeric c (eq ▸ List.mem_cons_self)
    refine ⟨c, w, eq, numeric_shows number, ?_⟩
    rintro rfl
    cases number
  | string s => exact ⟨'"', _, rfl, rfl, by decide⟩
  | array vs => exact ⟨'[', _, rfl, rfl, by decide⟩
  | object ms => exact ⟨'\x7b', _, rfl, rfl, by decide⟩

theorem encodeMember_shows (m : String × Value) : Shows '\x7d' (encodeMember m) :=
  ⟨'"', _, rfl, rfl, by decide⟩

theorem member_encodeMember {parser : Parser Value} {m : String × Value} {rest : List Char}
    (reads : parser (encode m.2 ++ rest) = some (m.2, rest)) :
    member parser (encodeMember m ++ rest) = some (m, rest) := by
  rw [encodeMember, List.append_assoc, List.cons_append, member, stringText_appendString]
  dsimp only
  rw [skip_cons (c := ':') rfl]
  change (parser (skip (encode m.2 ++ rest))).map _ = _
  rw [(encode_shows m.2).skip, reads]
  rfl

theorem stops_list {c close : Char} {rest : List Char} (h : c = ',' ∨ c = close)
    (closes : numeric close = false) : Stops (c :: rest) := by
  rintro c' ⟨⟩
  rcases h with rfl | rfl
  · rfl
  · exact closes

theorem encode_pos (v : Value) {fuel : Nat} (enough : (encode v).length ≤ fuel) : ∃ k, fuel = k + 1 := by
  have some_ : 0 < (encode v).length := List.length_pos_iff.2 (encode_shows v).ne_nil
  exact Nat.exists_eq_succ_of_ne_zero (Nat.ne_zero_of_lt (Nat.lt_of_lt_of_le some_ enough))

theorem value_encode (v : Value) {fuel : Nat} (enough : (encode v).length ≤ fuel) {rest : List Char}
    (stops : Stops rest) : value fuel (encode v ++ rest) = some (v, rest) := by
  induction v generalizing fuel rest with
  | null =>
    obtain ⟨fuel, rfl⟩ := encode_pos .null enough
    rfl
  | bool b =>
    obtain ⟨fuel, rfl⟩ := encode_pos (.bool b) enough
    cases b <;> rfl
  | number n =>
    obtain ⟨fuel, rfl⟩ := encode_pos (.number n) enough
    obtain ⟨c, w, eq⟩ := List.exists_cons_of_ne_nil n.text_ne
    have number : numeric c = true := n.numeric c (eq ▸ List.mem_cons_self)
    have reads := numberText_append n stops
    rw [eq, List.cons_append] at reads
    rw [encode, eq, List.cons_append, value_number number, reads]
    rfl
  | string s =>
    obtain ⟨fuel, rfl⟩ := encode_pos (.string s) enough
    have reads := stringText_appendString s rest
    rw [appendString, List.cons_append, List.cons_append] at reads
    rw [encode, appendString, List.cons_append, List.cons_append, value_quote, reads]
    rfl
  | array vs ih =>
    obtain ⟨fuel, rfl⟩ := encode_pos (.array vs) enough
    rw [encode, encodeElements_eq] at enough ⊢
    have reads : ∀ v ∈ vs, (encode v).length ≤ fuel → Reads (value fuel) ']' encode v :=
      fun v mem short c rest follows => ih v mem short (stops_list follows rfl)
    rw [List.cons_append, List.cons_append, List.append_assoc, List.singleton_append, value_array]
    rw [bracketed_text rfl (by decide) encode_shows reads enough]
    rfl
  | object ms ih =>
    obtain ⟨fuel, rfl⟩ := encode_pos (.object ms) enough
    rw [encode, encodeMembers_eq] at enough ⊢
    have reads : ∀ m ∈ ms, (encodeMember m).length ≤ fuel → Reads (member (value fuel)) '\x7d' encodeMember m := by
      intro m mem short c rest follows
      rw [encodeMember, List.length_append, List.length_cons] at short
      exact member_encodeMember (ih m mem (by omega) (stops_list follows rfl))
    rw [List.cons_append, List.cons_append, List.append_assoc, List.singleton_append, value_object]
    rw [bracketed_text rfl (by decide) encodeMember_shows reads enough]
    rfl

/-- What is encoded is parsed back. -/
theorem parse_marshal (v : Value) : Text.Json.parse (Marshal v) = some v := by
  have whole : skip (encode v ++ []) = encode v ++ [] := (encode_shows v).skip
  have reads : value (encode v).length (encode v ++ []) = some (v, []) :=
    value_encode v (Nat.le_refl _) fun c eq => nomatch eq
  rw [List.append_nil] at whole reads
  rw [Text.Json.parse, Marshal, String.toList_ofList, String.length_ofList, whole, reads]
  rfl

end Go
