import Codespace.Policy.Shipped

/-!
# What the shipped policy allows

Every request that `policy.csv` allows, whoever makes it. Roles are followed one link, for no
role has a role of its own. The action of a row is a pattern that is searched for, so it
allows every action that contains it.
-/

namespace Codespace.Policy
set_option autoImplicit false
open Text

/-! ## Roles and actions -/

/-- The name is this role, or has it. -/
def Has (name role : String) : Prop := name = role ∨ (name, role) ∈ policyCsv.roles

/-- The word stands somewhere in the text. -/
def Contains (text word : String) : Prop := word.toList <:+: text.toList

/-- The action contains one of these. -/
def AnyOf (words : List String) (act : String) : Prop := ∃ word ∈ words, Contains act word

theorem g_leaf {roles : List (String × String)} {name : String} (leaf : ∀ p ∈ roles, p.1 ≠ name) (levels : Nat)
    (role : String) : g roles levels name role = true ↔ name = role := by
  cases levels with
  | zero => exact decide_eq_true_iff
  | succ levels =>
    rw [g, Bool.or_eq_true, decide_eq_true_iff, List.any_eq_true]
    refine or_iff_left ?_
    rintro ⟨⟨n, next⟩, mem, both⟩
    exact leaf _ mem (of_decide_eq_true (Bool.and_eq_true _ _ ▸ both).1)

/-- Where no role has a role, one link is followed. -/
theorem g_flat {roles : List (String × String)} (flat : ∀ p ∈ roles, ∀ p' ∈ roles, p'.1 ≠ p.2) (levels : Nat)
    (name role : String) : g roles (levels + 1) name role = true ↔ name = role ∨ (name, role) ∈ roles := by
  rw [g, Bool.or_eq_true, decide_eq_true_iff, List.any_eq_true]
  refine or_congr_right ⟨?_, fun mem => ⟨_, mem, ?_⟩⟩
  · rintro ⟨⟨n, next⟩, mem, both⟩
    rw [Bool.and_eq_true, decide_eq_true_iff, g_leaf (flat _ mem)] at both
    obtain ⟨rfl, rfl⟩ := both
    exact mem
  · rw [Bool.and_eq_true, decide_eq_true_iff, g_leaf (flat _ mem)]
    exact ⟨rfl, rfl⟩

theorem g_shipped (name role : String) : g policyCsv.roles maxHierarchyLevel name role = true ↔ Has name role :=
  g_flat (by decide) 9 name role

/-- A pattern without special letters is found where the word stands. -/
theorem regexMatch_word {text word : String}
    (read : compile word.toList = some (.cat (.cat anything (.follow word.toList .empty)) anything)) :
    regexMatch text word = true ↔ Contains text word := by
  have all : ∀ v, v ∈ anything.lang := fun v => Regex.mem_star_one.2 fun _ _ => rfl
  rw [regexMatch, read, Option.any_some, Regex.accepts_iff, Contains, List.IsInfix]
  simp only [Regex.lang, Language.mem_mul]
  constructor
  · rintro ⟨_, ⟨u, -, w, mem, rfl⟩, v, -, eq⟩
    obtain ⟨e, nil, rfl⟩ := Regex.mem_follow.1 mem
    obtain rfl := Language.mem_one _ |>.1 nil
    exact ⟨u, v, by simpa using eq⟩
  · rintro ⟨u, v, eq⟩
    exact ⟨_, ⟨u, all u, _, Regex.mem_follow.2 ⟨[], Language.nil_mem_one, by simp⟩, rfl⟩, v, all v, eq⟩

theorem keyMatch2_default (n : String) : keyMatch2 n "default" = true ↔ n = "default" := by
  have read : compile ("^" ++ String.ofList (expandNames false (expandSlashStar "default".toList)) ++ "$").toList =
      some (.follow "default".toList .empty) := rfl
  rw [keyMatch2, regexMatch, read, Option.any_some, Regex.accepts_iff, Regex.mem_follow, ← String.toList_inj]
  constructor
  · rintro ⟨e, nil, eq⟩
    obtain rfl := Language.mem_one _ |>.1 nil
    simpa using eq
  · exact fun eq => ⟨[], Language.nil_mem_one, by simpa using eq⟩

/-! ## The table -/

/-- What the policy allows in words. -/
def Permits (r : Request) : Prop :=
  Has r.sub "admin" ∨ r.sub = "local:admin" ∨ r.obj = "session" ∧
    (r.sub = "local:alice" ∨
      r.sub = "local:bob" ∧ r.dom = "default" ∨
      Has r.sub "viewer" ∧ AnyOf ["get", "list", "watch"] r.act ∨
      Has r.sub "editor" ∧ AnyOf ["get", "list", "watch", "create", "update", "delete", "scale"] r.act ∧
        ¬ (Contains r.act "delete" ∧ Dashed "prod" r.dom) ∨
      r.sub = "developer" ∧ Dashed "dev" r.dom ∧ AnyOf ["get", "list", "create", "update"] r.act ∧
        ¬ Contains r.act "delete")

/-- Some row of this effect matches. -/
def Hit (eft : Effect) (r : Request) : Prop := ∃ p ∈ policyCsv.rules, matcher policyCsv r p = true ∧ p.eft = eft

theorem enforce_iff (r : Request) : enforce policyCsv r = true ↔ Hit .allow r ∧ ¬ Hit .deny r := by
  have any : ∀ eft, ((policyCsv.rules.filter (matcher policyCsv r)).any (·.eft = eft)) = true ↔ Hit eft r := by
    intro eft
    simp only [List.any_eq_true, List.mem_filter, decide_eq_true_eq, Hit, and_assoc]
  rw [enforce, Bool.and_eq_true, any, Bool.not_eq_true', ← Bool.not_eq_true, any]

/-- When a row matches. -/
theorem matcher_iff (r : Request) (p : Rule) : matcher policyCsv r p = true ↔ Has r.sub p.sub ∧
    (p.obj = "*" ∨ r.obj = p.obj) ∧ (p.act = "*" ∨ regexMatch r.act p.act = true) ∧
      (p.dom = "*" ∨ keyMatch2 r.dom p.dom = true) := by
  simp only [matcher, concerns, inDomain, Bool.and_eq_true, Bool.or_eq_true, g_shipped, decide_eq_true_eq, and_assoc]
  refine and_congr_left' ⟨fun h => h.elim id .inl, .inl⟩

/-- The words of the policy are plain. -/
theorem word_found {word : String} (mem : word ∈ ["get", "list", "watch", "create", "update", "delete", "scale"])
    (text : String) : regexMatch text word = true ↔ Contains text word := by
  simp only [List.mem_cons, List.not_mem_nil, or_false] at mem
  rcases mem with rfl | rfl | rfl | rfl | rfl | rfl | rfl <;> exact regexMatch_word rfl

theorem deny_iff (r : Request) : Hit .deny r ↔ r.obj = "session" ∧ Contains r.act "delete" ∧
    (Has r.sub "developer" ∧ Dashed "dev" r.dom ∨ Has r.sub "editor" ∧ Dashed "prod" r.dom) := by
  have delete : regexMatch r.act "delete" = true ↔ Contains r.act "delete" := word_found (by decide) _
  simp only [Hit, matcher_iff]
  simp only [policyCsv, List.mem_cons, List.not_mem_nil, or_false, exists_eq_or_imp, exists_eq_left, reduceCtorEq,
    and_false, false_or, and_true, delete, keyMatch2_dev, keyMatch2_prod, String.reduceEq]
  tauto

theorem allow_iff (r : Request) : Hit .allow r ↔ Has r.sub "admin" ∨ Has r.sub "local:admin" ∨ r.obj = "session" ∧
    (Has r.sub "local:alice" ∨ Has r.sub "local:bob" ∧ r.dom = "default" ∨
      Has r.sub "viewer" ∧ AnyOf ["get", "list", "watch"] r.act ∨
      Has r.sub "editor" ∧ AnyOf ["get", "list", "watch", "create", "update", "delete", "scale"] r.act ∨
      Has r.sub "developer" ∧ Dashed "dev" r.dom ∧ AnyOf ["get", "list", "create", "update"] r.act) := by
  have word : ∀ word ∈ ["get", "list", "watch", "create", "update", "delete", "scale"],
      (regexMatch r.act word = true ↔ Contains r.act word) := fun word mem => word_found mem _
  simp only [List.forall_mem_cons, List.not_mem_nil, IsEmpty.forall_iff, implies_true, and_true] at word
  obtain ⟨get, list, watch, create, update, delete, scale⟩ := word
  simp only [Hit, matcher_iff]
  simp only [policyCsv, List.mem_cons, List.not_mem_nil, or_false, exists_eq_or_imp, exists_eq_left, reduceCtorEq,
    and_false, and_true, true_and, true_or, get, list, watch, create, update, delete, scale, keyMatch2_dev,
    keyMatch2_default, String.reduceEq, false_or, AnyOf]
  grind

/-- Whom the rows are about. -/
def subjects : List String :=
  ["admin", "editor", "viewer", "local:admin", "local:alice", "local:bob", "developer"]

/-- Nobody has two roles. -/
theorem has_one {name role role' : String} (mem : role ∈ subjects) (mem' : role' ∈ subjects) (has : Has name role)
    (has' : Has name role') : role = role' := by
  have names : ∀ role ∈ subjects, ∀ p ∈ policyCsv.roles, p.2 = role → p.1 ∉ subjects := by decide
  have once : (policyCsv.roles.map Prod.fst).Nodup := by decide
  rcases has with rfl | has
  · rcases has' with same | has'
    · exact same
    · exact absurd mem (names role' mem' _ has' rfl)
  · rcases has' with rfl | has'
    · exact absurd mem' (names role mem _ has rfl)
    · exact congrArg Prod.snd (List.inj_on_of_nodup_map once has has' rfl)

/-- The users of the rows have no aliases. -/
theorem has_user {user : String} (mem : user ∈ ["local:admin", "local:alice", "local:bob", "developer"])
    (name : String) : Has name user ↔ name = user := by
  have none : ∀ user ∈ ["local:admin", "local:alice", "local:bob", "developer"], ∀ p ∈ policyCsv.roles, p.2 ≠ user := by
    decide
  exact or_iff_left fun has => none user mem _ has rfl

/-- **Main result.** The policy allows what the table permits, and nothing else. -/
theorem enforce_table (r : Request) : enforce policyCsv r = true ↔ Permits r := by
  -- whom a row denies something is allowed nothing by the rows for others
  have editor : ∀ role ∈ subjects, role ≠ "editor" → Has r.sub "editor" → ¬ Has r.sub role :=
    fun role mem other has has' => other (has_one mem (by decide) has' has)
  have developer : ∀ role ∈ subjects, role ≠ "developer" → Has r.sub "developer" → ¬ Has r.sub role :=
    fun role mem other has has' => other (has_one mem (by decide) has' has)
  have user : ∀ user ∈ ["local:admin", "local:alice", "local:bob", "developer"], (Has r.sub user ↔ r.sub = user) :=
    fun user mem => has_user mem r.sub
  simp only [subjects, List.forall_mem_cons, List.not_mem_nil, IsEmpty.forall_iff, implies_true, and_true, ne_eq,
    String.reduceEq, not_false_eq_true, true_implies, not_true_eq_false] at editor developer user
  rw [enforce_iff, allow_iff, deny_iff, Permits]
  grind

example : enforce policyCsv ⟨"codespace-operator:viewer", "session", "forget", "ns"⟩ = true := by decide +kernel

end Codespace.Policy
