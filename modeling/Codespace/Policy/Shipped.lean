import Codespace.Text.Regex

/-!
# The policy that is shipped

`cfg/rbac-casbin`: `model.conf` as the casbin functions it names evaluate it, and the rows
of `policy.csv`. A request is allowed where some matching row allows it and none denies it.

The namespace of a row is a pattern of `keyMatch2`, so its `*` repeats the letter before it
(`keyMatch2_dashes`), and does not stand for the rest of the name.
-/

namespace Codespace.Policy
set_option autoImplicit false
open Text

/-! ## casbin -/

/-- `/*` becomes `/.*`. -/
def expandSlashStar : List Char → List Char
  | '/' :: '*' :: cs => '/' :: '.' :: '*' :: expandSlashStar cs
  | c :: cs => c :: expandSlashStar cs
  | [] => []

/-- `:name` becomes `[^/]+`. Inside a name, whose letters are dropped, `name` is true. -/
def expandNames : (name : Bool) → List Char → List Char
  | true, c :: cs => if c = '/' then c :: expandNames false cs else expandNames true cs
  | false, ':' :: c :: cs =>
    if c = '/' then ':' :: c :: expandNames false cs else "[^/]+".toList ++ expandNames true cs
  | false, c :: cs => c :: expandNames false cs
  | _, [] => []

def keyMatch2 (key1 key2 : String) : Bool :=
  regexMatch key1 ("^" ++ String.ofList (expandNames false (expandSlashStar key2.toList)) ++ "$")

inductive Effect where
  | allow
  | deny
  deriving DecidableEq, Repr

/-- `policy_definition`. -/
structure Rule where
  sub : String
  obj : String
  act : String
  dom : String
  eft : Effect
  deriving DecidableEq, Repr

/-- `request_definition`. -/
structure Request where
  sub : String
  obj : String
  act : String
  dom : String

structure Rules where
  rules : List Rule
  /-- `role_definition`: a name and a role it has. -/
  roles : List (String × String)

/-- `g`: the same name, or a role of it by at most `levels` links. -/
def g (roles : List (String × String)) : (levels : Nat) → String → String → Bool
  | 0, name, role => name = role
  | levels + 1, name, role =>
    name = role || roles.any fun (n, next) => n = name && g roles levels next role

/-- How far casbin follows roles. -/
def maxHierarchyLevel : Nat := 10

section

variable (policy : Rules)

/-- The part of the matcher that is not about the domain. -/
def concerns (r : Request) (p : Rule) : Bool :=
  (g policy.roles maxHierarchyLevel r.sub p.sub || r.sub = p.sub) && (p.obj = "*" || r.obj = p.obj) &&
    (p.act = "*" || regexMatch r.act p.act)

def inDomain (r : Request) (p : Rule) : Bool := p.dom = "*" || keyMatch2 r.dom p.dom

/-- `m`. -/
def matcher (r : Request) (p : Rule) : Bool := concerns policy r p && inDomain r p

/-- `e`. -/
def enforce (r : Request) : Bool :=
  let hits := policy.rules.filter (matcher policy r)
  hits.any (·.eft = .allow) && !hits.any (·.eft = .deny)

end

/-! ## The rows -/

def policyCsv : Rules where
  rules := [
    ⟨"admin", "*", "*", "*", .allow⟩,
    ⟨"admin", "session", "*", "*", .allow⟩,
    ⟨"admin", "namespace", "*", "*", .allow⟩,
    ⟨"editor", "session", "get", "*", .allow⟩,
    ⟨"editor", "session", "list", "*", .allow⟩,
    ⟨"editor", "session", "watch", "*", .allow⟩,
    ⟨"editor", "session", "create", "*", .allow⟩,
    ⟨"editor", "session", "update", "*", .allow⟩,
    ⟨"editor", "session", "delete", "*", .allow⟩,
    ⟨"editor", "session", "scale", "*", .allow⟩,
    ⟨"viewer", "session", "get", "*", .allow⟩,
    ⟨"viewer", "session", "list", "*", .allow⟩,
    ⟨"viewer", "session", "watch", "*", .allow⟩,
    ⟨"local:admin", "*", "*", "*", .allow⟩,
    ⟨"local:alice", "session", "*", "*", .allow⟩,
    ⟨"local:bob", "session", "*", "default", .allow⟩,
    ⟨"developer", "session", "get", "dev-*", .allow⟩,
    ⟨"developer", "session", "list", "dev-*", .allow⟩,
    ⟨"developer", "session", "create", "dev-*", .allow⟩,
    ⟨"developer", "session", "update", "dev-*", .allow⟩,
    ⟨"developer", "session", "delete", "dev-*", .deny⟩,
    ⟨"editor", "session", "delete", "prod-*", .deny⟩]
  roles := [("codespace-operator:admin", "admin"), ("codespace-operator:editor", "editor"),
    ("codespace-operator:viewer", "viewer")]

/-- A request about Sessions in the namespace `n`. -/
def session (sub act n : String) : Request := ⟨sub, "session", act, n⟩

/-! ## The domains -/

/-- The domain is looked at last, and for the rows that concern the request only. -/
theorem enforce_eq (policy : Rules) (r : Request) : enforce policy r =
    (((policy.rules.filter (concerns policy r)).filter (inDomain r)).any (·.eft = .allow) &&
      !((policy.rules.filter (concerns policy r)).filter (inDomain r)).any (·.eft = .deny)) := by
  have hits : policy.rules.filter (matcher policy r) =
      (policy.rules.filter (concerns policy r)).filter (inDomain r) := by
    rw [List.filter_filter]
    exact List.filter_congr fun p _ => Bool.and_comm _ _
  rw [enforce, hits]

/-- The text is the stem with nothing but dashes after it. -/
def Dashed (stem text : String) : Prop :=
  ∃ dashes, (∀ c ∈ dashes, c = '-') ∧ text.toList = stem.toList ++ dashes

/-- What a pattern that ends in `-*` matches, once it is read as the stem, then a run of dashes. -/
theorem keyMatch2_dashes {stem pattern text : String}
    (read : compile ("^" ++ String.ofList (expandNames false (expandSlashStar pattern.toList)) ++ "$").toList =
      some (.follow stem.toList (.cat (.star (.lit '-')) .empty))) :
    keyMatch2 text pattern = true ↔ Dashed stem text := by
  rw [keyMatch2, regexMatch, read, Option.any_some, Regex.accepts_iff, Regex.mem_follow]
  have dashes : ∀ v, v ∈ (Regex.cat (.star (.lit '-')) .empty).lang ↔ ∀ c ∈ v, c = '-' := by
    intro v
    show v ∈ (Regex.star (.lit '-')).lang * 1 ↔ _
    rw [mul_one, Regex.lit, Regex.mem_star_one]
    simp
  simp only [dashes, Dashed]

theorem keyMatch2_prod (n : String) : keyMatch2 n "prod-*" = true ↔ Dashed "prod" n :=
  keyMatch2_dashes (by rfl)

theorem keyMatch2_dev (n : String) : keyMatch2 n "dev-*" = true ↔ Dashed "dev" n :=
  keyMatch2_dashes (by rfl)

/-! ## Editors and developers -/

theorem editor_delete (n : String) :
    enforce policyCsv (session "editor" "delete" n) = true ↔ ¬ Dashed "prod" n := by
  have rows : policyCsv.rules.filter (concerns policyCsv (session "editor" "delete" n)) =
      [⟨"editor", "session", "delete", "*", .allow⟩, ⟨"editor", "session", "delete", "prod-*", .deny⟩] :=
    show policyCsv.rules.filter (concerns policyCsv (session "editor" "delete" "")) = _ by decide +kernel
  rw [enforce_eq, rows, ← keyMatch2_prod]
  cases domain : keyMatch2 n "prod-*" <;> simp [inDomain, session, domain]

/-- What a developer may do, an action at a time. -/
theorem developer_allowed {act : String} (mem : act ∈ ["get", "list", "create", "update"]) (n : String) :
    enforce policyCsv (session "developer" act n) = true ↔ Dashed "dev" n := by
  have rows : policyCsv.rules.filter (concerns policyCsv (session "developer" act n)) =
      [⟨"developer", "session", act, "dev-*", .allow⟩] := by
    have all : ∀ a ∈ ["get", "list", "create", "update"],
        policyCsv.rules.filter (concerns policyCsv (session "developer" a "")) =
          [⟨"developer", "session", a, "dev-*", .allow⟩] := by decide +kernel
    exact all act mem
  rw [enforce_eq, rows, ← keyMatch2_dev]
  cases domain : keyMatch2 n "dev-*" <;> simp [inDomain, session, domain]

theorem developer_delete (n : String) : enforce policyCsv (session "developer" "delete" n) = false := by
  have rows : policyCsv.rules.filter (concerns policyCsv (session "developer" "delete" n)) =
      [⟨"developer", "session", "delete", "dev-*", .deny⟩] :=
    show policyCsv.rules.filter (concerns policyCsv (session "developer" "delete" "")) = _ by decide +kernel
  rw [enforce_eq, rows]
  cases domain : keyMatch2 n "dev-*" <;> simp [inDomain, session, domain]

/-! ## Patterns as prefixes -/

def Prefixed (pre text : String) : Prop := pre.toList <+: text.toList

/-- What the comments of the policy say of the namespace `n`. -/
structure AsPrefixes (n : String) : Prop where
  editorDelete : enforce policyCsv (session "editor" "delete" n) = true ↔ ¬ Prefixed "prod-" n
  developer : ∀ act ∈ ["get", "list", "create", "update"],
    enforce policyCsv (session "developer" act n) = true ↔ Prefixed "dev-" n
  developerDelete : enforce policyCsv (session "developer" "delete" n) = false

/-- The name is not the stem itself, and if it goes on with a dash, it goes on with dashes. -/
structure Harmless (stem n : String) : Prop where
  other : n ≠ stem
  dashes : ∀ rest, n.toList = stem.toList ++ '-' :: rest → ∀ c ∈ rest, c = '-'

/-- The two readings of `stem-*` agree on the harmless names. -/
theorem readings_agree_iff (stem n : String) :
    (Dashed stem n ↔ Prefixed (stem ++ "-") n) ↔ Harmless stem n := by
  have goesOn : Prefixed (stem ++ "-") n ↔ ∃ rest, n.toList = stem.toList ++ '-' :: rest := by
    simp only [Prefixed, List.IsPrefix, String.toList_append]
    exact ⟨fun ⟨rest, eq⟩ => ⟨rest, by rw [← eq]; simp⟩, fun ⟨rest, eq⟩ => ⟨rest, by rw [eq]; simp⟩⟩
  rw [goesOn]
  constructor
  · intro agree
    refine ⟨?_, fun rest eq => ?_⟩
    · rintro rfl
      obtain ⟨rest, eq⟩ := agree.1 ⟨[], fun _ mem => absurd mem List.not_mem_nil, by simp⟩
      simpa using congrArg List.length eq
    · obtain ⟨dashes, all, eq'⟩ := agree.2 ⟨rest, eq⟩
      obtain rfl : dashes = '-' :: rest := List.append_cancel_left (eq'.symm.trans eq)
      exact fun c mem => all c (List.mem_cons_of_mem _ mem)
  · rintro ⟨other, dashes⟩
    constructor
    · rintro ⟨rest, all, eq⟩
      cases rest with
      | nil => exact absurd (String.toList_inj.1 (by rw [eq, List.append_nil])) other
      | cons c rest =>
        obtain rfl : c = '-' := all c List.mem_cons_self
        exact ⟨rest, eq⟩
    · rintro ⟨rest, eq⟩
      exact ⟨'-' :: rest, List.forall_mem_cons.2 ⟨rfl, dashes rest eq⟩, eq⟩

/-- **Main result.** The rows for editors and developers mean prefixes in exactly the
namespaces whose names are harmless for both stems. -/
theorem policy_asPrefixes_iff (n : String) : AsPrefixes n ↔ Harmless "prod" n ∧ Harmless "dev" n := by
  rw [← readings_agree_iff, ← readings_agree_iff]
  constructor
  · intro h
    have editor := (editor_delete n).symm.trans h.editorDelete
    have get : "get" ∈ ["get", "list", "create", "update"] := by decide
    have developer := (developer_allowed get n).symm.trans (h.developer "get" get)
    exact ⟨not_iff_not.1 editor, developer⟩
  · rintro ⟨prod, dev⟩
    exact ⟨(editor_delete n).trans (not_congr prod), fun act mem => (developer_allowed mem n).trans dev,
      developer_delete n⟩

/-- A name that Kubernetes accepts for a namespace, as far as its letters go. -/
def IsNamespaceName (n : String) : Prop :=
  n ≠ "" ∧ ∀ c ∈ n.toList, c.isLower = true ∨ c.isDigit = true ∨ c = '-'

/-- An editor may delete the Sessions of `prod-eu`. -/
theorem prod_eu_not_denied : IsNamespaceName "prod-eu" ∧ ¬ AsPrefixes "prod-eu" := by
  have named : IsNamespaceName "prod-eu" := by
    have letters : ("prod-eu".toList.all fun c => c.isLower || c.isDigit || c = '-') = true := by decide +kernel
    refine ⟨by decide, fun c mem => ?_⟩
    simpa [or_assoc] using List.all_eq_true.1 letters c mem
  have allowed : enforce policyCsv (session "editor" "delete" "prod-eu") = true := by decide +kernel
  have prefixed : Prefixed "prod-" "prod-eu" := by
    unfold Prefixed
    decide +kernel
  exact ⟨named, fun h => h.editorDelete.1 allowed prefixed⟩

end Codespace.Policy
