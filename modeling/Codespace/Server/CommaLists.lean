import Codespace.Go.Lists
import Codespace.Server.Introspect

/-!
# Comma lists

`helpers.go` reads comma lists in two places, each with its own loop: `splitCSVQuery` for query
parameters, and `ParseLDAPRoleMapping` for the roles of LDAP groups. Both read the items of
`Go.items` (`splitCSVQuery_items`, `parseLDAPRoleMapping_lookup`).
-/

namespace Codespace.Server
set_option autoImplicit false
open Go

/-- The early return for white space changes nothing. -/
theorem splitCSVQuery_items (s : String) : splitCSVQuery s = items ',' s := by
  unfold splitCSVQuery
  split
  · rename_i blank
    exact (items_blank blank).symm
  · rfl

/-- A list is the normal form of a string: what the string holds between its commas, in the order
in which it first occurs. -/
structure NormalForm (s : String) (l : List String) : Prop where
  firsts : Firsts (pieces ',' s) l
  nodup : l.Nodup
  fit : ∀ e ∈ l, IsItem ',' e

theorem splitCSVQuery_normalForm (s : String) : NormalForm s (splitCSVQuery s) := by
  rw [splitCSVQuery_items]
  exact ⟨items_firsts ',' s, (items_firsts ',' s).nodup, fun _ => items_isItem⟩

theorem splitCSVQuery_joined {names : List String} (fit : ∀ n ∈ names, IsItem ',' n) :
    splitCSVQuery (joined ',' names) = names.eraseDups :=
  (splitCSVQuery_items _).trans (items_joined fit)

/-! ## Roles of LDAP groups -/

/-- The loop over the parts of a value. -/
def rolesOf (csv : String) : List String := collect (fun r => r ≠ "") trimSpace (split ',' csv) []

/-- One group. -/
def mapGroup (raw : GoMap String String) (out : GoMap String (List String)) (group : String) :
    GoMap String (List String) :=
  let roles := rolesOf (raw.index group)
  if 0 < roles.length then out.insert group roles else out

def parseLDAPRoleMapping (p : Platform) (raw : GoMap String String) : GoMap String (List String) :=
  (p.mapOrder raw.keys.sort).foldl (mapGroup raw) ∅

theorem rolesOf_splitCSVQuery (csv : String) : rolesOf csv = splitCSVQuery csv := (splitCSVQuery_items csv).symm

/-- The roles of a value, unless there are none. -/
def mapped (csv : String) : Option (List String) := if splitCSVQuery csv = [] then none else some (splitCSVQuery csv)

section

variable {raw : GoMap String String} {out : GoMap String (List String)}

theorem mapGroup_lookup (group g : String) : (mapGroup raw out group).lookup g =
    if g = group then (mapped (raw.index g)).or (out.lookup g) else out.lookup g := by
  simp only [mapGroup, mapped, rolesOf_splitCSVQuery, List.length_pos_iff]
  by_cases same : g = group
  · subst same
    by_cases none : splitCSVQuery (raw.index g) = [] <;> simp [none]
  · rw [if_neg same]
    split
    · exact Finmap.lookup_insert_of_ne _ same
    · rfl

/-- The loop over the groups, in whatever order and however often it comes to them. -/
theorem mapGroups_lookup (groups : List String) (g : String) : (groups.foldl (mapGroup raw) out).lookup g =
    if g ∈ groups then (mapped (raw.index g)).or (out.lookup g) else out.lookup g := by
  induction groups generalizing out with
  | nil => rfl
  | cons group groups ih =>
    rw [List.foldl_cons, ih, mapGroup_lookup]
    by_cases same : g = group
    · subst same
      by_cases later : g ∈ groups <;> simp [later, ← Option.or_assoc]
    · simp [same]

theorem parseLDAPRoleMapping_lookup (p : Platform) (raw : GoMap String String) (group : String) :
    (parseLDAPRoleMapping p raw).lookup group = (raw.lookup group).bind mapped := by
  have visited : group ∈ p.mapOrder raw.keys.sort ↔ group ∈ raw := by
    rw [(p.mapOrder_perm _).mem_iff, Finset.mem_sort, Finmap.mem_keys]
  rw [parseLDAPRoleMapping, mapGroups_lookup]
  cases held : raw.lookup group with
  | none => simp [visited, Finmap.lookup_eq_none.1 held]
  | some csv => simp [visited, Finmap.mem_of_lookup_eq_some held, GoMap.index, held]

end

end Codespace.Server
