import Codespace.Server.Permissions
import Codespace.Ui.Scaling

/-!
# The permission checks of the UI

`can` of `cap.ts` and `canPerformAction` of `useNamespaces.ts` look actions up in the response
of `handleUserIntrospect`. Both fall back on the entry of the wildcard: the first where the
namespace has no entry of its own, the second where it has one that says no. A policy may
deny in a namespace what it grants everywhere else, so the second can contradict the server.
-/

namespace Codespace.Ui
set_option autoImplicit false
open Interact Server Go

/-- `domains?.[key]?.session?.[action]`. -/
def entry (ix : UserIntrospectionResponse) (key action : String) : Option Bool :=
  (ix.domains.lookup key).bind fun perms => perms.session.lookup action

/-- The wildcard, where the UI says "All". -/
def domainOf (ns : String) : String := if ns = "All" then "*" else ns

/-- `can` of `cap.ts`. -/
def can (ix : Option UserIntrospectionResponse) (ns action : String) : Bool :=
  match ix with
  | none => false
  | some ix =>
    let key := domainOf ns
    match entry ix key action with
    | some direct => direct
    | none => if key ≠ "*" then (entry ix "*" action).getD false else false

/-- `canPerformAction` of `useNamespaces.ts`. -/
def canPerformAction (userInfo : Option UserIntrospectionResponse) (action ns : String) : Bool :=
  match userInfo with
  | none => false
  | some info => (entry info ns action).getD false || (entry info "*" action).getD false

/-- The scale buttons ask `can`. -/
theorem canScale_can {ix : UserIntrospectionResponse} {domains : GoMap String Bool}
    (column : ∀ n, domains.lookup n = entry ix n "scale") (ns : String) :
    canScale (some domains) ns = can (some ix) ns "scale" := by
  simp only [canScale, can, domainOf, column]
  rfl

/-! ## Agreement -/

/-- A response has an entry for an action in a namespace, or in the one that "All" stands for. -/
def Enumerated (ix : UserIntrospectionResponse) (ns action : String) : Prop :=
  (entry ix ns action).isSome = true ∨ (entry ix (domainOf ns) action).isSome = true

/-- Both checks say what Enforce says, wherever the response has an entry. -/
def Agree (w : Server.World) (cl : Claims) (ix : UserIntrospectionResponse) : Prop :=
  ∀ ns action, Enumerated ix ns action →
    can (some ix) ns action = w.allows cl action (domainOf ns) ∧
      canPerformAction (some ix) action ns = w.allows cl action (domainOf ns)

/-- What is granted on the wildcard is granted in every namespace that was asked about too. A
namespace that is itself called "All" must not be told apart from the wildcard. -/
structure Uniform (w : Server.World) (cl : Claims) (targets actions : List String) : Prop where
  inherited : "*" ∈ targets → ∀ a ∈ actions, w.allows cl a "*" = true →
    ∀ n ∈ targets, n ≠ "All" → w.allows cl a n = true
  all : "All" ∈ targets → ∀ a ∈ actions, (w.allows cl a "All" = true → "*" ∈ targets ∧ w.allows cl a "*" = true) ∧
    (w.allows cl a "*" = true → "*" ∈ targets)

section

variable {w : Server.World} {r : IntrospectRequest} {cl : Identity}

theorem entry_response (n a : String) : entry (responseTo w r cl) n a =
    if n ∈ targetsOf w r cl.toClaims ∧ a ∈ actionsOf r then some (w.allows cl.toClaims a n) else none := by
  rw [entry, (responseTo_describes w r cl).domains]
  by_cases there : n ∈ targetsOf w r cl.toClaims
  · rw [if_pos there, Option.bind_some, permissionsIn_lookup]
    simp [there]
  · simp [there]

theorem enumerated_response (n a : String) : Enumerated (responseTo w r cl) n a ↔
    (n ∈ targetsOf w r cl.toClaims ∨ domainOf n ∈ targetsOf w r cl.toClaims) ∧ a ∈ actionsOf r := by
  simp [Enumerated, entry_response, or_and_right]

/-- The check of `cap.ts`, for an action that was asked about. -/
theorem can_response {n a : String} (asked : a ∈ actionsOf r) : can (some (responseTo w r cl)) n a = true ↔
    if domainOf n ∈ targetsOf w r cl.toClaims then w.allows cl.toClaims a (domainOf n) = true
    else domainOf n ≠ "*" ∧ "*" ∈ targetsOf w r cl.toClaims ∧ w.allows cl.toClaims a "*" = true := by
  by_cases there : domainOf n ∈ targetsOf w r cl.toClaims
  · simp [can, entry_response, there, asked]
  · by_cases star : "*" ∈ targetsOf w r cl.toClaims <;> simp [can, entry_response, there, asked, star]

/-- The check of `useNamespaces.ts`. -/
theorem canPerformAction_response {n a : String} (asked : a ∈ actionsOf r) :
    canPerformAction (some (responseTo w r cl)) a n = true ↔
      n ∈ targetsOf w r cl.toClaims ∧ w.allows cl.toClaims a n = true ∨
        "*" ∈ targetsOf w r cl.toClaims ∧ w.allows cl.toClaims a "*" = true := by
  have column : ∀ m, (entry (responseTo w r cl) m a).getD false = true ↔
      m ∈ targetsOf w r cl.toClaims ∧ w.allows cl.toClaims a m = true := by
    intro m
    by_cases there : m ∈ targetsOf w r cl.toClaims <;> simp [entry_response, asked, there]
  simp only [canPerformAction, Bool.or_eq_true, column]

theorem domainOf_ne {n : String} (other : n ≠ "All") : domainOf n = n := if_neg other

/-- Where the checks agree with the server, the wildcard grants nothing that is denied. -/
theorem Agree.uniform (agree : Agree w cl.toClaims (responseTo w r cl)) :
    Uniform w cl.toClaims (targetsOf w r cl.toClaims) (actionsOf r) := by
  constructor
  · intro star a asked yes n there other
    have both := agree n a ((enumerated_response n a).2 ⟨.inl there, asked⟩)
    rw [domainOf_ne other] at both
    rw [← both.2, canPerformAction_response asked]
    exact .inr ⟨star, yes⟩
  · intro there a asked
    have both := agree "All" a ((enumerated_response "All" a).2 ⟨.inl there, asked⟩)
    have wild : domainOf "All" = "*" := rfl
    rw [wild] at both
    have checked : w.allows cl.toClaims a "*" = true → "*" ∈ targetsOf w r cl.toClaims := by
      intro yes
      by_contra none
      have offered : can (some (responseTo w r cl)) "All" a = true := both.1.trans yes
      rw [can_response asked, wild, if_neg none] at offered
      exact offered.1 rfl
    refine ⟨fun yes => ?_, checked⟩
    have granted := both.2.symm.trans ((canPerformAction_response asked).2 (.inl ⟨there, yes⟩))
    exact ⟨checked granted, granted⟩

section

variable (uniform : Uniform w cl.toClaims (targetsOf w r cl.toClaims) (actionsOf r)) {n a : String}
  (there : n ∈ targetsOf w r cl.toClaims ∨ domainOf n ∈ targetsOf w r cl.toClaims) (asked : a ∈ actionsOf r)

include uniform there asked

theorem Uniform.can : can (some (responseTo w r cl)) n a = w.allows cl.toClaims a (domainOf n) := by
  refine Bool.eq_iff_iff.2 ((can_response asked).trans ?_)
  by_cases checked : domainOf n ∈ targetsOf w r cl.toClaims
  · rw [if_pos checked]
  · have named := there.resolve_right checked
    by_cases all : n = "All"
    · subst all
      rw [if_neg checked]
      exact ⟨fun direct => absurd rfl direct.1, fun yes => absurd ((uniform.all named a asked).2 yes) checked⟩
    · rw [domainOf_ne all] at checked
      exact absurd named checked

theorem Uniform.canPerformAction :
    canPerformAction (some (responseTo w r cl)) a n = w.allows cl.toClaims a (domainOf n) := by
  refine Bool.eq_iff_iff.2 ((canPerformAction_response asked).trans ?_)
  by_cases all : n = "All"
  · subst all
    refine ⟨?_, fun yes => ?_⟩
    · rintro (⟨named, yes⟩ | ⟨-, yes⟩)
      · exact ((uniform.all named a asked).1 yes).2
      · exact yes
    · exact .inr ⟨there.elim (fun named => (uniform.all named a asked).2 yes) id, yes⟩
  · rw [domainOf_ne all, or_self] at there
    rw [domainOf_ne all]
    refine ⟨?_, fun yes => .inl ⟨there, yes⟩⟩
    rintro (⟨-, yes⟩ | ⟨star, yes⟩)
    · exact yes
    · exact uniform.inherited star a asked yes n there all

end

/-- **Main result.** The checks agree with the server, and so with each other, exactly if the
wildcard grants nothing that is denied in a namespace. -/
theorem permissions_agree_iff (claims : r.claims = some cl) : ∃ resp, (handleUserIntrospect r).eval w = .ok resp ∧
    (Agree w cl.toClaims resp ↔ Uniform w cl.toClaims (targetsOf w r cl.toClaims) (actionsOf r)) := by
  refine ⟨responseTo w r cl, handleUserIntrospect_eval claims, Agree.uniform, fun uniform n a enumerated => ?_⟩
  obtain ⟨there, asked⟩ := (enumerated_response n a).1 enumerated
  exact ⟨uniform.can there asked, uniform.canPerformAction there asked⟩

/-- Whoever may do everything sees the checks agree. -/
theorem permissions_agree_all : ∃ resp,
    (handleUserIntrospect ⟨[], some (.plain "u")⟩).eval (Server.World.plain allowAll ["b", "a"]) = .ok resp ∧
      Agree (Server.World.plain allowAll ["b", "a"]) ⟨"u", []⟩ resp := by
  obtain ⟨resp, eval, agree⟩ := permissions_agree_iff (w := Server.World.plain allowAll ["b", "a"])
    (r := ⟨[], some (.plain "u")⟩) rfl
  have named : "All" ∉ targetsOf (Server.World.plain allowAll ["b", "a"]) ⟨[], some (.plain "u")⟩ ⟨"u", []⟩ := by
    decide +kernel
  exact ⟨resp, eval, agree.2 ⟨fun _ _ _ _ _ _ _ => rfl, fun there => absurd there named⟩⟩

/-- A policy that allows everything but to delete in the namespace `prod`. -/
def sparingProd : Enforce := fun _ _ _ action ns => .ok (¬ (action = "delete" ∧ ns = "prod"))

/-- There, `canPerformAction` says yes to what the server and `can` say no to. -/
theorem delete_in_prod : ∃ resp,
    (handleUserIntrospect ⟨[], some (.plain "u")⟩).eval (Server.World.plain sparingProd ["prod"]) = .ok resp ∧
      Enumerated resp "prod" "delete" ∧ canPerformAction (some resp) "delete" "prod" = true ∧
      can (some resp) "prod" "delete" = false ∧
      ¬ Agree (Server.World.plain sparingProd ["prod"]) ⟨"u", []⟩ resp := by
  refine ⟨_, handleUserIntrospect_eval rfl, ?_⟩
  have enumerated : Enumerated (responseTo (Server.World.plain sparingProd ["prod"]) ⟨[], some (.plain "u")⟩ (.plain "u"))
      "prod" "delete" := (enumerated_response _ _).2 ⟨.inl (by decide +kernel), by decide +kernel⟩
  have offered : canPerformAction (some (responseTo (Server.World.plain sparingProd ["prod"]) ⟨[], some (.plain "u")⟩
      (.plain "u"))) "delete" "prod" = true := by decide +kernel
  refine ⟨enumerated, offered, by decide +kernel, fun agree => ?_⟩
  have denied : Server.World.allows (Server.World.plain sparingProd ["prod"]) ⟨"u", []⟩ "delete" "prod" = false := by
    decide +kernel
  exact Bool.false_ne_true (denied.symm.trans ((agree "prod" "delete" enumerated).2.symm.trans offered))

end

end Codespace.Ui
