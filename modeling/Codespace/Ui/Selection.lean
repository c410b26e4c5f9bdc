import Codespace.Ui.Permissions
import Codespace.Ui.Queries
import Mathlib.Logic.Function.Iterate

/-!
# The selected namespace

`App` of `App.tsx` takes the selected namespace from local storage. Once the introspection
response is there, an effect checks the selection, and replaces it if the response does not
allow it; replacing it triggers the effect again. A second effect stores the selection.
-/

namespace Codespace.Ui
set_option autoImplicit false
open Server Go

/-! ## What the response says -/

/-- The lists of a response that `App` reads. -/
structure NamespaceLists where
  userAllowed : Option (List String)
  userCreatable : Option (List String)

/-- A response, as `App` reads it. -/
structure UserIx where
  domains : Option (GoMap String DomainPermissions)
  namespaces : Option NamespaceLists

/-- `!!userIx?.domains?.["*"]?.session?.watch`. -/
def allowAll (userIx : UserIx) : Bool :=
  ((userIx.domains.bind fun domains => domains.lookup "*").bind fun perms => perms.session.lookup "watch").getD false

def userAccessibleNamespaces (userIx : UserIx) : List String :=
  match userIx.namespaces.bind (·.userAllowed) with
  | none => [""]
  | some userAllowed => userAllowed

/-- The UTF-16 code units of a string. -/
def codeUnits (s : String) : List Nat :=
  s.toList.flatMap fun c =>
    if c.toNat < 0x10000 then [c.toNat]
    else [0xD800 + (c.toNat - 0x10000) / 0x400, 0xDC00 + (c.toNat - 0x10000) % 0x400]

/-- `Array.prototype.sort` without a comparison. -/
def sortUnits (l : List String) : List String := l.insertionSort fun a b => codeUnits a ≤ codeUnits b

def creatableNamespaces (userIx : UserIx) : List String :=
  match userIx.namespaces.bind (·.userCreatable) with
  | none => []
  | some userCreatable => sortUnits userCreatable

/-! ## The effects -/

/-- `a || b`, where `a` may be undefined. -/
def orString (a : Option String) (b : String) : String :=
  match a with
  | none => b
  | some a => if a = "" then b else a

def isCurrentNamespaceValid (userIx : UserIx) (ns : String) : Bool :=
  if ns = "All" then allowAll userIx else ns ∈ userAccessibleNamespaces userIx

def preferredNamespace (userIx : UserIx) : Option String :=
  (creatableNamespaces userIx).find? fun ns => ns ∈ userAccessibleNamespaces userIx

def fallback (userIx : UserIx) : String :=
  if allowAll userIx then "All"
  else match userAccessibleNamespaces userIx with
    | [] => ""
    | first :: _ => orString (preferredNamespace userIx) first

/-- The effect that validates the selection: what it passes to `setNamespace`, if it calls it. -/
def validate (userIx : Option UserIx) (ns : String) : Option String :=
  match userIx with
  | none => none
  | some userIx =>
    if isCurrentNamespaceValid userIx ns then none
    else if fallback userIx ≠ ns then some (fallback userIx) else none

/-- The state of `App`, with the entry `co_ns` of local storage. -/
structure App where
  userIx : Option UserIx
  ns : String
  stored : Option String

/-- The first render. -/
def App.mount (stored : Option String) : App := ⟨none, orString stored "default", stored⟩

/-- The effects after a render. The selection that is stored is the one that was rendered. -/
def App.commit (app : App) : App where
  userIx := app.userIx
  ns := (validate app.userIx app.ns).getD app.ns
  stored := if app.userIx.isSome then some app.ns else app.stored

/-! ## The selection settles -/

/-- The namespaces that the user may access. -/
def userAllowed (userIx : UserIx) : List String := (userIx.namespaces.bind (·.userAllowed)).getD []

/-- The selection after the effect. -/
def revalidate (userIx : UserIx) (ns : String) : String := (validate (some userIx) ns).getD ns

/-- The effect switches from one namespace to another. -/
def Switch (userIx : UserIx) (ns ns' : String) : Prop := validate (some userIx) ns = some ns'

/-- A selection that the response allows, as far as it allows any. -/
structure Fits (userIx : UserIx) (ns : String) : Prop where
  all : ns = "All" → allowAll userIx = true
  accessible : ns ≠ "All" → userAllowed userIx ≠ [] → ns ∈ userAllowed userIx

/-- From `ns` on the effect makes one switch at most, and it ends with `final`. -/
structure Settles (userIx : UserIx) (ns final : String) : Prop where
  once : ∀ run, List.IsChain (Switch userIx) (ns :: run) → run.length ≤ 1
  reached : ∃ n ≤ 1, (revalidate userIx)^[n] ns = final
  settled : validate (some userIx) final = none
  fits : Fits userIx final
  kept : isCurrentNamespaceValid userIx ns = true → final = ns

/-- A run whose steps do not follow one another has one step at most. -/
theorem length_le_one {α : Type} {step : α → α → Prop} (once : ∀ {a b c}, step a b → ¬ step b c) {a : α} {run : List α}
    (chain : List.IsChain step (a :: run)) : run.length ≤ 1 := by
  match run, chain with
  | [], _ => exact Nat.zero_le 1
  | [_], _ => exact le_rfl
  | b :: c :: run, chain =>
    obtain ⟨first, rest⟩ := List.isChain_cons_cons.1 chain
    exact absurd (List.isChain_cons_cons.1 rest).1 (once first)

section

variable {userIx : UserIx} {ns ns' : String}

/-- The effect leaves a valid selection alone, and its own. -/
theorem validate_eq (userIx : UserIx) (ns : String) : validate (some userIx) ns =
    if isCurrentNamespaceValid userIx ns = true ∨ ns = fallback userIx then none else some (fallback userIx) := by
  rw [validate]
  by_cases valid : isCurrentNamespaceValid userIx ns = true
  · rw [if_pos valid, if_pos (.inl valid)]
  · by_cases same : ns = fallback userIx
    · rw [if_neg valid, if_neg (not_not.2 same.symm), if_pos (.inr same)]
    · rw [if_neg valid, if_pos (Ne.symm same), if_neg (not_or.2 ⟨valid, same⟩)]

theorem validate_fallback (userIx : UserIx) : validate (some userIx) (fallback userIx) = none := by
  rw [validate_eq, if_pos (.inr rfl)]

theorem revalidate_eq (userIx : UserIx) (ns : String) :
    revalidate userIx ns = if isCurrentNamespaceValid userIx ns then ns else fallback userIx := by
  rw [revalidate, validate_eq]
  by_cases valid : isCurrentNamespaceValid userIx ns = true
  · simp [valid]
  · by_cases same : ns = fallback userIx <;> simp [valid, same]

theorem validate_revalidate (userIx : UserIx) (ns : String) : validate (some userIx) (revalidate userIx ns) = none := by
  rw [revalidate_eq]
  split
  · rename_i valid
    rw [validate_eq, if_pos (.inl valid)]
  · exact validate_fallback userIx

theorem revalidate_revalidate (userIx : UserIx) (ns : String) :
    revalidate userIx (revalidate userIx ns) = revalidate userIx ns := by
  have settled := validate_revalidate userIx ns
  generalize revalidate userIx ns = final at *
  rw [revalidate, settled, Option.getD_none]

theorem Switch.fallback (switch : Switch userIx ns ns') : ns' = fallback userIx := by
  rw [Switch, validate_eq, Option.ite_none_left_eq_some, Option.some_inj] at switch
  exact switch.2.symm

theorem Switch.last (switch : Switch userIx ns ns') (ns'' : String) : ¬ Switch userIx ns' ns'' := by
  rw [Switch, switch.fallback, validate_fallback]
  exact Option.some_ne_none _ ∘ Eq.symm

/-! ### The selection fits -/

/-- Where the response has no list, the one namespace without a name stands in for it. -/
theorem accessible_cases (userIx : UserIx) :
    userAccessibleNamespaces userIx = [""] ∧ userAllowed userIx = [] ∨
      userAccessibleNamespaces userIx = userAllowed userIx := by
  unfold userAccessibleNamespaces userAllowed
  cases userIx.namespaces.bind (·.userAllowed) with
  | none => exact .inl ⟨rfl, rfl⟩
  | some allowed => exact .inr rfl

theorem fits_valid (valid : isCurrentNamespaceValid userIx ns = true) : Fits userIx ns := by
  unfold isCurrentNamespaceValid at valid
  refine ⟨fun all => by rwa [if_pos all] at valid, fun other some => ?_⟩
  rw [if_neg other, decide_eq_true_iff] at valid
  rcases accessible_cases userIx with ⟨-, none⟩ | same
  · exact absurd none some
  · rwa [same] at valid

/-- What is preferred is accessible, and so is what stands in for it. -/
theorem fallback_mem (one : allowAll userIx = false) (some : userAccessibleNamespaces userIx ≠ []) :
    fallback userIx ∈ userAccessibleNamespaces userIx := by
  obtain ⟨first, rest, lists⟩ := List.exists_cons_of_ne_nil some
  rw [fallback, one, if_neg Bool.false_ne_true, lists]
  cases preferred : preferredNamespace userIx with
  | none => exact List.mem_cons_self
  | some ns =>
    have there := List.find?_some preferred
    rw [decide_eq_true_iff, lists] at there
    show (if ns = "" then first else ns) ∈ _
    split
    · exact List.mem_cons_self
    · exact there

/-- Where there is nothing to choose from, no name is chosen. -/
theorem fallback_empty (one : allowAll userIx = false) (none : userAllowed userIx = []) : fallback userIx = "" := by
  rcases accessible_cases userIx with ⟨blank, -⟩ | same
  · have mem := fallback_mem one (blank ▸ List.cons_ne_nil _ _)
    rwa [blank, List.mem_singleton] at mem
  · rw [fallback, one, if_neg Bool.false_ne_true, same, none]

theorem fallback_fits (names : "All" ∉ userAllowed userIx) : Fits userIx (fallback userIx) := by
  cases one : allowAll userIx with
  | true =>
    have all : fallback userIx = "All" := by rw [fallback, one, if_pos rfl]
    exact ⟨fun _ => one, fun other => absurd all other⟩
  | false =>
    by_cases none : userAllowed userIx = []
    · have empty := fallback_empty one none
      exact ⟨fun all => absurd (empty.symm.trans all) (by decide), fun _ some => absurd none some⟩
    · have same := (accessible_cases userIx).resolve_left fun blank => none blank.2
      have mem := fallback_mem one (same ▸ none)
      rw [same] at mem
      exact ⟨fun all => absurd (all ▸ mem) names, fun _ _ => mem⟩

theorem revalidate_fits (names : "All" ∉ userAllowed userIx) (ns : String) : Fits userIx (revalidate userIx ns) := by
  rw [revalidate_eq]
  split
  · rename_i valid
    exact fits_valid valid
  · exact fallback_fits names

end

/-- The selection settles: after at most one switch the effect leaves it as it is, and it is `All` only
where that is granted, and else a namespace of the user, if there is one. -/
theorem selection_settles (userIx : UserIx) (ns : String) (names : "All" ∉ userAllowed userIx) :
    Settles userIx ns (revalidate userIx ns) := by
  refine ⟨fun run => length_le_one fun switch => switch.last _, ⟨1, le_rfl, rfl⟩, validate_revalidate userIx ns,
    revalidate_fits names ns, fun valid => ?_⟩
  rw [revalidate_eq, if_pos valid]

/-- A stored namespace that is no longer accessible. -/
theorem selection_settles_stale :
    Settles ⟨none, some ⟨some ["team-b", "team-a"], some ["team-a"]⟩⟩ "gone" "team-a" :=
  selection_settles ⟨none, some ⟨some ["team-b", "team-a"], some ["team-a"]⟩⟩ "gone" (by decide)

/-! ## The page -/

inductive Event where
  | respond (userIx : UserIx)
  | select (ns : String)

/-- What a render starts from. -/
def App.handle (app : App) : Event → App
  | .respond userIx => { app with userIx := some userIx }
  | .select ns => { app with ns := ns }

/-- An event, and the renders that follow it. -/
def App.react (app : App) (e : Event) : App := (app.handle e).commit.commit

def App.run (app : App) (events : List Event) : App := events.foldl App.react app

/-- Once there is a response, the page is at rest, and the selection fits and is stored. -/
def App.Sound (app : App) : Prop := ∀ userIx, app.userIx = some userIx → "All" ∉ userAllowed userIx →
  app.commit = app ∧ app.stored = some app.ns ∧ Fits userIx app.ns

section

variable {app : App} {userIx : UserIx}

theorem App.commit_eq (known : app.userIx = some userIx) :
    app.commit = ⟨some userIx, revalidate userIx app.ns, some app.ns⟩ := by
  rw [App.commit, known, Option.isSome_some, if_pos rfl, revalidate]

theorem App.commit_commit (known : app.userIx = some userIx) :
    app.commit.commit = ⟨some userIx, revalidate userIx app.ns, some (revalidate userIx app.ns)⟩ := by
  rw [App.commit_eq known, App.commit_eq rfl, revalidate_revalidate]

/-- Two renders are enough: in the first the effect may switch, the second stores. -/
theorem App.react_sound (app : App) (e : Event) : (app.react e).Sound := by
  intro userIx known names
  have before : (app.handle e).userIx = some userIx := known
  rw [App.react, App.commit_commit before]
  refine ⟨?_, rfl, revalidate_fits names _⟩
  rw [App.commit_eq rfl, revalidate_revalidate]

/-- In whatever order responses come and namespaces are picked. -/
theorem App.run_sound (stored : Option String) (events : List Event) : ((App.mount stored).run events).Sound := by
  induction events using List.reverseRecOn with
  | nil => exact fun _ known => absurd known (by simp [App.run, App.mount])
  | append_singleton events e _ =>
    rw [App.run, List.foldl_append]
    exact App.react_sound _ e

/-- A namespace that is picked stays selected if it is valid. -/
theorem App.select_kept (known : app.userIx = some userIx) {ns : String}
    (valid : isCurrentNamespaceValid userIx ns = true) : (app.react (.select ns)).ns = ns := by
  have before : (app.handle (.select ns)).userIx = some userIx := known
  rw [App.react, App.commit_commit before]
  exact (revalidate_eq userIx ns).trans (if_pos valid)

/-- The next visit begins where this one ended. -/
theorem App.reload (sound : app.Sound) (known : app.userIx = some userIx) (names : "All" ∉ userAllowed userIx)
    (named : app.ns ≠ "") : (App.mount app.stored).react (.respond userIx) = app := by
  obtain ⟨rest, stored, -⟩ := sound userIx known names
  have again : (App.mount app.stored).handle (.respond userIx) = app := by
    rw [stored, App.mount, orString, if_neg named, App.handle, ← known]
    cases app
    simp_all
  rw [App.react, again, rest, rest]

end

/-! ## What the server answers -/

/-- A response as it arrives. An empty list of creatable namespaces is omitted. -/
def seen (resp : UserIntrospectionResponse) : UserIx where
  domains := some resp.domains
  namespaces := some ⟨some resp.namespaces.userAllowed,
    if resp.namespaces.userCreatable = [] then none else some resp.namespaces.userCreatable⟩

/-- The request that `App` sends. -/
def appRequest (cl : Identity) : IntrospectRequest := userRequest cl ⟨[], [], true⟩

theorem mem_seen_userAllowed (w : Server.World) (cl : Identity) (n : String) :
    n ∈ userAllowed (seen (responseTo w (appRequest cl) cl)) ↔ (n ∈ allowedFor w cl.toClaims ∧ n ≠ "") ∧ n ≠ "*" ∧
      ∃ a ∈ defaultActions, w.allows cl.toClaims a n = true := by
  have blank : (appRequest cl).get "namespaces" = "" := rfl
  have usual : actionsOf (appRequest cl) = defaultActions := actionsOf_blank rfl
  have listed : n ∈ userAllowed (seen (responseTo w (appRequest cl) cl)) ↔ _ :=
    (responseTo_describes w (appRequest cl) cl).allowed.mem_iff n
  rw [listed, mem_targetsOf_blank blank, usual]
  by_cases star : n = "*" <;> simp [star]

theorem allowAll_seen (w : Server.World) (cl : Identity) :
    allowAll (seen (responseTo w (appRequest cl) cl)) = w.allows cl.toClaims "watch" "*" := by
  have watched : entry (responseTo w (appRequest cl) cl) "*" "watch" = some (w.allows cl.toClaims "watch" "*") := by
    have checked : "*" ∈ targetsOf w (appRequest cl) cl.toClaims := (mem_targetsOf_blank rfl "*").2 ⟨.inr rfl, by decide⟩
    rw [entry_response, actionsOf_blank rfl]
    exact if_pos ⟨checked, by decide⟩
  exact congrArg (fun decision : Option Bool => decision.getD false) watched

/-- The page of a user ends with a selection that the policy grants: `All` if the user may watch
everywhere, and else a namespace where something is granted, if one is listed that may be listed. -/
theorem selection_served (w : Server.World) (cl : Identity) (ns : String) (names : "All" ∉ discovered w) :
    let final := revalidate (seen (responseTo w (appRequest cl) cl)) ns
    (final = "All" → w.allows cl.toClaims "watch" "*" = true) ∧
      (final ≠ "All" → (∃ n ∈ discovered w, n ≠ "" ∧ n ≠ "*" ∧ w.allows cl.toClaims "list" n = true) →
        final ∈ discovered w ∧ ∃ a ∈ defaultActions, w.allows cl.toClaims a final = true) := by
  have plain : "All" ∉ userAllowed (seen (responseTo w (appRequest cl) cl)) := fun mem =>
    names (mem_allowedFor.1 ((mem_seen_userAllowed w cl _).1 mem).1.1).1
  obtain ⟨all, accessible⟩ := revalidate_fits plain ns
  refine ⟨fun eq => allowAll_seen w cl ▸ all eq, fun other ⟨n, there, named, one, list⟩ => ?_⟩
  have listed : n ∈ userAllowed (seen (responseTo w (appRequest cl) cl)) :=
    (mem_seen_userAllowed w cl n).2 ⟨⟨mem_allowedFor.2 ⟨there, .inr list⟩, named⟩, one, "list", by decide, list⟩
  obtain ⟨⟨final, -⟩, -, granted⟩ := (mem_seen_userAllowed w cl _).1 (accessible other (List.ne_nil_of_mem listed))
  exact ⟨(mem_allowedFor.1 final).1, granted⟩

end Codespace.Ui
