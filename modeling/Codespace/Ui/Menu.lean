import Codespace.Server.Discovery
import Codespace.Ui.Selection

/-!
# The namespace menu

`useNamespaces` puts together what the two introspection endpoints say, and the menu of
`Header.tsx` offers the namespaces it comes to, those without Sessions greyed out. What is picked
becomes the state of `App`, which checks it against its own response. The policy and the Sessions
that there are decide which options are there, which are greyed out, and which stay selected.
-/

namespace Codespace.Ui
set_option autoImplicit false
open Interact Server Go

/-! ## The hook and the menu -/

structure Namespaces where
  allNamespaces : List String
  sessionNamespaces : List String
  deriving DecidableEq

/-- There is always at least the default namespace. -/
def atLeastDefault (names : List String) : List String := if names = [] then ["default"] else names

/-- The lists of `useNamespaces` once neither response is waited for. A response that failed is absent. -/
def useNamespaces (userInfo : Option UserIntrospectionResponse) (serverInfo : Option ServerIntrospectionResponse) :
    Namespaces :=
  let userAccessible := (userInfo.map (·.namespaces.userAllowed)).getD []
  let serverDiscovered := (serverInfo.map (·.namespaces.all)).getD []
  let sessionsDiscovered := (serverInfo.map (·.namespaces.withSessions)).getD []
  if (userInfo.map (·.capabilities.clusterScope)).getD false then
    { allNamespaces := atLeastDefault (sortUnits (userAccessible ++ serverDiscovered).eraseDups)
      sessionNamespaces := atLeastDefault
        (if 0 < sessionsDiscovered.length then sortUnits sessionsDiscovered else sortUnits userAccessible) }
  else
    let filtered := sortUnits (sessionsDiscovered.filter fun ns => ns ∈ userAccessible)
    { allNamespaces := atLeastDefault (sortUnits userAccessible)
      sessionNamespaces := atLeastDefault (if filtered = [] then sortUnits userAccessible else filtered) }

/-- The options of the menu. -/
def selectOptions (userInfo : Option UserIntrospectionResponse) (names : Namespaces) : List String :=
  if canPerformAction userInfo "watch" "*" then "All" :: names.allNamespaces else names.allNamespaces

/-- An option that cannot be picked while a namespace is selected. -/
def isDisabled (names : Namespaces) (selected option : String) : Bool :=
  option ≠ "All" && option ≠ selected && (option ∈ names.allNamespaces && option ∉ names.sessionNamespaces)

/-- The request of `introspectApi.getServer`. -/
def serverRequest (cl : Identity) : IntrospectRequest := ⟨[("discover", "1")], some cl⟩

/-! ## What the server says -/

section

variable {w : Server.World} {d : ServerDeps} {cl : Identity}

/-- The policy lets a user list the namespaces. -/
def mayListNamespaces (w : Server.World) (cl : Identity) : Bool :=
  granted (w.policy cl.sub cl.roles namespaceResourceString "list" "*")

/-- The server tells a user what there is. -/
def Told (w : Server.World) (cl : Identity) : Prop :=
  mayListNamespaces w cl = true ∨ w.allows cl.toClaims "list" "*" = true

/-- What the page of a user gets from the two endpoints. -/
def userInfo (w : Server.World) (cl : Identity) : Option UserIntrospectionResponse := some (responseTo w (appRequest cl) cl)

def serverInfo (w : Server.World) (d : ServerDeps) (cl : Identity) : Option ServerIntrospectionResponse :=
  ((handleServerIntrospect d (serverRequest cl)).eval w).toOption

/-- Who is told is told of all namespaces, and of those with Sessions among them. -/
theorem serverInfo_told (told : Told w cl) {sessNs : List String}
    (sessions : (discoverNamespacesWithSessions d).eval w = .ok sessNs) : ∃ resp, serverInfo w d cl = some resp ∧
      resp.namespaces.all = discovered w ∧ resp.namespaces.withSessions =
        if mayListNamespaces w cl then sessNs else filterNamespaces sessNs (discovered w) := by
  have names : granted (w (.enforce cl.sub cl.roles namespaceResourceString "list" "*")) = mayListNamespaces w cl := rfl
  have everywhere : granted (w (.enforce cl.sub cl.roles sessionResourceString "list" "*")) =
    w.allows cl.toClaims "list" "*" := rfl
  have discover : (serverRequest cl).get "discover" = "1" := rfl
  have whole : filterNamespaces (discovered w) (discovered w) = discovered w :=
    List.filter_eq_self.2 fun n mem => decide_eq_true mem
  have shown : (shownNamespaces d cl.toClaims (mayListNamespaces w cl)).eval w =
      ⟨discovered w, if mayListNamespaces w cl then sessNs else filterNamespaces sessNs (discovered w)⟩ := by
    unfold shownNamespaces
    simp only [Prog.eval_bind, discoverNamespaces_eval, sessions]
    cases access : mayListNamespaces w cl with
    | true => rfl
    | false =>
      have all : w.allows cl.toClaims "list" "*" = true := told.resolve_left (by simp [access])
      have allowed : allowedFor w cl.toClaims = discovered w := if_pos all
      simp only [Bool.false_eq_true, if_false, Prog.eval_bind, getAllowedNamespacesForUser_eval, allowed, whole,
        Prog.pure_eq, Prog.eval_ret]
  have passes : (!mayListNamespaces w cl && !w.allows cl.toClaims "list" "*") = false := by
    rcases told with yes | yes <;> simp [yes]
  unfold serverInfo handleServerIntrospect
  have claims : (serverRequest cl).claims = some cl := rfl
  rw [claims]
  simp only [Prog.perform_bind, Prog.eval_call, names, everywhere, passes, Bool.false_eq_true, if_false, Prog.eval_bind,
    if_pos discover, shown]
  exact ⟨_, rfl, rfl, rfl⟩

theorem serverInfo_untold (untold : ¬ Told w cl) : serverInfo w d cl = none := by
  have refused : (!mayListNamespaces w cl && !w.allows cl.toClaims "list" "*") = true := by
    rw [Told, not_or] at untold
    simp [untold]
  have names : granted (w (.enforce cl.sub cl.roles namespaceResourceString "list" "*")) = mayListNamespaces w cl := rfl
  have everywhere : granted (w (.enforce cl.sub cl.roles sessionResourceString "list" "*")) =
    w.allows cl.toClaims "list" "*" := rfl
  unfold serverInfo handleServerIntrospect
  have claims : (serverRequest cl).claims = some cl := rfl
  rw [claims]
  simp only [Prog.perform_bind, Prog.eval_call, names, everywhere, refused, if_true]
  rfl

/-! ## What is in the menu -/

/-- A namespace that the response to `App` lists. -/
def Reachable (w : Server.World) (cl : Identity) (n : String) : Prop :=
  n ∈ allowedFor w cl.toClaims ∧ Accessible w cl.toClaims n

/-- Names of namespaces; none of them means something else to the UI. -/
def PlainNames (w : Server.World) : Prop := ∀ n ∈ discovered w, n ≠ "" ∧ n ≠ "*" ∧ n ≠ "All"

/-- The namespaces that the page of a user comes to. -/
def namespacesOf (w : Server.World) (d : ServerDeps) (cl : Identity) : Namespaces :=
  useNamespaces (userInfo w cl) (serverInfo w d cl)

theorem mem_sortUnits {l : List String} {n : String} : n ∈ sortUnits l ↔ n ∈ l := List.mem_insertionSort _

theorem sortUnits_eq_nil {l : List String} : sortUnits l = [] ↔ l = [] := by
  simp only [List.eq_nil_iff_forall_not_mem, mem_sortUnits]

theorem eraseDups_eq_nil {l : List String} : l.eraseDups = [] ↔ l = [] := by
  simp only [List.eq_nil_iff_forall_not_mem, List.mem_eraseDups]

theorem mem_atLeastDefault {l : List String} {n : String} :
    n ∈ atLeastDefault l ↔ n ∈ l ∨ n = "default" ∧ l = [] := by
  unfold atLeastDefault
  split
  · rename_i none
    simp [none]
  · rename_i some
    simp [some]

theorem discovered_ne_nil (w : Server.World) : discovered w ≠ [] := by
  unfold discovered
  split
  · exact List.cons_ne_nil _ _
  · split
    · exact List.cons_ne_nil _ _
    · assumption

theorem clusterScope_told (told : Told w cl) : (responseTo w (appRequest cl) cl).capabilities.clusterScope = true := by
  have scope : (responseTo w (appRequest cl) cl).capabilities.clusterScope =
    (w.allows cl.toClaims "list" "*" || w.allows cl.toClaims "watch" "*" || mayListNamespaces w cl) := rfl
  rw [scope]
  rcases told with yes | yes <;> simp [yes]

/-- The namespaces that count as having Sessions, for who is told. -/
theorem sessionNamespaces_told (told : Told w cl) {sessNs : List String}
    (sessions : (discoverNamespacesWithSessions d).eval w = .ok sessNs) :
    (namespacesOf w d cl).sessionNamespaces =
      let shown := if mayListNamespaces w cl then sessNs else filterNamespaces sessNs (discovered w)
      atLeastDefault (if shown = [] then sortUnits (responseTo w (appRequest cl) cl).namespaces.userAllowed
        else sortUnits shown) := by
  obtain ⟨resp, shown, -, some⟩ := serverInfo_told told sessions
  unfold namespacesOf useNamespaces userInfo
  simp only [shown, Option.map_some, Option.getD_some, clusterScope_told told, if_true, some, List.length_pos_iff,
    ne_eq, ite_not]

/-- For who is not, they are the ones in the menu. -/
theorem sessionNamespaces_untold (untold : ¬ Told w cl) :
    (namespacesOf w d cl).sessionNamespaces =
      atLeastDefault (sortUnits (responseTo w (appRequest cl) cl).namespaces.userAllowed) := by
  unfold namespacesOf useNamespaces userInfo
  rw [serverInfo_untold untold]
  simp only [Option.map_some, Option.getD_some, Option.map_none, Option.getD_none, List.length_nil, Nat.lt_irrefl,
    if_false, List.filter_nil]
  have empty : sortUnits [] = [] := rfl
  cases (responseTo w (appRequest cl) cl).capabilities.clusterScope <;>
    simp only [empty, if_true, Bool.false_eq_true, if_false]

variable (plain : PlainNames w)

include plain

theorem mem_userAllowed (n : String) :
    n ∈ (responseTo w (appRequest cl) cl).namespaces.userAllowed ↔ Reachable w cl n := by
  refine (mem_seen_userAllowed w cl n).trans ⟨fun ⟨⟨allowed, _⟩, _, any⟩ => ⟨allowed, any⟩, fun ⟨allowed, any⟩ => ?_⟩
  obtain ⟨named, one, -⟩ := plain n (mem_allowedFor.1 allowed).1
  exact ⟨⟨allowed, named⟩, one, any⟩

theorem userAllowed_eq_nil : (responseTo w (appRequest cl) cl).namespaces.userAllowed = [] ↔
    ∀ m, ¬ Reachable w cl m := by
  rw [List.eq_nil_iff_forall_not_mem]
  exact forall_congr' fun m => not_congr (mem_userAllowed plain m)

/-- The namespaces in the menu. -/
theorem mem_allNamespaces {sessNs : List String} (sessions : (discoverNamespacesWithSessions d).eval w = .ok sessNs)
    (n : String) : n ∈ (namespacesOf w d cl).allNamespaces ↔ Reachable w cl n ∨ Told w cl ∧ n ∈ discovered w ∨
      n = "default" ∧ ¬ Told w cl ∧ ∀ m, ¬ Reachable w cl m := by
  have member : n ∈ (responseTo w (appRequest cl) cl).namespaces.userAllowed ↔ _ := mem_userAllowed plain n
  have none : (responseTo w (appRequest cl) cl).namespaces.userAllowed = [] ↔ _ := userAllowed_eq_nil plain
  unfold namespacesOf useNamespaces userInfo
  by_cases told : Told w cl
  · obtain ⟨resp, shown, all, -⟩ := serverInfo_told told sessions
    have some : (responseTo w (appRequest cl) cl).namespaces.userAllowed ++ discovered w ≠ [] :=
      List.append_ne_nil_of_right_ne_nil _ (discovered_ne_nil w)
    simp only [shown, Option.map_some, Option.getD_some, clusterScope_told told, if_true, mem_atLeastDefault,
      mem_sortUnits, all, List.mem_eraseDups, List.mem_append, member, sortUnits_eq_nil, eraseDups_eq_nil, some,
      and_false, or_false, told, true_and, not_true, false_and]
  · rw [serverInfo_untold told]
    simp only [Option.map_some, Option.getD_some, Option.map_none, Option.getD_none, List.append_nil]
    cases (responseTo w (appRequest cl) cl).capabilities.clusterScope <;>
      simp [mem_atLeastDefault, mem_sortUnits, sortUnits_eq_nil, eraseDups_eq_nil, member, none, told]

theorem mem_fallback (n : String) :
    n ∈ atLeastDefault (sortUnits (responseTo w (appRequest cl) cl).namespaces.userAllowed) ↔
      Reachable w cl n ∨ n = "default" ∧ ∀ m, ¬ Reachable w cl m := by
  rw [mem_atLeastDefault, mem_sortUnits, sortUnits_eq_nil, mem_userAllowed plain, userAllowed_eq_nil plain]

theorem allNamespaces_named {sessNs : List String} (sessions : (discoverNamespacesWithSessions d).eval w = .ok sessNs)
    {n : String} (listed : n ∈ (namespacesOf w d cl).allNamespaces) : n ≠ "" ∧ n ≠ "All" := by
  rcases (mem_allNamespaces plain sessions n).1 listed with reach | ⟨-, there⟩ | ⟨rfl, -⟩
  · obtain ⟨named, -, other⟩ := plain n (mem_allowedFor.1 reach.1).1
    exact ⟨named, other⟩
  · exact ⟨(plain n there).1, (plain n there).2.2⟩
  · decide

section

variable {sessNs : List String} {has : String → Prop} (sessions : (discoverNamespacesWithSessions d).eval w = .ok sessNs)
  (found : ∀ m, m ≠ "" → (m ∈ sessNs ↔ has m))

include sessions found

omit plain in
theorem mem_sessionNamespaces_all (some : sessNs ≠ []) (may : mayListNamespaces w cl = true) {n : String}
    (named : n ≠ "") : n ∈ (namespacesOf w d cl).sessionNamespaces ↔ has n := by
  rw [sessionNamespaces_told (.inl may) sessions, ← found n named]
  simp only [may, if_true, some, if_false, mem_atLeastDefault, mem_sortUnits, sortUnits_eq_nil, and_false, or_false]

/-- If none of the namespaces that are told has Sessions, it is as if nothing were told. -/
theorem mem_sessionNamespaces_some (may : mayListNamespaces w cl = false) (told : Told w cl) (n : String) :
    n ∈ (namespacesOf w d cl).sessionNamespaces ↔ (n ∈ discovered w ∧ has n) ∨
      (∀ m ∈ discovered w, ¬ has m) ∧ (Reachable w cl n ∨ n = "default" ∧ ∀ m, ¬ Reachable w cl m) := by
  have shown : ∀ m, m ∈ filterNamespaces sessNs (discovered w) ↔ m ∈ discovered w ∧ has m := by
    intro m
    rw [mem_filterNamespaces, and_comm]
    exact and_congr_right fun there => found m (plain m there).1
  rw [sessionNamespaces_told told sessions]
  simp only [may, Bool.false_eq_true, if_false]
  by_cases none : filterNamespaces sessNs (discovered w) = []
  · have nowhere : ∀ m ∈ discovered w, ¬ has m := by
      intro m there one
      have mem := (shown m).2 ⟨there, one⟩
      rw [none] at mem
      exact List.not_mem_nil mem
    rw [if_pos none, mem_fallback plain]
    exact ⟨fun here => .inr ⟨nowhere, here⟩, fun either => (either.resolve_left fun here => nowhere n here.1 here.2).2⟩
  · obtain ⟨m, mem⟩ := List.exists_mem_of_ne_nil _ none
    rw [if_neg none, mem_atLeastDefault, mem_sortUnits, sortUnits_eq_nil, shown]
    refine ⟨fun either => .inl (either.resolve_right fun empty => none empty.2), fun either => .inl ?_⟩
    exact either.resolve_right fun nowhere => nowhere.1 m ((shown m).1 mem).1 ((shown m).1 mem).2

/-- The options that are greyed out. -/
theorem withoutSessions_iff (some : sessNs ≠ []) {n : String} (listed : n ∈ (namespacesOf w d cl).allNamespaces) :
    n ∉ (namespacesOf w d cl).sessionNamespaces ↔ Told w cl ∧ ¬ has n ∧
      (mayListNamespaces w cl = true ∨ (∃ m ∈ discovered w, has m) ∨
        ¬ Reachable w cl n ∧ (n = "default" → ∃ m, Reachable w cl m)) := by
  have named := (allNamespaces_named plain sessions listed).1
  have here := (mem_allNamespaces plain sessions n).1 listed
  cases may : mayListNamespaces w cl with
  | true =>
    have told : Told w cl := .inl may
    rw [mem_sessionNamespaces_all sessions found some may named]
    simp [told]
  | false =>
    by_cases told : Told w cl
    · have there : n ∈ discovered w := by
        rcases here with reach | ⟨-, there⟩ | ⟨-, untold, -⟩
        · exact (mem_allowedFor.1 reach.1).1
        · exact there
        · exact absurd told untold
      rw [mem_sessionNamespaces_some plain sessions found may told]
      simp only [told, there, true_and, Bool.false_eq_true, false_or]
      rw [not_or, not_and_or, not_or]
      exact and_congr_right fun _ => or_congr (by simp) (and_congr_right fun _ => by simp)
    · have back : Reachable w cl n ∨ n = "default" ∧ ∀ m, ¬ Reachable w cl m := by
        rcases here with reach | ⟨untold, -⟩ | ⟨default, -, none⟩
        · exact .inl reach
        · exact absurd untold told
        · exact .inr ⟨default, none⟩
      rw [sessionNamespaces_untold told, mem_fallback plain]
      simp [back, told]

end

/-! ## The menu -/

omit plain in
theorem allowAll_userInfo : canPerformAction (userInfo w cl) "watch" "*" = w.allows cl.toClaims "watch" "*" := by
  have watched : canPerformAction (userInfo w cl) "watch" "*" =
      (allowAll (seen (responseTo w (appRequest cl) cl)) || allowAll (seen (responseTo w (appRequest cl) cl))) := rfl
  rw [watched, allowAll_seen, Bool.or_self]

omit plain in
theorem mem_selectOptions (names : Namespaces) (n : String) : n ∈ selectOptions (userInfo w cl) names ↔
    n = "All" ∧ w.allows cl.toClaims "watch" "*" = true ∨ n ∈ names.allNamespaces := by
  rw [selectOptions, allowAll_userInfo]
  cases w.allows cl.toClaims "watch" "*" <;> simp

omit plain in
theorem isDisabled_iff (names : Namespaces) (selected n : String) : isDisabled names selected n = true ↔
    n ≠ "All" ∧ n ≠ selected ∧ n ∈ names.allNamespaces ∧ n ∉ names.sessionNamespaces := by
  simp [isDisabled, and_assoc]

omit plain in
/-- Where there is no Session, the server names the namespace without a name. -/
theorem sessions_found {χ : Type} {site : Server.Site χ} (answers : site.ListsAll d w ∨ site.ListsEach d w) :
    ∃ sessNs, (discoverNamespacesWithSessions d).eval w = .ok sessNs ∧ sessNs ≠ [] ∧
      ∀ m, m ≠ "" → (m ∈ sessNs ↔ site.HasSession d m) := by
  obtain ⟨l, lists, sessions⟩ := discoverNamespacesWithSessions_eval answers
  refine ⟨_, sessions, ?_, fun m named => ?_⟩
  · split
    · exact List.cons_ne_nil _ _
    · assumption
  · rw [← lists.mem_iff]
    split
    · rename_i empty
      simp [empty, named]
    · rfl

/-- What is picked stays selected if `App` lists it. -/
theorem pick_kept_iff {app : App} (known : app.userIx = some (seen (responseTo w (appRequest cl) cl))) {n : String}
    (named : n ≠ "") (all : n = "All" → w.allows cl.toClaims "watch" "*" = true) :
    (app.react (.select n)).ns = n ↔ n = "All" ∨ Reachable w cl n := by
  have member : n ∈ userAccessibleNamespaces (seen (responseTo w (appRequest cl) cl)) ↔ _ := mem_userAllowed plain n
  constructor
  · intro kept
    refine or_iff_not_imp_left.2 fun other => member.1 ?_
    have before : (app.handle (.select n)).userIx = some (seen (responseTo w (appRequest cl) cl)) := known
    rw [App.react, App.commit_commit before] at kept
    have final := (revalidate_eq _ n).symm.trans kept
    split at final
    · rename_i valid
      unfold isCurrentNamespaceValid at valid
      rw [if_neg other] at valid
      exact of_decide_eq_true valid
    · -- what the effect falls back on
      cases one : allowAll (seen (responseTo w (appRequest cl) cl)) with
      | true =>
        rw [fallback, one, if_pos rfl] at final
        exact absurd final.symm other
      | false =>
        by_cases none : userAllowed (seen (responseTo w (appRequest cl) cl)) = []
        · exact absurd (final.symm.trans (fallback_empty one none)) named
        · exact final ▸ fallback_mem one none
  · intro reach
    refine App.select_kept known ?_
    unfold isCurrentNamespaceValid
    split
    · rename_i wild
      exact (allowAll_seen w cl).trans (all wild)
    · rename_i other
      exact decide_eq_true (member.2 (reach.resolve_left other))

/-- The menu of a user, and the page on which it is. -/
structure MenuOf {χ : Type} (w : Server.World) (d : ServerDeps) (cl : Identity) (site : Server.Site χ) : Prop where
  offered : ∀ n, n ∈ selectOptions (userInfo w cl) (namespacesOf w d cl) ↔
    n = "All" ∧ w.allows cl.toClaims "watch" "*" = true ∨ Reachable w cl n ∨ Told w cl ∧ n ∈ discovered w ∨
      n = "default" ∧ ¬ Told w cl ∧ ∀ m, ¬ Reachable w cl m
  kept : ∀ n ∈ selectOptions (userInfo w cl) (namespacesOf w d cl), ∀ app : App,
    app.userIx = some (seen (responseTo w (appRequest cl) cl)) →
      ((app.react (.select n)).ns = n ↔ n = "All" ∨ Reachable w cl n)
  greyed : ∀ n ∈ selectOptions (userInfo w cl) (namespacesOf w d cl), ∀ selected,
    (isDisabled (namespacesOf w d cl) selected n = true ↔
      n ≠ "All" ∧ n ≠ selected ∧ Told w cl ∧ ¬ site.HasSession d n ∧
        (mayListNamespaces w cl = true ∨ (∃ m ∈ discovered w, site.HasSession d m) ∨
          ¬ Reachable w cl n ∧ (n = "default" → ∃ m, Reachable w cl m)))

/-- **Main result.** The options of the menu, the ones that are greyed out, and the ones that stay selected
when they are picked. -/
theorem menu {χ : Type} {site : Server.Site χ} (answers : site.ListsAll d w ∨ site.ListsEach d w) : MenuOf w d cl site := by
  obtain ⟨sessNs, sessions, some, found⟩ := sessions_found answers
  have options : ∀ n, n ∈ selectOptions (userInfo w cl) (namespacesOf w d cl) ↔ _ := mem_selectOptions _
  refine ⟨fun n => (options n).trans (or_congr_right (mem_allNamespaces plain sessions n)), ?_, ?_⟩
  · intro n option app known
    rcases (options n).1 option with ⟨rfl, watch⟩ | listed
    · exact pick_kept_iff plain known (by decide) fun _ => watch
    · obtain ⟨named, other⟩ := allNamespaces_named plain sessions listed
      exact pick_kept_iff plain known named fun all => absurd all other
  · intro n option selected
    refine (isDisabled_iff _ selected n).trans (and_congr_right fun other => and_congr_right fun _ => ?_)
    have listed := ((options n).1 option).resolve_left fun all => other all.1
    rw [and_iff_right listed, withoutSessions_iff plain sessions found some listed]

end

/-- A user who may do anything, where one of two namespaces has a Session. -/
theorem menu_one : MenuOf (oneSession.world true) (.plain "i" false) (.plain "u") oneSession :=
  menu (by unfold PlainNames; decide) (.inl (Site.world_listsAll oneSession))

/-- The policy of a user who may list the namespaces and nothing else. -/
def namesOnly : Enforce := fun _ _ resource action domain =>
  .ok (resource = "namespace" ∧ action = "list" ∧ domain = "*")

/-- This user is offered every namespace, and any that is picked leaves nothing selected. -/
example : let page := responseTo (.plain namesOnly ["team"]) (appRequest (.plain "u")) (.plain "u")
    selectOptions (some page) (namespacesOf (.plain namesOnly ["team"]) (.plain "i" false) (.plain "u")) = ["team"] ∧
      ((App.mount none).react (.respond (seen page)) |>.react (.select "team")).ns = "" := by
  decide

end Codespace.Ui
