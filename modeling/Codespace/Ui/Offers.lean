import Codespace.Server.Legacy
import Codespace.Ui.Create
import Codespace.Ui.Menu

/-!
# What the create dialog offers

`SessionsPage` derives the namespaces for a new Session from the combined introspection response, in
three ways of which the first that gives one counts. The hook checks the namespace of a form against
the same response. So the dialog can only offer what the hook turns down where the policy grants
`create` on the wildcard and in no namespace.
-/

namespace Codespace.Ui
set_option autoImplicit false
open Server Go

attribute [local instance] Codec.names_trans Codec.names_antisymm Codec.names_total

/-! ## The page -/

/-- `perms?.session?.create`. -/
def mayCreate (domains : GoMap String DomainPermissions) (ns : String) : Bool :=
  ((domains.lookup ns).bind fun perms => perms.session.lookup "create").getD false

/-- `fromApi` of the page. -/
def SessionsPage.fromApi (ix : LegacyResponse) : List String := (ix.namespaces.lookup "userCreatable").getD []

/-- The third way of the page. The order of the entries is lost in the sorting. -/
def SessionsPage.fromDomains (ix : LegacyResponse) : List String :=
  sortUnits ((ix.domains.keys.sort (· ≤ ·)).filter fun ns => ns ≠ "*" && mayCreate ix.domains ns)

/-- `creatableNamespaces` of the page. -/
def SessionsPage.creatableNamespaces (ix : LegacyResponse) : List String :=
  if 0 < (SessionsPage.fromApi ix).length then sortUnits (SessionsPage.fromApi ix)
  else if mayCreate ix.domains "*" then sortUnits ((ix.namespaces.lookup "userAllowed").getD [])
  else SessionsPage.fromDomains ix

/-- The combined response, as the hooks read it. -/
def asUserResponse (ix : LegacyResponse) : UserIntrospectionResponse where
  user := ix.user
  domains := ix.domains
  namespaces := ⟨(ix.namespaces.lookup "userAllowed").getD [], (ix.namespaces.lookup "userCreatable").getD [],
    (ix.namespaces.lookup "userDeletable").getD []⟩
  capabilities := ⟨ix.capabilities.namespaceScope, ix.capabilities.clusterScope, ix.capabilities.adminAccess⟩

/-- They read what the endpoint for the user says. -/
theorem asUserResponse_combined (user : UserIntrospectionResponse) (server : Option ServerIntrospectionResponse) :
    asUserResponse (combined user server) = user := by
  have listed := combineNamespaceInfo_namesListed user.namespaces ((server.map (·.namespaces)).getD ⟨[], []⟩)
  have creatable : ((combined user server).namespaces.lookup "userCreatable").getD [] = user.namespaces.userCreatable := by
    refine (congrArg (Option.getD · []) listed.userCreatable).trans ?_
    split
    · rename_i none
      exact none.symm
    · rfl
  have deletable : ((combined user server).namespaces.lookup "userDeletable").getD [] = user.namespaces.userDeletable := by
    refine (congrArg (Option.getD · []) listed.userDeletable).trans ?_
    split
    · rename_i none
      exact none.symm
    · rfl
  have allowed : ((combined user server).namespaces.lookup "userAllowed").getD [] = user.namespaces.userAllowed :=
    congrArg (Option.getD · []) listed.userAllowed
  rw [asUserResponse, creatable, deletable, allowed]
  rfl

/-! ## What is offered -/

section

variable {w : Server.World} {d : ServerDeps} {cl : Identity} (plain : PlainNames w)

/-- The policy lets a user create in a namespace that is listed. -/
def Creatable (w : Server.World) (cl : Identity) (n : String) : Prop :=
  n ∈ allowedFor w cl.toClaims ∧ w.allows cl.toClaims "create" n = true

/-- There is a wildcard, and nothing that it stands for. -/
def WildcardOnly (w : Server.World) (cl : Identity) : Prop :=
  w.allows cl.toClaims "create" "*" = true ∧ ∀ n, ¬ Creatable w cl n

theorem asked_create : "create" ∈ actionsOf (appRequest cl) := by
  have usual : actionsOf (appRequest cl) = defaultActions := actionsOf_blank rfl
  rw [usual]
  decide

include plain

theorem mem_userCreatable (n : String) :
    n ∈ (responseTo w (appRequest cl) cl).namespaces.userCreatable ↔ Creatable w cl n := by
  rw [(responseTo_describes w (appRequest cl) cl).creatable.mem_iff, mem_targetsOf_blank rfl]
  constructor
  · rintro ⟨⟨allowed | star, -⟩, one, -, may⟩
    · exact ⟨allowed, may⟩
    · exact absurd star one
  · rintro ⟨allowed, may⟩
    obtain ⟨named, one, -⟩ := plain n (mem_allowedFor.1 allowed).1
    exact ⟨⟨.inl allowed, named⟩, one, asked_create, may⟩

theorem mayCreate_response {n : String} (one : n ≠ "*") :
    mayCreate (responseTo w (appRequest cl) cl).domains n = true ↔ Creatable w cl n := by
  have cell : mayCreate (responseTo w (appRequest cl) cl).domains n =
    (entry (responseTo w (appRequest cl) cl) n "create").getD false := rfl
  have listed : n ∈ targetsOf w (appRequest cl) cl.toClaims ↔ n ∈ allowedFor w cl.toClaims := by
    rw [mem_targetsOf_blank rfl]
    refine ⟨fun target => target.1.resolve_right one, fun allowed => ⟨.inl allowed, ?_⟩⟩
    exact (plain n (mem_allowedFor.1 allowed).1).1
  rw [cell, entry_response]
  by_cases allowed : n ∈ allowedFor w cl.toClaims <;> simp [Creatable, listed, allowed, asked_create]

omit plain in
theorem mayCreate_star :
    mayCreate (responseTo w (appRequest cl) cl).domains "*" = w.allows cl.toClaims "create" "*" := by
  have cell : mayCreate (responseTo w (appRequest cl) cl).domains "*" =
    (entry (responseTo w (appRequest cl) cl) "*" "create").getD false := rfl
  have checked : "*" ∈ targetsOf w (appRequest cl) cl.toClaims ∧ "create" ∈ actionsOf (appRequest cl) :=
    ⟨(mem_targetsOf_blank rfl "*").2 ⟨.inr rfl, by decide⟩, asked_create⟩
  rw [cell, entry_response, if_pos checked]
  rfl

section

variable (server : Option ServerIntrospectionResponse)

omit plain in
theorem fromApi_combined : SessionsPage.fromApi (combined (responseTo w (appRequest cl) cl) server) =
    (responseTo w (appRequest cl) cl).namespaces.userCreatable :=
  congrArg (·.namespaces.userCreatable) (asUserResponse_combined (responseTo w (appRequest cl) cl) server)

/-- The third way gives nothing that the first does not. -/
theorem fromDomains_creatable {n : String}
    (mem : n ∈ SessionsPage.fromDomains (combined (responseTo w (appRequest cl) cl) server)) : Creatable w cl n := by
  have domains := congrArg (·.domains) (asUserResponse_combined (responseTo w (appRequest cl) cl) server)
  simp only [asUserResponse] at domains
  simp only [SessionsPage.fromDomains, domains, mem_sortUnits, List.mem_filter, Bool.and_eq_true, decide_eq_true_iff] at mem
  exact (mayCreate_response plain mem.2.1).1 mem.2.2

/-- So where the first way gives nothing, the third finds nothing. -/
theorem fromDomains_eq_nil (none : SessionsPage.fromApi (combined (responseTo w (appRequest cl) cl) server) = []) :
    SessionsPage.fromDomains (combined (responseTo w (appRequest cl) cl) server) = [] := by
  rw [fromApi_combined] at none
  refine List.eq_nil_iff_forall_not_mem.2 fun n mem => ?_
  have listed := (mem_userCreatable plain n).2 (fromDomains_creatable plain server mem)
  exact absurd listed (none ▸ List.not_mem_nil)

theorem mem_creatableNamespaces (n : String) :
    n ∈ SessionsPage.creatableNamespaces (combined (responseTo w (appRequest cl) cl) server) ↔
      Creatable w cl n ∨ WildcardOnly w cl ∧ Reachable w cl n := by
  have same := asUserResponse_combined (responseTo w (appRequest cl) cl) server
  have allowed := congrArg (·.namespaces.userAllowed) same
  have domains := congrArg (·.domains) same
  simp only [asUserResponse] at allowed domains
  unfold SessionsPage.creatableNamespaces
  rw [fromApi_combined, allowed, domains, mayCreate_star]
  by_cases some : 0 < (responseTo w (appRequest cl) cl).namespaces.userCreatable.length
  · obtain ⟨m, mem⟩ := List.exists_mem_of_length_pos some
    rw [if_pos some, mem_sortUnits, mem_userCreatable plain]
    exact ⟨.inl, fun either => either.resolve_right fun wild => wild.1.2 m ((mem_userCreatable plain m).1 mem)⟩
  have none : ∀ m, ¬ Creatable w cl m := fun m here =>
    some (List.length_pos_of_mem ((mem_userCreatable plain m).2 here))
  rw [if_neg some]
  cases wild : w.allows cl.toClaims "create" "*" with
  | true =>
    rw [if_pos rfl, mem_sortUnits, mem_userAllowed plain]
    exact ⟨fun reach => .inr ⟨⟨wild, none⟩, reach⟩, fun either => (either.resolve_left (none n)).2⟩
  | false =>
    rw [if_neg Bool.false_ne_true]
    constructor
    · exact fun mem => .inl (fromDomains_creatable plain server mem)
    · rintro (here | ⟨⟨yes, -⟩, -⟩)
      · exact absurd here (none n)
      · exact absurd (wild.symm.trans yes) Bool.false_ne_true

end

end

/-! ## What is sent -/

/-- The dialog is shown what the page offers. -/
def Dialog.Shows (writable : List String) (_ : Dialog) (a : Dialog.Act) : Prop :=
  ∀ listing names, a = .props listing names → names = writable

theorem Dialog.step_shows {writable : List String} {D D' : Dialog} {a : Act} (shows : Shows writable D a)
    (next : D.step a = some D') (shown : D.writable = writable) : D'.writable = writable := by
  cases a with
  | props listing names =>
    cases next
    exact shows listing names rfl
  | choose ns =>
    simp only [step] at next
    split at next
    · cases next
      exact shown
    · cases next
  | submit =>
    simp only [step] at next
    split at next
    · cases next
    · obtain ⟨-, -, rfl⟩ := Option.map_eq_some_iff.1 next
      exact shown
  | answered i =>
    obtain ⟨-, -, rfl⟩ := Option.map_eq_some_iff.1 next
    exact shown
  | _ =>
    cases next
    exact shown

theorem Dialog.run_shows {writable : List String} {D D' : Dialog}
    (run : Relation.ReflTransGen (Moves (Shows writable)) D D') (shown : D.writable = writable) : D'.writable = writable := by
  induction run with
  | refl => exact shown
  | tail _ move ih =>
    obtain ⟨a, shows, next⟩ := move
    exact step_shows shows next ih

/-- In a namespace that is listed the hook says what the policy says. -/
theorem can_listed {w : Server.World} {cl : Identity} (plain : PlainNames w) {n : String}
    (allowed : n ∈ allowedFor w cl.toClaims) :
    can (some (responseTo w (appRequest cl) cl)) n "create" = w.allows cl.toClaims "create" n := by
  obtain ⟨named, -, other⟩ := plain n (mem_allowedFor.1 allowed).1
  have listed : n ∈ targetsOf w (appRequest cl) cl.toClaims := (mem_targetsOf_blank rfl n).2 ⟨.inl allowed, named⟩
  refine Bool.eq_iff_iff.2 ((can_response asked_create).trans ?_)
  rw [domainOf_ne other, if_pos listed]

/-- What becomes of a form that is sent. -/
theorem create_sent {ix : Option UserIntrospectionResponse} {f : Form} {body : CreateBody} (sent : f.submit = some body)
    (effectiveNs : String) : create ix effectiveNs body =
      if can ix f.ns "create" then
        if f.image = "" then .error "Profile (ide, image) is required." else .ok body
      else .error ("Not allowed to create in " ++ f.ns) := by
  have filled := submit_filled sent
  have candidate : (body.ns.orElse fun _ => if effectiveNs ≠ "All" then some effectiveNs else none).filter (· ≠ "") =
      some f.ns := by
    rw [filled.ns]
    simp [filled.located]
  have value : ∀ ide : Ide, ide.value ≠ "" := by
    intro ide
    cases ide <;> decide
  have ide : body.ide ≠ "" := by
    unfold Form.submit at sent
    split at sent
    · cases sent
    · cases sent
      exact value f.ide
  unfold create
  simp only [candidate]
  cases can ix f.ns "create" with
  | false => rfl
  | true =>
    rw [← filled.image]
    simp only [if_true, bind, Except.bind, if_neg filled.named, ide, false_or, ← filled.ns]

/-! ## The dialog -/

/-- What a page offers to a user, as the policy has it. -/
structure Offers (w : Server.World) (cl : Identity) (ix : LegacyResponse) : Prop where
  offered : ∀ n, n ∈ SessionsPage.creatableNamespaces ix ↔ Creatable w cl n ∨ WildcardOnly w cl ∧ Reachable w cl n
  thirdWay : SessionsPage.fromApi ix = [] → SessionsPage.fromDomains ix = []
  honest : (∀ n ∈ SessionsPage.creatableNamespaces ix, w.allows cl.toClaims "create" n = true) ↔
    ¬ (WildcardOnly w cl ∧ ∃ n, Reachable w cl n)
  sent : ∀ listing effectiveNs D body,
    Relation.ReflTransGen (Dialog.Moves (Dialog.Shows (SessionsPage.creatableNamespaces ix)))
      (.mounted listing (SessionsPage.creatableNamespaces ix)) D → D.form.submit = some body →
    D.form.ns ∈ SessionsPage.creatableNamespaces ix ∧ create (some (asUserResponse ix)) effectiveNs body =
      if w.allows cl.toClaims "create" D.form.ns then
        if D.form.image = "" then .error "Profile (ide, image) is required." else .ok body
      else .error ("Not allowed to create in " ++ D.form.ns)

/-- **Main result.** The dialog offers the namespaces in which the policy lets the user create, whatever is
done in it, and the hook lets every form go that names one. Where the policy grants it on the wildcard only,
the dialog offers every namespace of the user instead, and the hook turns every form down. -/
theorem offers {w : Server.World} {d : ServerDeps} {cl : Identity} (plain : PlainNames w) (issued : IsTime cl.issuedAt)
    (expires : IsTime cl.expiresAt) :
    ∃ ix, (handleIntrospect d (appRequest cl)).eval w = .ok (.combined ix) ∧ Offers w cl ix := by
  have both : (appRequest cl).get "type" ≠ "user" ∧ (appRequest cl).get "type" ≠ "server" := by
    have blank : (appRequest cl).get "type" = "" := rfl
    rw [blank]
    decide
  let server := ((handleServerIntrospect d (appRequest cl)).eval w).toOption
  have offered : ∀ n, _ ↔ Creatable w cl n ∨ WildcardOnly w cl ∧ Reachable w cl n := mem_creatableNamespaces plain server
  refine ⟨_, handleIntrospect_combined rfl issued expires both, offered, fromDomains_eq_nil plain server, ?_, ?_⟩
  · constructor
    · rintro all ⟨wild, n, reach⟩
      exact wild.2 n ⟨reach.1, all n ((offered n).2 (.inr ⟨wild, reach⟩))⟩
    · intro honest n mem
      exact ((offered n).1 mem).elim And.right fun other => absurd ⟨other.1, n, other.2⟩ honest
  · intro listing effectiveNs D body opened sent
    have filled := submit_filled sent
    have shown : D.writable = _ := Dialog.run_shows opened rfl
    have mem : D.form.ns ∈ D.writable :=
      (Dialog.run_offered opened (Dialog.preferred_offered listing _)).resolve_left filled.located
    rw [shown] at mem
    refine ⟨mem, ?_⟩
    have allowed : D.form.ns ∈ allowedFor w cl.toClaims := ((offered _).1 mem).elim And.left fun other => other.2.1
    rw [create_sent sent, asUserResponse_combined, can_listed plain allowed]

/-- The policy of a user who may list in a namespace, and create on the wildcard. -/
def wildcardCreate : Enforce := fun _ _ _ action ns => .ok (action = "list" ∧ ns = "team" ∨ action = "create" ∧ ns = "*")

/-- The namespace is offered, but not granted, and a form that names it is turned down. -/
theorem offers_wildcard : ∃ ix body,
    (handleIntrospect (.plain "i" false) (appRequest (.plain "u"))).eval (World.plain wildcardCreate ["team"]) =
      .ok (.combined ix) ∧ "team" ∈ SessionsPage.creatableNamespaces ix ∧
    World.allows (World.plain wildcardCreate ["team"]) (Identity.plain "u").toClaims "create" "team" = false ∧
    ({ Form.start with ns := "team", name := "a" } : Form).submit = some body ∧
    create (some (asUserResponse ix)) "All" body = .error "Not allowed to create in team" := by
  have plain : PlainNames (World.plain wildcardCreate ["team"]) := by
    unfold PlainNames
    decide
  have issued : IsTime (Identity.plain "u").issuedAt := by decide
  have expires : IsTime (Identity.plain "u").expiresAt := by decide
  obtain ⟨ix, shown, page⟩ := offers (d := .plain "i" false) plain issued expires
  have one : discovered (World.plain wildcardCreate ["team"]) = ["team"] := by decide
  have denied : World.allows (World.plain wildcardCreate ["team"]) (Identity.plain "u").toClaims "create" "team" = false := rfl
  have team : "team" ∈ SessionsPage.creatableNamespaces ix := by
    refine (page.offered "team").2 (.inr ⟨⟨rfl, fun n here => ?_⟩, ?_, "list", by decide, rfl⟩)
    · have there := (mem_allowedFor.1 here.1).1
      rw [one, List.mem_singleton] at there
      subst there
      exact absurd here.2 (by decide)
    · exact mem_allowedFor.2 ⟨one ▸ List.mem_cons_self, .inr rfl⟩
  -- the namespace is chosen, and a name entered
  let f : Form := { Form.start with ns := "team", name := "a" }
  obtain ⟨body, sent⟩ : ∃ body, f.submit = some body := Option.isSome_iff_exists.1 (by decide)
  let names := SessionsPage.creatableNamespaces ix
  have chosen : Dialog.Moves (Dialog.Shows names) (.mounted "All" names)
      { Dialog.mounted "All" names with form := { Form.start with ns := "team" } } :=
    ⟨.choose "team", fun _ _ => nofun, if_pos team⟩
  have named : Dialog.Moves (Dialog.Shows names) { Dialog.mounted "All" names with form := { Form.start with ns := "team" } }
      { Dialog.mounted "All" names with form := f } := ⟨.name "a", fun _ _ => nofun, rfl⟩
  obtain ⟨-, refused⟩ := page.sent "All" "All" _ body ((Relation.ReflTransGen.single chosen).tail named) sent
  exact ⟨ix, body, shown, team, denied, sent, refused.trans (if_neg (Bool.eq_false_iff.1 denied))⟩

end Codespace.Ui
