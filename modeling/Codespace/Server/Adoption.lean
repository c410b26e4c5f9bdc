import Codespace.Server.Ownership
import Codespace.Server.Visibility

/-!
# Adoption

What one adopt request does, in every way its API calls may be answered: it changes the
ownership of the Session it names and nothing else, or nothing at all. Which of the two is
read off the policy, the index of instances and the request (`Adoption`).

Two results are about how adoptions come together with other code. The route asks for an
admin before the handler asks for an admin or an editor of the namespace, and an instance
that adopts its own Session again takes itself for the one it was taken from.
-/

namespace Codespace.Server
set_option autoImplicit false
open Interact Versioned

variable {χ : Type} {child : ChildApi χ} {d : ServerDeps} {σ : Cluster χ} {r : Request} {cl : Claims} {s : Session}

/-! ## When a request adopts a Session -/

/-- The key that an adopt request names. -/
def adoptKey (r : Request) : Key := ⟨q r "namespace" "default", q r "name" ""⟩

/-- The id of the instance that a Session belongs to, or the empty string. -/
def ownerID (c : Common) (s : Session) : String := s.metadata.labels.index c.instanceIDLabel

/-- The caller is an admin, or may update in the namespace. -/
def MayAdopt (policy : Enforce) (r : Request) : Prop :=
  IsAdmin policy r ∨ May policy r "update" (adoptKey r).ns

/-- The server is cluster-scoped, or the Session has no instance id or the server's own. -/
def InScope (d : ServerDeps) (s : Session) : Prop :=
  d.clusterScope = true ∨ ownerID d.common s = "" ∨ ownerID d.common s = d.instanceID

/-- The Session is orphaned, already the server's own, or adoption is forced. -/
def Available (d : ServerDeps) (index : GoMap String AnchorMeta) (r : Request) (s : Session) : Prop :=
  (ownerID d.common s = "" ∨ index.lookup (ownerID d.common s) = none) ∨ ownerID d.common s = d.instanceID ∨
    queryFlag r "force" = true

/-- The request adopts the Session `s`, unless it is a dry run. -/
structure Adoption (d : ServerDeps) (σ : Cluster χ) (r : Request) (cl : Claims) (s : Session) : Prop where
  method : r.method = "POST"
  name : q r "name" "" ≠ ""
  claims : r.claims = some cl
  may : MayAdopt σ.policy r
  stored : σ.sessions.get (adoptKey r) = some s
  scope : InScope d s
  free : Available d σ.index r s

/-- The answer that turns an adoption down once the Session is fetched, if there is one. -/
def refusal (d : ServerDeps) (index : GoMap String AnchorMeta) (r : Request) (s : Session) : Option HttpResp :=
  if !d.clusterScope && ownerID d.common s ≠ "" && ownerID d.common s ≠ d.instanceID then
    some (httpError "not found" 404)
  else if !(ownerID d.common s = "" || (index.lookup (ownerID d.common s)).isNone) &&
      ownerID d.common s ≠ d.instanceID && !queryFlag r "force" then
    some (httpError "not orphaned; use force=1 to override" 409)
  else none

theorem refusal_eq_none_iff (index : GoMap String AnchorMeta) :
    refusal d index r s = none ↔ InScope d s ∧ Available d index r s := by
  unfold refusal InScope Available
  cases d.clusterScope <;> cases queryFlag r "force" <;> by_cases none : ownerID d.common s = "" <;>
    by_cases own : ownerID d.common s = d.instanceID <;> cases index.lookup (ownerID d.common s) <;>
    simp_all

theorem refusal_status {index : GoMap String AnchorMeta} {resp : HttpResp} (refused : refusal d index r s = some resp) :
    400 ≤ resp.status := by
  unfold refusal at refused
  split at refused
  · cases refused
    exact Nat.le_add_left 400 4
  split at refused
  · cases refused
    exact Nat.le_add_left 400 9
  · cases refused

/-! ## What it makes of the Session -/

/-- The names of the labels that say who owns a Session. -/
def Common.ownerLabels (c : Common) : List String :=
  [c.instanceIDLabel, c.labelManagerType, c.labelManagerNamespace, c.labelManagerName]

def adoptionAnnotations : List String :=
  ["codespace.dev/adopted-from", "codespace.dev/adopted-at", "codespace.dev/adopted-by"]

/-- The Session `s'` is `s` as the server's own, for the principal `cl`, and nothing else. -/
structure AdoptedAs (d : ServerDeps) (cl : Claims) (now : String) (s s' : Session) : Prop where
  key : s'.key = s.key
  instanceID : s'.metadata.labels.lookup d.common.instanceIDLabel = some d.instanceID
  managerType : s'.metadata.labels.lookup d.common.labelManagerType = some d.manager.type
  managerNamespace : s'.metadata.labels.lookup d.common.labelManagerNamespace = some d.manager.ns
  managerName : s'.metadata.labels.lookup d.common.labelManagerName = some d.manager.name
  otherLabels : ∀ l ∉ d.common.ownerLabels, s'.metadata.labels.lookup l = s.metadata.labels.lookup l
  adoptedAt : s'.metadata.annotations.lookup "codespace.dev/adopted-at" = some now
  adoptedBy : s'.metadata.annotations.lookup "codespace.dev/adopted-by" = some cl.sub
  adoptedFrom : s'.metadata.annotations.lookup "codespace.dev/adopted-from" =
    if ownerID d.common s ≠ "" then some (ownerID d.common s)
    else s.metadata.annotations.lookup "codespace.dev/adopted-from"
  otherAnnotations : ∀ a ∉ adoptionAnnotations,
    s'.metadata.annotations.lookup a = s.metadata.annotations.lookup a
  spec : s'.spec = s.spec
  status : s'.status = s.status
  uid : s'.metadata.uid = s.metadata.uid
  finalizers : s'.metadata.finalizers = s.metadata.finalizers
  deletion : s'.metadata.deletionTimestamp = s.metadata.deletionTimestamp

/-- The previous owner is put on record wherever there was one. -/
theorem adopted_adoptedFrom (cl : Claims) (now : String) (s : Session) :
    (adopted d cl now s).metadata.annotations.lookup "codespace.dev/adopted-from" =
      if ownerID d.common s ≠ "" then some (ownerID d.common s)
      else s.metadata.annotations.lookup "codespace.dev/adopted-from" := by
  have others : ("codespace.dev/adopted-from" ≠ "codespace.dev/adopted-by") ∧
      ("codespace.dev/adopted-from" ≠ "codespace.dev/adopted-at") := by decide
  simp only [adopted, ownerID, Session.withAnnotations]
  rw [Finmap.lookup_insert_of_ne _ others.1, Finmap.lookup_insert_of_ne _ others.2]
  by_cases owned : s.metadata.labels.index d.common.instanceIDLabel = ""
  · simp [owned]
  · simp [owned]

theorem adopted_adoptedAs (proper : d.common.Proper) (cl : Claims) (now : String) (s : Session) :
    AdoptedAs d cl now s (adopted d cl now s) := by
  have names := proper.labels
  simp only [List.nodup_cons, List.mem_cons, List.not_mem_nil, or_false, not_or] at names
  obtain ⟨-, ⟨h₅, h₆, h₇⟩, ⟨h₈, h₉⟩, h₁₀, -⟩ := names
  have same := adopted_same d cl now s
  refine ⟨same.key, ?_, ?_, ?_, ?_, ?_, ?_, ?_, ?_, ?_, rfl, same.status, same.uid, same.finalizers, same.deletion⟩
  · simp [adopted, Session.withAnnotations, Session.withLabels, Finmap.lookup_insert_of_ne, *]
  · simp [adopted, Session.withAnnotations, Session.withLabels, Finmap.lookup_insert_of_ne, *]
  · simp [adopted, Session.withAnnotations, Session.withLabels, Finmap.lookup_insert_of_ne, *]
  · simp [adopted, Session.withAnnotations, Session.withLabels]
  · intro l other
    simp only [Common.ownerLabels, List.mem_cons, List.not_mem_nil, or_false, not_or] at other
    simp [adopted, Session.withAnnotations, Session.withLabels, Finmap.lookup_insert_of_ne, other]
  · simp [adopted, Session.withAnnotations, Finmap.lookup_insert_of_ne]
  · simp [adopted, Session.withAnnotations]
  · exact adopted_adoptedFrom cl now s
  · intro a other
    simp only [adoptionAnnotations, List.mem_cons, List.not_mem_nil, or_false, not_or] at other
    simp only [adopted, Session.withAnnotations]
    rw [Finmap.lookup_insert_of_ne _ other.2.2, Finmap.lookup_insert_of_ne _ other.2.1]
    split
    · exact Finmap.lookup_insert_of_ne _ other.1
    · rfl

theorem AdoptedAs.stamped {now : String} {s' : Session} (as : AdoptedAs d cl now s s') (n : Nat) :
    AdoptedAs d cl now s (stamp n s') := { as with }

/-! ## Executions -/

/-- A call is answered, or it fails and has no effect. -/
def Definite (child : ChildApi χ) (σ : Cluster χ) (c : Call) (a : Answer c) (σ' : Cluster χ) : Prop :=
  (a, σ') = answer child σ c ∨ (∃ m, c.failed m = some a) ∧ σ' = σ

theorem Definite.answers {c : Call} {a : Answer c} {σ' : Cluster χ} (ans : Definite child σ c a σ') :
    Answers child σ c a σ' :=
  ans.imp_right fun ⟨⟨m, failed⟩, same⟩ => ⟨m, failed, .inl same⟩

/-- What an adopt request comes to, where `A` says how calls are answered: nothing, or one Update. -/
def Outcome (A : Cluster χ → (c : Call) → Answer c → Cluster χ → Prop) (d : ServerDeps) (r : Request)
    (σ : Cluster χ) (resp : HttpResp) (σ' : Cluster χ) : Prop :=
  σ' = σ ∨ ∃ cl s a, Adoption d σ r cl s ∧ queryFlag r "dryRun" = false ∧
    A σ (.update (adopted d cl σ.clock s)) a σ' ∧ (∀ out, a = .ok out → resp.status = 200)

section

variable {A : Cluster χ → (c : Call) → Answer c → Cluster χ → Prop}

/-- A call that cannot fail is answered as it should be. -/
theorem answers_certain {c : Call} {a : Answer c} {σ' : Cluster χ} (certain : ∀ m, c.failed m = none)
    (ans : Answers child σ c a σ') : a = (answer child σ c).1 := by
  rcases ans with normal | ⟨m, failed, -⟩
  · exact congrArg Prod.fst normal
  · cases (certain m).symm.trans failed

theorem answers_enforce {σ' : Cluster χ} {sub resource action domain : String} {roles : List String}
    {decision : Except String Bool} (ans : Answers child σ (.enforce sub roles resource action domain) decision σ') :
    decision = σ.policy sub roles resource action domain := answers_certain (fun _ => rfl) ans

/-- A request that is answered at once comes to nothing. -/
theorem outcome_ret (resp : HttpResp) :
    (Prog.ret resp : Api HttpResp).wp (Setting.alone A) (fun _ _ => True) (Outcome A d r σ) σ := by
  rintro σ' rfl
  exact .inl rfl

/-- What follows the fetch. -/
theorem adoptSession_outcome (answers : ∀ {σ c a σ'}, A σ c a σ' → Answers child σ c a σ')
    (adoption : InScope d s → Available d σ.index r s → Adoption d σ r cl s) :
    (adoptSession d r cl s).wp (Setting.alone A) (fun _ _ => True) (Outcome A d r σ) σ := by
  have still : ∀ {c : Call} {a : Answer c} {σ'}, c.reads = true → A σ c a σ' → σ' = σ :=
    fun reads ans => answers_reads (answers ans) reads
  unfold adoptSession
  extract_lets oldID
  split
  · exact outcome_ret _
  rename_i scope
  rintro σ₁ rfl
  refine ⟨trivial, fun index σ₂ ans => ?_⟩
  have same := still rfl ans
  have normal : index = σ.index := answers_certain (fun _ => rfl) (answers ans)
  subst same normal
  show ((if _ then _ else _ : Api HttpResp)).wp _ _ _ _
  split
  · exact outcome_ret _
  rename_i free
  have within : InScope d s ∧ Available d σ₂.index r s := by
    exact (refusal_eq_none_iff σ₂.index).1 ((if_neg scope).trans (if_neg free))
  rintro σ₁ rfl
  refine ⟨trivial, fun now σ₃ ans' => ?_⟩
  have same := still rfl ans'
  have clock : now = σ₂.clock := answers_certain (fun _ => rfl) (answers ans')
  subst same clock
  show ((if _ then _ else _ : Api HttpResp)).wp _ _ _ _
  split
  · exact outcome_ret _
  rename_i real
  have dry : queryFlag r "dryRun" = false := Bool.eq_false_iff.2 real
  refine wp_attempts (I := (· = σ₃)) (fun _ _ start rely => rely ▸ start) (fun _ _ => trivial) ?_ ?_ ?_ rfl
  · rintro _ σ' e rfl ans conflict
    exact answers_update_conflict (answers ans) conflict
  · rintro e _ σ₁ σ' rfl ans rfl
    exact .inr ⟨cl, s, .error e, adoption within.1 within.2, dry, ans, fun _ eq => by cases eq⟩
  · rintro out _ σ₁ σ' rfl ans rfl
    exact .inr ⟨cl, s, .ok out, adoption within.1 within.2, dry, ans, fun _ _ => rfl⟩

theorem handleAdoptSession_outcome (answers : ∀ {σ c a σ'}, A σ c a σ' → Answers child σ c a σ') (σ : Cluster χ) :
    (handleAdoptSession d r).wp (Setting.alone A) (fun _ _ => True) (Outcome A d r σ) σ := by
  unfold handleAdoptSession
  split
  · exact outcome_ret _
  rename_i method
  extract_lets ns name
  split
  · exact outcome_ret _
  rename_i named
  split
  · exact outcome_ret _
  rename_i cl claims
  have still : ∀ {σ σ' c a}, c.reads = true → A σ c a σ' → σ' = σ :=
    fun reads ans => answers_reads (answers ans) reads
  refine wp_mayAdopt (I := (· = σ)) (fun _ _ start rely => rely ▸ start) (fun _ _ _ => ⟨fun _ _ => trivial, ?_⟩)
    ?_ ?_ rfl
  · rintro _ a σ' rfl ans
    exact still rfl ans
  · rintro _ rfl
    exact outcome_ret _
  rintro σ₁ σ₂ rfl grant
  have may : MayAdopt σ₂.policy r := by
    rcases grant with ans | ans
    · cases still rfl ans
      exact .inl ⟨cl, claims, (answers_enforce (answers ans)).symm⟩
    · cases still rfl ans
      exact .inr ⟨cl, claims, (answers_enforce (answers ans)).symm⟩
  rintro _ rfl
  refine ⟨trivial, fun got σ₃ ans => ?_⟩
  cases got with
  | error e =>
    cases still rfl ans
    exact outcome_ret _
  | ok s =>
    obtain ⟨rfl, stored⟩ := answers_get_ok (answers ans)
    exact adoptSession_outcome answers fun scope free =>
      ⟨not_not.1 method, named, claims, may, stored, scope, free⟩

end

/-! ## Runs -/

theorem mayAdopt_iff (claims : r.claims = some cl) (policy : Enforce) : MayAdopt policy r ↔
    granted (policy cl.sub cl.roles "*" "admin" "*") = true ∨
      granted (policy cl.sub cl.roles sessionResourceString "update" (adoptKey r).ns) = true := by
  simp [MayAdopt, IsAdmin, May, Grants, claims, granted_iff, sessionResourceString]

/-- The gate of an adoption, run on a cluster. -/
theorem run_mayAdopt (cl : Claims) (ns : String) (σ : Cluster χ) : (mayAdopt cl ns).run (answer child) σ =
    (granted (σ.policy cl.sub cl.roles "*" "admin" "*") ||
      granted (σ.policy cl.sub cl.roles sessionResourceString "update" ns), σ) := by
  show (if granted (σ.policy cl.sub cl.roles "*" "admin" "*") then .ret true else do
    return granted (← api (.enforce cl.sub cl.roles sessionResourceString "update" ns)) : Api Bool).run _ σ = _
  cases granted (σ.policy cl.sub cl.roles "*" "admin" "*") <;> rfl

theorem run_get_some {k : Key} (stored : σ.sessions.get k = some s) :
    (api (.get k)).run (answer child) σ = (.ok s, σ) := by
  have found : answer child σ (.get k) = (.ok s, σ) := by simp only [answer, stored]
  exact found

theorem run_get_none {k : Key} (missing : σ.sessions.get k = none) :
    (api (.get k)).run (answer child) σ = (.error (.notFoundOf sessionResource k.name), σ) := by
  have found : answer child σ (.get k) = (.error (.notFoundOf sessionResource k.name), σ) := by
    simp only [answer, missing]
  exact found

theorem run_adoptSession (stored : σ.sessions.get (adoptKey r) = some s) :
    (adoptSession d r cl s).run (answer child) σ = match refusal d σ.index r s with
      | some resp => (resp, σ)
      | none => if queryFlag r "dryRun" then (writeJSON (.session (adopted d cl σ.clock s)), σ)
          else (writeJSON (.session (stamp σ.sessions.next (adopted d cl σ.clock s))),
            σ.commit (adopted d cl σ.clock s)) := by
  unfold adoptSession refusal ownerID
  extract_lets oldID
  by_cases scope : (!d.clusterScope && oldID ≠ "" && oldID ≠ d.instanceID) = true
  · rw [if_pos scope, if_pos scope]
    rfl
  rw [if_neg scope, if_neg scope]
  show ((if (!(oldID = "" || (σ.index.lookup oldID).isNone) && oldID ≠ d.instanceID &&
    !queryFlag r "force") = true then _ else _ : Api HttpResp)).run _ σ = _
  by_cases free : (!(oldID = "" || (σ.index.lookup oldID).isNone) && oldID ≠ d.instanceID &&
    !queryFlag r "force") = true
  · rw [if_pos free, if_pos free]
    rfl
  rw [if_neg free, if_neg free]
  show ((if queryFlag r "dryRun" then _ else _ : Api HttpResp)).run _ σ = _
  cases queryFlag r "dryRun" with
  | true => rfl
  | false => exact run_store stored (adopted_same d cl σ.clock s) _

/-- What is left of the handler for a request of the right form. -/
theorem handleAdoptSession_formed (post : r.method = "POST") (named : q r "name" "" ≠ "") (claims : r.claims = some cl) :
    handleAdoptSession d r = do
      if ← mayAdopt cl (adoptKey r).ns then
        match ← api (.get (adoptKey r)) with
        | .error e => return errJSON ("session not found: " ++ e.message)
        | .ok s => adoptSession d r cl s
      else return httpError "forbidden" 403 := by
  unfold handleAdoptSession
  rw [if_neg (not_not.2 post)]
  dsimp only
  rw [if_neg named, claims]
  refine congrArg (mayAdopt cl (adoptKey r).ns >>= ·) (funext fun may => ?_)
  cases may with
  | true => exact congrArg (api (.get (adoptKey r)) >>= ·) (funext fun got => by cases got <;> rfl)
  | false => rfl

/-- A request that adopts. -/
theorem run_adoption (child : ChildApi χ) (adoption : Adoption d σ r cl s) : (handleAdoptSession d r).run (answer child) σ =
    if queryFlag r "dryRun" then (writeJSON (.session (adopted d cl σ.clock s)), σ)
    else (writeJSON (.session (stamp σ.sessions.next (adopted d cl σ.clock s))),
      σ.commit (adopted d cl σ.clock s)) := by
  have may := (mayAdopt_iff adoption.claims σ.policy).1 adoption.may
  have free := (refusal_eq_none_iff σ.index).2 ⟨adoption.scope, adoption.free⟩
  rw [handleAdoptSession_formed adoption.method adoption.name adoption.claims, Prog.run_bind, run_mayAdopt,
    Bool.or_eq_true_iff.2 may, if_pos rfl]
  refine (Prog.run_bind ..).trans ?_
  rw [run_get_some adoption.stored]
  exact (run_adoptSession adoption.stored).trans (by rw [free])

/-- Any other is refused. -/
theorem run_refused (child : ChildApi χ) (none : ∀ cl s, ¬ Adoption d σ r cl s) :
    400 ≤ ((handleAdoptSession d r).run (answer child) σ).1.status ∧
      ((handleAdoptSession d r).run (answer child) σ).2 = σ := by
  unfold handleAdoptSession
  split
  · exact ⟨Nat.le_add_left 400 5, rfl⟩
  rename_i method
  extract_lets ns name
  split
  · exact ⟨Nat.le_refl 400, rfl⟩
  rename_i named
  split
  · exact ⟨Nat.le_succ 400, rfl⟩
  rename_i cl claims
  rw [Prog.run_bind, run_mayAdopt]
  cases gate : granted (σ.policy cl.sub cl.roles "*" "admin" "*") ||
      granted (σ.policy cl.sub cl.roles sessionResourceString "update" ns) with
  | false => exact ⟨Nat.le_add_left 400 3, rfl⟩
  | true =>
    have may := (mayAdopt_iff claims σ.policy).2 (Bool.or_eq_true_iff.1 gate)
    rw [if_pos rfl]
    rw [Prog.run_bind, show (⟨ns, name⟩ : Key) = adoptKey r from rfl]
    cases stored : σ.sessions.get (adoptKey r) with
    | none =>
      rw [run_get_none stored]
      exact ⟨Nat.le_add_left 400 100, rfl⟩
    | some s =>
      rw [run_get_some stored]
      dsimp only
      rw [run_adoptSession stored]
      cases refused : refusal d σ.index r s with
      | some resp => exact ⟨refusal_status refused, rfl⟩
      | none =>
        obtain ⟨scope, free⟩ := (refusal_eq_none_iff σ.index).1 refused
        exact absurd ⟨not_not.1 method, named, claims, may, stored, scope, free⟩ (none cl s)

/-- A request that is answered with success adopts. -/
theorem adoption_of_success (child : ChildApi χ) (success : ((handleAdoptSession d r).run (answer child) σ).1.status < 400) :
    ∃ cl s, Adoption d σ r cl s := by
  by_contra none
  have refused := (run_refused child fun cl s adoption => none ⟨cl, s, adoption⟩).1
  omega

/-! ## One request -/

/-- The same request without the parameter `dryRun`. -/
def withoutDryRun (r : Request) : Request := { r with query := r.query.filter fun p => p.1 ≠ "dryRun" }

theorem queryGet_withoutDryRun (r : Request) (key : String) :
    queryGet (withoutDryRun r) key = if key = "dryRun" then "" else queryGet r key := by
  have lookup : ∀ query : List (String × String),
      (query.filter fun p => p.1 ≠ "dryRun").lookup key = if key = "dryRun" then none else query.lookup key := by
    intro query
    induction query with
    | nil => simp
    | cons p query ih =>
      obtain ⟨name, value⟩ := p
      by_cases dry : name = "dryRun"
      · subst dry
        by_cases same : key = "dryRun"
        · simpa [same] using ih
        · have differ : (key == "dryRun") = false := by simpa using same
          simpa [List.lookup_cons, same, differ] using ih
      · by_cases same : key = name
        · subst same
          simp [dry]
        · have differ : (key == name) = false := by simpa using same
          simpa [List.lookup_cons, dry, differ] using ih
  rw [queryGet, withoutDryRun, lookup]
  split <;> rfl

theorem Adoption.withoutDryRun (adoption : Adoption d σ r cl s) :
    Adoption d σ (Server.withoutDryRun r) cl s ∧ queryFlag (Server.withoutDryRun r) "dryRun" = false := by
  have key : adoptKey (Server.withoutDryRun r) = adoptKey r := by
    simp [adoptKey, q, queryGet_withoutDryRun]
  have force : queryFlag (Server.withoutDryRun r) "force" = queryFlag r "force" := by
    simp [queryFlag, queryGet_withoutDryRun]
  refine ⟨⟨adoption.method, ?_, adoption.claims, ?_, ?_, adoption.scope, ?_⟩, ?_⟩
  · simpa [q, queryGet_withoutDryRun] using adoption.name
  · unfold MayAdopt
    rw [key]
    exact adoption.may
  · rw [key]
    exact adoption.stored
  · unfold Available
    rw [force]
    exact adoption.free
  · simp [queryFlag, queryGet_withoutDryRun]

/-- What the server sends to be stored. -/
theorem update_sent (adoption : Adoption d σ r cl s) (real : queryFlag r "dryRun" = false) :
    Call.update (adopted d cl σ.clock s) ∈ (handleAdoptSession d r).calls (answer child) σ := by
  have may := (mayAdopt_iff adoption.claims σ.policy).1 adoption.may
  have free := (refusal_eq_none_iff σ.index).2 ⟨adoption.scope, adoption.free⟩
  have attempt : ∀ n, Call.update (adopted d cl σ.clock s) ∈
      (retryOnConflict (api (.update (adopted d cl σ.clock s))) n).calls (answer child) σ := by
    intro n
    cases n with
    | zero => exact List.mem_cons_self
    | succ n => exact List.mem_cons_self
  have sent : Call.update (adopted d cl σ.clock s) ∈ (adoptSession d r cl s).calls (answer child) σ := by
    unfold refusal ownerID at free
    unfold adoptSession
    extract_lets oldID
    split at free
    · cases free
    rename_i scope
    split at free
    · cases free
    rename_i orphaned
    rw [if_neg scope]
    refine List.mem_cons_of_mem _ ?_
    show _ ∈ ((if (!(oldID = "" || (σ.index.lookup oldID).isNone) && oldID ≠ d.instanceID &&
      !queryFlag r "force") = true then _ else _ : Api HttpResp)).calls _ σ
    rw [if_neg orphaned]
    refine List.mem_cons_of_mem _ ?_
    show _ ∈ ((if queryFlag r "dryRun" then _ else _ : Api HttpResp)).calls _ σ
    rw [real, if_neg Bool.false_ne_true]
    unfold store
    rw [Prog.calls_bind]
    exact List.mem_append_left _ (attempt _)
  rw [handleAdoptSession_formed adoption.method adoption.name adoption.claims, Prog.calls_bind, run_mayAdopt,
    Bool.or_eq_true_iff.2 may, if_pos rfl, Prog.calls_bind, run_get_some adoption.stored]
  exact List.mem_append_right _ (List.mem_append_right _ sent)

/-- In `σ'` the Session `s` is the server's own, and nothing else has changed since `σ`. -/
structure Changed (d : ServerDeps) (cl : Claims) (σ σ' : Cluster χ) (s : Session) : Prop where
  adopted : ∃ s', σ'.sessions.get s.key = some s' ∧ AdoptedAs d cl σ.clock s s'
  others : ∀ k, k ≠ s.key → σ'.sessions.get k = σ.sessions.get k

/-- An adopt request changes the ownership of the Session it names, where `Adoption` says so and
it is no dry run, or nothing; also if an API call fails. A dry run shows what is stored without it. -/
structure AdoptionLaw (child : ChildApi χ) (d : ServerDeps) (σ : Cluster χ) (r : Request) : Prop where
  effect : ∀ resp σ', Exec (Setting.alone (Answers child)) (handleAdoptSession d r) σ (.ret resp) σ' →
    σ' = σ ∨ ∃ cl s, Adoption d σ r cl s ∧ queryFlag r "dryRun" = false ∧ Changed d cl σ σ' s
  failure : ∀ resp σ', Exec (Setting.alone (Definite child)) (handleAdoptSession d r) σ (.ret resp) σ' →
    400 ≤ resp.status → σ' = σ
  dryRun : queryFlag r "dryRun" = true → ∀ s, ((handleAdoptSession d r).run (answer child) σ).1 = writeJSON (.session s) →
    Call.update s ∈ (handleAdoptSession d (withoutDryRun r)).calls (answer child) σ ∧
    ((handleAdoptSession d (withoutDryRun r)).run (answer child) σ).2.sessions.get (adoptKey r) =
      some (stamp σ.sessions.next s)

theorem commit_changed (proper : d.common.Proper) (adoption : Adoption d σ r cl s) :
    Changed d cl σ (σ.commit (adopted d cl σ.clock s)) s := by
  have stored : σ.sessions.get s.key = some s := by
    rw [σ.keyed _ s adoption.stored]
    exact adoption.stored
  refine ⟨⟨_, commit_get_same stored (adopted_same ..), (adopted_adoptedAs proper cl σ.clock s).stamped _⟩, fun k other => ?_⟩
  exact Cluster.commit_get_ne ((adopted_same d cl σ.clock s).key.symm ▸ other)

/-- Whatever API calls fail, and how: the Session is adopted, or nothing has changed. -/
theorem adoption_effect (proper : d.common.Proper) {resp : HttpResp} {σ' : Cluster χ}
    (exec : Exec (Setting.alone (Answers child)) (handleAdoptSession d r) σ (.ret resp) σ') :
    σ' = σ ∨ ∃ cl s, Adoption d σ r cl s ∧ queryFlag r "dryRun" = false ∧ Changed d cl σ σ' s := by
  rcases Prog.wp_result exec (handleAdoptSession_outcome id σ) with same | ⟨cl, s, a, adoption, real, ans, -⟩
  · exact .inl same
  rcases answers_update ans with ⟨same, -⟩ | ⟨cur, accepted, committed, -⟩
  · exact .inl same
  right
  -- what was accepted is what was fetched, so the object stored is the one sent
  have key := (adopted_same d cl σ.clock s).key
  have stored : σ.sessions.get s.key = some s := by
    rw [σ.keyed _ s adoption.stored]
    exact adoption.stored
  have current : cur = s := (Store.check_held accepted key stored).symm
  rw [current, updated_of_same (adopted_same d cl σ.clock s)] at committed
  exact ⟨cl, s, adoption, real, committed ▸ commit_changed proper adoption⟩

/-- Where calls that fail have no effect, a request that fails has none. -/
theorem adoption_failure {resp : HttpResp} {σ' : Cluster χ}
    (exec : Exec (Setting.alone (Definite child)) (handleAdoptSession d r) σ (.ret resp) σ')
    (bad : 400 ≤ resp.status) : σ' = σ := by
  rcases Prog.wp_result exec (handleAdoptSession_outcome Definite.answers σ) with same | ⟨cl, s, a, -, -, ans, good⟩
  · exact same
  rcases ans with normal | ⟨-, same⟩
  · cases a with
    | ok out =>
      rw [good out rfl] at bad
      omega
    | error e =>
      simp only [answer] at normal
      rcases σ.replace_cases (adopted d cl σ.clock s) updated with ⟨e', eq⟩ | ⟨cur, -, eq⟩
      · rw [eq] at normal
        exact congrArg Prod.snd normal
      · rw [eq] at normal
        cases congrArg Prod.fst normal
  · exact same

/-- What a dry run shows is sent, and stored, without the parameter. -/
theorem adoption_shown (dry : queryFlag r "dryRun" = true)
    (shown : ((handleAdoptSession d r).run (answer child) σ).1 = writeJSON (.session s)) :
    Call.update s ∈ (handleAdoptSession d (withoutDryRun r)).calls (answer child) σ ∧
    ((handleAdoptSession d (withoutDryRun r)).run (answer child) σ).2.sessions.get (adoptKey r) =
      some (stamp σ.sessions.next s) := by
  have success : ((handleAdoptSession d r).run (answer child) σ).1.status < 400 := by
    rw [shown]
    exact (by decide : (200 : Nat) < 400)
  obtain ⟨cl, s₀, adoption⟩ := adoption_of_success child success
  obtain ⟨wet, real⟩ := adoption.withoutDryRun
  rw [run_adoption child adoption, if_pos dry] at shown
  have eq : adopted d cl σ.clock s₀ = s := by
    injection shown with _ body
    injection body
  refine ⟨eq ▸ update_sent wet real, ?_⟩
  rw [run_adoption child wet, real, if_neg Bool.false_ne_true, ← eq]
  exact commit_get_same adoption.stored (adopted_same ..)

/-- **Main result.** Adoption changes ownership and nothing else, or nothing at all. -/
theorem adoption_law (proper : d.common.Proper) : AdoptionLaw child d σ r where
  effect := fun _ _ exec => adoption_effect proper exec
  failure := fun _ _ exec bad => adoption_failure exec bad
  dryRun := fun dry _ shown => adoption_shown dry shown

/-- The server `j` looks at what it would make of the Session of `i`. -/
theorem adoption_law_dry : AdoptionLaw replaceApi (.plain "j" true) (occupied "i")
    { adoptRequest with query := [("namespace", "ns"), ("name", "a"), ("dryRun", "1")] } :=
  adoption_law codespace_proper

/-! ## The route -/

/-- The request gets as far as the lookup of the Session it names. -/
def Looks (child : ChildApi χ) (d : ServerDeps) (σ : Cluster χ) (r : Request) : Prop :=
  Call.get (adoptKey r) ∈ (serve d .adopt r).calls (answer child) σ

/-- The handler looks for the Session if the caller may adopt. -/
theorem handler_looks (post : r.method = "POST") (named : q r "name" "" ≠ "") (may : MayAdopt σ.policy r) :
    Call.get (adoptKey r) ∈ (handleAdoptSession d r).calls (answer child) σ := by
  obtain ⟨cl, claims⟩ : ∃ cl, r.claims = some cl := by
    rcases may with ⟨cl, claims, -⟩ | ⟨cl, claims, -⟩ <;> exact ⟨cl, claims⟩
  have grants := (mayAdopt_iff claims σ.policy).1 may
  rw [handleAdoptSession_formed post named claims, Prog.calls_bind, run_mayAdopt, Bool.or_eq_true_iff.2 grants,
    if_pos rfl]
  exact List.mem_append_right _ List.mem_cons_self

/-- The route lets admins through, and nobody else. -/
theorem looks_iff (post : r.method = "POST") (named : q r "name" "" ≠ "") :
    Looks child d σ r ↔ IsAdmin σ.policy r := by
  cases claims : r.claims with
  | none =>
    have anonymous : ¬ Looks child d σ r := by simp [Looks, serve, wrapWithRBAC, wrapWithAuth, claims]
    refine iff_of_false anonymous ?_
    rintro ⟨cl, some, -⟩
    cases claims.symm.trans some
  | some cl =>
    simp only [Looks, serve, wrapWithRBAC, wrapWithAuth, claims]
    have gate : (MustCan d r "*" "admin" "*").calls (answer child) σ =
        [.enforce cl.sub cl.roles "*" "admin" "*"] := by
      unfold MustCan
      rw [claims]
      show _ :: ((if granted (σ.policy cl.sub cl.roles "*" "admin" "*") then .ret (.ok cl)
        else .ret (.error (d.rbacMw.denied (some (σ.policy cl.sub cl.roles "*" "admin" "*")))) :
          Api (Except HttpResp Claims)).calls _ σ) = _
      split <;> rfl
    have admin : IsAdmin σ.policy r ↔ granted (σ.policy cl.sub cl.roles "*" "admin" "*") = true := by
      simp [IsAdmin, Grants, claims, granted_iff]
    rw [Prog.calls_bind, gate, run_mustCan claims, admin]
    cases grant : granted (σ.policy cl.sub cl.roles "*" "admin" "*") with
    | true =>
      have may : MayAdopt σ.policy r := .inl (admin.2 grant)
      exact iff_of_true (List.mem_append_right _ (handler_looks post named may)) rfl
    | false => exact iff_of_false (by simp) Bool.false_ne_true

/-- **Main result.** The route grants what the handler documents if and only if whoever may update
in the namespace is an admin. -/
theorem adopt_route_iff (post : r.method = "POST") (named : q r "name" "" ≠ "") :
    (Looks child d σ r ↔ MayAdopt σ.policy r) ↔
      (May σ.policy r "update" (adoptKey r).ns → IsAdmin σ.policy r) := by
  rw [looks_iff post named]
  constructor
  · exact fun agree update => agree.2 (.inr update)
  · exact fun editors => ⟨.inl, fun may => may.elim id editors⟩

/-- Whoever may do everything may also adopt. -/
theorem adopt_route_all : Looks replaceApi (.plain "i" false) (occupied "i") adoptRequest ↔
    MayAdopt (occupied "i").policy adoptRequest :=
  (adopt_route_iff (by decide) (by decide)).2 fun _ => ⟨⟨"u", []⟩, rfl, rfl⟩

/-- A policy that allows updates in the namespace `ns` and nothing else. -/
def updateOnly : Enforce := fun _ _ _ action ns => .ok (action = "update" ∧ ns = "ns")

/-- An editor of the namespace is turned down before the handler is asked. -/
theorem editor_refused : MayAdopt updateOnly adoptRequest ∧
    ¬ (Looks replaceApi (.plain "i" false) (.single updateOnly (sessionOf "i")) adoptRequest ↔
      MayAdopt updateOnly adoptRequest) := by
  have may : MayAdopt updateOnly adoptRequest := .inr ⟨⟨"u", []⟩, rfl, by decide⟩
  refine ⟨may, fun agree => ?_⟩
  obtain ⟨cl, claims, grant⟩ := (looks_iff (by decide) (by decide)).1 (agree.2 may)
  cases claims
  exact absurd grant (by decide)

end Codespace.Server
