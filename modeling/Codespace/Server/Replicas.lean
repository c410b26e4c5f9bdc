import Codespace.Api.Schema
import Codespace.Server.Writes

/-!
# Replica counts

A Session may have any number of replicas but a negative one. The scale endpoint sees to
that; create, PUT and PATCH store the number they are given. `Moderate` is what they would
have to check, and in a run of such requests no negative number is ever stored.
-/

namespace Codespace.Server
set_option autoImplicit false
open Interact Versioned Controller Go

variable {χ : Type} {child : ChildApi χ} {d : ServerDeps} {r : Request} {route : Route}

/-- The replicas are not set, or are no negative number. -/
def NonNegative (s : Session) : Prop := ∀ n, s.spec.replicas = some n → 0 ≤ n

/-- The number of replicas in the body of a request that stores it unchecked. -/
def replicasGiven (d : ServerDeps) (route : Route) (r : Request) : Option Int32 :=
  match route with
  | .sessions => if r.method = "POST" then (creation r).bind (·.replicas) else none
  | .adopt => none
  | .session =>
    if isScale r then none
    else if r.method = "PUT" then (decodeBody decodeCreateRequest emptyCreateRequest r).bind (·.replicas)
    else if r.method = "PATCH" then
      ((r.body.bind decodeAnyMap).bind fun updates => (Json.member updates "replicas").bind Json.float64).map
        (truncateToInt32 d.platform.outOfRange)
    else none

/-- A request that gives no negative number, or a Reconcile. -/
def Moderate : Job → Prop
  | .serve d route r => ∀ n, replicasGiven d route r = some n → 0 ≤ n
  | .reconcile _ _ => True
  | .call _ => False

/-! ## One write -/

/-- A PUT or PATCH leaves the number that its body gives, or the old one. -/
theorem edit_replicas {change : Session → Session} (item : isScale r = false)
    (method : r.method = "PUT" ∨ r.method = "PATCH") (ed : edit d r = some change) (s : Session) :
    (change s).spec.replicas = s.spec.replicas ∨
      (change s).spec.replicas = replicasGiven d .session r := by
  unfold edit at ed
  split at ed
  · rename_i put
    obtain ⟨req, body, rfl⟩ := Option.map_eq_some_iff.1 ed
    right
    simp [replaced, replicasGiven, item, put, body]
  · rename_i notPut
    obtain ⟨updates, body, rfl⟩ := Option.map_eq_some_iff.1 ed
    have profile : ∀ s, (patchedProfile updates s).spec.replicas = s.spec.replicas := by
      intro s
      unfold patchedProfile
      split <;> rfl
    have given : replicasGiven d .session r =
        ((Json.member updates "replicas").bind Json.float64).map (truncateToInt32 d.platform.outOfRange) := by
      simp [replicasGiven, item, method.resolve_left notPut, body]
    rw [given]
    unfold patched patchedReplicas
    cases (Json.member updates "replicas").bind Json.float64 with
    | none => exact .inl (profile _)
    | some n => exact .inr rfl

theorem transformation_nonNegative {now : String} {k : Key} {change : Session → Session}
    (changes : Changes route r) (admitted : Admitted route r)
    (moderate : ∀ n, replicasGiven d route r = some n → 0 ≤ n)
    (own : transformation d route r now = some (k, change)) {s : Session} (nonneg : NonNegative s) :
    NonNegative (change s) := by
  have session : route ≠ .adopt → route = .session := by
    intro other
    cases route with
    | sessions => cases changes
    | adopt => exact absurd rfl other
    | session => rfl
  obtain ⟨cl, -, ⟨-, rfl⟩ | ⟨other, scale, n, body, rfl⟩ | ⟨other, item, ed, edits, rfl⟩⟩ :=
    transformation_cases own
  · exact nonneg
  · rintro _ ⟨⟩
    exact Int32.not_lt.1 (admitted (session other) scale n body)
  · obtain rfl := session other
    intro n held
    rcases edit_replicas item (changes.resolve_left (by simp [item])) edits s with old | given
    · exact nonneg n (old ▸ held)
    · exact moderate n (given ▸ held)

theorem written_nonNegative {j : Job} {σ : Cluster χ} {k : Key} {s : Session} (moderate : Moderate j)
    (before : ∀ cur, σ.sessions.get k = some cur → NonNegative cur) (came : Written j σ k s) :
    NonNegative s := by
  have defaults : ∀ {cur}, NonNegative cur → NonNegative (applyDefaults cur) := by
    rintro cur nonneg _ ⟨⟩
    cases held : cur.spec.replicas with
    | none => decide
    | some n => exact nonneg n held
  cases came with
  | @created d r req cl now uid job post body claims key =>
    subst job
    rintro _ ⟨⟩
    cases held : req.replicas with
    | none => decide
    | some n =>
      refine moderate n ?_
      simp [replicasGiven, post, body, held]
  | @changed d route r now change cur job changes admitted own stored =>
    subst job
    exact transformation_nonNegative changes admitted moderate own (before cur stored)
  | unfinalized _ stored => exact defaults (before _ stored)
  | @finalized _ _ cur _ stored =>
    obtain ⟨finalizers, eq⟩ := addFinalizer_eq (applyDefaults cur)
    intro n held
    rw [eq] at held
    exact defaults (before _ stored) n held
  | status _ _ stored => exact fun n held => before _ stored n held
  | marked _ _ _ stored => exact fun n held => before _ stored n held

/-! ## Whole runs -/

/-- **Main result.** Where no request gives a negative number of replicas, none is ever stored,
however the calls of the requests and of Reconciles are interleaved. -/
theorem replicas_nonNegative {σ : Cluster χ} (start : ∀ k s, σ.sessions.get k = some s → NonNegative s)
    {P : Jobs χ Moderate} (run : Relation.ReflTransGen (Pool.Step (closed child Moderate)) (Pool.initial σ) P) :
    ∀ k s, P.state.sessions.get k = some s → NonNegative s := by
  refine stored_invariant (I := fun _ => NonNegative) ?_ (fun _ _ _ nonneg => nonneg)
    (fun _ _ _ _ moderate before came => written_nonNegative moderate before came) start run
  rintro j moderate made rfl
  exact moderate

/-- One request, from its start to its end, on a cluster with the Session `ns/a`. -/
theorem one_request {ok : Job → Prop} (j : Job) (allowed : ok j) : ∃ P : Jobs Manifest ok,
    Relation.ReflTransGen (Pool.Step (closed replaceApi ok)) (Pool.initial (.single allowAll (sessionOf "i"))) P ∧
      P.state = (j.code.run (answer replaceApi) (.single allowAll (sessionOf "i"))).2 := by
  let σ : Cluster Manifest := .single allowAll (sessionOf "i")
  have start : Pool.Step (closed replaceApi ok) (Pool.initial σ) _ := .spawn 0 ⟨j, allowed⟩ rfl
  obtain ⟨l, rest, -⟩ := Pool.run_thread (M := closed replaceApi ok) (answers_answer replaceApi)
    j.code σ (fun _ => none) 0 ⟨j, allowed⟩ []
  exact ⟨_, .head start (Pool.turns_steps rest), rfl⟩

theorem single_get {policy : Enforce} {s s' : Session} {k : Key}
    (held : (Cluster.single policy s : Cluster χ).sessions.get k = some s') : s' = stamp 1 s := by
  rcases commit_cases held with none | ⟨-, eq⟩
  · cases none
  · exact eq

theorem single_nonNegative (k : Key) (s : Session)
    (held : (Cluster.single allowAll (sessionOf "i") : Cluster χ).sessions.get k = some s) : NonNegative s := by
  obtain rfl := single_get held
  rintro n ⟨⟩

/-- A create, PUT, PATCH or scale request, with any body. -/
def WritesReplicas : Job → Prop
  | .serve _ .sessions r => r.method = "POST"
  | .serve _ .session r => isScale r = true ∨ r.method = "PUT" ∨ r.method = "PATCH"
  | _ => False

theorem replicas_nonNegative_patch : ∃ P : Jobs Manifest Moderate,
    Relation.ReflTransGen (Pool.Step (closed replaceApi Moderate))
      (Pool.initial (.single allowAll (sessionOf "i"))) P ∧
    (P.state.sessions.get ⟨"ns", "a"⟩).map (·.spec.replicas) = some (some 3) ∧
    ∀ k s, P.state.sessions.get k = some s → NonNegative s := by
  let r := patchRequest [("replicas", .int 3)]
  have moderate : Moderate (.serve (.plain "i" false) .session r) := by
    have given : replicasGiven (.plain "i" false) .session r = some 3 := by decide +kernel
    intro n held
    cases given.symm.trans held
    decide
  obtain ⟨P, run, state⟩ := one_request _ moderate
  have stored : (P.state.sessions.get ⟨"ns", "a"⟩).map (·.spec.replicas) = some (some 3) := by
    rw [state]
    decide +kernel
  exact ⟨P, run, stored, replicas_nonNegative single_nonNegative run⟩

/-- A PATCH may store what a scale request may not: a number that the CRD does not rule out, in a
Session that it admits. -/
theorem patch_negative : (∀ k s, (Cluster.single allowAll (sessionOf "i") : Cluster Manifest).sessions.get k = some s →
      NonNegative s ∧ s.spec.schemaValid = true) ∧
    ∃ P : Jobs Manifest WritesReplicas, Relation.ReflTransGen (Pool.Step (closed replaceApi WritesReplicas))
      (Pool.initial (.single allowAll (sessionOf "i"))) P ∧
    ∃ k s, P.state.sessions.get k = some s ∧ s.spec.schemaValid = true ∧ ¬ NonNegative s := by
  let r := patchRequest [("replicas", .int (-1))]
  have allowed : WritesReplicas (.serve (.plain "i" false) .session r) := .inr (.inr rfl)
  obtain ⟨P, run, state⟩ := one_request _ allowed
  have stored : (P.state.sessions.get ⟨"ns", "a"⟩).map (·.spec) =
      some { (sessionOf "i").spec with replicas := some (-1) } := by
    rw [state]
    decide +kernel
  obtain ⟨s, held, spec⟩ := Option.map_eq_some_iff.1 stored
  refine ⟨fun k s held => ⟨single_nonNegative k s held, ?_⟩, P, run, _, s, held, ?_, fun nonneg => ?_⟩
  · obtain rfl := single_get held
    decide +kernel
  · rw [spec]
    decide +kernel
  · exact absurd (nonneg (-1) (congrArg SessionSpec.replicas spec)) (by decide)

end Codespace.Server
