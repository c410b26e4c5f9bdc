import Codespace.Api.Answers
import Codespace.Server.Rules

/-!
# The course of a request

What every request does, seen from the API server: it asks, it may fetch one Session and
ask on, and in the end it stores what it makes of that Session, or creates or deletes one,
or answers without having written anything. `serve_course` says so of all routes; what is
shown of requests by induction on `Course` needs no look at the handlers.
-/

namespace Codespace.Server
set_option autoImplicit false
open Interact

variable {d : ServerDeps} {r : Request} {route : Route}

/-! ## What a request asks for -/

/-- The Session a request changes, and what it makes of it at a given time. -/
def transformation (d : ServerDeps) (route : Route) (r : Request) (now : String) :
    Option (Key × (Session → Session)) := do
  let cl ← r.claims
  match route with
  | .adopt => return (⟨q r "namespace" "default", q r "name" ""⟩, adopted d cl now)
  | _ => match pathParts r with
    | ns :: name :: _ =>
      if isScale r then do
        let replicas ← decodeBody decodeScaleRequest 0 r
        return (⟨ns, name⟩, scaled replicas)
      else do
        let change ← edit d r
        return (⟨ns, name⟩, fun s => touched cl now (change s))
    | _ => none

/-- Scale requests, PUT, PATCH and adoptions that are not dry runs. -/
def Changes (route : Route) (r : Request) : Prop :=
  match route with
  | .sessions => False
  | .adopt => queryFlag r "dryRun" = false
  | .session => isScale r = true ∨ r.method = "PUT" ∨ r.method = "PATCH"

/-- The Session belonged to the server's instance; one that is adopted may have had no owner. -/
def Owned (d : ServerDeps) (route : Route) (s : Session) : Prop :=
  d.clusterScope = false → s.metadata.labels.index d.common.instanceIDLabel = d.instanceID ∨
    (route = .adopt ∧ s.metadata.labels.index d.common.instanceIDLabel = "")

/-- The decoded body of a create request. -/
def creation (r : Request) : Option SessionCreateRequest :=
  (decodeBody decodeCreateRequest emptyCreateRequest r).map fun req =>
    if req.ns = "" then { req with ns := "default" } else req

/-- A scale request asks for no negative number of replicas. -/
def Admitted (route : Route) (r : Request) : Prop :=
  route = .session → isScale r = true → ∀ n, decodeBody decodeScaleRequest 0 r = some n → ¬ n < 0

/-- What a request makes of a Session: an adoption, another number of replicas, or an edit. -/
theorem transformation_cases {now : String} {k : Key} {change : Session → Session}
    (own : transformation d route r now = some (k, change)) : ∃ cl, r.claims = some cl ∧
      ((route = .adopt ∧ change = adopted d cl now) ∨
      (route ≠ .adopt ∧ isScale r = true ∧
        ∃ n, decodeBody decodeScaleRequest 0 r = some n ∧ change = scaled n) ∨
      (route ≠ .adopt ∧ isScale r = false ∧
        ∃ ed, edit d r = some ed ∧ change = fun s => touched cl now (ed s))) := by
  unfold transformation at own
  cases claims : r.claims with
  | none => simp [claims] at own
  | some cl =>
    simp only [claims, Option.bind_eq_bind, Option.bind_some] at own
    refine ⟨cl, rfl, ?_⟩
    by_cases adopt : route = .adopt
    · subst adopt
      cases own
      exact .inl ⟨rfl, rfl⟩
    right
    have item : (match pathParts r with
        | ns :: name :: _ =>
          if isScale r then (decodeBody decodeScaleRequest 0 r).bind fun replicas =>
            pure ((⟨ns, name⟩ : Key), scaled replicas)
          else (edit d r).bind fun change => pure (⟨ns, name⟩, fun s => touched cl now (change s))
        | _ => none) = some (k, change) := by
      cases route with
      | adopt => exact absurd rfl adopt
      | _ => exact own
    split at item
    · split at item
      · rename_i scale
        obtain ⟨n, body, eq⟩ := Option.bind_eq_some_iff.1 item
        cases eq
        exact .inl ⟨adopt, scale, n, body, rfl⟩
      · rename_i scale
        obtain ⟨ed, body, eq⟩ := Option.bind_eq_some_iff.1 item
        cases eq
        exact .inr ⟨adopt, Bool.eq_false_iff.2 scale, ed, body, rfl⟩
    · cases item

theorem transformation_same {now : String} {k : Key} {change : Session → Session}
    (own : transformation d route r now = some (k, change)) (s : Session) : (change s).SameObject s := by
  obtain ⟨cl, -, ⟨-, rfl⟩ | ⟨-, -, n, -, rfl⟩ | ⟨-, -, ed, edits, rfl⟩⟩ := transformation_cases own
  · exact adopted_same d cl now s
  · exact scaled_same n s
  · exact (touched_same cl now _).trans (edit_same d edits s)

/-! ## Courses -/

/-- What is left to do of a request, which has fetched the Session `read`, if any. -/
inductive Course (d : ServerDeps) (route : Route) (r : Request) :
    (read : Option (Key × Session)) → Api HttpResp → Prop where
  | reply {read : Option (Key × Session)} {resp : HttpResp} : (Changes route r → 400 ≤ resp.status) →
      Course d route r read (.ret resp)
  | ask {read : Option (Key × Session)} {c : Call} {f : Answer c → Api HttpResp} : c.reads = true →
      (∀ k, c ≠ .get k) → (∀ a, Course d route r read (f a)) → Course d route r read (.call c f)
  | fetch {k : Key} {f : Answer (.get k) → Api HttpResp} : (∀ e, Course d route r none (f (.error e))) →
      (∀ cur, Course d route r (some (k, cur)) (f (.ok cur))) → Course d route r none (.call (.get k) f)
  | store {k : Key} {cur : Session} {now failure : String} {change : Session → Session} :
      Changes route r → Admitted route r → transformation d route r now = some (k, change) →
      Owned d route cur → Course d route r (some (k, cur)) (store d (change cur) failure)
  | create {req : SessionCreateRequest} {cl : Claims} {now : String}
      {f : Answer (.create (requested d req cl now)) → Api HttpResp} : route = .sessions →
      r.method = "POST" → creation r = some req → r.claims = some cl → (∀ a, ∃ resp, f a = .ret resp) →
      Course d route r none (.call (.create (requested d req cl now)) f)
  | delete {k : Key} {cur : Session} {f : Answer (.delete cur.key) → Api HttpResp} : route = .session →
      isScale r = false → r.method = "DELETE" → foreign d cur = false → (∀ a, ∃ resp, f a = .ret resp) →
      Course d route r (some (k, cur)) (.call (.delete cur.key) f)

/-! ## The parts of the handlers -/

section

variable {read : Option (Key × Session)}

theorem Course.refuse {resp : HttpResp} (bad : 400 ≤ resp.status) : Course d route r read (.ret resp) :=
  .reply fun _ => bad

/-- One more question before the program goes on. -/
theorem course_ask {c : Call} {f : Answer c → Api HttpResp} (reads : c.reads = true) (other : ∀ k, c ≠ .get k)
    (rest : ∀ a, Course d route r read (f a)) : Course d route r read (api c >>= f) := .ask reads other rest

theorem course_mustCan {resource action domain : String} {f : Except HttpResp Claims → Api HttpResp}
    (error : ∀ resp, f (.error resp) = .ret resp)
    (ok : ∀ cl, r.claims = some cl → Course d route r read (f (.ok cl))) :
    Course d route r read (MustCan d r resource action domain >>= f) := by
  have refused : ∀ resp, 400 ≤ resp.status → Course d route r read (f (.error resp)) := by
    intro resp bad
    rw [error]
    exact .refuse bad
  unfold MustCan
  cases claims : r.claims with
  | none => exact refused _ (d.rbacMw.denied_status none)
  | some cl =>
    refine .ask rfl (fun _ eq => by cases eq) fun decision => ?_
    show Course d route r read ((if granted decision then .ret (.ok cl)
      else .ret (.error (d.rbacMw.denied (some decision))) : Api (Except HttpResp Claims)) >>= f)
    split
    · exact ok cl claims
    · exact refused _ (d.rbacMw.denied_status _)

theorem course_fetch {k : Key} {f : Except HttpResp Session → Api HttpResp}
    (error : ∀ resp, f (.error resp) = .ret resp)
    (ok : ∀ cur, foreign d cur = false → Course d route r (some (k, cur)) (f (.ok cur))) :
    Course d route r none (fetch d k >>= f) := by
  refine Course.fetch (fun e => ?_) fun cur => ?_
  · show Course d route r none (f (.error (errJSON ("session not found: " ++ e.message))))
    rw [error]
    exact .refuse (Nat.le_add_left 400 100)
  · show Course d route r (some (k, cur)) ((if foreign d cur then .ret (.error (httpError "not found" 404))
      else .ret (.ok cur) : Api (Except HttpResp Session)) >>= f)
    cases mine : foreign d cur with
    | true =>
      show Course d route r (some (k, cur)) (f (.error (httpError "not found" 404)))
      rw [error]
      exact .refuse (Nat.le_add_left 400 4)
    | false => exact ok cur mine

theorem owned_of_fetch {cur : Session} (mine : foreign d cur = false) : Owned d route cur :=
  fun confined => .inl (by simpa [foreign, confined] using mine)

theorem course_sendList (unchanging : ¬ Changes route r) (sessions : List Session) (namespaces : List String)
    (filtered : Bool) : Course d route r read (sendList d sessions namespaces filtered) := by
  unfold sendList
  cases d.clusterScope with
  | true => exact .ask rfl (fun _ eq => by cases eq) fun _ => .reply fun changes => absurd changes unchanging
  | false => exact .reply fun changes => absurd changes unchanging

theorem course_canAccess {pr : Claims} {items : List Session} {f : List Session → Api HttpResp}
    (rest : ∀ kept, Course d route r read (f kept)) : Course d route r read (canAccess pr items >>= f) := by
  induction items generalizing f with
  | nil => exact rest []
  | cons item items ih =>
    refine .ask rfl (fun _ eq => by cases eq) fun decision => ?_
    show Course d route r read ((canAccess pr items >>= fun kept =>
      .ret (if granted decision then item :: kept else kept)) >>= f)
    rw [Prog.bind_assoc]
    exact ih fun kept => rest _

end

/-! ## The handlers -/

theorem handleListSessions_course : Course d .sessions r none (handleListSessions d r) := by
  have send : ∀ sessions namespaces filtered,
      Course d .sessions r none (sendList d sessions namespaces filtered) := course_sendList fun changes => changes
  unfold handleListSessions
  extract_lets ns
  refine course_mustCan (fun _ => rfl) fun cl _ => ?_
  dsimp only
  split
  · refine .ask rfl (fun _ eq => by cases eq) fun a => ?_
    rcases a with e | items
    · exact .refuse (Nat.le_add_left 400 100)
    · exact course_canAccess fun kept => send _ _ _
  · refine .ask rfl (fun _ eq => by cases eq) fun a => ?_
    rcases a with e | items
    · exact .refuse (Nat.le_add_left 400 100)
    · exact send _ _ _

theorem handleCreateSession_course : Course d .sessions r none (handleCreateSession d r) := by
  unfold handleCreateSession
  split
  · exact .refuse (Nat.le_add_left 400 5)
  rename_i post
  split
  · exact .refuse (Nat.le_refl 400)
  rename_i req body
  split
  · exact .refuse (Nat.le_refl 400)
  extract_lets full
  split
  · exact .refuse (Nat.le_refl 400)
  split
  · exact .refuse (Nat.le_refl 400)
  refine course_mustCan (fun _ => rfl) fun cl claims => ?_
  refine .ask rfl (fun _ eq => by cases eq) fun now => ?_
  refine .create rfl (not_not.1 post) (show creation r = some full from ?_) claims fun a => ?_
  · rw [creation, body]
    rfl
  · cases a <;> exact ⟨_, rfl⟩

theorem handleGetSession_course (item : isScale r = false) (method : r.method = "GET") :
    Course d .session r none (handleGetSession d r) := by
  have unchanging : ¬ Changes .session r := by
    rintro (scale | put | patch)
    · exact absurd scale (by simp [item])
    · exact absurd (method.symm.trans put) (by decide)
    · exact absurd (method.symm.trans patch) (by decide)
  unfold handleGetSession
  split
  · refine course_mustCan (fun _ => rfl) fun cl _ => ?_
    exact course_fetch (fun _ => rfl) fun cur _ => .reply fun changes => absurd changes unchanging
  · exact .refuse (Nat.le_refl 400)

theorem handleDeleteSession_course (item : isScale r = false) :
    Course d .session r none (handleDeleteSession d r) := by
  unfold handleDeleteSession
  split
  · exact .refuse (Nat.le_add_left 400 5)
  rename_i method
  split
  · refine course_mustCan (fun _ => rfl) fun cl _ => ?_
    refine course_fetch (fun _ => rfl) fun cur mine => ?_
    refine .delete rfl item (not_not.1 method) mine fun a => ?_
    cases a <;> exact ⟨_, rfl⟩
  · exact .refuse (Nat.le_refl 400)

theorem handleScaleSession_course (scale : isScale r = true) :
    Course d .session r none (handleScaleSession d r) := by
  unfold handleScaleSession
  split
  · exact .refuse (Nat.le_add_left 400 5)
  split
  · rename_i ns name _ path
    refine course_mustCan (fun _ => rfl) fun cl claims => ?_
    dsimp only
    split
    · exact .refuse (Nat.le_refl 400)
    rename_i replicas body
    split
    · exact .refuse (Nat.le_refl 400)
    rename_i admitted
    refine course_fetch (fun _ => rfl) fun cur mine => ?_
    have own : transformation d .session r "" = some (⟨ns, name⟩, scaled replicas) := by
      simp [transformation, claims, path, scale, body]
    refine .store (.inl scale) ?_ own (owned_of_fetch mine)
    intro _ _ n decoded
    cases body.symm.trans decoded
    exact admitted
  · exact .refuse (Nat.le_refl 400)

theorem handleUpdateSession_course (item : isScale r = false) :
    Course d .session r none (handleUpdateSession d r) := by
  unfold handleUpdateSession
  split
  · exact .refuse (Nat.le_add_left 400 5)
  rename_i method
  split
  · rename_i ns name _ path
    refine course_mustCan (fun _ => rfl) fun cl claims => ?_
    refine course_fetch (fun _ => rfl) fun cur mine => ?_
    dsimp only
    split
    · exact .refuse (Nat.le_refl 400)
    rename_i change ed
    refine course_ask rfl (fun _ eq => by cases eq) fun now => ?_
    have own : transformation d .session r now = some (⟨ns, name⟩, fun s => touched cl now (change s)) := by
      simp [transformation, claims, path, item, ed]
    refine .store (show Changes .session r from .inr ?_) (fun _ scale => absurd scale (by simp [item])) own (owned_of_fetch mine)
    by_contra neither
    exact method ⟨fun put => neither (.inl put), fun patch => neither (.inr patch)⟩
  · exact .refuse (Nat.le_refl 400)

theorem adoptSession_course {cl : Claims} {cur : Session} (claims : r.claims = some cl) :
    Course d .adopt r (some (⟨q r "namespace" "default", q r "name" ""⟩, cur)) (adoptSession d r cl cur) := by
  unfold adoptSession
  extract_lets oldID
  split
  · exact .refuse (Nat.le_add_left 400 4)
  rename_i mine
  refine course_ask rfl (fun _ eq => by cases eq) fun idx => ?_
  extract_lets orphan
  split
  · exact .refuse (Nat.le_add_left 400 9)
  refine course_ask rfl (fun _ eq => by cases eq) fun now => ?_
  cases real : queryFlag r "dryRun" with
  | true => exact .reply fun changes => absurd (changes.symm.trans real) (by decide)
  | false =>
    have own : transformation d .adopt r now =
        some (⟨q r "namespace" "default", q r "name" ""⟩, adopted d cl now) := by
      simp [transformation, claims]
    refine Course.store real (fun session => by cases session) own fun confined => ?_
    by_cases unowned : oldID = ""
    · exact .inr ⟨rfl, unowned⟩
    · exact .inl (by simpa [confined, unowned] using mine)

theorem handleAdoptSession_course : Course d .adopt r none (handleAdoptSession d r) := by
  unfold handleAdoptSession
  split
  · exact .refuse (Nat.le_add_left 400 5)
  extract_lets ns name
  split
  · exact .refuse (Nat.le_refl 400)
  split
  · exact .refuse (Nat.le_succ 400)
  rename_i cl claims
  have go : ∀ {f : Except ApiError Session → Api HttpResp} (may : Bool), (∀ e, Course d .adopt r none (f (.error e))) →
      (∀ cur, Course d .adopt r (some (⟨ns, name⟩, cur)) (f (.ok cur))) →
      Course d .adopt r none (if may then api (.get ⟨ns, name⟩) >>= f else return httpError "forbidden" 403) := by
    intro f may refused fetched
    split
    · exact Course.fetch refused fetched
    · exact .refuse (Nat.le_add_left 400 3)
  refine course_ask rfl (fun _ eq => by cases eq) fun decision => ?_
  show Course d .adopt r none ((if granted decision then .ret true else do
    return granted (← api (.enforce cl.sub cl.roles sessionResourceString "update" ns)) : Api Bool) >>= _)
  split
  · exact go true (fun e => .refuse (Nat.le_add_left 400 100)) fun cur => adoptSession_course claims
  · exact course_ask rfl (fun _ eq => by cases eq) fun decision' =>
      go (granted decision') (fun e => .refuse (Nat.le_add_left 400 100)) fun cur => adoptSession_course claims

/-- **The course of a request**, whatever its route. -/
theorem serve_course : Course d route r none (serve d route r) := by
  cases route with
  | sessions =>
    unfold serve
    refine wrapWithAuth_cases (P := Course d .sessions r none) (fun _ => .refuse (Nat.le_succ 400)) ?_
    unfold handleSessionOperations
    split
    · exact handleListSessions_course
    split
    · exact handleCreateSession_course
    · exact .refuse (Nat.le_add_left 400 5)
  | adopt =>
    unfold serve wrapWithRBAC
    refine wrapWithAuth_cases (P := Course d .adopt r none) (fun _ => .refuse (Nat.le_succ 400)) ?_
    exact course_mustCan (fun _ => rfl) fun _ _ => handleAdoptSession_course
  | session =>
    exact serve_session_cases (P := Course d .session r none) (fun _ => .refuse (Nat.le_succ 400))
      (fun _ => .refuse (Nat.le_refl 400)) handleScaleSession_course handleGetSession_course
      (fun item _ => handleUpdateSession_course item) (fun item _ => handleDeleteSession_course item)
      (fun _ _ _ _ => .refuse (Nat.le_add_left 400 5))

end Codespace.Server
