import Codespace.Go.Url
import Codespace.Server.Mediation

/-!
# The routes of one Session

`Documented` is the grammar that the routes below the session collection document, by the
decoded path and the method. A request keeps to it (`Grammar`) if every call made for it is
about the documented Session, and a request that documents none is refused. The dispatcher
and the handlers count the segments of the path but do not look at those they have no use
for, so a request may look up a Session that it does not document (`Strays`).

The serve mux takes a path as it was sent, still escaped. It redirects one that is not
clean before it looks for a pattern, and unescapes the segments one by one.
-/

namespace Codespace.Server
set_option autoImplicit false
open Interact Go

variable {χ : Type} {child : ChildApi χ} {policy : Enforce} {d : ServerDeps} {r : Request}

/-! ## The serve mux -/

/-- `cleanPath` of `net/http`. -/
def cleanPath (p : Bytes) : Bytes :=
  let rooted := if p.head? = some '/' then p else '/' :: p
  if rooted.getLast? = some '/' ∧ clean rooted ≠ ['/'] then clean rooted ++ ['/'] else clean rooted

/-- The segments of a path, each unescaped for itself. -/
def pathSegments (escaped : Bytes) : List Bytes :=
  (escaped.splitOn '/').map fun segment => (unescape segment).getD segment

/-- The pattern of `setupHandlers` that a path matches, of those that lead to a `Route`. -/
def pattern (escaped : Bytes) : Option Route :=
  let collection := ["", "api", "v1", "server", "sessions"].map String.toList
  if pathSegments escaped = collection then some .sessions
  else if pathSegments escaped = collection ++ ["adopt".toList] then some .adopt
  else if collection <+: pathSegments escaped then some .session
  else none

/-- Where `ServeMux` leads a request, unless it redirects it. -/
def routed (method : String) (escaped : Bytes) : Option Route :=
  if method ≠ "CONNECT" ∧ cleanPath escaped ≠ escaped then none else pattern escaped

/-- A path of names that cleaning keeps is led where its segments say. -/
theorem cleanPath_join {es : List Bytes} (some : es ≠ []) (kept : ∀ e ∈ es, Kept e) :
    cleanPath ('/' :: join es) = '/' :: join es := by
  have nonempty : join es ≠ [] := by
    obtain ⟨e, es, rfl⟩ := List.exists_cons_of_ne_nil some
    rw [join_cons]
    exact List.append_ne_nil_of_left_ne_nil (kept e List.mem_cons_self).1.1 _
  have last : ('/' :: join es).getLast? ≠ Option.some '/' := by
    rw [← List.singleton_append, List.getLast?_append_of_ne_nil _ nonempty]
    exact join_last fun e mem => (kept e mem).1
  unfold cleanPath
  rw [List.head?_cons, if_pos rfl]
  exact (if_neg fun both => last both.1).trans (clean_join some kept)

theorem pathSegments_join {es : List Bytes} (some : es ≠ []) (names : ∀ e ∈ es, IsName e)
    (plain : ∀ e ∈ es, unescape e = .some e) : pathSegments ('/' :: join es) = [] :: es := by
  have same : es.map (fun e => (unescape e).getD e) = es :=
    (List.map_congr_left fun e mem => by rw [plain e mem, Option.getD_some, id]).trans (List.map_id es)
  rw [pathSegments, splitOn_rooted some names, List.map_cons, same]
  rfl

/-! ## The grammar -/

/-- A request that, by its path and method, is documented to be about the Session at a key. -/
def Documented (r : Request) (k : Key) : Prop :=
  k.ns ≠ "" ∧ k.name ≠ "" ∧
    (pathParts r = [k.ns, k.name] ∧ r.method ∈ ["GET", "PUT", "PATCH", "DELETE"] ∨
      pathParts r = [k.ns, k.name, "scale"] ∧ r.method = "POST")

/-- The calls that may be made for a request: those about the documented Session, and those
that are no calls of the API server. -/
def Within (r : Request) : Call → Prop
  | .get k | .delete k => Documented r k
  | .update s => Documented r s.key
  | .enforce .. | .now => True
  | _ => False

/-- A request keeps to the grammar, whatever the policy is and whatever else happens. -/
structure Grammar (child : ChildApi χ) (d : ServerDeps) (r : Request) : Prop where
  within : ∀ {policy σ c k σ'}, Exec (Under child policy) (serve d .session r) σ (.call c k) σ' → Within r c
  refused : (∀ k, ¬ Documented r k) → ∀ {policy σ resp σ'},
    Exec (Under child policy) (serve d .session r) σ (.ret resp) σ' → 400 ≤ resp.status

/-- Where the policy allows it, the request is served as far as a Session is looked up. -/
def LooksUp (r : Request) : Prop :=
  r.claims ≠ none ∧
    if isScale r then r.method = "POST" ∧ ∃ n, decodeBody decodeScaleRequest 0 r = some n ∧ ¬ n < 0
    else r.method ∈ ["GET", "PUT", "PATCH", "DELETE"] ∧ 2 ≤ (pathParts r).length

/-- A request that looks a Session up and documents none. -/
def Strays (r : Request) : Prop := LooksUp r ∧ ∀ k, ¬ Documented r k

/-! ## Requests that do not stray -/

/-- The program keeps to the grammar of the request. -/
def Respects (child : ChildApi χ) (policy : Enforce) (r : Request) (p : Api HttpResp) : Prop :=
  ∀ σ : Cluster χ, p.wp (Under child policy) (fun _ => Within r)
    (fun resp _ => (∀ k, ¬ Documented r k) → 400 ≤ resp.status) σ

section

theorem respects_refusal {resp : HttpResp} (bad : 400 ≤ resp.status) : Respects child policy r (.ret resp) :=
  fun _ _ _ _ => bad

/-- Any answer will do where a Session is documented. -/
theorem respects_documented {k : Key} (doc : Documented r k) (resp : HttpResp) :
    Respects child policy r (.ret resp) := fun _ _ _ none => absurd doc (none k)

theorem within_harmless {c : Call} (within : Within r c) :
    Prog.Harmless (Under child policy) (fun _ => Within r) (fun _ => True) c :=
  ⟨fun _ _ => within, fun _ _ _ _ _ => trivial⟩

theorem respects_mustCan {action domain : String} {f : Except HttpResp Claims → Api HttpResp}
    (error : ∀ resp, f (.error resp) = .ret resp) (ok : ∀ cl, Respects child policy r (f (.ok cl))) :
    Respects child policy r (MustCan d r "session" action domain >>= f) := by
  intro σ
  refine wp_mustCan (I := fun _ => True) (fun _ _ _ _ => trivial) (fun _ => within_harmless trivial) ?_
    (fun cl _ σ₂ _ _ _ => ok cl σ₂) trivial
  intro resp σ' _ bad
  rw [error]
  exact respects_refusal bad σ'

theorem respects_fetch {k : Key} (doc : Documented r k) {f : Except HttpResp Session → Api HttpResp}
    (error : ∀ resp, f (.error resp) = .ret resp)
    (ok : ∀ cur, cur.key = k → Respects child policy r (f (.ok cur))) :
    Respects child policy r (fetch d k >>= f) := by
  intro σ
  refine wp_fetch (I := fun _ => True) (fun _ _ _ _ => trivial) (within_harmless doc) ?_
    (fun cur _ σ₂ _ ans _ => ok cur (under_get ans) σ₂) trivial
  intro resp σ' _ bad
  rw [error]
  exact respects_refusal bad σ'

theorem respects_store {sess : Session} (doc : Documented r sess.key) {failure : String} :
    Respects child policy r (store d sess failure) := fun _ =>
  wp_store (I := fun _ => True) (fun _ _ _ _ => trivial) (fun _ _ => doc) (fun _ _ _ _ _ _ => trivial)
    (fun _ _ bad _ => bad) (fun _ _ _ _ _ _ _ none => absurd doc (none _)) trivial

theorem handleGetSession_respects (doc : ∀ ns name rest, pathParts r = ns :: name :: rest → Documented r ⟨ns, name⟩) :
    Respects child policy r (handleGetSession d r) := by
  unfold handleGetSession
  split
  · rename_i parts
    exact respects_mustCan (fun _ => rfl) fun _ => respects_fetch (doc _ _ _ parts) (fun _ => rfl) fun _ _ =>
      respects_documented (doc _ _ _ parts) _
  · exact respects_refusal (Nat.le_refl 400)

theorem handleDeleteSession_respects
    (doc : ∀ ns name rest, pathParts r = ns :: name :: rest → Documented r ⟨ns, name⟩) :
    Respects child policy r (handleDeleteSession d r) := by
  unfold handleDeleteSession
  split
  · exact respects_refusal (Nat.le_add_left 400 5)
  split
  · rename_i parts
    refine respects_mustCan (fun _ => rfl) fun _ => respects_fetch (doc _ _ _ parts) (fun _ => rfl) fun cur key => ?_
    refine fun σ σ₁ _ => ⟨show Documented r cur.key from key ▸ doc _ _ _ parts, fun out σ₂ _ => ?_⟩
    cases out with
    | error e => exact respects_refusal (Nat.le_add_left 400 100) σ₂
    | ok _ => exact respects_documented (doc _ _ _ parts) _ σ₂
  · exact respects_refusal (Nat.le_refl 400)

theorem handleUpdateSession_respects
    (doc : ∀ ns name rest, pathParts r = ns :: name :: rest → Documented r ⟨ns, name⟩) :
    Respects child policy r (handleUpdateSession d r) := by
  unfold handleUpdateSession
  split
  · exact respects_refusal (Nat.le_add_left 400 5)
  split
  · rename_i parts
    refine respects_mustCan (fun _ => rfl) fun pr => respects_fetch (doc _ _ _ parts) (fun _ => rfl) fun cur key => ?_
    dsimp only
    split
    · exact respects_refusal (Nat.le_refl 400)
    rename_i change ed
    refine fun σ σ₁ _ => ⟨trivial, fun now σ₂ _ => ?_⟩
    have same : (touched pr now (change cur)).key = cur.key :=
      ((touched_same pr now (change cur)).trans (edit_same d ed cur)).key
    exact respects_store (by rw [same, key]; exact doc _ _ _ parts) σ₂
  · exact respects_refusal (Nat.le_refl 400)

/-- A scale request names its Session, or its body is refused before anything is fetched. -/
theorem handleScaleSession_respects (doc : r.method = "POST" → ∀ n, decodeBody decodeScaleRequest 0 r = some n →
      ¬ n < 0 → ∀ ns name rest, pathParts r = ns :: name :: rest → Documented r ⟨ns, name⟩) :
    Respects child policy r (handleScaleSession d r) := by
  unfold handleScaleSession
  split
  · exact respects_refusal (Nat.le_add_left 400 5)
  rename_i post
  split
  · rename_i parts
    refine respects_mustCan (fun _ => rfl) fun _ => ?_
    dsimp only
    split
    · exact respects_refusal (Nat.le_refl 400)
    rename_i n body
    split
    · exact respects_refusal (Nat.le_refl 400)
    rename_i nonneg
    have named := doc (Decidable.not_not.1 post) n body nonneg _ _ _ parts
    refine respects_fetch named (fun _ => rfl) fun cur key => ?_
    exact respects_store (by rw [(scaled_same n cur).key, key]; exact named)
  · exact respects_refusal (Nat.le_refl 400)

end

theorem Documented.named {k : Key} (doc : Documented r k) {ns name : String} {rest : List String}
    (parts : pathParts r = ns :: name :: rest) : Documented r ⟨ns, name⟩ := by
  have two : ns = k.ns ∧ name = k.name := by
    rcases doc.2.2 with ⟨exact, -⟩ | ⟨exact, -⟩ <;> simp_all
  rw [two.1, two.2]
  exact doc

theorem serve_respects (keeps : ¬ Strays r) : Respects child policy r (serve d .session r) := by
  have named : LooksUp r → ∀ ns name rest, pathParts r = ns :: name :: rest → Documented r ⟨ns, name⟩ := by
    intro looks ns name rest parts
    by_contra none
    exact keeps ⟨looks, fun k doc => none (doc.named parts)⟩
  by_cases login : r.claims = none
  · rw [show serve d .session r = .ret (httpError "unauthorized" 401) by simp [serve, wrapWithAuth, login]]
    exact respects_refusal (Nat.le_succ 400)
  have item : isScale r = false → r.method ∈ ["GET", "PUT", "PATCH", "DELETE"] → ∀ ns name rest,
      pathParts r = ns :: name :: rest → Documented r ⟨ns, name⟩ := by
    intro no method ns name rest parts
    refine named ⟨login, ?_⟩ ns name rest parts
    rw [no, parts]
    exact ⟨method, Nat.le_add_left 2 _⟩
  refine serve_session_cases (P := Respects child policy r) ?_ ?_ ?_ ?_ ?_ ?_ ?_
  · exact fun _ => respects_refusal (Nat.le_succ 400)
  · exact fun _ => respects_refusal (Nat.le_refl 400)
  · refine fun scale => handleScaleSession_respects fun post n body nonneg => named ⟨login, ?_⟩
    rw [scale]
    exact ⟨post, n, body, nonneg⟩
  · exact fun no get => handleGetSession_respects (item no (by simp [get]))
  · exact fun no write => handleUpdateSession_respects (item no (by rcases write with eq | eq <;> simp [eq]))
  · exact fun no delete => handleDeleteSession_respects (item no (by simp [delete]))
  · exact fun _ _ _ _ => respects_refusal (Nat.le_add_left 400 5)

/-! ## Requests that stray -/

/-- The program gets to looking a Session up. -/
def GetsTo (child : ChildApi χ) (p : Api HttpResp) : Prop :=
  ∃ σ k f, Exec (Under child allowAll) p σ (.call (.get k) f) σ

theorem getsTo_fetch {cl : Claims} (login : r.claims = some cl) {action domain : String}
    {f : Except HttpResp Claims → Api HttpResp} (next : ∃ k g, f (.ok cl) = fetch d k >>= g) :
    GetsTo child (MustCan d r "session" action domain >>= f) := by
  obtain ⟨k, g, next⟩ := next
  obtain ⟨h, call⟩ : ∃ h, fetch d k >>= g = .call (.get k) h := ⟨_, rfl⟩
  refine ⟨{ Cluster.blank with policy := allowAll }, k, h, ?_⟩
  unfold MustCan
  rw [login]
  refine .call (r := .ok true) ⟨rfl, .inl rfl⟩ ?_
  show Exec _ (f (.ok cl)) _ _ _
  rw [next, call]
  exact .refl _ _

theorem two_parts (long : ¬ (pathParts r).length < 2) : ∃ ns name rest, pathParts r = ns :: name :: rest := by
  match parts : pathParts r with
  | [] | [_] => simp [parts] at long
  | ns :: name :: rest => exact ⟨ns, name, rest, rfl⟩

theorem serve_getsTo (looks : LooksUp r) : GetsTo child (serve d .session r) := by
  obtain ⟨login, served⟩ := looks
  obtain ⟨cl, claims⟩ := Option.ne_none_iff_exists'.1 login
  have dispatched : serve d .session r = handleSessionOperationsWithPath d r := by
    simp [serve, wrapWithAuth, claims]
  rw [dispatched, handleSessionOperationsWithPath]
  cases scale : isScale r with
  | true =>
    rw [scale] at served
    obtain ⟨post, n, body, nonneg⟩ := served
    obtain ⟨ns, name, parts⟩ : ∃ ns name, pathParts r = [ns, name, "scale"] := by
      unfold isScale at scale
      split at scale <;> simp_all
    simp only [parts, List.length_cons, List.length_nil, Nat.reduceAdd, Nat.reduceLT, if_false, if_true]
    rw [handleScaleSession, if_neg (not_not.2 post), parts]
    refine getsTo_fetch claims ?_
    simp only [body, nonneg, if_false]
    exact ⟨_, _, rfl⟩
  | false =>
    rw [scale] at served
    obtain ⟨method, long⟩ := served
    obtain ⟨ns, name, rest, parts⟩ := two_parts (Nat.not_lt.2 long)
    simp only [if_neg (Nat.not_lt.2 long), Bool.false_eq_true, if_false]
    simp only [List.mem_cons, List.not_mem_nil, or_false] at method
    rcases method with get | put | patch | delete
    · rw [if_pos get, handleGetSession, parts]
      exact getsTo_fetch claims ⟨_, _, rfl⟩
    · simp only [put, handleUpdateSession, parts]
      exact getsTo_fetch claims ⟨_, _, rfl⟩
    · simp only [patch, handleUpdateSession, parts]
      exact getsTo_fetch claims ⟨_, _, rfl⟩
    · simp only [delete, handleDeleteSession, parts]
      exact getsTo_fetch claims ⟨_, _, rfl⟩

/-! ## Where documented requests go -/

section

variable {cl : Claims} {k : Key}

theorem serve_delete (login : r.claims = some cl) (parts : pathParts r = [k.ns, k.name]) (method : r.method = "DELETE") :
    serve d .session r = handleDeleteSession d r := by
  simp [serve, wrapWithAuth, login, handleSessionOperationsWithPath, isScale, parts, method]

theorem serve_scale (login : r.claims = some cl) (parts : pathParts r = [k.ns, k.name, "scale"]) :
    serve d .session r = handleScaleSession d r := by
  simp [serve, wrapWithAuth, login, handleSessionOperationsWithPath, isScale, parts]

end

/-- A request of the session routes keeps to the grammar exactly if it does not stray. -/
theorem grammar_iff : Grammar child d r ↔ ¬ Strays r := by
  constructor
  · rintro grammar ⟨looks, none⟩
    have gets : GetsTo child (serve d .session r) := serve_getsTo looks
    obtain ⟨σ, k, f, run⟩ := gets
    exact none k (grammar.within run)
  · intro keeps
    refine ⟨fun {policy σ _ _ _} run => ?_, fun none {policy σ _ _} run => ?_⟩
    · have respects : Respects child policy r (serve d .session r) := serve_respects keeps
      have within := Prog.wp_guarantee run (respects σ)
      exact within
    · have respects : Respects child policy r (serve d .session r) := serve_respects keeps
      have refused := Prog.wp_result run (respects σ)
      exact refused none

end Codespace.Server
