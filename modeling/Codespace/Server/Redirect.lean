import Codespace.Go.Url
import Codespace.Server.Http
import Codespace.Text.Whatwg

/-!
# The redirect after a login

`handleOIDCCallback` redirects to a reference from the request's state, if `isSafeRelative`
finds no scheme in it and no two slashes before it. `http.Redirect` cleans its path, and the
browser resolves what comes of that. Two things are not seen by the check: a backslash is a
slash to the browser, and a tab is nothing to it. `leadsOut` says which references lead to
another host by that.
-/

namespace Codespace.Server
set_option autoImplicit false
open Go

/-! ## The handler -/

/-- What the callback reads of a request. The mux dispatches by the path, which is rooted. -/
structure CallbackRequest where
  path : Bytes
  rooted : path.head? = some '/'
  state : Bytes

/-- `auth.Provider`, as far as the callback uses it. -/
structure Provider where
  handleCallback : CallbackRequest → Except String Claims

/-- `auth.AuthManager`: the provider that is registered for OIDC, and what makes the token. -/
structure AuthManager where
  provider : Option Provider
  issueSession : CallbackRequest → Claims → Except String String

/-- What the callback sends: an error, or status 302 with a Location. -/
inductive CallbackResp where
  | refused (resp : HttpResp)
  | found (location : Bytes)

section

variable (parseAuthority : Bytes → Option Bytes)

def isSafeRelative (p : Bytes) : Bool :=
  if p = [] ∨ hasPrefix p "//".toList then false
  else match urlParse parseAuthority p with
    | none => false
    | some u => !u.isAbs

/-- The destination in a state, after the bar, or `/`. -/
def dest (state : Bytes) : Bytes :=
  if state ≠ [] then
    match (cut '|' state).2 with
    | none => ['/']
    | some part =>
      match Base64.decodeString part with
      | none => ['/']
      | some b => if isSafeRelative parseAuthority b then b else ['/']
  else ['/']

def handleOIDCCallback (m : AuthManager) (r : CallbackRequest) : CallbackResp :=
  match m.provider with
  | none => .refused (httpError "404 page not found" 404)
  | some p =>
    match p.handleCallback r with
    | .error e => .refused (httpError e 401)
    | .ok claims =>
      match m.issueSession r claims with
      | .error _ => .refused (httpError "failed to create token" 500)
      | .ok _ => .found (redirectLocation parseAuthority r.path (dest parseAuthority r.state))

/-- The destination is always one that passed the check. -/
theorem dest_safe (state : Bytes) : isSafeRelative parseAuthority (dest parseAuthority state) = true := by
  have root : isSafeRelative parseAuthority ['/'] = true := by rfl
  unfold dest
  split
  · split
    · exact root
    · split
      · exact root
      · split
        · assumption
        · exact root
  · exact root

/-- Whatever passes the check can be sent in a state. -/
theorem dest_encoded {nonce p : Bytes} (plain : '|' ∉ nonce) (bytes : ∀ c ∈ p, c.toNat < 256)
    (safe : isSafeRelative parseAuthority p = true) :
    dest parseAuthority (nonce ++ '|' :: Base64.encodeToString p) = p := by
  have part : (cut '|' (nonce ++ '|' :: Base64.encodeToString p)).2 = some (Base64.encodeToString p) := by
    have passed : ∀ c ∈ nonce, decide (c ≠ '|') = true := fun c mem => decide_eq_true fun bar => plain (bar ▸ mem)
    rw [cut, List.dropWhile_append_of_pos passed, List.dropWhile_cons_of_neg (by decide)]
    rfl
  rw [dest, if_pos (by simp), part]
  simp only [Base64.decode_encode bytes, safe, if_true]

end

/-! ## The Location -/

/-- The rest of a rooted reference as it is written to the header. -/
def written (s : Bytes) : Bytes :=
  ((hexEscapeNonASCII s).map fun c => if c = '\n' ∨ c = '\r' then ' ' else c).rdropWhile isASCIISpace

variable {parseAuthority : Bytes → Option Bytes} {r : CallbackRequest} {p : Bytes}

/-- Where a reference that passed the check is redirected to. -/
theorem location_of_safe (safe : isSafeRelative parseAuthority p = true) :
    redirectLocation parseAuthority r.path p = '/' :: written (cleanedTail (makeAbsolute r.path p)) := by
  unfold isSafeRelative at safe
  split at safe
  · cases safe
  rename_i start
  have inside : hasPrefix p "//".toList = false := Bool.eq_false_iff.2 fun two => start (.inr two)
  unfold redirectLocation
  cases parsed : urlParse parseAuthority p with
  | none => simp [parsed] at safe
  | some u =>
    have relative : u.isAbs = false := by simpa [parsed] using safe
    have rooted : hexEscapeNonASCII ('/' :: cleanedTail (makeAbsolute r.path p)) =
        '/' :: hexEscapeNonASCII (cleanedTail (makeAbsolute r.path p)) := rfl
    dsimp only
    rw [if_pos (urlParse_relative parseAuthority parsed relative inside),
      cleanUp_rooted (makeAbsolute_rooted r.rooted p), rooted, fieldValue, List.map_cons, if_neg (by decide),
      List.dropWhile_cons_of_neg (by decide), Whatwg.rdropWhile_cons (by decide), written]

/-- The first character, tabs aside, is a slash. -/
def ledBySlash : Bytes → Bool
  | [] => false
  | c :: s => if c = '\t' then ledBySlash s else Whatwg.isSlash c

/-- Nothing that is done to the header makes a slash or removes one, or a tab before it. -/
theorem leads_written (s : Bytes) : Whatwg.leads (written s) = ledBySlash s := by
  rw [written, Whatwg.leads_rdropWhile (p := isASCIISpace) fun _ => Whatwg.isSlash_eq_false rfl rfl]
  induction s with
  | nil => rfl
  | cons c s ih =>
    rw [hexEscapeNonASCII, List.flatMap_cons, List.map_append, ← hexEscapeNonASCII, ledBySlash]
    by_cases ascii : c.toNat < 0x80
    · rw [if_pos ascii, List.map_singleton, List.singleton_append, Whatwg.leads]
      by_cases tab : c = '\t'
      · subst tab
        exact ih
      by_cases newline : c = '\n' ∨ c = '\r'
      · rw [if_neg tab, if_pos newline]
        rcases newline with rfl | rfl <;> rfl
      · have gap : Whatwg.isGap c = false := by simpa [Whatwg.isGap, tab] using newline
        rw [if_neg tab, if_neg newline, gap]
        rfl
    · have tab : c ≠ '\t' := by rintro rfl; exact ascii (by decide)
      have other : Whatwg.isSlash c = false :=
        Whatwg.isSlash_eq_false (p := fun c => ¬ c.toNat < 0x80) (by decide) (by decide) (decide_eq_true ascii)
      rw [if_neg ascii, if_neg tab, other]
      rfl

/-! ## Which references lead out -/

/-- Once `.` and `..` are resolved, the path begins with a backslash, or with nothing and goes
on; tabs aside. -/
def leadsOut (oldpath p : Bytes) : Bool :=
  match elements true (pathOf (makeAbsolute oldpath p)) with
  | [] => false
  | e :: es =>
    match e.dropWhile (· = '\t') with
    | [] => es ≠ [] || (pathOf (makeAbsolute oldpath p)).getLast? = some '/'
    | c :: _ => c = '\\'

theorem ledBySlash_append {e : Bytes} (name : '/' ∉ e) (t : Bytes) : ledBySlash (e ++ t) =
    match e.dropWhile (· = '\t') with
    | [] => ledBySlash t
    | c :: _ => decide (c = '\\') := by
  induction e with
  | nil => rfl
  | cons c e ih =>
    rw [List.mem_cons, not_or] at name
    rw [List.cons_append, ledBySlash]
    by_cases tab : c = '\t'
    · rw [if_pos tab, List.dropWhile_cons_of_pos (by simp [tab]), ih name.2]
    · have slash : Whatwg.isSlash c = decide (c = '\\') := by simp [Whatwg.isSlash, Ne.symm name.1]
      rw [if_neg tab, List.dropWhile_cons_of_neg (by simp [tab]), slash]

theorem ledBySlash_queryOf (url : Bytes) : ledBySlash (queryOf url) = false := by
  unfold queryOf
  induction url with
  | nil => rfl
  | cons c url ih =>
    by_cases mark : c = '?'
    · subst mark
      rfl
    · rw [List.dropWhile_cons_of_pos (by simp [mark])]
      exact ih

theorem ledBySlash_cleanedTail (oldpath p : Bytes) :
    ledBySlash (cleanedTail (makeAbsolute oldpath p)) = leadsOut oldpath p := by
  unfold cleanedTail leadsOut
  generalize makeAbsolute oldpath p = url
  cases left : elements true (pathOf url) with
  | nil => simpa [join] using ledBySlash_queryOf url
  | cons e es =>
    have here : e ∈ elements true (pathOf url) := left ▸ List.mem_cons_self
    have name : IsName e := elements_names here
    dsimp only
    rw [join_cons, List.append_assoc, List.append_assoc, ledBySlash_append name.2]
    cases e.dropWhile (· = '\t') with
    | cons c cs => rfl
    | nil =>
      by_cases more : es = []
      · subst more
        by_cases trailing : (pathOf url).getLast? = some '/'
        · simp [trailing, ledBySlash, Whatwg.isSlash]
        · simp [trailing, ledBySlash_queryOf]
      · simp [more, ledBySlash, Whatwg.isSlash]

/-! ## Where the browser goes -/

section

variable {H : Type} (parser : Whatwg.Parser H) (own : Whatwg.Origin H)

/-- What the browser takes for the authority, if the reference leads out. -/
def namedBy (oldpath p : Bytes) : Bytes :=
  (Whatwg.tidy ('/' :: written (cleanedTail (makeAbsolute oldpath p)))).dropWhile Whatwg.isSlash

/-- If the reference leads out, it leads back to the server itself. -/
def StaysOn (oldpath p : Bytes) : Prop :=
  leadsOut oldpath p = true → parser.authority own.scheme (namedBy oldpath p) = some own

theorem location_stays_iff (safe : isSafeRelative parseAuthority p = true) :
    parser.resolve own (redirectLocation parseAuthority r.path p) = some own ↔ StaysOn parser own r.path p := by
  rw [location_of_safe safe, Whatwg.Parser.resolve_rooted, leads_written, ledBySlash_cleanedTail, ← namedBy, StaysOn]
  cases leadsOut r.path p <;> simp

/-- **Main result.** After a login the browser stays on the server's origin if and only if the
destination does not lead out, or leads back. -/
theorem redirect_stays_iff (parseAuthority : Bytes → Option Bytes) (r : CallbackRequest) :
    (∀ p, isSafeRelative parseAuthority p = true →
      (parser.resolve own (redirectLocation parseAuthority r.path p) = some own ↔ StaysOn parser own r.path p)) ∧
    ∀ m location, handleOIDCCallback parseAuthority m r = .found location →
      (parser.resolve own location = some own ↔ StaysOn parser own r.path (dest parseAuthority r.state)) := by
  refine ⟨fun p safe => location_stays_iff parser own safe, fun m location sent => ?_⟩
  have found : location = redirectLocation parseAuthority r.path (dest parseAuthority r.state) := by
    unfold handleOIDCCallback at sent
    split at sent
    · cases sent
    split at sent
    · cases sent
    split at sent
    · cases sent
    · cases sent
      rfl
  rw [found]
  exact location_stays_iff parser own (dest_safe parseAuthority r.state)

end

/-- A backslash passes the check, and so does a tab behind the `#`, which is cleaned away with
the rest of the path before `..`. -/
example : ∀ p ∈ ["/x/../\\evil.example", "/#/../\t/evil.example"],
    isSafeRelative (fun _ => none) p.toList = true ∧ leadsOut "/auth/sso/callback".toList p.toList = true := by
  decide +kernel

/-- A browser for which every text is a host. -/
def anyHost : Whatwg.Parser Bytes := ⟨fun text => some (text.map Char.toLower), fun _ _ => none⟩

def exampleOrigin : Whatwg.Origin Bytes := ⟨.https, "codespace.example".toList, none⟩

/-- Every login succeeds. -/
def loginWorks : AuthManager := ⟨some ⟨fun _ => .ok ⟨"oidc:u", []⟩⟩, fun _ _ => .ok "token"⟩

/-- A callback with this state. -/
def callbackWith (state : String) : CallbackRequest := ⟨"/auth/sso/callback".toList, rfl, state.toList⟩

/-- The state names `/ui?tab=1`. -/
theorem redirect_stays_ui : ∃ location,
    handleOIDCCallback (fun _ => none) loginWorks (callbackWith "x|L3VpP3RhYj0x") = .found location ∧
      anyHost.resolve exampleOrigin location = some exampleOrigin := by
  have stays : leadsOut "/auth/sso/callback".toList (dest (fun _ => none) "x|L3VpP3RhYj0x".toList) = false := by
    decide +kernel
  refine ⟨_, rfl, ((redirect_stays_iff anyHost exampleOrigin (fun _ => none) _).2 loginWorks _ rfl).2 fun out => ?_⟩
  cases stays.symm.trans out

/-- The state names `/\evil.example`, which passes the check and leads to that host. -/
theorem backslash_leads_out :
    isSafeRelative (fun _ => none) "/\\evil.example".toList = true ∧
    handleOIDCCallback (fun _ => none) loginWorks (callbackWith "x|L1xldmlsLmV4YW1wbGU") =
      .found "/\\evil.example".toList ∧
    anyHost.resolve exampleOrigin "/\\evil.example".toList = some ⟨.https, "evil.example".toList, none⟩ ∧
    anyHost.resolve exampleOrigin "/\\evil.example".toList ≠ some exampleOrigin := by
  have evil : anyHost.resolve exampleOrigin "/\\evil.example".toList =
      some ⟨.https, "evil.example".toList, none⟩ := by decide +kernel
  refine ⟨by decide +kernel, congrArg CallbackResp.found ?_, evil, ?_⟩
  · decide +kernel
  · rw [evil]
    decide +kernel

end Codespace.Server
