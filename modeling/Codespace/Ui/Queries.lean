import Codespace.Go.Query
import Codespace.Server.CommaLists
import Codespace.Server.Permissions
import Codespace.Ui.Urls

/-!
# The queries of the UI client

`introspectApi.getUser` of `client.ts` joins names with commas and puts the list into the query
of its URL. The server gets the parameters back (`userURL_arrives`), and from a list the names
that were joined, each once.
-/

namespace Codespace.Ui
set_option autoImplicit false
open Server Go

/-! ## The client -/

/-- What `URLSearchParams` leaves alone. -/
def formSafe (c : Char) : Bool := c.isAlphanum || c ∈ ['*', '-', '.', '_']

def formLetter (c : Char) : Bytes :=
  if c = ' ' then ['+'] else if formSafe c then [c] else (String.utf8EncodeChar c).flatMap escapeByte

def formEncode (s : String) : Bytes := s.toList.flatMap formLetter

/-- `URLSearchParams.toString`. -/
def formText (params : List (String × String)) : Bytes :=
  ['&'].intercalate (params.map fun p => formEncode p.1 ++ '=' :: formEncode p.2)

/-- The options of `getUser`. One that is missing is like one that is empty. -/
structure UserOptions where
  namespaces : List String
  actions : List String
  discover : Bool

/-- The parameters that `getUser` sets. -/
def userParams (opts : UserOptions) : List (String × String) :=
  (if opts.namespaces ≠ [] then [("namespaces", joined ',' opts.namespaces)] else []) ++
    ((if opts.actions ≠ [] then [("actions", joined ',' opts.actions)] else []) ++
      if opts.discover then [("discover", "1")] else [])

/-- The URL that `getUser` fetches. -/
def userURL (opts : UserOptions) : Bytes := "/api/v1/introspect/user".toList ++ '?' :: formText (userParams opts)

/-- The request of `getUser`. -/
def userRequest (cl : Identity) (opts : UserOptions) : IntrospectRequest := ⟨userParams opts, some cl⟩

/-! ## Encoding and decoding -/

theorem formSafe_unreserved {c : Char} (keep : formSafe c = true) : unreserved c = true := by
  have marks : ∀ c ∈ ['*', '-', '.', '_'], unreserved c = true := List.all_iff_forall_prop.1 (by decide +kernel)
  rw [formSafe, Bool.or_eq_true, decide_eq_true_eq] at keep
  rcases keep with alnum | mark
  · rw [unreserved, alnum, Bool.true_or]
  · exact marks c mark

/-- A character that separates nothing in a query and is printable. -/
def FormChar (c : Char) : Prop := c ≠ '&' ∧ c ≠ '=' ∧ c ≠ ';' ∧ 32 ≤ c.toNat ∧ c.toNat < 127

theorem hexDigits_formChar : ∀ n < 16, FormChar (hexDigit n) ∧ hexDigit n ≠ '+' := by
  unfold FormChar
  decide +kernel

theorem formLetter_formChar {c x : Char} (mem : x ∈ formLetter c) : FormChar x := by
  unfold formLetter at mem
  split at mem
  · obtain rfl := List.mem_singleton.1 mem
    unfold FormChar
    decide
  · split at mem
    · rename_i keep
      obtain rfl := List.mem_singleton.1 mem
      have free := formSafe_unreserved keep
      exact ⟨unreserved_ne free (by decide), unreserved_ne free (by decide), unreserved_ne free (by decide),
        unreserved_ascii free⟩
    · obtain ⟨b, -, mem⟩ := List.mem_flatMap.1 mem
      rcases mem_escapeByte mem with rfl | ⟨n, small, rfl⟩
      · unfold FormChar
        decide
      · exact (hexDigits_formChar n small).1

theorem formEncode_formChar {s : String} {x : Char} (mem : x ∈ formEncode s) : FormChar x := by
  obtain ⟨c, -, mem⟩ := List.mem_flatMap.1 mem
  exact formLetter_formChar mem

/-- `QueryUnescape` reads a plus as a space. -/
theorem unescape_formLetter (c : Char) (t : Bytes) :
    unescape ((formLetter c).map (fun x => if x = '+' then ' ' else x) ++ t) = (unescape t).map (utf8Char c ++ ·) := by
  unfold formLetter
  split
  · rename_i space
    subst space
    rw [utf8Char_ascii (by decide)]
    exact unescape_cons (by decide) t
  · split
    · rename_i keep
      have free := formSafe_unreserved keep
      rw [List.map_singleton, if_neg (unreserved_ne free (by decide)), List.singleton_append,
        unescape_cons (unreserved_ne free (by decide)), utf8Char_ascii ((unreserved_ascii free).2.trans (by decide))]
      rfl
    · have kept : ∀ b, (escapeByte b).map (fun x => if x = '+' then ' ' else x) = escapeByte b := by
        intro b
        have small := b.toNat_lt
        have high := (hexDigits_formChar (b.toNat / 16) (by omega)).2
        have low := (hexDigits_formChar (b.toNat % 16) (by omega)).2
        simp [escapeByte, high, low]
      have bytes := unescape_flatMap (g := fun b => [Char.ofNat b.toNat]) (fun b s => unescape_escapeByte b s)
        (String.utf8EncodeChar c) t
      simp only [List.map_flatMap, kept]
      rw [bytes, utf8Char, List.map_eq_flatMap]

theorem queryUnescape_formEncode (s : String) : queryUnescape (formEncode s) = some (utf8 s) := by
  have whole := unescape_flatMap unescape_formLetter s.toList []
  rw [List.append_nil, unescape, Option.map_some, List.append_nil] at whole
  rw [queryUnescape, formEncode, List.map_flatMap, whole]
  rfl

/-- A string of a parameter, as it is sent. -/
def utf8Param (p : String × String) : Bytes × Bytes := (utf8 p.1, utf8 p.2)

theorem formPair_read (p : String × String) : queryPair (formEncode p.1 ++ '=' :: formEncode p.2) = some (utf8Param p) := by
  refine queryPair_written ?_ (fun mem => (formEncode_formChar mem).2.1 rfl) (queryUnescape_formEncode p.1)
    (queryUnescape_formEncode p.2)
  intro c mem
  exact (List.mem_append.1 mem).elim (fun mem => (formEncode_formChar mem).2.2.1)
    fun mem => (formEncode_formChar mem).2.2.1

/-- A pair holds no ampersand, and nothing that is not printable. -/
theorem formPair_calm {p : String × String} {x : Char} (mem : x ∈ formEncode p.1 ++ '=' :: formEncode p.2) :
    x ≠ '&' ∧ 32 ≤ x.toNat ∧ x.toNat < 127 := by
  rcases List.mem_append.1 mem with mem | mem
  · have calm := formEncode_formChar mem
    exact ⟨calm.1, calm.2.2.2⟩
  · rcases List.mem_cons.1 mem with rfl | mem
    · decide
    · have calm := formEncode_formChar mem
      exact ⟨calm.1, calm.2.2.2⟩

/-- What the server reads are the parameters. -/
theorem parseQuery_formText (params : List (String × String)) : parseQuery (formText params) = params.map utf8Param := by
  have apart : ∀ part ∈ params.map (fun p => formEncode p.1 ++ '=' :: formEncode p.2), '&' ∉ part :=
    List.forall_mem_map.2 fun p _ mem => (formPair_calm mem).1 rfl
  have read : queryPair ∘ (fun p : String × String => formEncode p.1 ++ '=' :: formEncode p.2) =
      Option.some ∘ utf8Param := funext formPair_read
  rw [formText, parseQuery_joined apart, List.filterMap_map, read, List.filterMap_eq_map]

theorem formText_printable {params : List (String × String)} {x : Char} (mem : x ∈ formText params) :
    32 ≤ x.toNat ∧ x.toNat < 127 := by
  rcases mem_intercalate mem with rfl | ⟨part, there, mem⟩
  · decide
  · obtain ⟨p, -, rfl⟩ := List.mem_map.1 there
    exact (formPair_calm mem).2

/-! ## On the server -/

/-- A path of plain letters and the parameters behind it are read again. -/
theorem parse_formText (parseAuthority : Bytes → Option Bytes) {path s : Bytes} (rooted : path = '/' :: s)
    (single : s.head? ≠ some '/') (letters : ∀ c ∈ path, c ≠ '?' ∧ c ≠ '%' ∧ 32 ≤ c.toNat ∧ c.toNat < 127)
    (params : List (String × String)) : ∃ u, parse parseAuthority (path ++ '?' :: formText params) = some u ∧
      u.path = path ∧ parseQuery u.rawQuery = params.map utf8Param := by
  have printable : stringContainsCTLByte (path ++ '?' :: formText params) = false := by
    refine stringContainsCTLByte_printable fun c mem => ?_
    rcases List.mem_append.1 mem with mem | mem
    · exact (letters c mem).2.2
    · rcases List.mem_cons.1 mem with rfl | mem
      · decide
      · exact formText_printable mem
  have noQuery : '?' ∉ path := fun mem => (letters _ mem).1 rfl
  have unescaped : unescape path = some path := unescape_plain fun mem => (letters _ mem).2.1 rfl
  subst rooted
  obtain ⟨u, parsed, same, query⟩ := parse_queried parseAuthority printable noQuery single unescaped
  exact ⟨u, parsed, same, query ▸ parseQuery_formText params⟩

/-- The server gets the request. -/
theorem userURL_arrives (parseAuthority : Bytes → Option Bytes) (cl : Identity) (opts : UserOptions) :
    ∃ u, parse parseAuthority (userURL opts) = some u ∧ u.path = utf8 "/api/v1/introspect/user" ∧
      parseQuery u.rawQuery = (userRequest cl opts).query.map utf8Param := by
  have letters : ∀ c ∈ "/api/v1/introspect/user".toList, c ≠ '?' ∧ c ≠ '%' ∧ 32 ≤ c.toNat ∧ c.toNat < 127 :=
    List.all_iff_forall_prop.1 (by decide +kernel)
  have rooted : "/api/v1/introspect/user".toList = '/' :: "api/v1/introspect/user".toList := by decide +kernel
  have single : "api/v1/introspect/user".toList.head? ≠ some '/' := by decide +kernel
  have ascii : utf8 "/api/v1/introspect/user" = "/api/v1/introspect/user".toList := by decide +kernel
  obtain ⟨u, parsed, path, query⟩ := parse_formText parseAuthority rooted single letters (userParams opts)
  exact ⟨u, parsed, path.trans ascii.symm, query⟩

theorem userRequest_namespaces (cl : Identity) (opts : UserOptions) :
    (userRequest cl opts).get "namespaces" = joined ',' opts.namespaces := by
  rcases opts with ⟨namespaces, actions, discover⟩
  cases namespaces <;> cases actions <;> cases discover <;> rfl

/-- Comma lists have a normal form. It is kept when the list is joined again, the server reads it from
what the client sends, and roles of LDAP groups are given in it. -/
theorem comma_lists (parseAuthority : Bytes → Option Bytes) (p : Platform) (cl : Identity) :
    (∀ s, NormalForm s (splitCSVQuery s)) ∧
    (∀ s, splitCSVQuery (joined ',' (splitCSVQuery s)) = splitCSVQuery s) ∧
    (∀ opts : UserOptions, (∀ n ∈ opts.namespaces, IsItem ',' n) →
      (∃ u, parse parseAuthority (userURL opts) = some u ∧
        parseQuery u.rawQuery = (userRequest cl opts).query.map utf8Param) ∧
      splitCSVQuery ((userRequest cl opts).get "namespaces") = opts.namespaces.eraseDups) ∧
    ∀ (raw : GoMap String String) (group : String), (parseLDAPRoleMapping p raw).lookup group =
      (raw.lookup group).bind fun value => if splitCSVQuery value = [] then none else some (splitCSVQuery value) := by
  refine ⟨splitCSVQuery_normalForm, fun s => ?_, fun opts fit => ⟨?_, ?_⟩, parseLDAPRoleMapping_lookup p⟩
  · rw [splitCSVQuery_joined (splitCSVQuery_normalForm s).fit]
    exact eraseDups_of_nodup (splitCSVQuery_normalForm s).nodup
  · obtain ⟨u, parsed, -, query⟩ := userURL_arrives parseAuthority cl opts
    exact ⟨u, parsed, query⟩
  · rw [userRequest_namespaces, splitCSVQuery_joined fit]

/-- A namespace that is picked twice. -/
theorem comma_lists_repeated :
    splitCSVQuery ((userRequest (.plain "alice") ⟨["b", "a", "b"], [], true⟩).get "namespaces") = ["b", "a"] := by
  have fit : ∀ n ∈ ["b", "a", "b"], IsItem ',' n := by
    intro n mem
    rcases List.mem_cons.1 mem with rfl | mem
    · exact ⟨by decide, by decide +kernel, by decide⟩
    · rcases List.mem_cons.1 mem with rfl | mem
      · exact ⟨by decide, by decide +kernel, by decide⟩
      · obtain rfl := List.mem_singleton.1 mem
        exact ⟨by decide, by decide +kernel, by decide⟩
  exact ((comma_lists (fun _ => none) .plain (.plain "alice")).2.2.1 ⟨["b", "a", "b"], [], true⟩ fit).2

end Codespace.Ui
