import Codespace.Go.Base64
import Codespace.Go.Strings
import Mathlib.Data.List.DropRight

/-!
# `url.Parse`, `path.Clean` and `http.Redirect`

How Go reads a reference and what it makes of one that it redirects to. A rooted path is
cleaned to the elements that are left of it, and none of these is empty. How an authority is
parsed is a parameter: a reference without a scheme that does not begin with two slashes
has none.
-/

namespace Go
set_option autoImplicit false

/-! ## Strings -/

/-- `strings.Cut(s, sep)`, where `sep` is one byte: what is before it, and what is after it if
it is there. -/
def cut (sep : Char) (s : Bytes) : Bytes × Option Bytes :=
  (s.takeWhile (· ≠ sep), (s.dropWhile (· ≠ sep)).tail?)

/-- `strings.HasPrefix`. -/
def hasPrefix (s pre : Bytes) : Bool := pre.isPrefixOf s

/-- `unhex`, for a byte that is a hexadecimal digit. -/
def unhex (c : Char) : Option Nat :=
  if '0' ≤ c ∧ c ≤ '9' then some (c.toNat - '0'.toNat)
  else if 'a' ≤ c ∧ c ≤ 'f' then some (c.toNat - 'a'.toNat + 10)
  else if 'A' ≤ c ∧ c ≤ 'F' then some (c.toNat - 'A'.toNat + 10)
  else none

/-! ## `url.Parse` -/

structure URL where
  scheme : Bytes
  /-- What follows the scheme, if it does not begin with a slash. -/
  rootless : Bytes
  host : Bytes
  path : Bytes
  rawQuery : Bytes
  fragment : Bytes

/-- `IsAbs`. -/
def URL.isAbs (u : URL) : Bool := u.scheme ≠ []

/-- `stringContainsCTLByte`. -/
def stringContainsCTLByte (s : Bytes) : Bool := s.any fun c => c < ' ' || c = '\x7f'

theorem stringContainsCTLByte_printable {s : Bytes} (printable : ∀ c ∈ s, 32 ≤ c.toNat ∧ c.toNat < 127) :
    stringContainsCTLByte s = false := by
  rw [stringContainsCTLByte, List.any_eq_false]
  intro c mem
  obtain ⟨low, high⟩ := printable c mem
  simp only [Bool.or_eq_true, decide_eq_true_eq, not_or]
  refine ⟨fun lt => ?_, fun eq => ?_⟩
  · have small : c.toNat < 32 := UInt32.lt_iff_toNat_lt.1 lt
    omega
  · rw [eq] at high
    exact absurd high (by decide)

/-- `unescape`, for a path or a fragment. -/
def unescape : Bytes → Option Bytes
  | '%' :: a :: b :: s => do
    let hi ← unhex a
    let lo ← unhex b
    let rest ← unescape s
    return Char.ofNat (16 * hi + lo) :: rest
  | '%' :: _ => none
  | c :: s => do
    let rest ← unescape s
    return c :: rest
  | [] => some []

theorem unescape_cons {c : Char} (plain : c ≠ '%') (s : Bytes) :
    unescape (c :: s) = (unescape s).map (c :: ·) := by
  rw [Option.map_eq_bind, unescape.eq_def]
  split <;> simp_all

theorem unescape_append {l : Bytes} (plain : '%' ∉ l) (s : Bytes) : unescape (l ++ s) = (unescape s).map (l ++ ·) := by
  induction l with
  | nil => simp
  | cons c l ih =>
    obtain ⟨ne, rest⟩ := not_or.1 (List.mem_cons.not.1 plain)
    rw [List.cons_append, unescape_cons (Ne.symm ne), ih rest, Option.map_map]
    rfl

theorem unescape_plain {s : Bytes} (plain : '%' ∉ s) : unescape s = some s := by
  have whole := unescape_append plain []
  rwa [List.append_nil, unescape, Option.map_some, List.append_nil] at whole

theorem unescape_escaped {hi lo : Char} {m n : Nat} (high : unhex hi = some m) (low : unhex lo = some n) (s : Bytes) :
    unescape ('%' :: hi :: lo :: s) = (unescape s).map (Char.ofNat (16 * m + n) :: ·) := by
  simp [unescape, high, low, Option.map_eq_bind]

def isLetter (c : Char) : Bool := ('a' ≤ c && c ≤ 'z') || ('A' ≤ c && c ≤ 'Z')

def isSchemeMark (c : Char) : Bool := ('0' ≤ c && c ≤ '9') || c ∈ ['+', '-', '.']

/-- The loop of `getScheme`, with what it has passed. -/
def schemeLoop (rawURL : Bytes) : (passed : Bytes) → Bytes → Option (Bytes × Bytes)
  | _, [] => some ([], rawURL)
  | passed, c :: s =>
    if isLetter c then schemeLoop rawURL (passed ++ [c]) s
    else if isSchemeMark c then
      if passed = [] then some ([], rawURL) else schemeLoop rawURL (passed ++ [c]) s
    else if c = ':' then
      if passed = [] then none else some (passed, s)
    else some ([], rawURL)

/-- `getScheme`: the scheme, if there is one, and the rest. -/
def getScheme (rawURL : Bytes) : Option (Bytes × Bytes) := schemeLoop rawURL [] rawURL

section

variable (parseAuthority : Bytes → Option Bytes)

/-- `parse`, from where scheme and query are split off. -/
def parseHierarchy (scheme query rest : Bytes) : Option URL :=
  if rest.head? ≠ some '/' ∧ scheme ≠ [] then some ⟨scheme, rest, [], [], query, []⟩
  else if rest.head? ≠ some '/' ∧ ':' ∈ (cut '/' rest).1 then none
  else if (scheme ≠ [] ∨ ¬ hasPrefix rest "///".toList) ∧ hasPrefix rest "//".toList then do
    let authority := (rest.drop 2).takeWhile (· ≠ '/')
    let host ← parseAuthority authority
    let path ← unescape ((rest.drop 2).dropWhile (· ≠ '/'))
    return ⟨scheme, [], host, path, query, []⟩
  else do
    let path ← unescape rest
    return ⟨scheme, [], [], path, query, []⟩

/-- `parse`, for a URL that is not one of a request. -/
def parse (rawURL : Bytes) : Option URL :=
  if stringContainsCTLByte rawURL then none
  else if rawURL = ['*'] then some ⟨[], [], [], ['*'], [], []⟩
  else do
    let (scheme, rest) ← getScheme rawURL
    parseHierarchy parseAuthority (scheme.map Char.toLower) ((cut '?' rest).2.getD []) (cut '?' rest).1

/-- `url.Parse`. -/
def urlParse (rawURL : Bytes) : Option URL := do
  let u ← parse parseAuthority (cut '#' rawURL).1
  let fragment ← unescape ((cut '#' rawURL).2.getD [])
  return { u with fragment := fragment }

theorem parseHierarchy_scheme {scheme query rest : Bytes} {u : URL}
    (parsed : parseHierarchy parseAuthority scheme query rest = some u) : u.scheme = scheme := by
  unfold parseHierarchy at parsed
  split at parsed
  · cases parsed
    rfl
  split at parsed
  · cases parsed
  split at parsed
  · simp only [Option.bind_eq_bind, Option.bind_eq_some_iff, Option.pure_def, Option.some.injEq] at parsed
    obtain ⟨host, -, path, -, rfl⟩ := parsed
    rfl
  · simp only [Option.bind_eq_bind, Option.bind_eq_some_iff, Option.pure_def, Option.some.injEq] at parsed
    obtain ⟨path, -, rfl⟩ := parsed
    rfl

/-- There is a host only behind two slashes. -/
theorem parseHierarchy_host {scheme query rest : Bytes} {u : URL}
    (parsed : parseHierarchy parseAuthority scheme query rest = some u)
    (inside : hasPrefix rest "//".toList = false) : u.host = [] := by
  unfold parseHierarchy at parsed
  split at parsed
  · cases parsed
    rfl
  split at parsed
  · cases parsed
  rw [inside, if_neg fun both => Bool.false_ne_true both.2] at parsed
  simp only [Option.bind_eq_bind, Option.bind_eq_some_iff, Option.pure_def, Option.some.injEq] at parsed
  obtain ⟨path, -, rfl⟩ := parsed
  rfl

/-- Where no scheme is found, nothing is split off. -/
theorem schemeLoop_empty {rawURL passed s rest : Bytes} (found : schemeLoop rawURL passed s = some ([], rest)) :
    rest = rawURL := by
  induction s generalizing passed with
  | nil =>
    cases found
    rfl
  | cons c s ih =>
    unfold schemeLoop at found
    split at found
    · exact ih found
    split at found
    · split at found
      · cases found
        rfl
      · exact ih found
    split at found
    · split at found
      · cases found
      · rename_i named
        simp only [Option.some.injEq, Prod.mk.injEq] at found
        exact absurd found.1 named
    · cases found
      rfl

theorem cut_of_notMem {sep : Char} {s : Bytes} (none : sep ∉ s) : (cut sep s).1 = s :=
  List.takeWhile_eq_self_iff.2 fun _ mem => decide_eq_true fun eq => none (eq ▸ mem)

/-- What begins with one slash is a path and a query. -/
theorem parse_slashed {s path : Bytes} (plain : stringContainsCTLByte ('/' :: s) = false) (single : s.head? ≠ some '/')
    (unescaped : unescape (cut '?' ('/' :: s)).1 = some path) :
    parse parseAuthority ('/' :: s) = some ⟨[], [], [], path, (cut '?' ('/' :: s)).2.getD [], []⟩ := by
  have rooted : (cut '?' ('/' :: s)).1 = '/' :: (cut '?' s).1 := by simp [cut]
  have noHost : hasPrefix ('/' :: (cut '?' s).1) ['/', '/'] = false := by
    cases s with
    | nil => rfl
    | cons c s =>
      have other : c ≠ '/' := by simpa using single
      by_cases ends : c = '?' <;> simp [cut, hasPrefix, List.isPrefixOf, ends, other.symm]
  rw [rooted] at unescaped
  rw [parse, plain, if_neg Bool.false_ne_true, if_neg (by simp), getScheme, schemeLoop, if_neg (by decide),
    if_neg (by decide), if_neg (by decide)]
  simp [parseHierarchy, rooted, noHost, unescaped]

/-- A path with one slash in front is parsed to what it is unescaped to. -/
theorem parse_rooted {s path : Bytes} (plain : stringContainsCTLByte ('/' :: s) = false) (noQuery : '?' ∉ '/' :: s)
    (single : s.head? ≠ some '/') (unescaped : unescape ('/' :: s) = some path) :
    ∃ u, parse parseAuthority ('/' :: s) = some u ∧ u.path = path := by
  rw [← cut_of_notMem noQuery] at unescaped
  exact ⟨_, parse_slashed parseAuthority plain single unescaped, rfl⟩

/-- A part of a string that begins with something is part of a string that does. -/
theorem hasPrefix_takeWhile {p : Char → Bool} {s pre : Bytes} (inside : hasPrefix s pre = false) :
    hasPrefix (s.takeWhile p) pre = false := by
  rw [hasPrefix, Bool.eq_false_iff] at *
  intro begins
  exact inside (List.isPrefixOf_iff_prefix.2 ((List.isPrefixOf_iff_prefix.1 begins).trans (List.takeWhile_prefix p)))

/-- A reference that is not absolute and does not begin with two slashes has no host. -/
theorem urlParse_relative {s : Bytes} {u : URL} (parsed : urlParse parseAuthority s = some u)
    (relative : u.isAbs = false) (inside : hasPrefix s "//".toList = false) : u.scheme = [] ∧ u.host = [] := by
  have none : u.scheme = [] := by simpa [URL.isAbs] using relative
  refine ⟨none, ?_⟩
  simp only [urlParse, Option.bind_eq_bind, Option.bind_eq_some_iff, Option.pure_def, Option.some.injEq] at parsed
  obtain ⟨u', parsed, fragment, -, rfl⟩ := parsed
  unfold parse at parsed
  split at parsed
  · cases parsed
  split at parsed
  · cases parsed
    rfl
  simp only [Option.bind_eq_bind, Option.bind_eq_some_iff] at parsed
  obtain ⟨⟨scheme, rest⟩, found, parsed⟩ := parsed
  have inside' : hasPrefix (cut '#' s).1 "//".toList = false := hasPrefix_takeWhile inside
  by_cases named : scheme = []
  · subst named
    cases schemeLoop_empty found
    show u'.host = []
    exact parseHierarchy_host parseAuthority parsed (hasPrefix_takeWhile inside')
  · have kept : u'.scheme = scheme.map Char.toLower := parseHierarchy_scheme parseAuthority parsed
    have empty : u'.scheme = [] := none
    rw [empty, eq_comm, List.map_eq_nil_iff] at kept
    exact absurd kept named

end

/-! ## `path.Clean` -/

/-- Go on with the next element of a path. -/
def cleanStep (rooted : Bool) (out : List Bytes) (e : Bytes) : List Bytes :=
  if e = [] ∨ e = ['.'] then out
  else if e = ['.', '.'] then
    if out = [] ∨ out.getLast? = some ['.', '.'] then
      if rooted then out else out ++ [e]
    else out.dropLast
  else out ++ [e]

/-- The elements that are left of a path. -/
def elements (rooted : Bool) (p : Bytes) : List Bytes := (p.splitOn '/').foldl (cleanStep rooted) []

def join (es : List Bytes) : Bytes := ['/'].intercalate es

/-- `path.Clean`. -/
def clean (p : Bytes) : Bytes :=
  if p.head? = some '/' then '/' :: join (elements true p)
  else if elements false p = [] then ['.'] else join (elements false p)

/-- A name of a path. -/
def IsName (e : Bytes) : Prop := e ≠ [] ∧ '/' ∉ e

theorem cleanStep_names {rooted : Bool} {out : List Bytes} {e : Bytes} (names : ∀ o ∈ out, IsName o) (piece : '/' ∉ e) :
    ∀ o ∈ cleanStep rooted out e, IsName o := by
  have added : e ≠ [] → ∀ o ∈ out ++ [e], IsName o := by
    intro ne o mem
    rcases List.mem_append.1 mem with old | new
    · exact names o old
    · cases List.mem_singleton.1 new
      exact ⟨ne, piece⟩
  unfold cleanStep
  split
  · exact names
  rename_i some
  have ne : e ≠ [] := fun empty => some (.inl empty)
  split
  · split
    · split
      · exact names
      · exact added ne
    · exact fun o mem => names o (List.dropLast_subset out mem)
  · exact added ne

theorem elements_names {rooted : Bool} {p e : Bytes} (mem : e ∈ elements rooted p) : IsName e := by
  have fold : ∀ (pieces out : List Bytes), (∀ e ∈ pieces, '/' ∉ e) → (∀ o ∈ out, IsName o) →
      ∀ o ∈ pieces.foldl (cleanStep rooted) out, IsName o := by
    intro pieces
    induction pieces with
    | nil => exact fun out _ names => names
    | cons e pieces ih =>
      intro out apart names
      rw [List.forall_mem_cons] at apart
      exact ih _ apart.2 (cleanStep_names names apart.1)
  exact fold _ _ (fun e piece slash => (mem_splitOn piece '/' slash).2 rfl) (by simp) e mem

theorem join_cons (e : Bytes) (es : List Bytes) : join (e :: es) = e ++ if es = [] then [] else '/' :: join es := by
  cases es with
  | nil => simp [join]
  | cons e' es => simp [join, List.intercalate]

/-- Joined names do not end in a slash. -/
theorem join_last {es : List Bytes} (names : ∀ e ∈ es, IsName e) : (join es).getLast? ≠ some '/' := by
  induction es with
  | nil => simp [join]
  | cons e es ih =>
    rw [List.forall_mem_cons] at names
    rw [join_cons]
    split
    · rw [List.append_nil]
      exact fun last => names.1.2 (List.mem_of_getLast? last)
    · rename_i more
      obtain ⟨e', es', rfl⟩ := List.exists_cons_of_ne_nil more
      have some : join (e' :: es') ≠ [] := by
        rw [join_cons]
        exact List.append_ne_nil_of_left_ne_nil (names.2 e' List.mem_cons_self).1 _
      rw [List.getLast?_append_of_ne_nil _ (List.cons_ne_nil _ _), List.getLast?_cons_of_ne_nil some]
      exact ih names.2

/-- A name that cleaning keeps. -/
def Kept (e : Bytes) : Prop := IsName e ∧ e ≠ ['.'] ∧ e ≠ ['.', '.']

theorem splitOn_rooted {es : List Bytes} (some : es ≠ []) (names : ∀ e ∈ es, IsName e) :
    ('/' :: join es).splitOn '/' = [] :: es := by
  have pieces : (join es).splitOn '/' = es := List.splitOn_intercalate '/' (fun e mem => (names e mem).2) some
  have root := List.splitOn_append_cons_self (a := '/') [] (join es)
  rw [pieces] at root
  exact root

/-- A path of such names is clean. -/
theorem clean_join {es : List Bytes} (some : es ≠ []) (kept : ∀ e ∈ es, Kept e) :
    clean ('/' :: join es) = '/' :: join es := by
  have fold : ∀ (es out : List Bytes), (∀ e ∈ es, Kept e) → es.foldl (cleanStep true) out = out ++ es := by
    intro es
    induction es with
    | nil => exact fun out _ => (List.append_nil out).symm
    | cons e es ih =>
      intro out kept
      obtain ⟨⟨⟨ne, -⟩, dot, dots⟩, rest⟩ := List.forall_mem_cons.1 kept
      rw [List.foldl_cons, ih _ rest, cleanStep, if_neg (not_or.2 ⟨ne, dot⟩), if_neg dots, List.append_assoc]
      rfl
  have whole : elements true ('/' :: join es) = es := by
    rw [elements, splitOn_rooted some fun e mem => (kept e mem).1, List.foldl_cons, fold _ _ kept]
    rfl
  rw [clean, List.head?_cons, if_pos rfl, whole]

/-! ## `http.Redirect` -/

/-- The directory that `path.Split` returns. -/
def splitDir (p : Bytes) : Bytes := p.rdropWhile (· ≠ '/')

/-- `url` with the directory of the request's path before it, if it is not rooted itself. -/
def makeAbsolute (oldpath url : Bytes) : Bytes :=
  if url.head? = some '/' then url else splitDir (if oldpath = [] then ['/'] else oldpath) ++ url

/-- The part before the query. -/
def pathOf (url : Bytes) : Bytes := url.takeWhile (· ≠ '?')

/-- The query, with its question mark. -/
def queryOf (url : Bytes) : Bytes := url.dropWhile (· ≠ '?')

/-- Clean up, but preserve a trailing slash. -/
def cleanUp (url : Bytes) : Bytes :=
  (if (pathOf url).getLast? = some '/' ∧ (clean (pathOf url)).getLast? ≠ some '/' then clean (pathOf url) ++ ['/']
    else clean (pathOf url)) ++ queryOf url

def hexEscapeNonASCII (s : Bytes) : Bytes :=
  s.flatMap fun c => if c.toNat < 0x80 then [c] else '%' :: Nat.toDigits 16 c.toNat

/-- `isASCIISpace`. -/
def isASCIISpace (c : Char) : Bool := c ∈ [' ', '\t', '\n', '\r']

/-- A header field's value as it is written: line breaks are replaced and the ends trimmed. -/
def fieldValue (v : Bytes) : Bytes :=
  ((v.map fun c => if c = '\n' ∨ c = '\r' then ' ' else c).dropWhile isASCIISpace).rdropWhile isASCIISpace

/-- The Location header of `http.Redirect`. -/
def redirectLocation (parseAuthority : Bytes → Option Bytes) (oldpath url : Bytes) : Bytes :=
  fieldValue (hexEscapeNonASCII (match urlParse parseAuthority url with
    | none => url
    | some u => if u.scheme = [] ∧ u.host = [] then cleanUp (makeAbsolute oldpath url) else url))

/-- What comes before something is rooted if it begins with something rooted. -/
theorem makeAbsolute_rooted {oldpath : Bytes} (rooted : oldpath.head? = some '/') (url : Bytes) :
    (makeAbsolute oldpath url).head? = some '/' := by
  unfold makeAbsolute
  split
  · assumption
  · have path : oldpath ≠ [] := fun none => by simp [none] at rooted
    have slash : '/' ∈ oldpath := List.mem_of_head? rooted
    have dir : splitDir oldpath ≠ [] := fun none => by
      have other := (List.rdropWhile_eq_nil_iff ..).1 none '/' slash
      exact absurd other (by decide)
    obtain ⟨rest, whole⟩ : ∃ rest, splitDir oldpath ++ rest = oldpath := List.rdropWhile_prefix _ oldpath
    have head : oldpath.head? = (splitDir oldpath).head? := by
      rw [← List.head?_append_of_ne_nil _ dir, whole]
    rw [if_neg path, List.head?_append_of_ne_nil _ dir, ← head, rooted]

/-- What follows the first slash once a rooted reference is cleaned up. -/
def cleanedTail (url : Bytes) : Bytes :=
  join (elements true (pathOf url)) ++
    (if (pathOf url).getLast? = some '/' ∧ elements true (pathOf url) ≠ [] then ['/'] else []) ++ queryOf url

theorem cleanUp_rooted {url : Bytes} (rooted : url.head? = some '/') : cleanUp url = '/' :: cleanedTail url := by
  have path : (pathOf url).head? = some '/' := by
    cases url with
    | nil => cases rooted
    | cons c url =>
      cases rooted
      rfl
  have names : ∀ e ∈ elements true (pathOf url), IsName e := fun e mem => elements_names mem
  have last : (clean (pathOf url)).getLast? ≠ some '/' ↔ elements true (pathOf url) ≠ [] := by
    rw [clean, if_pos path]
    constructor
    · intro other none
      rw [none] at other
      exact other rfl
    · intro some
      obtain ⟨e, es, eq⟩ := List.exists_cons_of_ne_nil some
      have joined : join (elements true (pathOf url)) ≠ [] := by
        rw [eq, join_cons]
        exact List.append_ne_nil_of_left_ne_nil (names e (eq ▸ List.mem_cons_self)).1 _
      rw [List.getLast?_cons_of_ne_nil joined]
      exact join_last names
  rw [cleanUp, cleanedTail]
  simp only [last]
  rw [clean, if_pos path]
  split <;> simp

end Go
