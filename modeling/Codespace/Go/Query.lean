import Codespace.Go.Url

/-!
# Query strings

How Go reads the query of a URL: pairs of names and values between ampersands. Pairs that
cannot be read are dropped.
-/

namespace Go
set_option autoImplicit false

/-- `url.QueryUnescape`. -/
def queryUnescape (s : Bytes) : Option Bytes := unescape (s.map fun c => if c = '+' then ' ' else c)

/-- A pair, unless there is nothing to read or it cannot be read. -/
def queryPair (part : Bytes) : Option (Bytes × Bytes) :=
  if ';' ∈ part ∨ part = [] then none
  else do
    let key ← queryUnescape (cut '=' part).1
    let value ← queryUnescape ((cut '=' part).2.getD [])
    return (key, value)

/-- `url.ParseQuery`, without its error. -/
def parseQuery (query : Bytes) : List (Bytes × Bytes) := (query.splitOn '&').filterMap queryPair

theorem cut_append {sep : Char} {s t : Bytes} (none : sep ∉ s) : cut sep (s ++ sep :: t) = (s, some t) := by
  have before : ∀ c ∈ s, decide (c ≠ sep) = true := fun c mem => decide_eq_true (ne_of_mem_of_not_mem mem none)
  rw [cut, List.takeWhile_append_of_pos before, List.dropWhile_append_of_pos before]
  simp

/-- A pair that is written without its marks is read. -/
theorem queryPair_written {k v key value : Bytes} (calm : ∀ c ∈ k ++ v, c ≠ ';') (name : '=' ∉ k)
    (readKey : queryUnescape k = some key) (readValue : queryUnescape v = some value) :
    queryPair (k ++ '=' :: v) = some (key, value) := by
  have mark : ';' ∉ k ++ '=' :: v := by
    simp only [List.mem_append, List.mem_cons, not_or]
    exact ⟨fun mem => calm _ (List.mem_append_left v mem) rfl, by decide,
      fun mem => calm _ (List.mem_append_right k mem) rfl⟩
  have some : k ++ '=' :: v ≠ [] := List.append_ne_nil_of_right_ne_nil k (List.cons_ne_nil _ _)
  rw [queryPair, if_neg (not_or.2 ⟨mark, some⟩), cut_append name, readKey, Option.getD_some, readValue]
  rfl

/-- Pairs are read one by one. -/
theorem parseQuery_joined {parts : List Bytes} (apart : ∀ part ∈ parts, '&' ∉ part) :
    parseQuery (['&'].intercalate parts) = parts.filterMap queryPair := by
  cases parts with
  | nil => rfl
  | cons part parts => rw [parseQuery, List.splitOn_intercalate '&' apart (List.cons_ne_nil _ _)]

/-- A rooted reference with a query. -/
theorem parse_queried (parseAuthority : Bytes → Option Bytes) {s path query : Bytes}
    (plain : stringContainsCTLByte ('/' :: s ++ '?' :: query) = false) (noQuery : '?' ∉ '/' :: s)
    (single : s.head? ≠ some '/') (unescaped : unescape ('/' :: s) = some path) :
    ∃ u, parse parseAuthority ('/' :: s ++ '?' :: query) = some u ∧ u.path = path ∧ u.rawQuery = query := by
  rw [List.cons_append] at plain ⊢
  have halves : cut '?' ('/' :: (s ++ '?' :: query)) = ('/' :: s, some query) := cut_append noQuery
  have first : (s ++ '?' :: query).head? ≠ some '/' := by cases s <;> simp_all
  have parsed := parse_slashed parseAuthority plain first ((congrArg (fun p => unescape p.1) halves).trans unescaped)
  rw [halves] at parsed
  exact ⟨_, parsed, rfl, rfl⟩

end Go
