import Codespace.Server.Routes
import Codespace.Text.Labels
import Codespace.Ui.Scaling
import Mathlib.Data.Bool.AllAny

/-!
# The URLs of the UI client

`api.remove` and `api.scale` of `client.ts` put namespace and name into a path, each through
`encodeURIComponent`. The server gets back what was put in (`removeURL_arrives`,
`scaleURL_arrives`), and for a namespace and a name that Kubernetes admits the request
reaches the handler it is meant for.
-/

namespace Codespace.Ui
set_option autoImplicit false
open Interact Server Go Text

/-! ## The client -/

/-- What `encodeURIComponent` leaves alone. -/
def unreserved (c : Char) : Bool := c.isAlphanum || c ∈ "-_.!~*'()".toList

def hexDigit (n : Nat) : Char := "0123456789ABCDEF".toList.getD n '0'

def escapeByte (b : UInt8) : Bytes := ['%', hexDigit (b.toNat / 16), hexDigit (b.toNat % 16)]

/-- `encodeURIComponent`. -/
def encodeURIComponent (s : String) : Bytes :=
  s.toList.flatMap fun c => if unreserved c then [c] else (String.utf8EncodeChar c).flatMap escapeByte

/-- The path that `api.remove` fetches. -/
def removeURL (ns name : String) : Bytes :=
  "/api/v1/server/sessions/".toList ++ (encodeURIComponent ns ++ '/' :: encodeURIComponent name)

/-- The path that `api.scale` fetches. -/
def scaleURL (ns name : String) : Bytes :=
  "/api/v1/server/sessions/".toList ++ (encodeURIComponent ns ++ '/' :: (encodeURIComponent name ++ "/scale".toList))

/-- The request of `api.remove`. -/
def removeRequest (pr : Claims) (ns name : String) : Request where
  method := "DELETE"
  path := "/api/v1/server/sessions/" ++ ns ++ "/" ++ name
  query := []
  body := none
  claims := some pr

/-! ## Encoding and decoding -/

/-- The bytes of a character and of a string. -/
def utf8Char (c : Char) : Bytes := (String.utf8EncodeChar c).map fun b => Char.ofNat b.toNat

def utf8 (s : String) : Bytes := s.toList.flatMap utf8Char

@[simp] theorem utf8_append (s t : String) : utf8 (s ++ t) = utf8 s ++ utf8 t := by simp [utf8]

theorem unreserved_ascii {c : Char} (keep : unreserved c = true) : 32 ≤ c.toNat ∧ c.toNat < 127 := by
  simp only [unreserved, Bool.or_eq_true, decide_eq_true_eq] at keep
  rcases keep with alnum | mark
  · change ((decide (65 ≤ c.val ∧ c.val ≤ 90) || (decide (97 ≤ c.val) && decide (c.val ≤ 122))) ||
      (decide (48 ≤ c.val) && decide (c.val ≤ 57))) = true at alnum
    simp only [Bool.or_eq_true, Bool.and_eq_true, decide_eq_true_eq, UInt32.le_iff_toNat_le, UInt32.reduceToNat] at alnum
    have value : c.toNat = c.val.toNat := rfl
    omega
  · have marks : ∀ c ∈ "-_.!~*'()".toList, 32 ≤ c.toNat ∧ c.toNat < 127 :=
    List.all_iff_forall_prop.1 (by decide +kernel)
    exact marks c mark

theorem unreserved_ne {c x : Char} (keep : unreserved c = true) (other : unreserved x = false) : c ≠ x := by
  rintro rfl
  exact Bool.false_ne_true (other.symm.trans keep)

theorem utf8Char_ascii {c : Char} (ascii : c.toNat < 128) : utf8Char c = [c] := by
  have value : c.toNat = c.val.toNat := rfl
  have one : c.utf8Size = 1 := by
    rw [Char.utf8Size_eq_one_iff, UInt32.le_iff_toNat_le]
    show c.val.toNat ≤ 127
    omega
  have byte : c.val.toUInt8.toNat = c.toNat := by
    rw [UInt32.toNat_toUInt8]
    omega
  rw [utf8Char, String.utf8EncodeChar_eq_singleton one, List.map_singleton, byte, Char.ofNat_toNat]

/-- A character that has no meaning in a path. -/
def Inert (c : Char) : Prop := c ≠ '/' ∧ c ≠ '?' ∧ 32 ≤ c.toNat ∧ c.toNat < 127

theorem hexDigits : ∀ n < 16, unhex (hexDigit n) = some n ∧ hexDigit n ≠ '/' ∧ hexDigit n ≠ '?' ∧
    32 ≤ (hexDigit n).toNat ∧ (hexDigit n).toNat < 127 := by decide +kernel

theorem mem_escapeByte {b : UInt8} {x : Char} (mem : x ∈ escapeByte b) : x = '%' ∨ ∃ n < 16, x = hexDigit n := by
  have small := b.toNat_lt
  simp only [escapeByte, List.mem_cons, List.not_mem_nil, or_false] at mem
  rcases mem with percent | high | low
  · exact .inl percent
  · exact .inr ⟨b.toNat / 16, by omega, high⟩
  · exact .inr ⟨b.toNat % 16, by omega, low⟩

theorem encode_inert {s : String} {x : Char} (mem : x ∈ encodeURIComponent s) : Inert x := by
  obtain ⟨c, -, mem⟩ := List.mem_flatMap.1 mem
  split at mem
  · rename_i keep
    cases List.mem_singleton.1 mem
    exact ⟨unreserved_ne keep (by decide), unreserved_ne keep (by decide), unreserved_ascii keep⟩
  · obtain ⟨b, -, mem⟩ := List.mem_flatMap.1 mem
    rcases mem_escapeByte mem with rfl | ⟨n, small, rfl⟩
    · exact ⟨by decide, by decide, by decide, by decide⟩
    · exact (hexDigits n small).2

theorem unescape_escapeByte (b : UInt8) (s : Bytes) :
    unescape (escapeByte b ++ s) = (unescape s).map (Char.ofNat b.toNat :: ·) := by
  have small := b.toNat_lt
  have high := (hexDigits (b.toNat / 16) (by omega)).1
  have low := (hexDigits (b.toNat % 16) (by omega)).1
  have decoded := unescape_escaped high low s
  rw [Nat.div_add_mod] at decoded
  exact decoded

/-- Decoding goes letter by letter. -/
theorem unescape_flatMap {α : Type} {f g : α → Bytes} (letter : ∀ a s, unescape (f a ++ s) = (unescape s).map (g a ++ ·))
    (l : List α) (s : Bytes) : unescape (l.flatMap f ++ s) = (unescape s).map (l.flatMap g ++ ·) := by
  induction l with
  | nil => simp
  | cons a l ih => simp [letter, ih, Function.comp_def]

theorem unescape_encode (s : String) (rest : Bytes) :
    unescape (encodeURIComponent s ++ rest) = (unescape rest).map (utf8 s ++ ·) := by
  refine unescape_flatMap (fun c t => ?_) s.toList rest
  split
  · rename_i keep
    rw [utf8Char_ascii ((unreserved_ascii keep).2.trans (Nat.lt_succ_self _)), List.singleton_append,
      unescape_cons (unreserved_ne keep (by decide))]
    rfl
  · have bytes := unescape_flatMap (g := fun b => [Char.ofNat b.toNat]) (fun b s => unescape_escapeByte b s)
      (String.utf8EncodeChar c) t
    rw [bytes, utf8Char, List.map_eq_flatMap]

/-! ## On the server -/

/-- A request with this target leads to the route, as the request `r`. -/
structure Arrives (parseAuthority : Bytes → Option Bytes) (target : Bytes) (route : Route) (r : Request) : Prop where
  parsed : ∃ u, parse parseAuthority target = some u ∧ u.path = utf8 r.path
  routed : routed r.method (cut '?' target).1 = some route

section

variable {parseAuthority : Bytes → Option Bytes} {pr : Claims} {k : Key}

def collection : List Bytes := ["api".toList, "v1".toList, "server".toList, "sessions".toList]

theorem collection_join (es : List Bytes) (some : es ≠ []) :
    '/' :: join (collection ++ es) = "/api/v1/server/sessions/".toList ++ join es := by
  have text : "/api/v1/server/sessions/".toList = '/' :: ("api".toList ++ '/' :: ("v1".toList ++ '/' ::
    ("server".toList ++ '/' :: ("sessions".toList ++ ['/'])))) := by decide +kernel
  rw [text]
  simp only [collection, List.cons_append, List.nil_append, join_cons, reduceCtorEq, some, if_false,
    List.append_assoc]

theorem removeURL_join (ns name : String) :
    removeURL ns name = '/' :: join (collection ++ [encodeURIComponent ns, encodeURIComponent name]) := by
  have path : join [encodeURIComponent ns, encodeURIComponent name] =
      encodeURIComponent ns ++ '/' :: encodeURIComponent name := by
    simp only [join_cons, reduceCtorEq, if_false, if_true, List.append_nil]
  have whole := collection_join [encodeURIComponent ns, encodeURIComponent name] (List.cons_ne_nil _ _)
  rw [path] at whole
  exact whole.symm

theorem scaleURL_join (ns name : String) : scaleURL ns name =
    '/' :: join (collection ++ [encodeURIComponent ns, encodeURIComponent name, "scale".toList]) := by
  have operation : "/scale".toList = '/' :: "scale".toList := by decide +kernel
  have path : join [encodeURIComponent ns, encodeURIComponent name, "scale".toList] =
      encodeURIComponent ns ++ '/' :: (encodeURIComponent name ++ "/scale".toList) := by
    simp only [operation, join_cons, reduceCtorEq, if_false, if_true, List.append_nil]
  have whole := collection_join [encodeURIComponent ns, encodeURIComponent name, "scale".toList] (List.cons_ne_nil _ _)
  rw [path] at whole
  exact whole.symm

/-- No character of a path ends it. -/
theorem session_letters (ns name : String) (tail : Bytes) (calm : ∀ c ∈ tail, c ≠ '?' ∧ 32 ≤ c.toNat ∧ c.toNat < 127) :
    ∀ c ∈ "/api/v1/server/sessions/".toList ++ (encodeURIComponent ns ++ '/' :: (encodeURIComponent name ++ tail)),
      c ≠ '?' ∧ 32 ≤ c.toNat ∧ c.toNat < 127 := by
  have front : ∀ c ∈ "/api/v1/server/sessions/".toList, c ≠ '?' ∧ 32 ≤ c.toNat ∧ c.toNat < 127 :=
    List.all_iff_forall_prop.1 (by decide +kernel)
  simp only [List.forall_mem_append, List.forall_mem_cons]
  exact ⟨front, fun c mem => (encode_inert mem).2, by decide, fun c mem => (encode_inert mem).2, calm⟩

/-- What is put into a path is read from it again. -/
theorem parse_session {ns name : String} {target path s : Bytes} (tail : Bytes)
    (calm : ∀ c ∈ tail, c ≠ '?' ∧ 32 ≤ c.toNat ∧ c.toNat < 127) (plain : '%' ∉ tail)
    (sent : target = '/' :: s) (single : s.head? ≠ some '/')
    (encoded : target =
      "/api/v1/server/sessions/".toList ++ (encodeURIComponent ns ++ '/' :: (encodeURIComponent name ++ tail)))
    (shown : path = "/api/v1/server/sessions/".toList ++ (utf8 ns ++ '/' :: (utf8 name ++ tail))) :
    ∃ u, parse parseAuthority target = some u ∧ u.path = path := by
  have letters : ∀ c ∈ target, c ≠ '?' ∧ 32 ≤ c.toNat ∧ c.toNat < 127 := by
    rw [encoded]
    exact session_letters ns name tail calm
  have read : unescape target = some path := by
    rw [encoded, unescape_append (by decide +kernel), unescape_encode, unescape_cons (by decide), unescape_encode,
      unescape_plain plain, shown]
    rfl
  rw [sent] at letters read ⊢
  exact parse_rooted parseAuthority (stringContainsCTLByte_printable fun c mem => (letters c mem).2)
    (fun mem => (letters _ mem).1 rfl) single read

theorem utf8_collection : utf8 "/api/v1/server/sessions/" = "/api/v1/server/sessions/".toList := by decide +kernel

theorem collection_head (es : List Bytes) : (join (collection ++ es)).head? ≠ some '/' := by
  have api : "api".toList = ['a', 'p', 'i'] := by decide +kernel
  rw [collection, api, List.cons_append, join_cons, List.cons_append, List.head?_cons]
  decide

theorem operation_calm : ∀ c ∈ "/scale".toList, c ≠ '?' ∧ 32 ≤ c.toNat ∧ c.toNat < 127 :=
  List.all_iff_forall_prop.1 (by decide +kernel)

theorem removeURL_parsed (ns name : String) : ∃ u, parse parseAuthority (removeURL ns name) = some u ∧
    u.path = utf8 (removeRequest pr ns name).path := by
  have slash : utf8 "/" = ['/'] := by decide +kernel
  have encoded := congrArg (fun rest => "/api/v1/server/sessions/".toList ++ (encodeURIComponent ns ++ '/' :: rest))
    (List.append_nil (encodeURIComponent name)).symm
  refine parse_session [] (by simp) (by simp) (removeURL_join ns name) (collection_head _) encoded ?_
  rw [removeRequest, utf8_append, utf8_append, utf8_append, utf8_collection, slash, List.append_nil,
    List.append_assoc, List.append_assoc]
  rfl

theorem scaleURL_parsed (ns name : String) (n : Int) : ∃ u, parse parseAuthority (scaleURL ns name) = some u ∧
    u.path = utf8 (scaleRequest pr ns name n).path := by
  have slash : utf8 "/" = ['/'] := by decide +kernel
  have operation : utf8 "/scale" = "/scale".toList := by decide +kernel
  refine parse_session _ operation_calm (by decide +kernel) (scaleURL_join ns name) (collection_head _) rfl ?_
  rw [scaleRequest, utf8_append, utf8_append, utf8_append, utf8_append, utf8_collection, slash, operation,
    List.append_assoc, List.append_assoc, List.append_assoc]
  rfl

/-! ## Names that Kubernetes admits -/

/-- A namespace and a name that Kubernetes admits. -/
structure Admissible (k : Key) : Prop where
  ns : isLabel k.ns.toList = true
  name : isSubdomain k.name = true

theorem unreserved_of_letter {c : Char} (letter : labelLetter c = true ∨ c = '.') : unreserved c = true := by
  have marks : ∀ c ∈ ['-', '.'], unreserved c = true := List.all_iff_forall_prop.1 (by decide)
  simp only [labelLetter, Bool.or_eq_true, decide_eq_true_eq] at letter
  rcases letter with (lower | rfl) | rfl
  · rw [unreserved, isAlphanum_of_lower lower, Bool.true_or]
  · exact marks _ (by simp)
  · exact marks _ (by simp)

section

variable {s : String} (letters : ∀ c ∈ s.toList, labelLetter c = true ∨ c = '.')

include letters

theorem encode_letters : encodeURIComponent s = s.toList := by
  have each : ∀ c ∈ s.toList, (if unreserved c then [c] else (String.utf8EncodeChar c).flatMap escapeByte) = [c] :=
    fun c mem => if_pos (unreserved_of_letter (letters c mem))
  rw [encodeURIComponent, List.flatMap_congr each, List.flatMap_singleton']

theorem letters_ne {x : Char} (other : unreserved x = false) : x ∉ s.toList := fun mem =>
  unreserved_ne (unreserved_of_letter (letters x mem)) other rfl

theorem kept_letters (ne : s ≠ "") (dot : s ≠ ".") (dots : s ≠ "..") : Kept s.toList := by
  have apart : ∀ t : String, s ≠ t → s.toList ≠ t.toList := fun t ne eq => ne (String.toList_inj.1 eq)
  exact ⟨⟨apart "" ne, letters_ne letters (by decide)⟩, apart "." dot, apart ".." dots⟩

end

theorem pattern_session {p : Bytes} {es : List Bytes} (long : 2 ≤ es.length)
    (segments : pathSegments p = [] :: (collection ++ es)) : pattern p = some .session := by
  have text : ["", "api", "v1", "server", "sessions"].map String.toList = [] :: collection := by decide +kernel
  unfold pattern
  rw [text, segments, if_neg, if_neg, if_pos ⟨es, rfl⟩]
  · intro same
    have length := congrArg List.length same
    simp only [List.length_cons, List.length_append, List.length_nil] at length
    omega
  · intro same
    have length := congrArg List.length same
    simp only [List.length_cons, List.length_append] at length
    omega

/-- A path of names without escapes is led to the routes of one Session. -/
theorem routed_session {method : String} {target : Bytes} {es : List Bytes}
    (path : target = '/' :: join (collection ++ es)) (long : 2 ≤ es.length) (noQuery : '?' ∉ target)
    (kept : ∀ e ∈ es, Kept e ∧ '%' ∉ e) : routed method (cut '?' target).1 = some .session := by
  have front : ∀ e ∈ collection, Kept e ∧ '%' ∉ e := by
    unfold collection Kept IsName
    decide +kernel
  have all : ∀ e ∈ collection ++ es, Kept e ∧ '%' ∉ e := List.forall_mem_append.2 ⟨front, kept⟩
  have some : collection ++ es ≠ [] := List.cons_ne_nil _ _
  have clean : cleanPath target = target := by
    rw [path]
    exact cleanPath_join some fun e mem => (all e mem).1
  have segments : pathSegments target = [] :: (collection ++ es) := by
    rw [path]
    exact pathSegments_join some (fun e mem => (all e mem).1.1) fun e mem => unescape_plain (all e mem).2
  rw [cut_of_notMem noQuery, routed, if_neg fun both => both.2 clean]
  exact pattern_session long segments

namespace Admissible

variable (adm : Admissible k)

include adm

theorem ns_ne : k.ns ≠ "" ∧ k.ns ≠ "." ∧ k.ns ≠ ".." := by
  have label := adm.ns
  refine ⟨?_, ?_, ?_⟩ <;>
  · intro eq
    rw [eq] at label
    exact absurd label (by decide +kernel)

theorem name_ne : k.name ≠ "" ∧ k.name ≠ "." ∧ k.name ≠ ".." := by
  have subdomain := adm.name
  refine ⟨?_, ?_, ?_⟩ <;>
  · intro eq
    rw [eq] at subdomain
    exact absurd subdomain (by decide +kernel)

/-- What is put into the path for the namespace, and for the name. -/
theorem kept_ns : Kept (encodeURIComponent k.ns) ∧ '%' ∉ encodeURIComponent k.ns := by
  have letters : ∀ c ∈ k.ns.toList, labelLetter c = true ∨ c = '.' :=
    fun c mem => .inl ((edged_iff.1 adm.ns).2.1 c mem)
  obtain ⟨ne, dot, dots⟩ := adm.ns_ne
  rw [encode_letters letters]
  exact ⟨kept_letters letters ne dot dots, letters_ne letters (by decide)⟩

theorem kept_name : Kept (encodeURIComponent k.name) ∧ '%' ∉ encodeURIComponent k.name := by
  have letters := isSubdomain_letters adm.name
  obtain ⟨ne, dot, dots⟩ := adm.name_ne
  rw [encode_letters letters]
  exact ⟨kept_letters letters ne dot dots, letters_ne letters (by decide)⟩

theorem no_slash : '/' ∉ k.ns.toList ∧ '/' ∉ k.name.toList :=
  ⟨letters_ne (fun c mem => .inl ((edged_iff.1 adm.ns).2.1 c mem)) (by decide),
    letters_ne (isSubdomain_letters adm.name) (by decide)⟩

end Admissible

theorem removeURL_arrives (adm : Admissible k) :
    Arrives parseAuthority (removeURL k.ns k.name) .session (removeRequest pr k.ns k.name) where
  parsed := removeURL_parsed k.ns k.name
  routed := by
    refine routed_session (removeURL_join k.ns k.name) (Nat.le_refl 2) ?_ ?_
    · have letters := session_letters k.ns k.name [] (by simp)
      rw [List.append_nil] at letters
      exact fun mem => (letters _ mem).1 rfl
    · simp only [List.forall_mem_cons]
      exact ⟨adm.kept_ns, adm.kept_name, nofun⟩

theorem scaleURL_arrives (adm : Admissible k) (n : Int) :
    Arrives parseAuthority (scaleURL k.ns k.name) .session (scaleRequest pr k.ns k.name n) where
  parsed := scaleURL_parsed k.ns k.name n
  routed := by
    have operation : Kept "scale".toList ∧ '%' ∉ "scale".toList := by
      unfold Kept IsName
      decide +kernel
    refine routed_session (scaleURL_join k.ns k.name) (Nat.le_add_left 2 1) ?_ ?_
    · exact fun mem => (session_letters k.ns k.name _ operation_calm _ mem).1 rfl
    · simp only [List.forall_mem_cons]
      exact ⟨adm.kept_ns, adm.kept_name, operation, nofun⟩

/-! ## The handlers -/

/-- A request with this target is about the Session at a key and reaches the handler. -/
structure LedTo (parseAuthority : Bytes → Option Bytes) (d : ServerDeps) (target : Bytes) (r : Request) (k : Key)
    (handler : ServerDeps → Request → Api HttpResp) : Prop where
  arrives : Arrives parseAuthority target .session r
  documented : Documented r k
  served : serve d .session r = handler d r

theorem splitSlash_plain {s : String} (none : '/' ∉ s.toList) : splitSlash s = [s] := by
  rw [splitSlash, List.splitOn_eq_singleton none, List.map_singleton, String.ofList_toList]

theorem removeRequest_parts (adm : Admissible k) : pathParts (removeRequest pr k.ns k.name) = [k.ns, k.name] := by
  have below : trimPrefix ("/api/v1/server/sessions/" ++ k.ns ++ "/" ++ k.name) "/api/v1/server/sessions/" =
      String.ofList (k.ns.toList ++ '/' :: k.name.toList) := by
    simp [trimPrefix]
  rw [pathParts, removeRequest, below, splitSlash, String.toList_ofList, List.splitOn_append_cons_self,
    List.splitOn_eq_singleton adm.no_slash.1, List.splitOn_eq_singleton adm.no_slash.2]
  simp

theorem scaleRequest_parts (adm : Admissible k) (n : Int) :
    pathParts (scaleRequest pr k.ns k.name n) = [k.ns, k.name, "scale"] := by
  rw [scaleRequest_path, splitSlash_plain adm.no_slash.1, splitSlash_plain adm.no_slash.2]
  rfl

theorem removeURL_led {d : ServerDeps} (adm : Admissible k) :
    LedTo parseAuthority d (removeURL k.ns k.name) (removeRequest pr k.ns k.name) k handleDeleteSession where
  arrives := removeURL_arrives adm
  documented := ⟨adm.ns_ne.1, adm.name_ne.1, .inl ⟨removeRequest_parts adm, by simp [removeRequest]⟩⟩
  served := serve_delete rfl (removeRequest_parts adm) rfl

theorem scaleURL_led {d : ServerDeps} (adm : Admissible k) (n : Int) :
    LedTo parseAuthority d (scaleURL k.ns k.name) (scaleRequest pr k.ns k.name n) k handleScaleSession where
  arrives := scaleURL_arrives adm n
  documented := ⟨adm.ns_ne.1, adm.name_ne.1, .inr ⟨scaleRequest_parts adm n, rfl⟩⟩
  served := serve_scale rfl (scaleRequest_parts adm n)

/-- **Main result.** A request of the session routes keeps to their grammar exactly if it does
not stray, and what the client sends to remove or scale a Session is led to the handler for
that Session. -/
theorem session_routes_iff {χ : Type} (child : ChildApi χ) (d : ServerDeps) (r : Request)
    (parseAuthority : Bytes → Option Bytes) : (Grammar child d r ↔ ¬ Strays r) ∧
      ∀ (pr : Claims) (k : Key), Admissible k →
        LedTo parseAuthority d (removeURL k.ns k.name) (removeRequest pr k.ns k.name) k handleDeleteSession ∧
        ∀ n, LedTo parseAuthority d (scaleURL k.ns k.name) (scaleRequest pr k.ns k.name n) k handleScaleSession :=
  ⟨grammar_iff, fun _ _ adm => ⟨removeURL_led adm, scaleURL_led adm⟩⟩

/-- A name with a dot is removed under that name. -/
theorem session_routes_dotted : LedTo (fun _ => none) (.plain "i" true) "/api/v1/server/sessions/ns/a.b".toList
    (removeRequest ⟨"u", []⟩ "ns" "a.b") ⟨"ns", "a.b"⟩ handleDeleteSession := by
  have led := ((session_routes_iff replaceApi (.plain "i" true) deleteRequest fun _ => none).2 ⟨"u", []⟩ ⟨"ns", "a.b"⟩
    ⟨by decide +kernel, by decide +kernel⟩).1
  rwa [show removeURL "ns" "a.b" = "/api/v1/server/sessions/ns/a.b".toList by decide +kernel] at led

/-- A request for the logs of a Session, which the routes do not know. -/
def logsRequest : Request where
  method := "GET"
  path := "/api/v1/server/sessions/ns/a/logs"
  query := []
  body := none
  claims := some ⟨"u", []⟩

/-- It is answered with the Session. -/
theorem logs_answered :
    ((serve (.plain "i" true) .session logsRequest).run (answer replaceApi)
      (.single allowAll (sessionOf "i"))).1 = ⟨200, .session (Versioned.stamp 1 (sessionOf "i"))⟩ ∧
    ¬ Grammar replaceApi (.plain "i" true) logsRequest := by
  have answered : ((serve (.plain "i" true) .session logsRequest).run (answer replaceApi)
      (.single allowAll (sessionOf "i"))).1 = ⟨200, .session (Versioned.stamp 1 (sessionOf "i"))⟩ := by decide +kernel
  refine ⟨answered, fun grammar => ?_⟩
  have parts : pathParts logsRequest = ["ns", "a", "logs"] := by decide +kernel
  have undocumented : ∀ k, ¬ Documented logsRequest k := by
    rintro k ⟨-, -, ⟨exact, -⟩ | ⟨-, post⟩⟩
    · simp [parts] at exact
    · exact absurd post (by decide)
  have run := under_run replaceApi (serve (.plain "i" true) .session logsRequest)
    (show (Cluster.single allowAll (sessionOf "i")).policy = allowAll from rfl)
  have refused := grammar.refused undocumented run
  rw [answered] at refused
  exact absurd refused (by decide)

end

end Codespace.Ui
