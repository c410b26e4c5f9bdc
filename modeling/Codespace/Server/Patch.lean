import Codespace.Server.Visibility

/-!
# A PATCH request

The body of a PATCH is decoded twice: into a map of anything, and from there member by
member into the spec. What the second step cannot use it skips without an error, so a PATCH
with a value of the wrong type is stored as far as it goes. `givenSpec` is the spec that the
given members ask for, read off the body field by field; the main result says for which
bodies a PATCH comes to that or to nothing.
-/

namespace Codespace.Server
set_option autoImplicit false
open Interact Versioned Go

variable {χ : Type}

/-! ## What is claimed -/

/-- A string, or `null`, which stands for what is there. -/
def stringTyped : Json → Bool
  | .str _ => true
  | .null => true
  | _ => false

def givenString (old : String) : Json → String
  | .str s => s
  | _ => old

/-- A list of strings, or `null` for the empty one. -/
def stringsTyped : Json → Bool
  | .arr vs => vs.all stringTyped
  | .null => true
  | _ => false

/-- The strings at each place; `null` stands for what is at its place. -/
def givenElements : List Json → List String → List String
  | [], _ => []
  | v :: vs, old => givenString (old.head?.getD "") v :: givenElements vs old.tail

def givenStrings (old : List String) : Json → List String
  | .arr vs => givenElements vs old
  | .null => []
  | _ => old

/-- The values of the members for a field. -/
def valuesOf (name : String) (ms : List (String × Json)) : List Json :=
  (ms.filter fun m => matchesField name m.1).map Prod.snd

def profileTyped : Json → Bool
  | .obj ms => (valuesOf "ide" ms).all stringTyped && (valuesOf "image" ms).all stringTyped &&
      (valuesOf "cmd" ms).all stringsTyped
  | .null => true
  | _ => false

/-- The profile with the given members replaced. -/
def givenProfile (v : Json) (old : ProfileSpec) : ProfileSpec :=
  match v with
  | .obj ms => {
      ide := (valuesOf "ide" ms).foldl givenString old.ide
      image := (valuesOf "image" ms).foldl givenString old.image
      cmd := (valuesOf "cmd" ms).foldl givenStrings old.cmd }
  | _ => old

/-- An int32, or `null` for none. -/
def replicasTyped : Json → Bool
  | .int n => -2147483648 ≤ n ∧ n ≤ 2147483647
  | .null => true
  | _ => false

def givenReplicas (v : Json) (old : Option Int32) : Option Int32 :=
  match v with
  | .int n => some (Int32.ofInt n)
  | .null => none
  | _ => old

/-- Every value given for the profile and the replicas has the type of its field. -/
def wellTyped (ms : List (String × Json)) : Bool :=
  (Json.member ms "profile").all (fun v => profileTyped v.remarshal) && (Json.member ms "replicas").all replicasTyped

/-- The spec with the given members of the profile and the given replicas replaced. -/
def givenSpec (ms : List (String × Json)) (old : SessionSpec) : SessionSpec :=
  { old with
    profile := (Json.member ms "profile").elim old.profile fun v => givenProfile v.remarshal old.profile
    replicas := (Json.member ms "replicas").elim old.replicas fun v => givenReplicas v old.replicas }

/-- A well-typed PATCH leaves the spec it asks for; any other is answered with an error and
changes nothing. -/
def AllOrNothing (child : ChildApi χ) (d : ServerDeps) (σ : Cluster χ) (r : Request) (ms : List (String × Json))
    (s : Session) : Prop :=
  (wellTyped ms = true → ∃ s', ((serve d .session r).run (answer child) σ).2.sessions.get s.key = some s' ∧
    s'.spec = givenSpec ms s.spec) ∧
  (wellTyped ms = false → 400 ≤ ((serve d .session r).run (answer child) σ).1.status ∧
    ((serve d .session r).run (answer child) σ).2.sessions.get s.key = some s)

/-- No number is beyond the range of a float64, every given value is well-typed, and `null` is
given for the replicas only where there are none; or a number is beyond it, and the given
values are ill-typed or change nothing. -/
def Patchable (ms : List (String × Json)) (s : Session) : Prop :=
  if Json.floatableMembers ms then
    wellTyped ms = true ∧ (Json.member ms "replicas" = some .null → s.spec.replicas = none)
  else wellTyped ms = true → givenSpec ms s.spec = s.spec

/-- A PATCH of a stored Session by a principal who may update it. -/
structure Patches (d : ServerDeps) (σ : Cluster χ) (r : Request) (ms : List (String × Json)) (s : Session) : Prop where
  stored : σ.sessions.get s.key = some s
  own : foreign d s = false
  may : May σ.policy r "update" s.metadata.ns
  method : r.method = "PATCH"
  item : isScale r = false
  path : ∃ rest, pathParts r = s.metadata.ns :: s.metadata.name :: rest
  body : r.body = some (.obj ms)

/-! ## The profile -/

theorem decodeString_eq (v : Json) (old : String) : decodeString v old = (givenString old v, !stringTyped v) := by
  cases v <;> rfl

theorem decodeElements_eq (vs : List Json) (old : List String) :
    decodeElements "" decodeString vs old = (givenElements vs old, !vs.all stringTyped) := by
  induction vs generalizing old with
  | nil => rfl
  | cons v vs ih => simp only [decodeElements, decodeString_eq, ih, givenElements, List.all_cons, Bool.not_and]

theorem decodeStrings_eq (v : Json) (old : List String) :
    decodeSlice "" decodeString v old = (givenStrings old v, !stringsTyped v) := by
  cases v with
  | arr vs => exact decodeElements_eq vs old
  | _ => rfl

/-- The names of the fields of a profile are told apart. -/
theorem matches_one {a b : String} (differ : a.toList.map foldChar ≠ b.toList.map foldChar) {key : String}
    (here : matchesField a key = true) : matchesField b key = false := by
  simp only [matchesField, decide_eq_true_eq, decide_eq_false_iff_not] at *
  exact fun there => differ (here.symm.trans there)

/-- The decoder sets the fields that are given, and fails where a value is ill-typed. -/
theorem decodeProfile_eq (v : Json) (old : ProfileSpec) : decodeProfile v old = (givenProfile v old, !profileTyped v) := by
  cases v with
  | obj ms =>
    induction ms generalizing old with
    | nil => rfl
    | cons m ms ih =>
      obtain ⟨key, v⟩ := m
      have rest : ∀ p, decodeStruct _ (.obj ms) p = _ := ih
      have ideImage : "ide".toList.map foldChar ≠ "image".toList.map foldChar := by decide
      have ideCmd : "ide".toList.map foldChar ≠ "cmd".toList.map foldChar := by decide
      have imageCmd : "image".toList.map foldChar ≠ "cmd".toList.map foldChar := by decide
      rw [decodeProfile, decodeStruct_cons]
      cases ide : matchesField "ide" key with
      | true =>
        have image := matches_one ideImage ide
        have cmd := matches_one ideCmd ide
        simp only [fields, List.find?, ide, Option.map_some, rest, onField, decodeString_eq]
        simp [givenProfile, profileTyped, valuesOf, ide, image, cmd, Bool.and_assoc]
      | false =>
      cases image : matchesField "image" key with
      | true =>
        have cmd := matches_one imageCmd image
        simp only [fields, List.find?, ide, image, Option.map_some, rest, onField, decodeString_eq]
        simp [givenProfile, profileTyped, valuesOf, ide, image, cmd, Bool.and_assoc, Bool.and_left_comm]
      | false =>
      cases cmd : matchesField "cmd" key with
      | true =>
        simp only [fields, List.find?, ide, image, cmd, Option.map_some, rest, onField, decodeStrings_eq]
        simp [givenProfile, profileTyped, valuesOf, ide, image, cmd, Bool.and_assoc, Bool.and_left_comm]
      | false =>
        simp only [fields, List.find?, ide, image, cmd, Option.map_none, rest]
        simp [givenProfile, profileTyped, valuesOf, ide, image, cmd]
  | _ => rfl

/-! ## The replicas -/

/-- What the request makes of a well-typed value is what was given, but for `null`. -/
theorem replicas_eq_iff (outOfRange : Rat → Int32) {given : Option Json} (typed : given.all replicasTyped = true)
    (old : Option Int32) : (given.bind Json.float64).elim old (fun n => some (truncateToInt32 outOfRange n)) =
      given.elim old (fun v => givenReplicas v old) ↔ (given = some .null → old = none) := by
  rcases given with _ | v
  · simp
  cases v with
  | null => simp [Json.float64, givenReplicas]
  | int n =>
    have range : -2147483648 ≤ n ∧ n ≤ 2147483647 := by simpa [replicasTyped] using typed
    have float : toFloat64 n = some (n : Rat) := toFloat64_intCast (by omega)
    simp [Json.float64, givenReplicas, float, truncateToInt32_intCast outOfRange range.1 range.2]
  | _ => cases typed

/-! ## The request -/

section

variable {child : ChildApi χ} {d : ServerDeps} {σ : Cluster χ} {r : Request} {ms : List (String × Json)} {s : Session}

theorem patched_same (d : ServerDeps) (ms : List (String × Json)) (s : Session) : (patched d ms s).SameObject s :=
  ((patchedReplicas_same d ms _).trans (patchedProfile_same ms _)).trans (s.sameObject_withLabels _)

/-- What a PATCH does: it is stored unless the body cannot be decoded into a map. -/
theorem run_patch (child : ChildApi χ) (patches : Patches d σ r ms s) : ∃ cl : Claims,
    (serve d .session r).run (answer child) σ = if Json.floatableMembers ms then
      (writeJSON (.session (stamp σ.sessions.next (touched cl σ.clock (patched d ms s)))),
        σ.commit (touched cl σ.clock (patched d ms s)))
    else (httpError "invalid JSON body" 400, σ) := by
  obtain ⟨cl, claims, grant⟩ := patches.may
  obtain ⟨rest, path⟩ := patches.path
  have notGet : r.method ≠ "GET" := by rw [patches.method]; decide
  refine ⟨cl, serve_session_cases (P := fun p : Api HttpResp => p.run (answer child) σ = _)
    (fun anonymous => by cases anonymous.symm.trans claims) (fun short => ?_)
    (fun scale => by cases patches.item.symm.trans scale) (fun _ get => absurd get notGet) (fun _ _ => ?_)
    (fun _ delete => ?_) (fun _ _ notUpdate _ => absurd (.inr patches.method) notUpdate)⟩
  · rw [path, List.length_cons, List.length_cons] at short
    omega
  · unfold handleUpdateSession
    rw [if_neg fun other => other.2 patches.method, path]
    dsimp only
    rw [run_gate claims grant]
    refine (run_fetch _ σ).trans ?_
    have found : fetched d s.key (σ.sessions.get s.key) = .ok s := by
      rw [patches.stored, fetched, patches.own]
      rfl
    rw [show (⟨s.metadata.ns, s.metadata.name⟩ : Key) = s.key from rfl, found]
    have notPut : r.method ≠ "PUT" := by rw [patches.method]; decide
    have change : edit d r = if Json.floatableMembers ms then some (patched d ms) else none := by
      rw [edit, if_neg notPut, patches.body, Option.bind_some, decodeAnyMap]
      split <;> rfl
    dsimp only
    cases floats : Json.floatableMembers ms with
    | true =>
      rw [floats, if_pos rfl] at change
      rw [change]
      exact run_store patches.stored ((touched_same ..).trans (patched_same d ms s)) _
    | false =>
      rw [floats] at change
      rw [change]
      rfl
  · rw [patches.method] at delete
    exact absurd delete (by decide)

/-- The spec that a PATCH leaves. -/
theorem patched_spec (now : String) (cl : Claims) : (touched cl now (patched d ms s)).spec = { s.spec with
    profile := (Json.member ms "profile").elim s.spec.profile fun v => (decodeProfile v.remarshal s.spec.profile).1
    replicas := ((Json.member ms "replicas").bind Json.float64).elim s.spec.replicas fun n =>
      some (truncateToInt32 d.platform.outOfRange n) } := by
  unfold patched patchedReplicas patchedProfile
  cases Json.member ms "profile" <;> cases (Json.member ms "replicas").bind Json.float64 <;> rfl

/-- It is what the given values ask for if they are well-typed, but for a `null` replicas. -/
theorem patched_given_iff (typed : wellTyped ms = true) (now : String) (cl : Claims) :
    (touched cl now (patched d ms s)).spec = givenSpec ms s.spec ↔
      (Json.member ms "replicas" = some .null → s.spec.replicas = none) := by
  rw [wellTyped, Bool.and_eq_true] at typed
  rw [← replicas_eq_iff d.platform.outOfRange typed.2, patched_spec, givenSpec]
  simp [decodeProfile_eq]

/-- **Main result.** A PATCH of any body leaves the stored Session with the spec it asks for, or
as it was, if and only if the body is one of those. -/
theorem patch_all_or_nothing_iff (patches : Patches d σ r ms s) : AllOrNothing child d σ r ms s ↔ Patchable ms s := by
  obtain ⟨cl, run⟩ := run_patch child patches
  unfold AllOrNothing Patchable
  rw [run]
  cases floats : Json.floatableMembers ms with
  | true =>
    have same : (touched cl σ.clock (patched d ms s)).SameObject s :=
      (touched_same ..).trans (patched_same d ms s)
    have stored : (σ.commit (touched cl σ.clock (patched d ms s))).sessions.get s.key =
        some (stamp σ.sessions.next (touched cl σ.clock (patched d ms s))) := commit_get_same patches.stored same
    simp only [if_true, stored, Option.some_inj, exists_eq_left', stamp_spec]
    cases typed : wellTyped ms with
    | true => simp [patched_given_iff typed]
    | false => simp [writeJSON]
  | false =>
    simp only [Bool.false_eq_true, if_false, patches.stored, Option.some_inj, exists_eq_left']
    constructor
    · exact fun whole typed => (whole.1 typed).symm
    · exact fun unchanged => ⟨fun typed => (unchanged typed).symm, fun _ => ⟨Nat.le_refl 400, trivial⟩⟩

end

/-! ## Two bodies -/

/-- To scale to three: the request does that and nothing else. -/
theorem patch_three : AllOrNothing replaceApi (.plain "i" false) (occupied "i") (patchRequest [("replicas", .int 3)])
    [("replicas", .int 3)] (stamp 1 (sessionOf "i")) := by
  have patches : Patches (.plain "i" false) (occupied "i") (patchRequest [("replicas", .int 3)])
      [("replicas", .int 3)] (stamp 1 (sessionOf "i")) := {
    stored := (occupied_get "i" _).trans (if_pos rfl)
    own := by decide +kernel
    may := ⟨⟨"u", []⟩, rfl, rfl⟩
    method := rfl
    item := by decide +kernel
    path := ⟨[], by decide +kernel⟩
    body := rfl }
  have typed : wellTyped [("replicas", .int 3)] = true := by decide +kernel
  exact (patch_all_or_nothing_iff patches).2 ((if_pos (by decide +kernel)).mpr ⟨typed, nofun⟩)

/-- The profile is skipped, the replicas are stored, and the request succeeds. -/
theorem profile_skipped :
    let ms : List (String × Json) := [("profile", .str "vscode"), ("replicas", .int 3)]
    let out := (serve (.plain "i" false) .session (patchRequest ms)).run (answer replaceApi) (occupied "i")
    wellTyped ms = false ∧ out.1.status = 200 ∧
      (out.2.sessions.get ⟨"ns", "a"⟩).map (·.spec.replicas) = some (some 3) ∧
      ¬ AllOrNothing replaceApi (.plain "i" false) (occupied "i") (patchRequest ms) ms (stamp 1 (sessionOf "i")) := by
  intro ms out
  have ill : wellTyped ms = false := by decide +kernel
  refine ⟨ill, by decide +kernel, by decide +kernel, fun whole => ?_⟩
  have succeeds : ((serve (.plain "i" false) .session (patchRequest ms)).run (answer replaceApi)
      (occupied "i")).1.status = 200 := by decide +kernel
  have error := (whole.2 ill).1
  rw [succeeds] at error
  omega

end Codespace.Server
