import Codespace.Server.Patch

/-!
# The same number by PATCH and by scale

A number of replicas reaches a Session on two paths. A PATCH decodes it into a float64 and
converts that; a scale request decodes it into an int32 and turns down what is not one, or
is negative. The main result says for which numbers the two come to the same.
-/

namespace Codespace.Server
set_option autoImplicit false
open Interact Versioned Go

variable {χ : Type} {child : ChildApi χ} {d : ServerDeps} {σ : Cluster χ} {r r' : Request} {v : Json} {s : Session}

/-! ## What is claimed -/

/-- A request to scale a stored Session by a principal who may scale it. -/
structure Scales (d : ServerDeps) (σ : Cluster χ) (r : Request) (v : Json) (s : Session) : Prop where
  stored : σ.sessions.get s.key = some s
  own : foreign d s = false
  may : May σ.policy r "scale" s.metadata.ns
  method : r.method = "POST"
  path : pathParts r = [s.metadata.ns, s.metadata.name, "scale"]
  body : r.body = some (.obj [("replicas", v)])

/-- The replicas of the Session stored at a key. -/
def replicasAt (σ : Cluster χ) (k : Key) : Option Int32 := (σ.sessions.get k).bind (·.spec.replicas)

/-- What the two requests with the number `v` leave of the Session `s`, each for itself: a PATCH
that succeeds stores that very number, and both succeed and store the same, or both fail and
store nothing. -/
def StoredExactly (child : ChildApi χ) (d : ServerDeps) (σ : Cluster χ) (patch scale : Request) (v : Json)
    (s : Session) : Prop :=
  let patching := (serve d .session patch).run (answer child) σ
  let scaling := (serve d .session scale).run (answer child) σ
  (patching.1.status = 200 → (replicasAt patching.2 s.key).map (fun n => (n.toInt : Rat)) = v.number) ∧
  ((patching.1.status = 200 ∧ scaling.1.status = 200 ∧
      ∃ n, replicasAt patching.2 s.key = some n ∧ replicasAt scaling.2 s.key = some n) ∨
    (400 ≤ patching.1.status ∧ 400 ≤ scaling.1.status ∧ patching.2 = σ ∧ scaling.2 = σ))

/-- An integer that an int32 holds, not negative and written without fraction and exponent. -/
def IsCount (v : Json) : Prop := ∃ n : Int, v = .int n ∧ 0 ≤ n ∧ n ≤ 2147483647

/-! ## The decoders -/

/-- What a scale request finds in its body. -/
theorem decodeScale_eq (body : r.body = some (.obj [("replicas", v)])) :
    decodeBody decodeScaleRequest 0 r = if (decodeInt32 v 0).2 then none else some (decodeInt32 v 0).1 := by
  have here : matchesField "replicas" "replicas" = true := by decide
  rw [decodeBody, body]
  simp only [decodeScaleRequest, decodeStruct_cons, fields, List.find?, here, Option.map_some, onField, id]
  simp [decodeStruct]

theorem floatable_count (count : IsCount v) : v.floatable = true := by
  obtain ⟨n, rfl, low, high⟩ := count
  rw [Json.floatable, toFloat64_intCast (by omega)]
  rfl

/-- A scale request gets a number of replicas from a count and from no other number. -/
theorem decodeInt32_admitted_iff (number : v.number.isSome) :
    ((decodeInt32 v 0).2 = false ∧ ¬ (decodeInt32 v 0).1 < 0) ↔ IsCount v := by
  cases v with
  | int n =>
    have here : IsCount (.int n) ↔ 0 ≤ n ∧ n ≤ 2147483647 := by simp [IsCount]
    rw [here, decodeInt32]
    split
    · rename_i range
      have value : (Int32.ofInt n).toInt = n := Int32.toInt_ofInt_of_le range.1 (by omega)
      rw [Int32.lt_iff_toInt_lt, value]
      simp [range.2]
    · rename_i outside
      simp only [Bool.true_eq_false, false_and, false_iff]
      omega
  | dec q => simp [decodeInt32, IsCount]
  | _ => cases number

/-! ## The requests -/

/-- What a scale request does. -/
theorem run_scale (child : ChildApi χ) (scales : Scales d σ r v s) :
    (serve d .session r).run (answer child) σ = match decodeBody decodeScaleRequest 0 r with
      | none => (httpError "invalid JSON body" 400, σ)
      | some n => if n < 0 then (httpError "replicas cannot be negative" 400, σ)
          else (writeJSON (.session (stamp σ.sessions.next (scaled n s))), σ.commit (scaled n s)) := by
  obtain ⟨cl, claims, grant⟩ := scales.may
  have scale : isScale r = true := by rw [isScale, scales.path]; rfl
  refine serve_session_cases (P := fun p : Api HttpResp => p.run (answer child) σ = _)
    (fun anonymous => by cases anonymous.symm.trans claims) (fun short => ?_) (fun _ => ?_)
    (fun item => by cases item.symm.trans scale) (fun item => by cases item.symm.trans scale)
    (fun item => by cases item.symm.trans scale) (fun item => by cases item.symm.trans scale)
  · rw [scales.path] at short
    simp only [List.length_cons] at short
    omega
  unfold handleScaleSession
  rw [if_neg (not_not.2 scales.method), scales.path]
  refine (run_gate claims grant).trans ?_
  dsimp only
  cases decodeBody decodeScaleRequest 0 r with
  | none => rfl
  | some n =>
    dsimp only
    split
    · rfl
    refine (run_fetch _ σ).trans ?_
    have found : fetched d s.key (σ.sessions.get s.key) = .ok s := by
      rw [scales.stored, fetched, scales.own]
      rfl
    rw [show (⟨s.metadata.ns, s.metadata.name⟩ : Key) = s.key from rfl, found]
    exact run_store scales.stored (scaled_same n s) _

/-- What a commit leaves at the key of the Session. -/
theorem replicasAt_commit {sent : Session} (stored : σ.sessions.get s.key = some s) (same : sent.SameObject s) :
    replicasAt (σ.commit sent) s.key = sent.spec.replicas := by
  rw [replicasAt, commit_get_same stored same]
  rfl

/-- A PATCH with a number: all depends on whether a float64 can hold it. -/
theorem run_patch_number (child : ChildApi χ) (patches : Patches d σ r [("replicas", v)] s) :
    if v.floatable then ∃ sent : Session, sent.SameObject s ∧
        sent.spec.replicas = v.float64.elim s.spec.replicas
          (fun q => some (truncateToInt32 d.platform.outOfRange q)) ∧
        (serve d .session r).run (answer child) σ =
          (writeJSON (.session (stamp σ.sessions.next sent)), σ.commit sent)
    else (serve d .session r).run (answer child) σ = (httpError "invalid JSON body" 400, σ) := by
  obtain ⟨cl, run⟩ := run_patch child patches
  have floats : Json.floatableMembers [("replicas", v)] = v.floatable := by
    simp [Json.floatableMembers]
  rw [floats] at run
  split
  · rename_i yes
    rw [if_pos yes] at run
    exact ⟨_, (touched_same ..).trans (patched_same d _ s), by rw [patched_spec]; rfl, run⟩
  · rename_i no
    rw [if_neg no] at run
    exact run

/-! ## The two together -/

/-- A count is stored as it is, by both. -/
theorem count_storedExactly (patches : Patches d σ r [("replicas", v)] s) (scales : Scales d σ r' v s)
    (count : IsCount v) : StoredExactly child d σ r r' v s := by
  have patching := run_patch_number child patches
  rw [if_pos (floatable_count count)] at patching
  obtain ⟨sent, same, replicas, patching⟩ := patching
  have scaling := run_scale child scales
  have admitted := (decodeInt32_admitted_iff (by obtain ⟨n, rfl, -⟩ := count; rfl)).2 count
  rw [decodeScale_eq scales.body, if_neg (by simp [admitted.1])] at scaling
  dsimp only at scaling
  rw [if_neg admitted.2] at scaling
  obtain ⟨n, rfl, low, high⟩ := count
  have decoded : (decodeInt32 (.int n) 0).1 = Int32.ofInt n := by
    rw [decodeInt32, if_pos ⟨by omega, high⟩]
  have value : (Int32.ofInt n).toInt = n := Int32.toInt_ofInt_of_le (by omega) (by omega)
  have float : Json.float64 (.int n) = some (n : Rat) := toFloat64_intCast (by omega)
  rw [float, Option.elim_some, truncateToInt32_intCast _ (by omega) high] at replicas
  unfold StoredExactly
  rw [patching, scaling, decoded]
  have left : replicasAt (σ.commit sent) s.key = some (Int32.ofInt n) :=
    (replicasAt_commit patches.stored same).trans replicas
  have right : replicasAt (σ.commit (scaled (Int32.ofInt n) s)) s.key = some (Int32.ofInt n) :=
    replicasAt_commit scales.stored (scaled_same _ s)
  refine ⟨fun _ => ?_, .inl ⟨rfl, rfl, _, left, right⟩⟩
  rw [left, Option.map_some, value, Json.number]

/-- **Main result.** A number is stored exactly, or refused, by a PATCH and a scale request alike
if and only if it is a count, or beyond the range of a float64. -/
theorem replicas_exact_iff (patches : Patches d σ r [("replicas", v)] s) (scales : Scales d σ r' v s)
    (number : v.number.isSome) : StoredExactly child d σ r r' v s ↔ IsCount v ∨ v.floatable = false := by
  by_cases count : IsCount v
  · exact iff_of_true (count_storedExactly patches scales count) (.inl count)
  -- the scale request fails, whatever the number is
  have refused : 400 ≤ ((serve d .session r').run (answer child) σ).1.status ∧
      ((serve d .session r').run (answer child) σ).2 = σ := by
    rw [run_scale child scales, decodeScale_eq scales.body]
    cases failed : (decodeInt32 v 0).2 with
    | true => exact ⟨Nat.le_refl 400, rfl⟩
    | false =>
      have negative : (decodeInt32 v 0).1 < 0 := by
        by_contra admitted
        exact count ((decodeInt32_admitted_iff number).1 ⟨failed, admitted⟩)
      rw [if_neg Bool.false_ne_true]
      dsimp only
      rw [if_pos negative]
      exact ⟨Nat.le_refl 400, rfl⟩
  have patching := run_patch_number child patches
  cases floats : v.floatable with
  | true =>
    rw [if_pos floats] at patching
    obtain ⟨sent, -, -, patching⟩ := patching
    refine iff_of_false (fun exactly => ?_) (by simp [count])
    rcases exactly.2 with ⟨-, succeeds, -⟩ | ⟨fails, -⟩
    · omega
    · rw [patching] at fails
      exact absurd fails (by decide : ¬ 400 ≤ 200)
  | false =>
    rw [if_neg (by simp [floats])] at patching
    refine iff_of_true ⟨fun succeeds => ?_, .inr ⟨?_, refused.1, ?_, refused.2⟩⟩ (.inr rfl)
    · rw [patching] at succeeds
      exact absurd succeeds (by decide : (400 : Nat) ≠ 200)
    · rw [patching]
      exact Nat.le_refl 400
    · rw [patching]

/-! ## Two numbers -/

/-- A request to scale the Session `ns/a`. -/
def scaleTo (v : Json) : Request := { scaleRequest with body := some (.obj [("replicas", v)]) }

theorem patch_parts (ms : List (String × Json)) : pathParts (patchRequest ms) = ["ns", "a"] := by
  have parts : pathParts (patchRequest []) = ["ns", "a"] := by decide +kernel
  exact parts

theorem patches_occupied (v : Json) :
    Patches (.plain "i" false) (occupied "i") (patchRequest [("replicas", v)]) [("replicas", v)] (stamp 1 (sessionOf "i")) where
  stored := (occupied_get "i" _).trans (if_pos rfl)
  own := by decide +kernel
  may := ⟨⟨"u", []⟩, rfl, rfl⟩
  method := rfl
  item := by rw [isScale, patch_parts]
  path := ⟨[], patch_parts _⟩
  body := rfl

theorem scales_occupied (v : Json) : Scales (.plain "i" false) (occupied "i") (scaleTo v) v (stamp 1 (sessionOf "i")) where
  stored := (occupied_get "i" _).trans (if_pos rfl)
  own := by decide +kernel
  may := ⟨⟨"u", []⟩, rfl, rfl⟩
  method := rfl
  path := show pathParts scaleRequest = ["ns", "a", "scale"] by decide +kernel
  body := rfl

/-- Both store a three. -/
theorem three_exact : StoredExactly replaceApi (.plain "i" false) (occupied "i") (patchRequest [("replicas", .int 3)])
    (scaleTo (.int 3)) (.int 3) (stamp 1 (sessionOf "i")) :=
  (replicas_exact_iff (patches_occupied _) (scales_occupied _) rfl).2 (.inl ⟨3, rfl, by decide, by decide⟩)

/-- A PATCH stores two for two and a half, which a scale request refuses. -/
theorem half_truncated :
    ((serve (.plain "i" false) .session (patchRequest [("replicas", .dec (5 / 2))])).run (answer replaceApi)
      (occupied "i")).1.status = 200 ∧
    replicasAt ((serve (.plain "i" false) .session (patchRequest [("replicas", .dec (5 / 2))])).run
      (answer replaceApi) (occupied "i")).2 (stamp 1 (sessionOf "i")).key = some 2 ∧
    ¬ StoredExactly replaceApi (.plain "i" false) (occupied "i") (patchRequest [("replicas", .dec (5 / 2))])
      (scaleTo (.dec (5 / 2))) (.dec (5 / 2)) (stamp 1 (sessionOf "i")) := by
  have succeeds : ((serve (.plain "i" false) .session (patchRequest [("replicas", .dec (5 / 2))])).run (answer replaceApi)
      (occupied "i")).1.status = 200 := by decide +kernel
  have two : replicasAt ((serve (.plain "i" false) .session (patchRequest [("replicas", .dec (5 / 2))])).run
      (answer replaceApi) (occupied "i")).2 (stamp 1 (sessionOf "i")).key = some 2 := by decide +kernel
  refine ⟨succeeds, two, fun exactly => ?_⟩
  have kept := exactly.1 succeeds
  rw [two, Option.map_some] at kept
  have same : ((2 : Int32).toInt : Rat) = 5 / 2 := Option.some.inj kept
  have value : (2 : Int32).toInt = 2 := by decide
  rw [value] at same
  norm_num at same

end Codespace.Server
