import Codespace.Api.Server
import Codespace.Interact.Pool

/-!
# The id of a server instance

`internal/server/instance_id.go`. At startup a server looks for a ConfigMap with its id
and creates it if there is none; other servers and people may write ConfigMaps at any
time. The id a server goes on with should be the one that is on record: whoever adopts a
Session takes an id without a ConfigMap for one that nobody uses any more.

The Create is refused where a ConfigMap exists, whatever it contains, and the refusal
counts as success. `Settled` tells the runs where this does no harm.
-/

namespace Codespace.Server
set_option autoImplicit false
open Interact

/-! ## ConfigMaps -/

/-- A ConfigMap, as far as `ensureInstallationID` reads or writes it. -/
structure ConfigMap where
  name : String
  ns : String
  labels : GoMap String String
  data : GoMap String String
  deriving DecidableEq

def ConfigMap.key (cm : ConfigMap) : Key := ⟨cm.ns, cm.name⟩

/-- The ConfigMaps of a cluster. -/
abbrev ConfigMaps := GoMap Key ConfigMap

/-- The resource name of a ConfigMap in the API server's messages. -/
def configMapResource : String := "configmaps"

inductive ConfigMapCall where
  | get (k : Key)
  | create (cm : ConfigMap)

@[reducible] def ConfigMapAnswer : ConfigMapCall → Type
  | .get _ => Except ApiError ConfigMap
  | .create _ => Except ApiError Unit

/-- What a call answers and does when nothing goes wrong. -/
def answerConfigMap (cms : ConfigMaps) : (c : ConfigMapCall) → ConfigMapAnswer c × ConfigMaps
  | .get k => match cms.lookup k with
    | none => (.error (.notFoundOf configMapResource k.name), cms)
    | some cm => (.ok cm, cms)
  | .create cm => match cms.lookup cm.key with
    | some _ => (.error (.alreadyExistsOf configMapResource cm.name), cms)
    | none => (.ok (), cms.insert cm.key cm)

/-- The answer to a call whose request or response is lost. -/
def ConfigMapCall.failed : (c : ConfigMapCall) → String → ConfigMapAnswer c
  | .get _, m => .error ⟨.other, m⟩
  | .create _, m => .error ⟨.other, m⟩

/-- The API server while others write ConfigMaps as they like. A call may also fail, before or
after it took effect. -/
def Contended : Setting ConfigMapCall ConfigMapAnswer ConfigMaps where
  answer := fun cms c r cms' => (r, cms') = answerConfigMap cms c ∨
    ∃ m, r = c.failed m ∧ (cms' = cms ∨ cms' = (answerConfigMap cms c).2)
  rely := fun _ _ => True
  rely_refl := fun _ => trivial
  rely_trans := fun _ _ => trivial

/-! ## The program -/

def cmPrefixName : String := "codespace-server-id"

/-- What `ensureInstallationID` gets from the `common` package, and its config. -/
structure Installation where
  clusterUID : String
  anchor : AnchorMeta
  anchorString : AnchorMeta → String
  instanceIDv1 : String → AnchorMeta → String
  k8sHexHash : String → Nat → String
  /-- Of a namespace and an app name. -/
  buildConfigMapSafeLabels : String → String → GoMap String String
  appName : String

namespace Installation

variable (e : Installation)

/-- The id that follows from where the server runs. -/
def id : String := e.instanceIDv1 e.clusterUID e.anchor

def cmName : String := cmPrefixName ++ "-" ++ e.k8sHexHash (e.anchorString e.anchor) 10

def key : Key := ⟨e.anchor.ns, e.cmName⟩

/-- The ConfigMap that puts the id on record. -/
def indexCM : ConfigMap where
  name := e.cmName
  ns := e.anchor.ns
  labels := e.buildConfigMapSafeLabels e.anchor.ns e.appName
  data := [("id", e.id), ("anchor", e.anchorString e.anchor), ("clusterUID", e.clusterUID),
    ("version", "1")].foldl (fun m (k, v) => m.insert k v) ∅

@[simp] theorem indexCM_key : e.indexCM.key = e.key := rfl

@[simp] theorem indexCM_id : e.indexCM.data.index "id" = e.id := by
  simp [indexCM, GoMap.index, Finmap.lookup_insert_of_ne]

end Installation

abbrev ConfigMapApi := Prog ConfigMapCall ConfigMapAnswer

/-- Make a call. -/
abbrev onConfigMap (c : ConfigMapCall) : ConfigMapApi (ConfigMapAnswer c) := Prog.perform c

/-- The anchor, the id, and the error unless it is nil. -/
abbrev InstallationResult := AnchorMeta × String × Option ApiError

/-- (Re)create the index ConfigMap with deterministic content. -/
def createIndexCM (e : Installation) : ConfigMapApi InstallationResult := do
  match ← onConfigMap (.create e.indexCM) with
  | .error err =>
    if !err.isAlreadyExists then return (e.anchor, "", some err) else return (e.anchor, e.id, none)
  | .ok _ => return (e.anchor, e.id, none)

def ensureInstallationID (e : Installation) : ConfigMapApi InstallationResult := do
  match ← onConfigMap (.get e.key) with
  | .ok cm =>
    if cm.data.index "id" ≠ "" then return (e.anchor, cm.data.index "id", none)
    -- meant to fill in the missing id
    else createIndexCM e
  | .error err => if !err.isNotFound then return (e.anchor, "", some err) else createIndexCM e

/-! ## Which runs leave the id on record -/

/-- There is a ConfigMap at the key, and this is its id. -/
def Recorded (cms : ConfigMaps) (k : Key) (id : String) : Prop :=
  ∃ cm, cms.lookup k = some cm ∧ cm.data.index "id" = id

/-- The calls of a run, with the ConfigMaps before and after each. -/
abbrev ConfigMapLog := Log ConfigMapCall ConfigMapAnswer ConfigMaps

/-- The id is on record when the last call of the run has been answered. -/
def RecordedAtReturn (e : Installation) (id : String) (l : ConfigMapLog) : Prop :=
  ∃ ev, l.getLast? = some ev ∧ Recorded ev.after e.key id

/-- The key is free, or the ConfigMap there has the very id that would be computed. -/
def Vacant (e : Installation) (cms : ConfigMaps) : Prop :=
  ∀ cm, cms.lookup e.key = some cm → cm.data.index "id" = e.id

/-- The Get finds a ConfigMap with an id, or nothing stands against the id when the Create
arrives. -/
def Settled (e : Installation) (l : ConfigMapLog) : Prop :=
  (∃ cm r before after, ⟨.get e.key, r, before, after⟩ ∈ l ∧
    before.lookup e.key = some cm ∧ cm.data.index "id" ≠ "") ∨
  ∃ r before after, ⟨.create e.indexCM, r, before, after⟩ ∈ l ∧ Vacant e before

/-! ## The two calls -/

variable {e : Installation} {cms cms' : ConfigMaps}

theorem contended_get {k : Key} {r : ConfigMapAnswer (.get k)}
    (ans : Contended.answer cms (.get k) r cms') :
    (cms' = cms ∧ ∃ cm, cms.lookup k = some cm ∧ r = .ok cm) ∨
      ∃ err, r = .error err ∧ (err.isNotFound = true → cms.lookup k = none) := by
  rcases ans with normal | ⟨m, rfl, -⟩
  · simp only [answerConfigMap] at normal
    split at normal
    · rename_i absent
      cases normal
      exact .inr ⟨_, rfl, fun _ => absent⟩
    · rename_i cm held
      cases normal
      exact .inl ⟨rfl, cm, held, rfl⟩
  · exact .inr ⟨_, rfl, by simp [ApiError.isNotFound]⟩

/-- A Create that counts as success finds its key occupied and leaves everything as it is, or
stores its ConfigMap. -/
theorem contended_create {cm : ConfigMap} {r : ConfigMapAnswer (.create cm)}
    (ans : Contended.answer cms (.create cm) r cms')
    (success : ∀ err, r = .error err → err.isAlreadyExists = true) :
    (cms' = cms ∧ ∃ found, cms.lookup cm.key = some found) ∨
      cms.lookup cm.key = none ∧ cms' = cms.insert cm.key cm := by
  rcases ans with normal | ⟨m, rfl, -⟩
  · simp only [answerConfigMap] at normal
    split at normal
    · rename_i found held
      cases normal
      exact .inl ⟨rfl, found, held⟩
    · rename_i absent
      cases normal
      exact .inr ⟨absent, rfl⟩
  · exact absurd (success _ rfl) (by simp [ApiError.isAlreadyExists])

/-- After a Create that counts as success the id is on record exactly if nothing stood
against it. -/
theorem recorded_iff_vacant {r : ConfigMapAnswer (.create e.indexCM)}
    (ans : Contended.answer cms (.create e.indexCM) r cms')
    (success : ∀ err, r = .error err → err.isAlreadyExists = true) :
    Recorded cms' e.key e.id ↔ Vacant e cms := by
  rcases contended_create ans success with ⟨rfl, found, held⟩ | ⟨absent, rfl⟩
  · rw [Installation.indexCM_key] at held
    simp [Recorded, Vacant, held]
  · rw [Installation.indexCM_key] at absent ⊢
    have free : Vacant e cms := by simp [Vacant, absent]
    simp only [free, iff_true]
    exact ⟨e.indexCM, Finmap.lookup_insert _, e.indexCM_id⟩

/-! ## Whole runs -/

/-- What is shown of a run that has ended. -/
def Settles (e : Installation) (res : InstallationResult) (v : Pool.View ConfigMapCall ConfigMapAnswer ConfigMaps) :
    Prop := res.2.2 = none → (RecordedAtReturn e res.2.1 v.2 ↔ Settled e v.2)

/-- The part from the Create on, after a Get that did not find an id. -/
theorem createIndexCM_settles {v : Pool.View ConfigMapCall ConfigMapAnswer ConfigMaps}
    (noId : ∀ ev ∈ v.2, ev.call = .get e.key ∧
      ∀ cm, ev.before.lookup e.key = some cm → cm.data.index "id" = "") :
    (createIndexCM e).wp Contended.logged (fun _ _ => True) (Settles e) v := by
  have settled : ∀ (v' : Pool.View ConfigMapCall ConfigMapAnswer ConfigMaps) r before after,
      v'.2 = v.2 ++ [⟨.create e.indexCM, r, before, after⟩] → (Settled e v'.2 ↔ Vacant e before) := by
    intro v' r before after log
    rw [Settled, log]
    constructor
    · rintro (⟨cm, r', before', after', mem, held, id⟩ | ⟨r', before', after', mem, vacant⟩)
      · have got := (List.mem_append.1 mem).resolve_right (by simp)
        exact absurd ((noId _ got).2 cm held) id
      · rcases List.mem_append.1 mem with got | last
        · cases (noId _ got).1
        · cases List.mem_singleton.1 last
          exact vacant
    · exact fun vacant => .inr ⟨r, before, after, by simp, vacant⟩
  have recorded : ∀ (v' : Pool.View ConfigMapCall ConfigMapAnswer ConfigMaps) r before after,
      v'.2 = v.2 ++ [⟨.create e.indexCM, r, before, after⟩] →
        (RecordedAtReturn e e.id v'.2 ↔ Recorded after e.key e.id) := by
    intro v' r before after log
    simp [RecordedAtReturn, log]
  refine Prog.wp_perform fun v₁ rely₁ => ⟨trivial, fun r v₂ ans => ?_⟩
  have log : v₂.2 = v.2 ++ [⟨.create e.indexCM, r, v₁.1, v₂.1⟩] := by rw [ans.2, rely₁.2]
  have success : (∀ err, r = .error err → err.isAlreadyExists = true) →
      (RecordedAtReturn e e.id v₂.2 ↔ Settled e v₂.2) := fun success =>
    (recorded v₂ r _ _ log).trans ((recorded_iff_vacant ans.1 success).trans (settled v₂ r _ _ log).symm)
  rcases r with err | _
  · show (if !err.isAlreadyExists then Prog.ret (e.anchor, "", some err)
      else .ret (e.anchor, e.id, none) : ConfigMapApi InstallationResult).wp _ _ _ v₂
    cases exists_ : err.isAlreadyExists with
    | false => exact fun v₃ _ failed => by cases failed
    | true =>
      intro v₃ rely₃ _
      rw [rely₃.2]
      exact success fun err' eq => by cases eq; exact exists_
  · intro v₃ rely₃ _
    rw [rely₃.2]
    exact success fun err' eq => by cases eq

theorem ensureInstallationID_settles (cms : ConfigMaps) :
    (ensureInstallationID e).wp Contended.logged (fun _ _ => True) (Settles e) (cms, []) := by
  refine Prog.wp_perform fun v₁ rely₁ => ⟨trivial, fun r v₂ ans => ?_⟩
  have log : v₂.2 = [⟨.get e.key, r, v₁.1, v₂.1⟩] := by rw [ans.2, rely₁.2, List.nil_append]
  have create : (∀ cm, v₁.1.lookup e.key = some cm → cm.data.index "id" = "") →
      (createIndexCM e).wp Contended.logged (fun _ _ => True) (Settles e) v₂ := by
    intro noId
    refine createIndexCM_settles fun ev mem => ?_
    rw [log] at mem
    cases List.mem_singleton.1 mem
    exact ⟨rfl, noId⟩
  rcases contended_get ans.1 with ⟨same, cm, held, rfl⟩ | ⟨err, rfl, absent⟩
  · show (if cm.data.index "id" ≠ "" then Prog.ret (e.anchor, cm.data.index "id", none)
      else createIndexCM e).wp _ _ _ v₂
    split
    · rename_i found
      intro v₃ rely₃ _
      have recorded : RecordedAtReturn e (cm.data.index "id") v₂.2 := by
        rw [log]
        exact ⟨_, rfl, cm, by rw [same]; exact held, rfl⟩
      have settled : Settled e v₂.2 := by
        rw [log]
        exact .inl ⟨cm, _, v₁.1, v₂.1, List.mem_singleton_self _, held, found⟩
      rw [rely₃.2]
      exact ⟨fun _ => settled, fun _ => recorded⟩
    · rename_i empty
      refine create fun cm' held' => ?_
      rw [held] at held'
      cases held'
      exact not_not.1 empty
  · show (if !err.isNotFound then Prog.ret (e.anchor, "", some err) else createIndexCM e).wp _ _ _ v₂
    cases missing : err.isNotFound with
    | false => exact fun v₃ _ failed => by cases failed
    | true =>
      refine create fun cm held => ?_
      rw [absent missing] at held
      cases held

/-- **Main result.** However other writers come between its Get and its Create: where
`ensureInstallationID` returns an id without an error, this id is on record exactly if the run
was `Settled`. -/
theorem ensureInstallationID_recorded_iff (e : Installation) {cms : ConfigMaps} {anchor : AnchorMeta}
    {id : String} {v : Pool.View ConfigMapCall ConfigMapAnswer ConfigMaps}
    (run : Exec Contended.logged (ensureInstallationID e) (cms, []) (.ret (anchor, id, none)) v) :
    RecordedAtReturn e id v.2 ↔ Settled e v.2 :=
  Prog.wp_result run (ensureInstallationID_settles cms) rfl

theorem answerConfigMap_answers (cms : ConfigMaps) (c : ConfigMapCall) :
    Contended.answer cms c (answerConfigMap cms c).1 (answerConfigMap cms c).2 := .inl rfl

/-- Helm's installation of the server in the namespace `ops`. -/
def Installation.helm : Installation where
  clusterUID := "c"
  anchor := ⟨"helm", "ops", "codespace"⟩
  anchorString := fun a => a.type ++ ":" ++ a.ns ++ ":" ++ a.name
  instanceIDv1 := fun uid a => uid ++ "-" ++ a.name
  k8sHexHash := fun _ _ => "0123456789"
  buildConfigMapSafeLabels := fun _ _ => ∅
  appName := "codespace-server"

/-- The first start in a cluster. -/
theorem helm_recorded : ∃ v, Exec Contended.logged (ensureInstallationID .helm) (∅, [])
      (.ret (Installation.helm.anchor, "c-codespace", none)) v ∧
    (RecordedAtReturn .helm "c-codespace" v.2 ↔ Settled .helm v.2) := by
  have run := Exec.of_run (Setting.recorded_answers answerConfigMap_answers)
    (ensureInstallationID .helm) ((∅ : ConfigMaps), [])
  have result : (Prog.run (Setting.recorded answerConfigMap) (ensureInstallationID .helm) (∅, [])).1 =
      (Installation.helm.anchor, "c-codespace", none) := by decide +kernel
  rw [result] at run
  exact ⟨_, run, ensureInstallationID_recorded_iff .helm run⟩

/-- The same installation's ConfigMap, restored without its data. -/
def withoutData : ConfigMaps :=
  (∅ : ConfigMaps).insert Installation.helm.key ⟨Installation.helm.cmName, "ops", ∅, ∅⟩

/-- The server goes on with an id that is nowhere on record. -/
theorem id_not_recorded : ∃ v anchor id, Exec Contended.logged (ensureInstallationID .helm) (withoutData, [])
      (.ret (anchor, id, none)) v ∧ ¬ RecordedAtReturn .helm id v.2 := by
  have run := Exec.of_run (Setting.recorded_answers answerConfigMap_answers)
    (ensureInstallationID .helm) (withoutData, [])
  have result : (Prog.run (Setting.recorded answerConfigMap) (ensureInstallationID .helm) (withoutData, [])).1 =
      (Installation.helm.anchor, "c-codespace", none) := by decide +kernel
  have empty : ((Prog.run (Setting.recorded answerConfigMap) (ensureInstallationID .helm)
      (withoutData, [])).2.2.getLast?.bind fun ev => ev.after.lookup Installation.helm.key).map
        (fun cm => cm.data.index "id") = some "" := by decide +kernel
  rw [result] at run
  refine ⟨_, _, _, run, ?_⟩
  rintro ⟨ev, last, cm, held, id⟩
  rw [last, Option.bind_some, held, Option.map_some, id] at empty
  exact absurd empty (by decide)

end Codespace.Server
