import Codespace.Api.Server
import Codespace.Store.FieldOwnership

/-!
# The fields of a manifest

Which fields an apply configuration sets, as field ownership sees them: a map is one field
per key, a list of objects is one field per entry and leaf, keyed as the API defines the
list, and atomic values (selectors, arguments, ingress rules) are one field each. A
configuration that names one list key twice is invalid.
-/

namespace Codespace
set_option autoImplicit false
open FieldOwnership

inductive Field where
  | label (key : String)
  | annotationAt (key : String)
  | ownerReference (uid : Nat)
  | accessModes
  | storage
  | storageClassName
  | replicas
  | matchLabels
  | templateLabel (key : String)
  | serviceAccountName
  | volumeClaim (volume : String)
  | image (container : String)
  | args (container : String)
  | containerPort (container : String) (port : Nat)
  | volumeMount (container mountPath : String)
  | env (container name : String)
  | selector
  | portName (port : Nat)
  | targetPort (port : Nat)
  | ingressRules
  | ingressTLS
  deriving DecidableEq

inductive FieldValue where
  | text (v : String)
  | texts (v : List String)
  | number (v : Int32)
  | port (v : Nat)
  | labels (v : GoMap String String)
  | reference (v : OwnerReference)
  | source (v : EnvSource)
  | rules (v : List IngressRule)
  | tls (v : List IngressTLS)
  deriving DecidableEq

/-- The fields of a map, given how a key becomes a field and back. -/
def mapFields (field : String → Field) (key : Field → Option String)
    (back : ∀ f k, key f = some k ↔ field k = f) (m : GoMap String String) : Config Field FieldValue where
  names := m.keys.image field
  value f := ((key f).bind m.lookup).map .text
  mem_names f := by
    simp only [Finset.mem_image, Finmap.mem_keys, Finmap.mem_iff, Option.isSome_map,
      Option.isSome_bind, Option.any_eq_true, Option.isSome_iff_exists, ← back]
    exact ⟨fun ⟨k, ⟨v, held⟩, eq⟩ => ⟨k, eq, v, held⟩, fun ⟨k, eq, v, held⟩ => ⟨k, ⟨v, held⟩, eq⟩⟩

namespace Field

def labelKey : Field → Option String
  | .label k => some k
  | _ => none

def annotationKey : Field → Option String
  | .annotationAt k => some k
  | _ => none

def templateLabelKey : Field → Option String
  | .templateLabel k => some k
  | _ => none

end Field

def Container.entries (c : Container) : List (Field × FieldValue) :=
  [(.image c.name, .text c.image)] ++ (if c.args = [] then [] else [(.args c.name, .texts c.args)]) ++
    c.ports.map (fun p => (.containerPort c.name p, .port p)) ++
    c.volumeMounts.map (fun v => (.volumeMount c.name v.mountPath, .text v.name)) ++
    c.env.map (fun e => (.env c.name e.name, .source e.source))

namespace Manifest

/-- The fields that are not map entries. -/
def entries (m : Manifest) : List (Field × FieldValue) :=
  [(.ownerReference m.owner.uid, .reference m.owner)] ++ match m with
  | .serviceAccount _ => []
  | .persistentVolumeClaim m =>
    [(.accessModes, .texts m.accessModes), (.storage, .text m.storage)] ++
      (match m.storageClassName with | none => [] | some c => [(.storageClassName, .text c)])
  | .deployment m =>
    [(.replicas, .number m.replicas), (.matchLabels, .labels m.matchLabels),
      (.serviceAccountName, .text m.template.serviceAccountName)] ++
      m.template.volumes.map (fun v => (.volumeClaim v.name, .text v.claimName)) ++
      m.template.containers.flatMap Container.entries
  | .service m =>
    [(.selector, .labels m.selector)] ++
      m.ports.flatMap fun p => [(.portName p.port, .text p.name), (.targetPort p.port, .port p.targetPort)]
  | .ingress m =>
    [(.ingressRules, .rules m.rules)] ++ (if m.tls = [] then [] else [(.ingressTLS, .tls m.tls)])

/-- The fields of the manifest's maps. -/
def maps : Manifest → Config Field FieldValue
  | .deployment m =>
    (mapFields .label Field.labelKey (fun f k => by cases f <;> simp [Field.labelKey, eq_comm]) m.labels).add
      (mapFields .templateLabel Field.templateLabelKey
        (fun f k => by cases f <;> simp [Field.templateLabelKey, eq_comm]) m.template.labels)
  | .ingress m =>
    mapFields .annotationAt Field.annotationKey
      (fun f k => by cases f <;> simp [Field.annotationKey, eq_comm]) m.annotations
  | _ => .entries []

/-- What the manifest asks for, field by field. -/
def config (m : Manifest) : Config Field FieldValue := (Config.entries m.entries).add m.maps

/-- No list has two entries with one key. -/
def Valid (m : Manifest) : Prop := (m.entries.map Prod.fst).Nodup

instance (m : Manifest) : Decidable m.Valid := inferInstanceAs (Decidable (List.Nodup _))

end Manifest

/-- A child as the API server stores it. -/
abbrev Child := Managed Field FieldValue String

/-- Server-side apply without force. -/
def ssaApi : ChildApi Child where
  apply owner cur m :=
    if ¬ m.Valid then .error ⟨.other, "duplicate entries for key"⟩
    else match (cur.getD .empty).apply owner m.config with
      | none => .error ⟨.conflict, "Apply failed with conflicts"⟩
      | some c => .ok c

/-- An Apply without transport failure: an invalid manifest, a conflict, or a success. -/
theorem ssaApi_cases (owner : String) (cur : Option Child) (m : Manifest) :
    (¬ m.Valid ∧ ssaApi.apply owner cur m = .error ⟨.other, "duplicate entries for key"⟩) ∨
    ((cur.getD .empty).Conflict owner m.config ∧
      ssaApi.apply owner cur m = .error ⟨.conflict, "Apply failed with conflicts"⟩) ∨
    (¬ (cur.getD .empty).Conflict owner m.config ∧
      ssaApi.apply owner cur m = .ok ((cur.getD .empty).applied owner m.config)) := by
  by_cases valid : m.Valid
  · rcases (cur.getD .empty).apply_cases owner m.config with ⟨eq, conflict⟩ | ⟨eq, free⟩
    · exact .inr (.inl ⟨conflict, by simp [ssaApi, valid, eq]⟩)
    · exact .inr (.inr ⟨free, by simp [ssaApi, valid, eq]⟩)
  · exact .inl ⟨valid, by simp [ssaApi, valid]⟩

/-- The object has exactly the content of the manifest applied last, or does not exist, and
nobody else has touched it. -/
def Replica (owner : String) (cur : Option Child) (last : Option Manifest) : Prop :=
  match cur, last with
  | none, none => True
  | some c, some m => c.value = m.config.value ∧ c.Solely owner
  | _, _ => False

/-- **Refinement.** Without another field manager, server-side apply replaces the content,
as `replaceApi` has it. -/
theorem ssaApi_replaces {owner : String} {cur : Option Child} {last : Option Manifest}
    (h : Replica owner cur last) {m : Manifest} (valid : m.Valid) :
    ∃ c m', ssaApi.apply owner cur m = .ok c ∧ replaceApi.apply owner last m = .ok m' ∧
      Replica owner (some c) (some m') := by
  have sole : (cur.getD .empty).Solely owner := by
    cases cur with
    | none => exact Managed.empty_solely
    | some c =>
      cases last with
      | none => exact h.elim
      | some _ => exact h.2
  rcases ssaApi_cases owner cur m with ⟨bad, -⟩ | ⟨conflict, -⟩ | ⟨-, ok⟩
  · exact absurd valid bad
  · exact absurd conflict sole.not_conflict
  · exact ⟨_, m, ok, rfl, sole.applied.2, sole.applied.1⟩

end Codespace
