import Codespace.Server.Ownership
import Codespace.Server.Visibility

/-!
# What the list and the stream show of one Session

Both fill in the labels that tell who manages a Session, each in its own way. The list asks
the index of instances in cluster scope and falls back to the server's own identity; it
never writes an empty label. The stream asks the index only, has no fallback, and writes the
type and the namespace of an index entry even where they are empty. The main result says for
which Sessions the two come to the same.
-/

namespace Codespace.Server
set_option autoImplicit false
open Interact Versioned

variable {χ : Type}

/-! ## What is claimed -/

/-- A label that is there and not empty is left alone, and an empty value is not filled in. -/
def NothingToFill (labels : GoMap String String) (name value : String) : Prop :=
  labels.index name ≠ "" ∨ value = ""

/-- A label that is there is left alone or filled, and one that is missing gets a proper value. -/
def Fills (labels : GoMap String String) (name value : String) : Prop :=
  labels.lookup name ≠ none ∨ value ≠ ""

/-- The list and the stream fill in the same labels: where the stream has no index entry, the
list has nothing to fill in; where it has one, it leaves nothing empty. -/
def ShownAlike (d : ServerDeps) (idx : GoMap String AnchorMeta) (s : Session) : Prop :=
  match if d.clusterScope then idx.lookup (s.metadata.labels.index d.common.instanceIDLabel) else none with
  | none =>
    NothingToFill s.metadata.labels d.common.labelManagerType d.manager.type ∧
      NothingToFill s.metadata.labels d.common.labelManagerNamespace d.manager.ns ∧
      NothingToFill s.metadata.labels d.common.labelManagerName d.manager.name
  | some anchor =>
    Fills s.metadata.labels d.common.labelManagerType anchor.type ∧
      Fills s.metadata.labels d.common.labelManagerNamespace anchor.ns

/-! ## Labels -/

section

variable {labels : GoMap String String} {name value : String}

theorem lookup_insert_if (p : Prop) [Decidable p] (k : String) :
    (if p then labels.insert name value else labels).lookup k =
      if k = name ∧ p then some value else labels.lookup k := by
  by_cases here : k = name
  · subst here
    split <;> simp_all
  · split <;> simp [here, Finmap.lookup_insert_of_ne]

theorem lookup_ensureLabel (k : String) : (ensureLabel name value labels).lookup k =
    if k = name ∧ labels.index name = "" ∧ value ≠ "" then some value else labels.lookup k :=
  lookup_insert_if ..

theorem index_insert_if (p : Prop) [Decidable p] {k : String} (ne : k ≠ name) :
    GoMap.index (if p then labels.insert name value else labels) k = labels.index k := by
  rw [GoMap.index, lookup_insert_if, if_neg fun here => ne here.1, GoMap.index]

theorem index_ensureLabel {k : String} (ne : k ≠ name) : (ensureLabel name value labels).index k = labels.index k :=
  index_insert_if _ ne

/-- Writing the value that is there changes nothing. -/
theorem insert_self (held : labels.lookup name = some value) : labels.insert name value = labels := by
  refine Finmap.ext_lookup fun k => ?_
  by_cases here : k = name
  · rw [here, Finmap.lookup_insert, held]
  · exact Finmap.lookup_insert_of_ne _ here

/-- Maps that agree elsewhere are the same if they agree at three keys. -/
theorem eq_iff_at {m m' : GoMap String String} {a b c : String}
    (others : ∀ k, k ≠ a → k ≠ b → k ≠ c → m.lookup k = m'.lookup k) :
    m = m' ↔ m.lookup a = m'.lookup a ∧ m.lookup b = m'.lookup b ∧ m.lookup c = m'.lookup c := by
  constructor
  · rintro rfl
    exact ⟨rfl, rfl, rfl⟩
  · rintro ⟨ha, hb, hc⟩
    refine Finmap.ext_lookup fun k => ?_
    by_cases ka : k = a
    · rw [ka, ha]
    by_cases kb : k = b
    · rw [kb, hb]
    by_cases kc : k = c
    · rw [kc, hc]
    · exact others k ka kb kc

theorem ensured_iff : (if labels.index name = "" ∧ value ≠ "" then some value else labels.lookup name) =
    labels.lookup name ↔ NothingToFill labels name value := by
  unfold NothingToFill
  cases held : labels.lookup name with
  | none => simp [GoMap.index, held]
  | some old =>
    simp only [GoMap.index, held, Option.getD_some]
    split
    · rename_i empty
      simp [empty.1, empty.2]
    · rename_i settled
      simp only [true_iff]
      tauto

theorem filled_iff : (if labels.index name = "" ∧ value ≠ "" then some value else labels.lookup name) =
    (if labels.index name = "" then some value else labels.lookup name) ↔ Fills labels name value := by
  unfold Fills
  cases held : labels.lookup name with
  | none => by_cases empty : value = "" <;> simp [GoMap.index, held, empty]
  | some old => by_cases empty : old = "" <;> by_cases empty' : value = "" <;> simp [GoMap.index, held, empty, empty']

end

/-! ## The two ways to fill them in -/

section

variable {child : ChildApi χ} {d : ServerDeps} {idx : GoMap String AnchorMeta} {s : Session}

/-- Where the stream finds no entry, it shows the Session as it is stored. -/
theorem streamed_missing (missing : (if d.clusterScope then
    idx.lookup (s.metadata.labels.index d.common.instanceIDLabel) else none) = none) :
    enrichStreamed d idx s = s := by
  unfold enrichStreamed
  cases scope : d.clusterScope with
  | false => rfl
  | true =>
    rw [scope, if_pos rfl] at missing
    rw [missing]
    rfl

/-- A visible Session has the id it is shown with. -/
theorem shownInstanceID_visible (visible : matchesLabels (instanceSelector d) s = true) :
    shownInstanceID d s = s.metadata.labels := by
  unfold shownInstanceID
  split
  · rename_i confined
    have held : s.metadata.labels.lookup d.common.instanceIDLabel = some d.instanceID := by
      simpa [instanceSelector, confined.1, matchesLabels] using visible
    exact insert_self held
  · rfl

/-- The labels that tell who manages a Session have different names. -/
theorem manager_names (proper : d.common.Proper) : d.common.labelManagerType ≠ d.common.labelManagerNamespace ∧
    d.common.labelManagerType ≠ d.common.labelManagerName ∧
    d.common.labelManagerNamespace ≠ d.common.labelManagerName := by
  have names := proper.labels
  simp only [List.nodup_cons, List.mem_cons, List.not_mem_nil, or_false, not_or] at names
  exact ⟨names.2.2.1.1, names.2.2.1.2, names.2.2.2.1⟩

/-- What the list shows under each label. -/
theorem lookup_enrich (proper : d.common.Proper) (visible : matchesLabels (instanceSelector d) s = true)
    {anchor : AnchorMeta} (managed : (idx.lookup (s.metadata.labels.index d.common.instanceIDLabel)).getD d.manager = anchor)
    (k : String) : (enrich d idx s).metadata.labels.lookup k =
      if k = d.common.labelManagerName ∧ s.metadata.labels.index d.common.labelManagerName = "" ∧ anchor.name ≠ "" then
        some anchor.name
      else if k = d.common.labelManagerNamespace ∧ s.metadata.labels.index d.common.labelManagerNamespace = "" ∧
        anchor.ns ≠ "" then some anchor.ns
      else if k = d.common.labelManagerType ∧ s.metadata.labels.index d.common.labelManagerType = "" ∧
        anchor.type ≠ "" then some anchor.type
      else s.metadata.labels.lookup k := by
  obtain ⟨h₁, h₂, h₃⟩ := manager_names proper
  unfold enrich
  rw [shownInstanceID_visible visible]
  dsimp only
  rw [managed]
  rw [Session.withLabels]
  dsimp only
  rw [lookup_ensureLabel, lookup_ensureLabel, lookup_ensureLabel, index_ensureLabel h₃.symm,
    index_ensureLabel h₂.symm, index_ensureLabel h₁.symm]

theorem lookup_streamed (proper : d.common.Proper) (scope : d.clusterScope = true) {anchor : AnchorMeta}
    (hit : idx.lookup (s.metadata.labels.index d.common.instanceIDLabel) = some anchor) (k : String) :
    (enrichStreamed d idx s).metadata.labels.lookup k =
      if k = d.common.labelManagerName ∧ s.metadata.labels.index d.common.labelManagerName = "" ∧ anchor.name ≠ "" then
        some anchor.name
      else if k = d.common.labelManagerNamespace ∧ s.metadata.labels.index d.common.labelManagerNamespace = "" then
        some anchor.ns
      else if k = d.common.labelManagerType ∧ s.metadata.labels.index d.common.labelManagerType = "" then
        some anchor.type
      else s.metadata.labels.lookup k := by
  obtain ⟨h₁, h₂, h₃⟩ := manager_names proper
  have shown : (enrichStreamed d idx s).metadata.labels =
      let labels : GoMap String String := if s.metadata.labels.index d.common.labelManagerType = "" then
        s.metadata.labels.insert d.common.labelManagerType anchor.type else s.metadata.labels
      let labels : GoMap String String := if labels.index d.common.labelManagerNamespace = "" then
        labels.insert d.common.labelManagerNamespace anchor.ns else labels
      ensureLabel d.common.labelManagerName anchor.name labels := by
    unfold enrichStreamed
    rw [scope, hit]
    rfl
  rw [shown]
  dsimp only
  rw [lookup_ensureLabel, lookup_insert_if, lookup_insert_if, index_insert_if _ h₃.symm,
    index_insert_if _ h₂.symm, index_insert_if _ h₁.symm]

/-- The entry that the list and the stream find in cluster scope, if any. -/
theorem lookup_listIndex (σ : Cluster χ) (id : String) :
    (listIndex d σ).lookup id = if d.clusterScope then σ.index.lookup id else none := by
  unfold listIndex
  split
  · rfl
  · exact Finmap.lookup_empty id

/-- The labels of a Session as it is listed and as it is streamed. -/
theorem labels_eq_iff (proper : d.common.Proper) (visible : matchesLabels (instanceSelector d) s = true)
    (σ : Cluster χ) : (enrich d (listIndex d σ) s).metadata.labels = (enrichStreamed d σ.index s).metadata.labels ↔
      ShownAlike d σ.index s := by
  obtain ⟨h₁, h₂, h₃⟩ := manager_names proper
  have listed := lookup_enrich proper visible (rfl : ((listIndex d σ).lookup _).getD d.manager = _)
  rw [lookup_listIndex] at listed
  unfold ShownAlike
  cases found : (if d.clusterScope then
      σ.index.lookup (s.metadata.labels.index d.common.instanceIDLabel) else none) with
  | none =>
    rw [found, Option.getD_none] at listed
    rw [streamed_missing found]
    rw [eq_iff_at (a := d.common.labelManagerType) (b := d.common.labelManagerNamespace)
      (c := d.common.labelManagerName) fun k ht hn hm => ?_]
    · simp only [listed, h₁, h₁.symm, h₂, h₂.symm, h₃, h₃.symm, false_and, true_and, if_false, ensured_iff]
    · rw [listed, if_neg fun here => hm here.1, if_neg fun here => hn here.1, if_neg fun here => ht here.1]
  | some anchor =>
    rw [found, Option.getD_some] at listed
    obtain ⟨scope, hit⟩ : d.clusterScope = true ∧
        σ.index.lookup (s.metadata.labels.index d.common.instanceIDLabel) = some anchor := by
      simpa using found
    have streamed := lookup_streamed proper scope hit
    rw [eq_iff_at (a := d.common.labelManagerType) (b := d.common.labelManagerNamespace)
      (c := d.common.labelManagerName) fun k ht hn hm => ?_]
    · simp only [listed, streamed, h₁, h₁.symm, h₂, h₂.symm, h₃, h₃.symm, false_and, true_and, if_false,
        and_true, filled_iff]
    · rw [listed, streamed, if_neg fun here => hm here.1, if_neg fun here => hn here.1,
        if_neg fun here => ht here.1, if_neg fun here => hm here.1, if_neg fun here => hn here.1,
        if_neg fun here => ht here.1]

/-- An item of a list is a stored Session, enriched. -/
theorem listed_item {r : Request} {σ : Cluster χ} {item : Session} (get : r.method = "GET")
    (good : ((serve d .sessions r).run (answer child) σ).1.status < 400)
    (mem : item ∈ ((serve d .sessions r).run (answer child) σ).1.sessions)
    (stored : σ.sessions.get item.key = some s) :
    item = enrich d (listIndex d σ) s ∧ matchesLabels (instanceSelector d) s = true := by
  rcases list_cases child d σ get with ⟨-, bad⟩ | ⟨cl, -, shown⟩
  · omega
  rw [shown] at mem
  obtain ⟨s', mem', rfl⟩ := List.mem_map.1 mem
  obtain ⟨stored', selected⟩ := mem_listed mem'
  cases stored.symm.trans stored'
  rw [selects, Bool.and_eq_true] at selected
  exact ⟨rfl, selected.2⟩

/-- A stream that was opened is the loop's, with the index there was then. -/
theorem run_handleStreamSessions {w : Request} {conn : Connection} {σ : Cluster χ} {greeting : Sse} {turns : List (List Sse)}
    (opened : ((handleStreamSessions d w conn).run (answer child) σ).1 = .stream greeting turns) :
    ∃ pr, w.claims = some pr ∧ turns = streamLoop d w pr (listIndex d σ) conn.moments := by
  unfold handleStreamSessions at opened
  cases claims : w.claims with
  | none =>
    rw [MustCan, claims] at opened
    cases opened
  | some pr =>
    refine ⟨pr, rfl, ?_⟩
    rw [Prog.run_bind, run_mustCan claims] at opened
    by_cases yes : granted (σ.policy pr.sub pr.roles sessionResourceString "watch" (streamDomain w)) = true
    · rw [if_pos yes] at opened
      dsimp only at opened
      unfold openStream at opened
      split at opened
      · cases opened
      split at opened
      · cases opened
      · unfold listIndex
        cases scope : d.clusterScope with
        | true =>
          rw [scope] at opened
          cases opened
          rfl
        | false =>
          rw [scope] at opened
          cases opened
          rfl
    · rw [if_neg yes] at opened
      cases opened

/-- In a confined server the stream does not look at the index. -/
theorem enrichStreamed_listIndex (σ : Cluster χ) (s : Session) :
    enrichStreamed d (listIndex d σ) s = enrichStreamed d σ.index s := by
  unfold listIndex enrichStreamed
  cases d.clusterScope <;> rfl

/-- **Main result.** Where a list and the stream show the same stored Session, they show it with
the same labels if and only if both fill in the same. -/
theorem list_stream_alike_iff {r w : Request} {conn : Connection} {σ : Cluster χ} {item out : Session}
    {greeting : Sse} {turns : List (List Sse)} {m : (Enforce × Signal) × List Sse} {type type' : EventType}
    (proper : d.common.Proper) (get : r.method = "GET")
    (good : ((serve d .sessions r).run (answer child) σ).1.status < 400)
    (listed : item ∈ ((serve d .sessions r).run (answer child) σ).1.sessions)
    (stored : σ.sessions.get item.key = some s)
    (opened : ((handleStreamSessions d w conn).run (answer child) σ).1 = .stream greeting turns)
    (turn : m ∈ conn.moments.zip turns) (arrived : m.1.2 = .event ⟨type, .session s⟩)
    (sent : .message type' out ∈ m.2) :
    item.metadata.labels = out.metadata.labels ↔ ShownAlike d σ.index s := by
  obtain ⟨rfl, visible⟩ := listed_item get good listed stored
  obtain ⟨pr, claims, rfl⟩ := run_handleStreamSessions opened
  have written := (mem_zip_streamLoop.1 turn).2
  rw [arrived] at written
  rw [← Option.some.inj written] at sent
  obtain ⟨s₀, event, -, rfl, -⟩ := (mem_streamEvent claims).1 sent
  cases event
  rw [enrichStreamed_listIndex]
  exact labels_eq_iff proper visible σ

end

/-! ## A Session without a manager -/

/-- An event of the Session `ns/a` of instance `i` arrives, and the policy allows everything. -/
def oneEvent : Connection := ⟨true, none, [(allowAll, .event ⟨.modified, .session (stamp 1 (sessionOf "i"))⟩)]⟩

/-- The server of instance `i` without an identity of its own. -/
def unmanaged : ServerDeps := { ServerDeps.plain "i" false with manager := ⟨"", "", ""⟩ }

theorem list_stream_alike_unmanaged :
    (enrich unmanaged ∅ (stamp 1 (sessionOf "i"))).metadata.labels = (stamp 1 (sessionOf "i")).metadata.labels := by
  have good : ((serve unmanaged .sessions inquiryOf.list).run (answer replaceApi) (occupied "i")).1.status < 400 := by
    decide +kernel
  have listed : enrich unmanaged ∅ (stamp 1 (sessionOf "i")) ∈
      ((serve unmanaged .sessions inquiryOf.list).run (answer replaceApi) (occupied "i")).1.sessions := by
    decide +kernel
  have opened : ((handleStreamSessions unmanaged inquiryOf.stream oneEvent).run (answer replaceApi) (occupied "i")).1 =
      .stream (.ping "status" "connected") [[.message .modified (stamp 1 (sessionOf "i"))]] := by decide +kernel
  exact (list_stream_alike_iff codespace_proper rfl good listed ((occupied_get "i" _).trans (if_pos rfl)) opened
    List.mem_cons_self rfl List.mem_cons_self).2 ⟨.inr rfl, .inr rfl, .inr rfl⟩

/-- Instance `i` lists its Session with its own name as the manager's, and streams it without. -/
theorem manager_not_streamed :
    ((serve (.plain "i" false) .sessions inquiryOf.list).run (answer replaceApi) (occupied "i")).1.sessions.map
      (·.metadata.labels.index "codespace.dev/manager-name") = ["i"] ∧
    ((handleStreamSessions (.plain "i" false) inquiryOf.stream oneEvent).run (answer replaceApi) (occupied "i")).1 =
      .stream (.ping "status" "connected") [[.message .modified (stamp 1 (sessionOf "i"))]] ∧
    (stamp 1 (sessionOf "i")).metadata.labels.index "codespace.dev/manager-name" = "" := by
  refine ⟨?_, ?_, ?_⟩ <;> decide +kernel

end Codespace.Server
