import Codespace.Server.Adoption

/-!
# Where a Session was taken from

An adoption puts the previous owner on record, in an annotation. Over a sequence of
adoptions by several servers the record should name the last owner that was another
instance. The handler records the owner it finds, and where that is the server itself the
record is overwritten with its own id; the main result says that this is the only case.
-/

namespace Codespace.Server
set_option autoImplicit false
open Interact Versioned

variable {χ : Type} {child : ChildApi χ} {c : Common} {k : Key} {d : ServerDeps} {σ σ' : Cluster χ} {r : Request}

/-! ## What is claimed -/

def adoptedFrom (s : Session) : Option String := s.metadata.annotations.lookup "codespace.dev/adopted-from"

/-- The last different instance that a Session was taken from, after one more adoption. -/
def takenFrom (last : Option String) (owner adopter : String) : Option String :=
  if owner ≠ "" ∧ owner ≠ adopter then some owner else last

/-- What an adoption needs to know of the stored Session. -/
def ownership (c : Common) (σ : Cluster χ) (k : Key) : Option (String × Option String) :=
  (σ.sessions.get k).map fun s => (ownerID c s, adoptedFrom s)

/-- Successful adoptions of the Session at `k`, one after the other, each with the Session as the
server found it; anything that keeps the ownership may happen between two of them. -/
inductive Adoptions (child : ChildApi χ) (c : Common) (k : Key) :
    Cluster χ → List (Session × ServerDeps) → Cluster χ → Prop where
  | done (σ : Cluster χ) : Adoptions child c k σ [] σ
  | other {σ σ₁ σ' : Cluster χ} {steps : List (Session × ServerDeps)} :
      ownership c σ₁ k = ownership c σ k → Adoptions child c k σ₁ steps σ' → Adoptions child c k σ steps σ'
  | adopt {d : ServerDeps} {r : Request} {s : Session} {σ σ' : Cluster χ} {steps : List (Session × ServerDeps)} :
      d.common = c → adoptKey r = k → queryFlag r "dryRun" = false → σ.sessions.get k = some s →
      ((handleAdoptSession d r).run (answer child) σ).1.status = 200 →
      Adoptions child c k ((handleAdoptSession d r).run (answer child) σ).2 steps σ' →
      Adoptions child c k σ ((s, d) :: steps) σ'

/-- Each server, and whoever looks in the end, finds the last different instance on record. -/
def KeepsProvenance (c : Common) : (last : Option String) → List (Session × ServerDeps) → Session → Prop
  | last, [], s' => adoptedFrom s' = last
  | last, (s, d) :: steps, s' => adoptedFrom s = last ∧
      KeepsProvenance c (takenFrom last (ownerID c s) d.instanceID) steps s'

/-- The adopter is not the owner, unless it is on record already. -/
def Elsewhere (c : Common) (step : Session × ServerDeps) : Prop :=
  ownerID c step.1 = step.2.instanceID → ownerID c step.1 = "" ∨ adoptedFrom step.1 = some step.2.instanceID

def labelsAt (σ : Cluster χ) (k : Key) : Option (GoMap String String) :=
  (σ.sessions.get k).map (·.metadata.labels)

/-- A server that adopts the Session at `k` a second time leaves the labels of the first time. -/
def RepeatsLabels (child : ChildApi χ) (d : ServerDeps) (k : Key) (σ : Cluster χ) : Prop :=
  ∀ r r', adoptKey r = k → adoptKey r' = k → queryFlag r "dryRun" = false → queryFlag r' "dryRun" = false →
    let once := (handleAdoptSession d r).run (answer child) σ
    let twice := (handleAdoptSession d r').run (answer child) once.2
    once.1.status = 200 → twice.1.status = 200 → labelsAt twice.2 k = labelsAt once.2 k

/-! ## One adoption -/

/-- What the server that adopts leaves on record. -/
theorem adopted_record (cl : Claims) (now : String) (s : Session) : adoptedFrom (adopted d cl now s) =
    if ownerID d.common s ≠ "" then some (ownerID d.common s) else adoptedFrom s :=
  adopted_adoptedFrom cl now s

/-- That is the last different instance exactly if the adoption is from elsewhere. -/
theorem record_eq_iff (cl : Claims) (now : String) (s : Session) :
    adoptedFrom (adopted d cl now s) = takenFrom (adoptedFrom s) (ownerID d.common s) d.instanceID ↔
      Elsewhere d.common (s, d) := by
  rw [adopted_record, takenFrom, Elsewhere]
  by_cases unowned : ownerID d.common s = ""
  · simp [unowned]
  by_cases own : ownerID d.common s = d.instanceID
  · have named : d.instanceID ≠ "" := own ▸ unowned
    simp [own, named, eq_comm]
  · simp [unowned, own]

/-- What a successful adoption stores. -/
theorem adoption_stored (success : ((handleAdoptSession d r).run (answer child) σ).1.status = 200)
    (real : queryFlag r "dryRun" = false) {s : Session} (stored : σ.sessions.get (adoptKey r) = some s) :
    ∃ cl n, ((handleAdoptSession d r).run (answer child) σ).2.sessions.get (adoptKey r) =
      some (stamp n (adopted d cl σ.clock s)) := by
  obtain ⟨cl, s', adoption⟩ := adoption_of_success child (d := d) (σ := σ) (r := r) (by omega)
  obtain rfl : s' = s := Option.some.inj (adoption.stored.symm.trans stored)
  refine ⟨cl, σ.sessions.next, ?_⟩
  rw [run_adoption child adoption, real, if_neg Bool.false_ne_true]
  exact commit_get_same stored (adopted_same ..)

/-- The labels are the same the second time. -/
theorem adopted_twice_labels (proper : d.common.Proper) (cl cl' : Claims) (now now' : String) (n : Nat) (s : Session) :
    (adopted d cl' now' (stamp n (adopted d cl now s))).metadata.labels = (adopted d cl now s).metadata.labels := by
  have first := adopted_adoptedAs proper cl now s
  have second := adopted_adoptedAs proper cl' now' (stamp n (adopted d cl now s))
  refine Finmap.ext_lookup fun l => ?_
  by_cases other : l ∈ d.common.ownerLabels
  · simp only [Common.ownerLabels, List.mem_cons, List.not_mem_nil, or_false] at other
    rcases other with rfl | rfl | rfl | rfl
    · rw [first.instanceID, second.instanceID]
    · rw [first.managerType, second.managerType]
    · rw [first.managerNamespace, second.managerNamespace]
    · rw [first.managerName, second.managerName]
  · exact second.otherLabels l other

theorem repeatsLabels (proper : d.common.Proper) {s : Session} (stored : σ.sessions.get k = some s) :
    RepeatsLabels child d k σ := by
  rintro r r' key rfl real real' once twice success success'
  obtain ⟨cl, n, first⟩ := adoption_stored success real (key ▸ stored)
  rw [key] at first
  obtain ⟨cl', n', second⟩ := adoption_stored success' real' first
  have labels := adopted_twice_labels proper cl cl' σ.clock once.2.clock n s
  rw [labelsAt, labelsAt, first, second, Option.map_some, Option.map_some, stamp_labels, stamp_labels, labels]

/-! ## Sequences -/

/-- Where the ownership is kept, the Session is still there, and its record is the same. -/
theorem ownership_stored {σ₁ : Cluster χ} {s : Session} (kept : ownership c σ₁ k = ownership c σ k)
    (start : σ.sessions.get k = some s) :
    ∃ s₁, σ₁.sessions.get k = some s₁ ∧ adoptedFrom s₁ = adoptedFrom s := by
  unfold ownership at kept
  rw [start, Option.map_some] at kept
  obtain ⟨s₁, stored, same⟩ := Option.map_eq_some_iff.1 kept
  exact ⟨s₁, stored, congrArg Prod.snd same⟩

/-- A Session that is adopted does not go away. -/
theorem Adoptions.stored {steps : List (Session × ServerDeps)} (run : Adoptions child c k σ steps σ') {s : Session}
    (start : σ.sessions.get k = some s) : ∃ s', σ'.sessions.get k = some s' := by
  induction run generalizing s with
  | done => exact ⟨s, start⟩
  | other kept _ ih =>
    obtain ⟨s₁, stored, -⟩ := ownership_stored kept start
    exact ih stored
  | adopt _ key real found success _ ih =>
    subst key
    obtain ⟨cl, n, stored⟩ := adoption_stored success real found
    exact ih stored

/-- What keeps the provenance finds the right record to begin with. -/
theorem KeepsProvenance.start {last : Option String} {steps : List (Session × ServerDeps)} {s s' : Session}
    (keeps : KeepsProvenance c last steps s') (run : Adoptions child c k σ steps σ')
    (start : σ.sessions.get k = some s) (finish : σ'.sessions.get k = some s') : adoptedFrom s = last := by
  induction run generalizing s with
  | done =>
    cases start.symm.trans finish
    exact keeps
  | other kept _ ih =>
    obtain ⟨s₁, stored, record⟩ := ownership_stored kept start
    exact record.symm.trans (ih keeps stored finish)
  | adopt _ _ _ found _ _ _ =>
    cases start.symm.trans found
    exact keeps.1

theorem keepsProvenance_iff {steps : List (Session × ServerDeps)} (run : Adoptions child c k σ steps σ')
    {s s' : Session} (start : σ.sessions.get k = some s) (finish : σ'.sessions.get k = some s') :
    KeepsProvenance c (adoptedFrom s) steps s' ↔ ∀ step ∈ steps, Elsewhere c step := by
  induction run generalizing s with
  | done =>
    cases start.symm.trans finish
    exact iff_of_true rfl fun _ mem => absurd mem List.not_mem_nil
  | other kept _ ih =>
    obtain ⟨s₁, stored, record⟩ := ownership_stored kept start
    rw [← record]
    exact ih stored finish
  | @adopt d r s₀ σ σ' steps common key real found success rest ih =>
    subst common key
    cases start.symm.trans found
    obtain ⟨cl, n, stored⟩ := adoption_stored success real start
    rw [List.forall_mem_cons, ← record_eq_iff cl σ.clock s₀]
    constructor
    · rintro ⟨-, keeps⟩
      have here : adoptedFrom (adopted d cl σ.clock s₀) = takenFrom (adoptedFrom s₀) (ownerID d.common s₀) d.instanceID :=
        (keeps.start rest stored finish : adoptedFrom (stamp n (adopted d cl σ.clock s₀)) = _)
      refine ⟨here, (ih stored finish).1 ?_⟩
      rw [← here] at keeps
      exact keeps
    · rintro ⟨here, later⟩
      refine ⟨rfl, ?_⟩
      rw [← here]
      exact (ih stored finish).2 later

/-- **Main result.** Over any sequence of adoptions the record names the last different instance
at every point, if and only if no server adopts what is its own already, unless it is the one
on record. The labels are the same after a second adoption in any case. -/
theorem provenance_kept_iff {steps : List (Session × ServerDeps)} (run : Adoptions child c k σ steps σ')
    {s s' : Session} (start : σ.sessions.get k = some s) (finish : σ'.sessions.get k = some s') :
    (KeepsProvenance c (adoptedFrom s) steps s' ↔ ∀ step ∈ steps, Elsewhere c step) ∧
      ∀ d : ServerDeps, d.common.Proper → RepeatsLabels child d k σ' :=
  ⟨keepsProvenance_iff run start finish, fun _ proper => repeatsLabels proper finish⟩

/-- A request to adopt the Session `ns/a`, whoever owns it. -/
def forcedRequest : Request := { adoptRequest with query := [("namespace", "ns"), ("name", "a"), ("force", "1")] }

/-- The cluster after the server `j` has adopted the Session of `i`. -/
def takenOnce : Cluster Manifest :=
  ((handleAdoptSession (.plain "j" true) forcedRequest).run (answer replaceApi) (occupied "i")).2

/-- And after it has done so again. -/
def takenTwice : Cluster Manifest :=
  ((handleAdoptSession (.plain "j" true) forcedRequest).run (answer replaceApi) takenOnce).2

/-- What is stored at the key of that Session. -/
def storedIn (σ : Cluster Manifest) : Session := (σ.sessions.get ⟨"ns", "a"⟩).getD (sessionOf "")

theorem storedIn_get {σ : Cluster Manifest} (present : (σ.sessions.get ⟨"ns", "a"⟩).isSome = true) :
    σ.sessions.get ⟨"ns", "a"⟩ = some (storedIn σ) := by
  obtain ⟨s, stored⟩ := Option.isSome_iff_exists.1 present
  rw [storedIn, stored, Option.getD_some]

/-- One adoption by another instance is recorded, and a second one leaves the labels. -/
theorem provenance_kept_once :
    KeepsProvenance .codespace (adoptedFrom (storedIn (occupied "i")))
      [(storedIn (occupied "i"), ServerDeps.plain "j" true)] (storedIn takenOnce) ∧
    labelsAt takenTwice ⟨"ns", "a"⟩ = labelsAt takenOnce ⟨"ns", "a"⟩ := by
  have run : Adoptions replaceApi .codespace ⟨"ns", "a"⟩ (occupied "i")
      [(storedIn (occupied "i"), ServerDeps.plain "j" true)] takenOnce :=
    .adopt (r := forcedRequest) rfl rfl (by decide) (storedIn_get (by decide +kernel)) (by decide +kernel) (.done _)
  have start := storedIn_get (σ := occupied "i") (by decide +kernel)
  have none : Adoptions replaceApi .codespace ⟨"ns", "a"⟩ (occupied "i") [] (occupied "i") := .done _
  refine ⟨(provenance_kept_iff run start (storedIn_get (by decide +kernel))).1.2 ?_, ?_⟩
  · intro step mem own
    cases List.mem_singleton.1 mem
    have differ : ownerID .codespace (storedIn (occupied "i")) ≠ "j" := by decide +kernel
    exact absurd own differ
  · exact (provenance_kept_iff none start start).2 (.plain "j" true) codespace_proper forcedRequest forcedRequest
      rfl rfl (by decide) (by decide) (by decide +kernel) (by decide +kernel)

/-- The second time the server takes itself for the one it took the Session from. -/
theorem provenance_lost :
    Adoptions replaceApi .codespace ⟨"ns", "a"⟩ (occupied "i")
      [(storedIn (occupied "i"), ServerDeps.plain "j" true), (storedIn takenOnce, ServerDeps.plain "j" true)] takenTwice ∧
    adoptedFrom (storedIn takenOnce) = some "i" ∧ adoptedFrom (storedIn takenTwice) = some "j" ∧
    ¬ KeepsProvenance .codespace (adoptedFrom (storedIn (occupied "i")))
      [(storedIn (occupied "i"), ServerDeps.plain "j" true), (storedIn takenOnce, ServerDeps.plain "j" true)]
      (storedIn takenTwice) := by
  have second : Adoptions replaceApi .codespace ⟨"ns", "a"⟩ takenOnce
      [(storedIn takenOnce, ServerDeps.plain "j" true)] takenTwice :=
    .adopt (r := forcedRequest) rfl rfl (by decide) (storedIn_get (by decide +kernel)) (by decide +kernel) (.done _)
  have first : adoptedFrom (storedIn takenOnce) = some "i" := by decide +kernel
  have twice : adoptedFrom (storedIn takenTwice) = some "j" := by decide +kernel
  refine ⟨.adopt (r := forcedRequest) rfl rfl (by decide) (storedIn_get (by decide +kernel)) (by decide +kernel) second,
    first, twice, ?_⟩
  rintro ⟨-, -, last⟩
  have owners : takenFrom (takenFrom (adoptedFrom (storedIn (occupied "i"))) (ownerID .codespace (storedIn (occupied "i"))) "j")
      (ownerID .codespace (storedIn takenOnce)) "j" = some "i" := by decide +kernel
  have same := twice.symm.trans (last.trans owners)
  exact absurd same (by decide)

end Codespace.Server
