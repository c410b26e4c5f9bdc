import Codespace.Server.Writes

/-!
# Who created a Session, and whose it is

The creator of a Session is on record in an annotation and, as an id, in a label. The
instance that the Session belongs to is in a label too, and so is the manager of that
instance, in three more. `OwnedBy` says what they are for a creator and an owner.

Requests of any servers and Reconciles leave the creator alone, and the owner changes by
adoption only, in all four labels at once (`transformation_owned`). `Traced` is a run with
a record of the last adoption that took effect; the record and the labels always agree.
-/

namespace Codespace.Server
set_option autoImplicit false
open Interact Versioned Controller Go

variable {χ : Type} {child : ChildApi χ} {d : ServerDeps} {r : Request} {route : Route}

/-- An instance and its manager. -/
structure Owner where
  instanceID : String
  manager : AnchorMeta
  deriving DecidableEq

def ServerDeps.owner (d : ServerDeps) : Owner := ⟨d.instanceID, d.manager⟩

/-- The labels have different names, and the annotation of the creator none of the names that
updates and adoptions write. -/
structure Common.Proper (c : Common) : Prop where
  labels : [c.labelCreatedBy, c.instanceIDLabel, c.labelManagerType, c.labelManagerNamespace,
    c.labelManagerName].Nodup
  annotation : c.annotationCreatedBy ∉ ["codespace.dev/updated-at", "codespace.dev/updated-by",
    "codespace.dev/adopted-from", "codespace.dev/adopted-at", "codespace.dev/adopted-by"]

theorem codespace_proper : Common.codespace.Proper := ⟨by decide +kernel, by decide +kernel⟩

/-- What a Session says of its creator `p` and its owner. -/
structure OwnedBy (c : Common) (p : String) (o : Owner) (s : Session) : Prop where
  annotation : s.metadata.annotations.lookup c.annotationCreatedBy = some p
  creator : s.metadata.labels.lookup c.labelCreatedBy = some (c.subjectToLabelID p)
  instanceID : s.metadata.labels.lookup c.instanceIDLabel = some o.instanceID
  managerType : s.metadata.labels.lookup c.labelManagerType = some o.manager.type
  managerNamespace : s.metadata.labels.lookup c.labelManagerNamespace = some o.manager.ns
  managerName : s.metadata.labels.lookup c.labelManagerName = some o.manager.name

/-- Only the metadata matters. -/
theorem OwnedBy.congr {c : Common} {p : String} {o : Owner} {s s' : Session} (h : OwnedBy c p o s)
    (labels : s'.metadata.labels = s.metadata.labels)
    (annotations : s'.metadata.annotations = s.metadata.annotations) : OwnedBy c p o s' :=
  ⟨annotations ▸ h.annotation, labels ▸ h.creator, labels ▸ h.instanceID, labels ▸ h.managerType,
    labels ▸ h.managerNamespace, labels ▸ h.managerName⟩

/-! ## Requests -/

section

variable {p : String} {o : Owner} {s : Session}

theorem requested_owned (proper : d.common.Proper) (req : SessionCreateRequest) (cl : Claims) (now : String) :
    OwnedBy d.common cl.sub d.owner (requested d req cl now) := by
  have names := proper.labels
  simp only [List.nodup_cons, List.mem_cons, List.not_mem_nil, or_false, not_or] at names
  obtain ⟨⟨h₁, h₂, h₃, h₄⟩, ⟨h₅, h₆, h₇⟩, ⟨h₈, h₉⟩, h₁₀, -⟩ := names
  constructor <;>
    simp [requested, ServerDeps.owner, Finmap.lookup_insert, Finmap.lookup_insert_of_ne, *]

theorem touched_owned (proper : d.common.Proper) (cl : Claims) (now : String)
    (h : OwnedBy d.common p o s) : OwnedBy d.common p o (touched cl now s) := by
  have names := proper.annotation
  simp only [List.mem_cons, List.not_mem_nil, or_false, not_or] at names
  obtain ⟨h₁, h₂, -⟩ := names
  refine ⟨?_, h.creator, h.instanceID, h.managerType, h.managerNamespace, h.managerName⟩
  simp [touched, Session.withAnnotations, Finmap.lookup_insert_of_ne, h₁, h₂, h.annotation]

theorem patched_owned (proper : d.common.Proper) (updates : List (String × Json))
    (h : OwnedBy d.common p o s) : OwnedBy d.common p o (patched d updates s) := by
  have names := proper.labels
  simp only [List.nodup_cons, List.mem_cons, List.not_mem_nil, or_false, not_or] at names
  obtain ⟨⟨h₁, h₂, h₃, h₄⟩, -⟩ := names
  -- the label is written again from the annotation, and so with the value it has
  have again : OwnedBy d.common p o (s.withLabels (s.metadata.labels.insert d.common.labelCreatedBy
      (d.common.subjectToLabelID (s.metadata.annotations.index d.common.annotationCreatedBy)))) := by
    refine ⟨h.annotation, ?_, ?_, ?_, ?_, ?_⟩
    · simp [Session.withLabels, GoMap.index, h.annotation]
    · simp [Session.withLabels, Finmap.lookup_insert_of_ne, Ne.symm h₁, h.instanceID]
    · simp [Session.withLabels, Finmap.lookup_insert_of_ne, Ne.symm h₂, h.managerType]
    · simp [Session.withLabels, Finmap.lookup_insert_of_ne, Ne.symm h₃, h.managerNamespace]
    · simp [Session.withLabels, Finmap.lookup_insert_of_ne, Ne.symm h₄, h.managerName]
  have metadata : ∀ s, (patchedReplicas d updates (patchedProfile updates s)).metadata = s.metadata := by
    intro s
    unfold patchedReplicas patchedProfile
    split <;> split <;> rfl
  exact again.congr (congrArg ObjectMeta.labels (metadata _)) (congrArg ObjectMeta.annotations (metadata _))

theorem edit_owned (proper : d.common.Proper) {change : Session → Session} (ed : edit d r = some change)
    (h : OwnedBy d.common p o s) : OwnedBy d.common p o (change s) := by
  unfold edit at ed
  split at ed
  · obtain ⟨req, -, rfl⟩ := Option.map_eq_some_iff.1 ed
    exact h.congr rfl rfl
  · obtain ⟨updates, -, rfl⟩ := Option.map_eq_some_iff.1 ed
    exact patched_owned proper updates h

/-- An adoption writes all four labels, whatever they were. -/
theorem adopted_owned (proper : d.common.Proper) (cl : Claims) (now : String)
    (h : OwnedBy d.common p o s) : OwnedBy d.common p d.owner (adopted d cl now s) := by
  have names := proper.labels
  simp only [List.nodup_cons, List.mem_cons, List.not_mem_nil, or_false, not_or] at names
  obtain ⟨⟨h₁, h₂, h₃, h₄⟩, ⟨h₅, h₆, h₇⟩, ⟨h₈, h₉⟩, h₁₀, -⟩ := names
  have others := proper.annotation
  simp only [List.mem_cons, List.not_mem_nil, or_false, not_or] at others
  obtain ⟨-, -, a₁, a₂, a₃⟩ := others
  refine ⟨?_, ?_, ?_, ?_, ?_, ?_⟩
  · have kept := h.annotation
    simp only [adopted, Session.withAnnotations]
    rw [Finmap.lookup_insert_of_ne _ a₃, Finmap.lookup_insert_of_ne _ a₂]
    split
    · rwa [Finmap.lookup_insert_of_ne _ a₁]
    · exact kept
  all_goals
    simp [adopted, Session.withAnnotations, Session.withLabels, ServerDeps.owner, Finmap.lookup_insert,
      Finmap.lookup_insert_of_ne, h.creator, *]

/-- **What a request makes of a Session.** The creator stays, and the owner changes by adoption
only. -/
theorem transformation_owned (proper : d.common.Proper) {now : String} {k : Key} {change : Session → Session}
    (own : transformation d route r now = some (k, change)) (h : OwnedBy d.common p o s) :
    OwnedBy d.common p (if route = .adopt then d.owner else o) (change s) := by
  obtain ⟨cl, -, ⟨adopt, rfl⟩ | ⟨other, -, n, -, rfl⟩ | ⟨other, -, ed, edits, rfl⟩⟩ :=
    transformation_cases own
  · rw [if_pos adopt]
    exact adopted_owned proper cl now h
  · rw [if_neg other]
    exact h.congr rfl rfl
  · rw [if_neg other]
    exact touched_owned proper cl now (edit_owned proper edits h)

end

/-! ## Runs -/

/-- Requests of servers that share the package `c`, but no further create request, and
Reconciles. -/
def Subsequent (c : Common) : Job → Prop
  | .serve d route r => d.common = c ∧ ¬ (route = .sessions ∧ r.method = "POST")
  | .reconcile _ _ => True
  | .call _ => False

section

variable {ok : Job → Prop}

/-- In this step an adoption of the Session at `k` by the server `d` takes effect. -/
def Adopts (k : Key) (P P' : Jobs χ ok) (d : ServerDeps) : Prop :=
  ∃ i t t' r, P.threads i = some t ∧ P'.threads i = some t' ∧ t'.log ≠ t.log ∧
    t.job.1 = .serve d .adopt r ∧ P'.state.sessions.get k ≠ P.state.sessions.get k

/-- One step, and who owns the Session at `k` by the last adoption that took effect. -/
def Traced (child : ChildApi χ) (ok : Job → Prop) (k : Key) (x x' : Jobs χ ok × Owner) : Prop :=
  Pool.Step (closed child ok) x.1 x'.1 ∧
    ((∃ d, Adopts k x.1 x'.1 d ∧ x'.2 = d.owner) ∨ ((¬ ∃ d, Adopts k x.1 x'.1 d) ∧ x'.2 = x.2))

/-- Every run has such a record. -/
theorem exists_traced {k : Key} {P P' : Jobs χ ok} (o : Owner)
    (run : Relation.ReflTransGen (Pool.Step (closed child ok)) P P') :
    ∃ o', Relation.ReflTransGen (Traced child ok k) (P, o) (P', o') := by
  induction run with
  | refl => exact ⟨o, .refl⟩
  | @tail P₁ P₂ _ last ih =>
    obtain ⟨o₁, before⟩ := ih
    by_cases adopts : ∃ d, Adopts k P₁ P₂ d
    · obtain ⟨d, effect⟩ := adopts
      exact ⟨d.owner, before.tail ⟨last, .inl ⟨d, effect, rfl⟩⟩⟩
    · exact ⟨o₁, before.tail ⟨last, .inr ⟨adopts, rfl⟩⟩⟩

/-- What a step writes at a key comes from the one thread that moved. -/
theorem step_written {P P' : Jobs χ ok} (ours : ∀ j, ok j → ∀ made, j ≠ .call made)
    (sound : Pool.Sound (fun _ => (Among child).logged) (fun j => j.1.Sends) (fun _ _ _ => True) P)
    (step : Pool.Step (closed child ok) P P') {k : Key} {s : Session}
    (held : P'.state.sessions.get k = some s) :
    P.state.sessions.get k = some s ∨ ∃ i t t' n s₀, P.threads i = some t ∧ P'.threads i = some t' ∧
      t'.log ≠ t.log ∧ (∀ i' t t', P.threads i' = some t → P'.threads i' = some t' → t'.log ≠ t.log → i' = i) ∧
      s = stamp n s₀ ∧ Written t.job.1 P.state k s₀ := by
  cases step with
  | spawn i j free => exact .inl held
  | @act i t c kont a σ' running next ans =>
    have sends : t.job.1.Sends (P.state, t.log) c := sound.guarantee running next
    refine (stored_cases sends (ours _ t.job.2) ans held).imp_right fun ⟨n, s₀, eq, came⟩ => ?_
    refine ⟨i, t, _, n, s₀, running, Pool.set_threads_self _ _ _, by simp, ?_, eq, came⟩
    intro i' t₁ t₂ before after moved
    by_contra ne
    rw [Pool.set_threads_ne _ _ ne] at after
    cases before.symm.trans after
    exact moved rfl
  | @drift σ' same =>
    have unchanged : σ'.sessions = P.state.sessions := same
    exact .inl (unchanged ▸ held)

/-! ### The record -/

section

variable {k : Key} {x x' : Jobs χ ok × Owner} (step : Traced child ok k x x')

include step

/-- While the Session stays as it is, the record stays. -/
theorem Traced.still (same : x'.1.state.sessions.get k = x.1.state.sessions.get k) : x'.2 = x.2 := by
  rcases step.2 with ⟨d, ⟨i, t, t', r, -, -, -, -, changed⟩, -⟩ | ⟨-, eq⟩
  · exact absurd same changed
  · exact eq

variable {i : Nat} {t t' : JobThread χ ok} (running : x.1.threads i = some t)
  (only : ∀ i' t t', x.1.threads i' = some t → x'.1.threads i' = some t' → t'.log ≠ t.log → i' = i)

include running only

/-- It stays where the thread that moved is no adoption. -/
theorem Traced.kept (other : ∀ d r, t.job.1 ≠ .serve d .adopt r) : x'.2 = x.2 := by
  rcases step.2 with ⟨d, ⟨i', t₁, t₁', r, running', after', log', job, -⟩, -⟩ | ⟨-, eq⟩
  · cases only i' t₁ t₁' running' after' log'
    cases running.symm.trans running'
    exact absurd job (other d r)
  · exact eq

/-- It names the server of the adoption that has moved. -/
theorem Traced.adopted {d : ServerDeps} {r : Request} (after : x'.1.threads i = some t') (log : t'.log ≠ t.log) (job : t.job.1 = .serve d .adopt r)
    (changed : x'.1.state.sessions.get k ≠ x.1.state.sessions.get k) : x'.2 = d.owner := by
  rcases step.2 with ⟨d', ⟨i', t₁, t₁', r', running', after', log', job', -⟩, eq⟩ | ⟨none, -⟩
  · cases only i' t₁ t₁' running' after' log'
    cases running.symm.trans running'
    cases job.symm.trans job'
    exact eq
  · exact absurd ⟨d, i, t, t', r, running, after, log, job, changed⟩ none

end

end

/-- One step keeps the record and the labels in agreement. -/
theorem traced_owned {c : Common} (proper : c.Proper) {p : String} {k : Key}
    {x x' : Jobs χ (Subsequent c) × Owner}
    (sound : Pool.Sound (fun _ => (Among child).logged) (fun j => j.1.Sends) (fun _ _ _ => True) x.1)
    (step : Traced child (Subsequent c) k x x')
    (owned : ∀ cur, x.1.state.sessions.get k = some cur → OwnedBy c p x.2 cur) :
    ∀ cur, x'.1.state.sessions.get k = some cur → OwnedBy c p x'.2 cur := by
  intro cur held
  by_cases same : x'.1.state.sessions.get k = x.1.state.sessions.get k
  · rw [step.still same]
    exact owned cur (same ▸ held)
  have ours : ∀ j, Subsequent c j → ∀ made, j ≠ .call made := by
    rintro j later made rfl
    exact later
  rcases step_written ours sound step.1 held with before | ⟨i, t, t', n, s₀, running, after, log, only, rfl, came⟩
  · exact absurd (held.trans before.symm) same
  have later := t.job.2
  refine (show OwnedBy c p x'.2 s₀ from ?_).congr rfl rfl
  cases came with
  | created uid job post body claims key =>
    rw [job] at later
    exact absurd ⟨rfl, post⟩ later.2
  | @changed d route r now change cur job changes admitted own stored =>
    rw [job] at later
    obtain ⟨rfl, -⟩ := later
    have result := transformation_owned proper own (owned cur stored)
    by_cases adopt : route = .adopt
    · subst adopt
      rw [step.adopted running only after log job same]
      exact result
    · rw [step.kept running only fun d' r' job' => adopt (by cases job.symm.trans job'; rfl)]
      rwa [if_neg adopt] at result
  | @unfinalized rec k' cur job stored =>
    rw [step.kept running only fun d' r' job' => by cases job.symm.trans job']
    exact (owned cur stored).congr rfl rfl
  | @finalized rec k' cur job stored =>
    rw [step.kept running only fun d' r' job' => by cases job.symm.trans job']
    obtain ⟨finalizers, eq⟩ := addFinalizer_eq (applyDefaults cur)
    rw [eq]
    exact (owned cur stored).congr rfl rfl
  | @status rec k' cur status job stored =>
    rw [step.kept running only fun d' r' job' => by cases job.symm.trans job']
    exact (owned cur stored).congr rfl rfl
  | @marked d r cur t job method stored =>
    rw [step.kept running only fun d' r' job' => by cases job.symm.trans job']
    exact (owned cur stored).congr rfl rfl

/-! ## The create request -/

/-- A Create that answers with a Session has stored it. -/
theorem answers_create_ok {σ σ' : Cluster χ} {sent out : Session}
    (ans : Answers child σ (.create sent) (.ok out) σ') :
    σ'.sessions.get out.key = some out ∧ ∃ n uid, out = stamp n (created uid sent) := by
  rcases ans with normal | ⟨m, failed, -⟩
  · simp only [answer] at normal
    split at normal
    · cases normal
    · simp only [Prod.mk.injEq, Except.ok.injEq] at normal
      obtain ⟨rfl, rfl⟩ := normal
      refine ⟨?_, _, _, rfl⟩
      have live : (created σ.nextUid sent).Held := fun deleting => by cases deleting
      exact congrArg (fun st => st.get (created σ.nextUid sent).key) (Cluster.commit_held (σ := σ) live) |>.trans
        (Store.get_write_self _ _ _)
  · cases failed

theorem handleCreateSession_owned (proper : d.common.Proper) (σ : Cluster χ) :
    (handleCreateSession d r).wp (Setting.alone (Answers child)) (fun _ _ => True) (fun resp σ' =>
      ∀ s, resp = ⟨201, .session s⟩ → ∃ cl, r.claims = some cl ∧ σ'.sessions.get s.key = some s ∧
        OwnedBy d.common cl.sub d.owner s) σ := by
  have refusal : ∀ {message : String} {status : Nat} {σ : Cluster χ}, status ≠ 201 →
      (Prog.ret (httpError message status) : Api HttpResp).wp (Setting.alone (Answers child)) (fun _ _ => True)
        (fun resp σ' => ∀ s, resp = ⟨201, .session s⟩ → ∃ cl, r.claims = some cl ∧
          σ'.sessions.get s.key = some s ∧ OwnedBy d.common cl.sub d.owner s) σ := by
    rintro message status σ ne _ _ s ⟨⟩
  unfold handleCreateSession
  split
  · exact refusal (by decide)
  split
  · exact refusal (by decide)
  rename_i req body
  split
  · exact refusal (by decide)
  extract_lets full
  split
  · exact refusal (by decide)
  split
  · exact refusal (by decide)
  refine wp_mustCan (I := fun _ => True) (fun _ _ _ _ => trivial) (fun _ => ⟨fun _ _ => trivial, fun _ _ _ _ _ => trivial⟩)
    ?_ ?_ trivial
  · rintro resp σ₁ _ bad _ _ s rfl
    exact absurd bad (show ¬ 400 ≤ 201 by decide)
  intro cl _ σ₁ claims _ _
  refine Prog.wp_perform fun σ₂ _ => ⟨trivial, fun now σ₃ _ => ?_⟩
  refine Prog.wp_perform fun σ₄ _ => ⟨trivial, fun out σ₅ ans => ?_⟩
  rcases out with e | out
  · rintro _ _ s ⟨⟩
  · rintro _ rfl s ⟨⟩
    obtain ⟨stored, n, uid, rfl⟩ := answers_create_ok ans
    exact ⟨cl, claims, stored, (requested_owned proper full cl now).congr rfl rfl⟩

/-- **Main result.** A principal creates a Session on a server. Whatever requests of any
servers and principals, and Reconciles, follow: as long as the Session exists, it names that
principal as its creator, and the instance and manager of the last adoption that took effect,
or of the first server, as its owner. -/
theorem ownership_kept (proper : d.common.Proper) {σ σ₀ : Cluster χ} {s : Session} {cl : Claims}
    (claims : r.claims = some cl)
    (creation : Exec (Setting.alone (Answers child)) (handleCreateSession d r) σ
      (.ret ⟨201, .session s⟩) σ₀) {P : Jobs χ (Subsequent d.common)} {o : Owner}
    (run : Relation.ReflTransGen (Traced child (Subsequent d.common) s.key) (Pool.initial σ₀, d.owner) (P, o)) :
    ∀ cur, P.state.sessions.get s.key = some cur → OwnedBy d.common cl.sub o cur := by
  obtain ⟨cl', claims', stored, owned⟩ :=
    Prog.wp_result creation (handleCreateSession_owned proper σ) s rfl
  cases claims.symm.trans claims'
  have all : ∀ x, Relation.ReflTransGen (Traced child (Subsequent d.common) s.key) (Pool.initial σ₀, d.owner) x →
      ∀ cur, x.1.state.sessions.get s.key = some cur → OwnedBy d.common cl.sub x.2 cur := by
    intro x run
    induction run with
    | refl =>
      intro cur held
      cases stored.symm.trans held
      exact owned
    | tail before last ih =>
      have steps := before.lift (p := Pool.Step (closed child (Subsequent d.common))) Prod.fst fun _ _ step => step.1
      exact traced_owned proper (closed_sound steps) last ih
  exact all _ run

/-- A request to create the Session `ns/a`. -/
def createRequest : Request where
  method := "POST"
  path := "/api/v1/server/sessions"
  query := []
  body := some (.obj [("name", .str "a"), ("namespace", .str "ns"),
    ("profile", .obj [("ide", .str "vscode"), ("image", .str "img")])])
  claims := some ⟨"u", []⟩

/-- The Session that it leads to. -/
def createdSession : Session :=
  stamp 1 (created 1 (requested (.plain "i" false)
    { emptyCreateRequest with name := "a", ns := "ns", profile := ⟨"vscode", "img", []⟩ } ⟨"u", []⟩
    "2025-01-01T00:00:00Z"))

/-- Another server adopts it. -/
theorem ownership_kept_adopted : ∃ (σ₀ : Cluster Manifest) (P : Jobs Manifest (Subsequent Common.codespace))
    (o : Owner), Relation.ReflTransGen (Traced replaceApi _ createdSession.key)
        (Pool.initial σ₀, (ServerDeps.plain "i" false).owner) (P, o) ∧
      ∀ cur, P.state.sessions.get createdSession.key = some cur → OwnedBy .codespace "u" o cur := by
  let σ : Cluster Manifest := { Cluster.blank with policy := allowAll }
  let d := ServerDeps.plain "i" false
  have creation := Exec.of_run (W := Setting.alone (Answers replaceApi)) (answers_answer replaceApi)
    (handleCreateSession d createRequest) σ
  have answered : ((handleCreateSession d createRequest).run (answer replaceApi) σ).1 =
      ⟨201, .session createdSession⟩ := by decide +kernel
  rw [answered] at creation
  let σ₀ := ((handleCreateSession d createRequest).run (answer replaceApi) σ).2
  let j : Job := .serve (.plain "j" true) .adopt
    { adoptRequest with query := [("namespace", "ns"), ("name", "a"), ("force", "1")] }
  let M := closed replaceApi (Subsequent Common.codespace)
  have subsequent : Subsequent Common.codespace j := ⟨rfl, by decide⟩
  have start : Pool.Step M (Pool.initial σ₀) _ := .spawn 0 ⟨j, subsequent⟩ rfl
  obtain ⟨l, rest, -⟩ := Pool.run_thread (M := M) (answers_answer replaceApi) j.code σ₀ (fun _ => none) 0
    ⟨j, subsequent⟩ []
  obtain ⟨o, run⟩ := exists_traced (k := createdSession.key) d.owner (.head start (Pool.turns_steps rest))
  have claims : createRequest.claims = some ⟨"u", []⟩ := rfl
  have kept := ownership_kept (d := d) codespace_proper claims creation run
  exact ⟨σ₀, _, o, run, kept⟩

end Codespace.Server
