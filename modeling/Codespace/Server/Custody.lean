import Codespace.Server.Adoption
import Codespace.Server.Ownership

/-!
# No Session is taken from an instance that is there

An adoption asks for the instances that are known, and some time later it replaces the
Session, while other servers do the same. `Takes` says what its Update rests on: the Session
was fetched, and by the answer on the instances it may be had. An Update that is accepted
replaces that very Session, so in a run throughout which an instance is known, only force
takes its Sessions from it (`custody`).
-/

namespace Codespace.Server
set_option autoImplicit false
open Interact Versioned Controller Go

variable {χ : Type} {child : ChildApi χ} {d : ServerDeps} {r : Request} {route : Route} {v v' : LoggedView χ}

/-! ## What an adoption rests on -/

/-- By the instances that the request was told of, the server may have the Session. -/
def MayHave (d : ServerDeps) (r : Request) (s : Session) (l : CallLog χ) : Prop :=
  InScope d s ∧ ∃ ev ∈ l, Available d ev.before.index r s

/-- An Update of an adoption rests on what was fetched, and may be had. -/
def Takes (d : ServerDeps) (r : Request) (v : LoggedView χ) : Call → Prop
  | .update s => ∃ cur, Fetched (adoptKey r) cur v ∧ s.SameObject cur ∧ MayHave d r cur v.2
  | _ => True

theorem MayHave.rely {s : Session} (h : MayHave d r s v.2) (rely : (Among child).logged.rely v v') :
    MayHave d r s v'.2 := by
  rw [rely.2]
  exact h

theorem MayHave.logged {s : Session} (h : MayHave d r s v.2) {c : Call} {a : Answer c}
    (ans : (Among child).logged.answer v c a v') : MayHave d r s v'.2 := by
  obtain ⟨scope, ev, mem, free⟩ := h
  exact ⟨scope, ev, by rw [ans.2]; exact List.mem_append_left _ mem, free⟩

theorem adoptSession_takes {cl : Claims} {cur : Session} (fetched : Fetched (adoptKey r) cur v) :
    (adoptSession d r cl cur).wp (Among child).logged (Takes d r) (fun _ _ => True) v := by
  unfold adoptSession
  extract_lets oldID
  split
  · exact fun _ _ => trivial
  rename_i scope
  refine fun v₁ rely => ⟨trivial, fun index v₂ ans => ?_⟩
  have normal : index = v₁.1.index := answers_certain (fun _ => rfl) ans.1
  show ((if _ then _ else _ : Api HttpResp)).wp _ _ _ _
  split
  · exact fun _ _ => trivial
  rename_i free
  have within : InScope d cur ∧ Available d v₁.1.index r cur := by
    rw [← normal]
    exact (refusal_eq_none_iff index).1 ((if_neg scope).trans (if_neg free))
  have mine : MayHave d r cur v₂.2 :=
    ⟨within.1, ⟨_, index, v₁.1, v₂.1⟩, by rw [ans.2]; exact List.mem_append_right _ List.mem_cons_self, within.2⟩
  have still : Fetched (adoptKey r) cur v₂ := (fetched.rely rely).reads ans rfl
  refine fun v₃ rely' => ⟨trivial, fun now v₄ ans' => ?_⟩
  show ((if _ then _ else _ : Api HttpResp)).wp _ _ _ _
  split
  · exact fun _ _ => trivial
  refine wp_store (I := fun v => Fetched (adoptKey r) cur v ∧ MayHave d r cur v.2)
    (fun _ _ h rely => ⟨h.1.rely rely, h.2.rely rely⟩) (fun _ h => ⟨cur, h.1, adopted_same d cl now cur, h.2⟩)
    (fun _ _ _ h ans conflict => ⟨h.1.conflict ans conflict, h.2.logged ans⟩) (fun _ _ _ => trivial)
    (fun _ _ _ _ _ _ _ => trivial) ?_
  exact ⟨(still.rely rely').reads ans' rfl, (mine.rely rely').logged ans'⟩

theorem handleAdoptSession_takes (quiet : Quiet v.2) :
    (handleAdoptSession d r).wp (Among child).logged (Takes d r) (fun _ _ => True) v := by
  unfold handleAdoptSession
  split
  · exact fun _ _ => trivial
  extract_lets ns name
  split
  · exact fun _ _ => trivial
  split
  · exact fun _ _ => trivial
  rename_i cl claims
  refine wp_mayAdopt (I := fun v => Quiet v.2) (fun _ _ h rely => h.rely rely)
    (fun _ _ _ => ⟨fun _ _ => trivial, fun _ _ _ h ans => h.reads ans rfl⟩) (fun _ _ _ _ => trivial) ?_ quiet
  intro v₁ v₂ h _
  refine fun v₃ rely => ⟨trivial, fun got v₄ ans => ?_⟩
  cases got with
  | error e => exact fun _ _ => trivial
  | ok cur => exact adoptSession_takes ((h.rely rely).fetched ans)

/-- What a job rests on, if it is an adoption. -/
def Job.Takes : Job → LoggedView χ → Call → Prop
  | .serve d .adopt r => Server.Takes d r
  | _ => fun _ _ => True

theorem code_takes (j : Job) (σ : Cluster χ) :
    j.code.wp (Among child).logged j.Takes (fun _ _ => True) (σ, []) := by
  have quiet : Quiet (σ, ([] : CallLog χ)).2 := fun _ mem => absurd mem List.not_mem_nil
  have anything : ∀ (p : Api (Option HttpResp)) (v : LoggedView χ),
      p.wp (Among child).logged (fun _ _ => True) (fun _ _ => True) v :=
    fun p v => Prog.wp_true (fun _ _ => trivial) v
  cases j with
  | serve d route r =>
    cases route with
    | adopt =>
      refine Prog.wp_bind (Prog.wp_mono (Q := fun _ _ => True) ?_ fun _ _ _ _ _ => trivial)
      unfold serve wrapWithRBAC
      refine wrapWithAuth_cases (P := fun p => Prog.wp _ _ p _ _) (fun _ _ _ => trivial) ?_
      refine wp_mustCan (I := fun v => Quiet v.2) (fun _ _ h rely => h.rely rely)
        (fun _ => ⟨fun _ _ => trivial, fun _ _ _ h ans => h.reads ans rfl⟩) (fun _ _ _ _ _ _ => trivial) ?_ quiet
      exact fun _ _ _ _ h _ => handleAdoptSession_takes h
    | _ => exact anything _ _
  | _ => exact anything _ _

/-! ## One call -/

/-- Requests of servers that share the package `c`, and Reconciles. Of the adoptions of cluster-scoped
servers, only those for the instance `inst` are forced. -/
def Unforced (c : Common) (inst : String) : Job → Prop
  | .serve d route r => d.common = c ∧
      (route = .adopt → d.clusterScope = true → queryFlag r "force" = true → d.instanceID = inst)
  | .reconcile _ _ => True
  | .call _ => False

/-- Only an adoption changes the instance. -/
theorem edited_ownerID (proper : d.common.Proper) {now : String} {k : Key} {change : Session → Session}
    (own : transformation d route r now = some (k, change)) (other : route ≠ .adopt) (s : Session) :
    ownerID d.common (change s) = ownerID d.common s := by
  have names := proper.labels
  simp only [List.nodup_cons, List.mem_cons, List.not_mem_nil, or_false, not_or] at names
  obtain ⟨⟨distinct, -⟩, -⟩ := names
  obtain ⟨cl, -, ⟨adopt, -⟩ | ⟨-, -, n, -, rfl⟩ | ⟨-, -, ed, edits, rfl⟩⟩ := transformation_cases own
  · exact absurd adopt other
  · rfl
  · show ownerID d.common (ed s) = _
    unfold edit at edits
    split at edits
    · obtain ⟨req, -, rfl⟩ := Option.map_eq_some_iff.1 edits
      rfl
    · obtain ⟨updates, -, rfl⟩ := Option.map_eq_some_iff.1 edits
      have metadata : (patched d updates s).metadata.labels = s.metadata.labels.insert d.common.labelCreatedBy
          (d.common.subjectToLabelID (s.metadata.annotations.index d.common.annotationCreatedBy)) := by
        unfold patched patchedReplicas patchedProfile
        dsimp only
        split <;> split <;> rfl
      simp only [ownerID, GoMap.index, metadata, Finmap.lookup_insert_of_ne _ (Ne.symm distinct)]

theorem adopted_ownerID (proper : d.common.Proper) (cl : Claims) (now : String) (s : Session) :
    ownerID d.common (adopted d cl now s) = d.instanceID := by
  rw [ownerID, GoMap.index, (adopted_adoptedAs proper cl now s).instanceID, Option.getD_some]

section

variable {c : Common} {inst : String} {k : Key} {cur s : Session} {j : Job}

/-- An adoption that may have a Session of a known instance is the instance's own. -/
theorem MayHave.own {l : CallLog χ} (may : MayHave d r cur l) (named : ownerID d.common cur ≠ "")
    (known : ∀ ev ∈ l, ev.before.index.lookup (ownerID d.common cur) ≠ none)
    (unforced : d.clusterScope = true → queryFlag r "force" = true → d.instanceID = ownerID d.common cur) :
    d.instanceID = ownerID d.common cur := by
  obtain ⟨scope, ev, mem, (nobody | lost) | own | force⟩ := may
  · exact absurd nobody named
  · exact absurd lost (known ev mem)
  · exact own.symm
  · rcases scope with cluster | nobody | own
    · exact unforced cluster force
    · exact absurd nobody named
    · exact own.symm

/-- An accepted Update of a request leaves the Session with its instance. -/
theorem custody_serve (proper : d.common.Proper) (ok : Unforced d.common inst (.serve d route r)) (named : inst ≠ "")
    (known : ∀ ev ∈ v.2, ev.before.index.lookup inst ≠ none) {sent : Session}
    (sends : (Job.serve d route r).Sends v (.update sent)) (takes : (Job.serve d route r).Takes v (.update sent))
    (accepted : v.1.sessions.check sent.key sent.metadata.resourceVersion = .ok cur)
    (own : ownerID d.common cur = inst) : ownerID d.common (updated cur sent) = inst := by
  obtain ⟨-, -, now, k', change, cur', trans, fetched, rfl⟩ := sends
  have same := transformation_same trans cur'
  obtain ⟨rfl, -⟩ := fetched.check same.key same.version accepted
  rw [updated_of_same same]
  by_cases adopt : route = .adopt
  · subst adopt
    obtain ⟨cur₂, fetched₂, same₂, may⟩ := takes
    obtain ⟨rfl, -⟩ := fetched₂.check same₂.key same₂.version accepted
    have mine := may.own (by rwa [own]) (by rwa [own]) (by rw [own]; exact ok.2 rfl)
    obtain ⟨cl, -, ⟨-, rfl⟩ | ⟨other, -⟩ | ⟨other, -⟩⟩ := transformation_cases trans
    · exact (adopted_ownerID proper cl now cur).trans (mine.trans own)
    · exact absurd rfl other
    · exact absurd rfl other
  · exact (edited_ownerID proper trans adopt cur).trans own

/-- **One call.** It leaves a Session of a known instance where it is, or takes it away for good. -/
theorem custody_call (proper : c.Proper) (ok : Unforced c inst j) (named : inst ≠ "")
    (known : ∀ ev ∈ v.2, ev.before.index.lookup inst ≠ none) {call : Call} {a : Answer call} {σ' : Cluster χ}
    (sends : j.Sends v call) (takes : j.Takes v call) (ans : Answers child v.1 call a σ')
    (stored : v.1.sessions.get k = some cur) (own : ownerID c cur = inst) (held : σ'.sessions.get k = some s) :
    ownerID c s = inst := by
  have still : σ'.sessions.get k = v.1.sessions.get k → ownerID c s = inst := by
    intro same
    cases stored.symm.trans (same.symm.trans held)
    exact own
  -- what is committed belongs to the instance, if what it replaces does
  have commit : ∀ {new : Session}, (v.1.sessions.get new.key = some cur → ownerID c new = inst) →
      σ' = v.1.commit new → ownerID c s = inst := by
    rintro new keeps rfl
    rcases commit_cases held with before | ⟨rfl, rfl⟩
    · exact still (held.trans before.symm)
    · exact keeps stored
  cases call with
  | create sent =>
    rcases answers_create ans with same | ⟨uid, free, same⟩
    · exact still (congrArg (Store.get · k) same)
    · have apart : k ≠ (created uid sent).key := by
        rintro rfl
        cases stored.symm.trans free
      exact still (by rw [same, Cluster.commit_get_ne apart])
  | update sent =>
    rcases answers_update ans with ⟨rfl, -⟩ | ⟨found, accepted, rfl, -⟩
    · exact still rfl
    have place : (updated found sent).key = found.key := (v.1.keyed _ _ (Store.check_ok.1 accepted).1).symm
    refine commit (fun there => ?_) rfl
    cases (accepted_stored accepted).symm.trans (place ▸ there)
    cases j with
    | call made => cases ok
    | serve d route r =>
      have common : d.common = c := ok.1
      subst common
      exact custody_serve proper ok named known sends takes accepted own
    | reconcile rec k' =>
      obtain ⟨cur', fetched, rfl | rfl⟩ := sends
      · obtain ⟨rfl, -⟩ := fetched.check rfl rfl accepted
        exact own
      · obtain ⟨finalizers, eq⟩ := addFinalizer_eq (applyDefaults cur')
        rw [eq] at accepted ⊢
        obtain ⟨rfl, -⟩ := fetched.check rfl rfl accepted
        exact own
  | updateStatus sent =>
    rcases answers_updateStatus ans with ⟨rfl, -⟩ | ⟨found, accepted, rfl, -⟩
    · exact still rfl
    · refine commit (fun there => ?_) rfl
      cases (accepted_stored accepted).symm.trans there
      exact own
  | delete k' =>
    rcases answers_delete_cases ans with rfl | rfl | ⟨found, t, here, rfl⟩
    · exact still rfl
    · by_cases same : k = k'
      · subst same
        simp [Cluster.drop] at held
      · exact still (by rw [Cluster.drop, Store.get_erase_ne _ same])
    · refine commit (fun there => ?_) rfl
      cases (v.1.keyed _ _ here ▸ here : v.1.sessions.get found.key = some found).symm.trans there
      exact own
  | apply owner m =>
    rcases answers_apply ans with ⟨rfl, -⟩ | ⟨ch, -, rfl⟩ <;> exact still rfl
  | _ => exact still (by rw [answers_reads ans rfl])

end

/-! ## Runs -/

section

variable {c : Common} {inst : String} {k : Key} {s : Session}

/-- One step at a time when the instance is known, after which the Session is still there. -/
def Attended (child : ChildApi χ) (ok : Job → Prop) (k : Key) (inst : String) (P P' : Jobs χ ok) : Prop :=
  (Pool.Step (closed child ok) P P' ∧ P.state.index.lookup inst ≠ none) ∧ P'.state.sessions.get k ≠ none

theorem closed_takes {ok : Job → Prop} {σ : Cluster χ} {P : Jobs χ ok}
    (run : Relation.ReflTransGen (Pool.Step (closed child ok)) (Pool.initial σ) P) :
    Pool.Sound (fun _ => (Among child).logged) (fun j => j.1.Takes) (fun _ _ _ => True) P :=
  (Pool.sound_initial σ).run (closed_answers child ok) (fun j σ => code_takes j.1 σ)
    (run.lift (fun P => P) fun _ _ step => closed_kept step)

/-- **Main result.** While an instance is known, its Sessions stay its own, whatever requests of any
servers and Reconciles interleave, unless a cluster-scoped server forces an adoption. -/
theorem custody (proper : c.Proper) (named : inst ≠ "") {σ : Cluster χ} (stored : σ.sessions.get k = some s)
    (own : ownerID c s = inst) {P : Jobs χ (Unforced c inst)}
    (run : Relation.ReflTransGen (Attended child (Unforced c inst) k inst) (Pool.initial σ) P) :
    ∃ cur, P.state.sessions.get k = some cur ∧ ownerID c cur = inst := by
  induction run with
  | refl => exact ⟨s, stored, own⟩
  | @tail P P' before last ih =>
    obtain ⟨cur, held, mine⟩ := ih
    obtain ⟨⟨step, now⟩, there⟩ := last
    obtain ⟨s', held'⟩ := Option.ne_none_iff_exists'.1 there
    refine ⟨s', held', ?_⟩
    have attended := before.lift (p := fun P P' : Jobs χ (Unforced c inst) =>
      Pool.Step (closed child (Unforced c inst)) P P' ∧ P.state.index.lookup inst ≠ none) id fun _ _ step => step.1
    have steps := attended.lift (p := Pool.Step (closed child (Unforced c inst))) id fun _ _ step => step.1
    have known := Pool.logged_before (I := fun σ : Cluster χ => σ.index.lookup inst ≠ none) attended
      fun _ _ held => absurd held.symm (Option.some_ne_none _)
    have same : P'.state.sessions = P.state.sessions → ownerID c s' = inst := by
      intro eq
      cases held.symm.trans (eq ▸ held')
      exact mine
    cases step with
    | spawn i j free => exact same rfl
    | drift unchanged => exact same unchanged
    | @act i t call kont a σ' running next ans =>
      exact custody_call proper t.job.2 named (v := (P.state, t.log)) (known i t running)
        ((closed_sound steps).guarantee running next) ((closed_takes steps).guarantee running next) ans held mine held'

end

/-- A call made while the instance `i` is known, after which its Session `ns/a` is there. -/
def attends (σ : Cluster Manifest) (c : Call) (_ : Answer c) : Bool :=
  (σ.index.lookup "i").isSome && ((answer replaceApi σ c).2.sessions.get ⟨"ns", "a"⟩).isSome

theorem attended_job {P : Jobs Manifest (Unforced .codespace "i")} {n : Nat} (free : P.threads n = none)
    (j : {j // Unforced .codespace "i" j}) (known : P.state.index.lookup "i" ≠ none)
    (there : P.state.sessions.get ⟨"ns", "a"⟩ ≠ none)
    (checks : j.1.code.runChecks (answer replaceApi) attends P.state = true) :
    ∃ P', Relation.ReflTransGen (Attended replaceApi (Unforced .codespace "i") ⟨"ns", "a"⟩ "i") P P' ∧
      P'.state = (j.1.code.run (answer replaceApi) P.state).2 ∧ ∀ n', n' ≠ n → P'.threads n' = P.threads n' := by
  have checked : ∀ Q Q', Pool.Step (closed replaceApi (Unforced .codespace "i")) Q Q' →
      (∃ c, attends Q.state c (answer replaceApi Q.state c).1 = true ∧ Q'.state = (answer replaceApi Q.state c).2) →
      Attended replaceApi (Unforced .codespace "i") ⟨"ns", "a"⟩ "i" Q Q' := by
    rintro Q Q' step ⟨c, ok, eq⟩
    rw [attends, Bool.and_eq_true, Option.isSome_iff_ne_none, Option.isSome_iff_ne_none, ← eq] at ok
    exact ⟨⟨step, ok.1⟩, ok.2⟩
  obtain ⟨P', run, state, others⟩ := Pool.run_checked (answers_answer replaceApi) checked
    (Pool.set_threads_self P n ⟨j, [], j.1.code⟩) checks
  exact ⟨P', .head ⟨⟨.spawn n j free, known⟩, there⟩ run, state,
    fun n' ne => (others n' ne).trans (Pool.set_threads_ne _ _ ne)⟩

/-- The cluster `occupied "i"`, where the instance is known. -/
def attendedCluster : Cluster Manifest :=
  { occupied "i" with index := (∅ : GoMap String AnchorMeta).insert "i" ⟨"helm", "ns", "i"⟩ }

/-- A cluster-scoped server of another instance asks for the Session and is turned down; the instance's
own server adopts it again. -/
theorem custody_refused : ∃ P : Jobs Manifest (Unforced .codespace "i"), Relation.ReflTransGen
    (Attended replaceApi (Unforced .codespace "i") ⟨"ns", "a"⟩ "i") (Pool.initial attendedCluster) P ∧
    ∃ cur, P.state.sessions.get ⟨"ns", "a"⟩ = some cur ∧ ownerID .codespace cur = "i" := by
  let refused : {j // Unforced .codespace "i" j} :=
    ⟨.serve (.plain "j" true) .adopt adoptRequest, rfl, fun _ _ force => absurd force (by decide)⟩
  let served : {j // Unforced .codespace "i" j} :=
    ⟨.serve (.plain "i" true) .adopt adoptRequest, rfl, fun _ _ _ => rfl⟩
  obtain ⟨P₁, first, after, others⟩ := attended_job (P := Pool.initial attendedCluster) (n := 0) rfl refused
    (by decide +kernel) (by decide +kernel) (by decide +kernel)
  obtain ⟨P₂, second, -, -⟩ := attended_job (P := P₁) (n := 1) (others 1 (by decide)) served
    (by rw [after]; decide +kernel) (by rw [after]; decide +kernel) (by rw [after]; decide +kernel)
  have stored : attendedCluster.sessions.get ⟨"ns", "a"⟩ = some (stamp 1 (sessionOf "i")) :=
    (occupied_get "i" _).trans (if_pos rfl)
  have run := first.trans second
  exact ⟨P₂, run, custody codespace_proper (by decide) stored (by decide +kernel) run⟩

end Codespace.Server
