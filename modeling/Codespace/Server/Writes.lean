import Codespace.Controller.Calls
import Codespace.Controller.Desired
import Codespace.Server.Updates

/-!
# What is written to a Session

Which writes a request and a Reconcile send to the API server. An Update always sends what
the request, or the controller, makes of a Session that was stored earlier (`Fetched`), so
an Update that is accepted replaces that very Session (`update_replaces`). `Sends` says so
call by call, for requests of every kind; `stored_invariant` is the rule for properties of
the stored Sessions that follows from it.
-/

namespace Codespace.Server
set_option autoImplicit false
open Interact Versioned Controller

variable {χ : Type} {child : ChildApi χ} {d : ServerDeps} {r : Request} {route : Route}

/-! ## Requests -/

/-- What a request may ask of the API server. -/
def Sends (d : ServerDeps) (route : Route) (r : Request) (v : LoggedView χ) : Call → Prop
  | .create s => route = .sessions ∧ r.method = "POST" ∧ ∃ req cl now, creation r = some req ∧ r.claims = some cl ∧
      s = requested d req cl now
  | .update s => Changes route r ∧ Admitted route r ∧ ∃ now k change cur,
      transformation d route r now = some (k, change) ∧ Fetched k cur v ∧ s = change cur
  | .updateStatus _ | .apply _ _ => False
  | .delete _ => route = .session ∧ r.method = "DELETE"
  | _ => True

theorem sends_reads {c : Call} (reads : c.reads = true) (v : LoggedView χ) : Sends d route r v c := by
  cases c <;> trivial

/-- A request sends nothing else, at any point of its course. -/
theorem Course.sends {read : Option (Key × Session)} {p : Api HttpResp} (course : Course d route r read p)
    {v : LoggedView χ} (known : Known read v) :
    p.wp (Among child).logged (Sends d route r) (fun _ _ => True) v := by
  induction course generalizing v with
  | reply => exact fun _ _ => trivial
  | ask reads _ _ ih =>
    exact fun v₁ rely => ⟨sends_reads reads v₁, fun a v₂ ans => ih a ((known.rely rely).reads ans reads)⟩
  | fetch _ _ missing found =>
    refine fun v₁ rely => ⟨trivial, fun a v₂ ans => ?_⟩
    cases a with
    | error e => exact missing e ((known.rely rely).reads ans rfl)
    | ok cur => exact found cur ((known.rely rely).got ans)
  | @store k cur now failure change changes admitted own owned =>
    exact wp_store (I := Fetched k cur) (fun _ _ h rely => h.rely rely)
      (fun _ h => ⟨changes, admitted, now, k, change, cur, own, h, rfl⟩)
      (fun _ _ _ h ans conflict => h.conflict ans conflict) (fun _ _ _ => trivial)
      (fun _ _ _ _ _ _ _ => trivial) (known.fetched k cur rfl)
  | create sessions post body claims rest =>
    refine fun v₁ _ => ⟨⟨sessions, post, _, _, _, body, claims, rfl⟩, fun a v₂ _ => ?_⟩
    obtain ⟨resp, eq⟩ := rest a
    exact eq ▸ fun _ _ => trivial
  | delete session _ method _ rest =>
    refine fun v₁ _ => ⟨⟨session, method⟩, fun a v₂ _ => ?_⟩
    obtain ⟨resp, eq⟩ := rest a
    exact eq ▸ fun _ _ => trivial

/-! ## Reconciles -/

/-- What a Reconcile may ask of the API server. -/
def Maintains (k : Key) (v : LoggedView χ) : Call → Prop
  | .update s => ∃ cur, Fetched k cur v ∧
      (s = removeFinalizer (applyDefaults cur) ∨ s = (addFinalizer (applyDefaults cur)).1)
  | .create _ | .delete _ => False
  | _ => True

theorem maintains_child {k : Key} {sess : Session} (v : LoggedView χ) (c : Call) (call : ChildCall sess c) :
    Maintains k v c := by
  cases c <;> trivial

theorem reconcile_maintains {rec : SessionReconciler} {k : Key} {v : LoggedView χ} (quiet : Quiet v.2) :
    (Reconcile rec k).wp (Among child).logged (Maintains k) (fun _ _ => True) v := by
  have children : ∀ sess (v : LoggedView χ),
      (reconcileChildren rec sess).wp (Among child).logged (Maintains k) (fun _ _ => True) v :=
    fun sess v => reconcileChildren_only.wp maintains_child v
  have fetched : ∀ {v₁ v₂ : LoggedView χ} {cur}, (Among child).logged.rely v v₁ →
      (Among child).logged.answer v₁ (.get k) (.ok cur) v₂ → Fetched k cur v₂ :=
    fun rely ans => (quiet.rely rely).fetched ans
  refine wp_reconcile (fun _ _ => trivial) (fun _ _ _ _ _ _ _ => trivial) ?_
    (fun _ v₂ cur _ _ _ _ => children _ v₂) ?_
  · intro v₁ v₂ cur rely ans _ v₃ rely'
    refine ⟨⟨cur, (fetched rely ans).rely rely', .inl rfl⟩, fun a _ _ => ?_⟩
    cases a <;> exact fun _ _ => trivial
  · intro v₁ v₂ v₃ cur rely ans rely' _ _
    exact ⟨⟨cur, (fetched rely ans).rely rely', .inr rfl⟩, fun _ _ _ _ _ => trivial,
      fun sess v₄ _ => children sess v₄⟩

/-! ## Whole runs -/

/-- What a job may ask of the API server; anything, for a single call. -/
def Job.Sends : Job → LoggedView χ → Call → Prop
  | .serve d route r => Server.Sends d route r
  | .reconcile _ k => Maintains k
  | .call made => fun _ c => c = made

theorem code_sends (j : Job) (σ : Cluster χ) :
    j.code.wp (Among child).logged j.Sends (fun _ _ => True) (σ, []) := by
  have quiet : Quiet (σ, ([] : CallLog χ)).2 := fun _ mem => absurd mem List.not_mem_nil
  cases j with
  | serve d route r =>
    have obeys : (Server.serve d route r).wp (Among child).logged (Server.Sends d route r)
        (fun _ _ => True) (σ, []) := serve_course.sends ⟨quiet, fun _ _ eq => by cases eq⟩
    exact Prog.wp_bind (Prog.wp_mono obeys fun _ _ _ _ _ => trivial)
  | reconcile rec k =>
    have maintains : (Reconcile rec k).wp (Among child).logged (Maintains k) (fun _ _ => True) (σ, []) :=
      reconcile_maintains quiet
    exact Prog.wp_bind (Prog.wp_mono maintains fun _ _ _ _ _ => trivial)
  | call c => exact fun _ _ => ⟨rfl, fun _ _ _ _ _ => trivial⟩

/-! ## What a stored Session came from -/

/-- The Session with another deletion timestamp. -/
def marked (t : Option String) (s : Session) : Session :=
  { s with metadata := { s.metadata with deletionTimestamp := t } }

/-- What a request or a Reconcile stores at a key of the cluster `σ`. -/
inductive Written (j : Job) (σ : Cluster χ) (k : Key) : Session → Prop where
  | created {d : ServerDeps} {r : Request} {req : SessionCreateRequest} {cl : Claims}
      {now : String} (uid : Nat) : j = .serve d .sessions r → r.method = "POST" → creation r = some req →
      r.claims = some cl → (requested d req cl now).key = k →
      Written j σ k (Codespace.created uid (requested d req cl now))
  | changed {d : ServerDeps} {route : Route} {r : Request} {now : String} {change : Session → Session}
      {cur : Session} : j = .serve d route r → Changes route r → Admitted route r →
      transformation d route r now = some (k, change) → σ.sessions.get k = some cur →
      Written j σ k (change cur)
  | unfinalized {rec : SessionReconciler} {k' : Key} {cur : Session} : j = .reconcile rec k' →
      σ.sessions.get k = some cur → Written j σ k (removeFinalizer (applyDefaults cur))
  | finalized {rec : SessionReconciler} {k' : Key} {cur : Session} : j = .reconcile rec k' →
      σ.sessions.get k = some cur → Written j σ k (addFinalizer (applyDefaults cur)).1
  | status {rec : SessionReconciler} {k' : Key} {cur : Session} (status : SessionStatus) :
      j = .reconcile rec k' → σ.sessions.get k = some cur → Written j σ k { cur with status := status }
  | marked {d : ServerDeps} {r : Request} {cur : Session} (t : Option String) :
      j = .serve d .session r → r.method = "DELETE" → σ.sessions.get k = some cur → Written j σ k (marked t cur)

/-- An Update with a version fetched earlier, if it is accepted, replaces what was fetched. -/
theorem Fetched.check {k : Key} {cur found sent : Session} {v : LoggedView χ} (h : Fetched k cur v)
    (key : sent.key = cur.key) (version : sent.metadata.resourceVersion = cur.metadata.resourceVersion)
    (ok : v.1.sessions.check sent.key sent.metadata.resourceVersion = .ok found) :
    found = cur ∧ v.1.sessions.get k = some cur := by
  obtain ⟨σ, held, here, -, later⟩ := h.stored
  rw [key, here, version] at ok
  have same := later.check_later held ok
  exact ⟨same, same ▸ (Store.check_ok.1 ok).1⟩

theorem answers_create {σ σ' : Cluster χ} {sent : Session} {a : Answer (.create sent)}
    (ans : Answers child σ (.create sent) a σ') :
    σ'.sessions = σ.sessions ∨ ∃ uid, σ.sessions.get sent.key = none ∧
      σ'.sessions = (σ.commit (created uid sent)).sessions := by
  have normal : (answer child σ (.create sent)).2.sessions = σ.sessions ∨ ∃ uid,
      σ.sessions.get sent.key = none ∧
        (answer child σ (.create sent)).2.sessions = (σ.commit (created uid sent)).sessions := by
    simp only [answer]
    cases free : σ.sessions.get sent.key with
    | none => exact .inr ⟨σ.nextUid, rfl, rfl⟩
    | some found => exact .inl rfl
  rcases answers_state ans with same | eq
  · exact .inl (congrArg Cluster.sessions same)
  · exact eq ▸ normal

theorem answers_delete_cases {σ σ' : Cluster χ} {k : Key} {a : Answer (.delete k)}
    (ans : Answers child σ (.delete k) a σ') :
    σ' = σ ∨ σ' = σ.drop k ∨ ∃ cur t, σ.sessions.get k = some cur ∧ σ' = σ.commit (marked t cur) := by
  have normal : (σ.delete k).2 = σ ∨ (σ.delete k).2 = σ.drop k ∨
      ∃ cur t, σ.sessions.get k = some cur ∧ (σ.delete k).2 = σ.commit (marked t cur) := by
    unfold Cluster.delete
    split
    · exact .inl rfl
    rename_i cur held
    split
    · exact .inr (.inl rfl)
    split
    · exact .inl rfl
    · exact .inr (.inr ⟨cur, some σ.clock, held, rfl⟩)
  rcases answers_state ans with same | eq
  · exact .inl same
  · exact eq ▸ normal

/-- What a conditional write was checked against is stored under its own key. -/
theorem accepted_stored {σ : Cluster χ} {sent cur : Session}
    (ok : σ.sessions.check sent.key sent.metadata.resourceVersion = .ok cur) : σ.sessions.get cur.key = some cur := by
  have found := (Store.check_ok.1 ok).1
  exact σ.keyed _ _ found ▸ found

section

variable {j : Job} {v : LoggedView χ} {k : Key} {s new : Session}

theorem written_of_commit (written : k = new.key → Written j v.1 k new)
    (held : (v.1.commit new).sessions.get k = some s) :
    v.1.sessions.get k = some s ∨ ∃ n s₀, s = stamp n s₀ ∧ Written j v.1 k s₀ :=
  (commit_cases held).imp_right fun ⟨here, eq⟩ => ⟨_, new, eq, written here⟩

/-- What an accepted Update of a Reconcile writes. -/
theorem written_reconcile {rec : SessionReconciler} {k' : Key} {sent cur : Session}
    (sends : (Job.reconcile rec k').Sends v (.update sent))
    (ok : v.1.sessions.check sent.key sent.metadata.resourceVersion = .ok cur) (here : k = (updated cur sent).key) :
    Written (.reconcile rec k') v.1 k (updated cur sent) := by
  have current := accepted_stored ok
  obtain ⟨cur', fetched, rfl | rfl⟩ := sends
  · obtain ⟨rfl, -⟩ := fetched.check rfl rfl ok
    exact here ▸ .unfinalized rfl current
  · have added : (addFinalizer (applyDefaults cur')).1.key = cur'.key ∧
        (addFinalizer (applyDefaults cur')).1.metadata.resourceVersion = cur'.metadata.resourceVersion ∧
        updated cur' (addFinalizer (applyDefaults cur')).1 = (addFinalizer (applyDefaults cur')).1 := by
      obtain ⟨finalizers, eq⟩ := addFinalizer_eq (applyDefaults cur')
      rw [eq]
      exact ⟨rfl, rfl, rfl⟩
    obtain ⟨rfl, -⟩ := fetched.check added.1 added.2.1 ok
    rw [added.2.2] at here ⊢
    exact here ▸ added.1 ▸ .finalized rfl current

/-- What an accepted Update of a request writes. -/
theorem written_serve {d : ServerDeps} {route : Route} {r : Request} {sent cur : Session}
    (sends : (Job.serve d route r).Sends v (.update sent))
    (ok : v.1.sessions.check sent.key sent.metadata.resourceVersion = .ok cur) (here : k = (updated cur sent).key) :
    Written (.serve d route r) v.1 k (updated cur sent) := by
  obtain ⟨changes, admitted, now, k', change, cur', own, fetched, rfl⟩ := sends
  have same := transformation_same own cur'
  obtain ⟨rfl, stored⟩ := fetched.check same.key same.version ok
  rw [updated_of_same same] at here ⊢
  have k'_eq : k' = k := by rw [here, same.key, v.1.keyed _ _ stored]
  subst k'_eq
  exact .changed rfl changes admitted own stored

end

/-- **Inversion.** After a call of a request or a Reconcile every key holds what it held, or
what that call has written. -/
theorem stored_cases {j : Job} {v : LoggedView χ} {c : Call} {a : Answer c} {σ' : Cluster χ}
    (sends : j.Sends v c) (ours : ∀ made, j ≠ .call made) (ans : Answers child v.1 c a σ') {k : Key}
    {s : Session} (held : σ'.sessions.get k = some s) :
    v.1.sessions.get k = some s ∨ ∃ n s₀, s = stamp n s₀ ∧ Written j v.1 k s₀ := by
  cases c with
  | create sent =>
    cases j with
    | call made => exact absurd rfl (ours made)
    | reconcile rec k' => cases sends
    | serve d route r =>
      obtain ⟨rfl, post, req, cl, now, body, claims, rfl⟩ := sends
      rcases answers_create ans with same | ⟨uid, -, eq⟩
      · exact .inl (same ▸ held)
      · rw [eq] at held
        exact written_of_commit (fun here => .created uid rfl post body claims here.symm) held
  | update sent =>
    rcases answers_update ans with ⟨rfl, -⟩ | ⟨found, ok, rfl, -⟩
    · exact .inl held
    cases j with
    | call made => exact absurd rfl (ours made)
    | reconcile rec k' => exact written_of_commit (written_reconcile sends ok) held
    | serve d route r => exact written_of_commit (written_serve sends ok) held
  | updateStatus sent =>
    rcases answers_updateStatus ans with ⟨rfl, -⟩ | ⟨cur, ok, rfl, -⟩
    · exact .inl held
    · cases j with
      | call made => exact absurd rfl (ours made)
      | serve d route r => cases sends
      | reconcile rec k' =>
        exact written_of_commit (fun here => here ▸ .status sent.status rfl (accepted_stored ok)) held
  | delete k' =>
    rcases answers_delete_cases ans with rfl | rfl | ⟨cur, t, stored, rfl⟩
    · exact .inl held
    · by_cases same : k = k'
      · subst same
        simp [Cluster.drop] at held
      · exact .inl (by rwa [Cluster.drop, Store.get_erase_ne _ same] at held)
    · cases j with
      | call made => exact absurd rfl (ours made)
      | reconcile rec k' => cases sends
      | serve d route r =>
        obtain ⟨rfl, method⟩ := sends
        exact written_of_commit (fun here => here ▸ .marked t rfl method (v.1.keyed _ _ stored ▸ stored)) held
  | apply owner m =>
    rcases answers_apply ans with ⟨rfl, -⟩ | ⟨ch, -, rfl⟩
    · exact .inl held
    · exact .inl held
  | _ =>
    rw [answers_reads ans rfl] at held
    exact .inl held

/-! ## Runs of requests and Reconciles -/

/-- Requests and Reconciles of these kinds on one cluster, where nobody else writes Sessions. -/
def closed (child : ChildApi χ) (ok : Job → Prop) :
    Pool.Machine {j // ok j} Call Answer (Option HttpResp) (Cluster χ) :=
  { (fleet child).only ok with drift := fun σ σ' => σ'.sessions = σ.sessions }

abbrev Jobs (χ : Type) (ok : Job → Prop) := Pool {j // ok j} Call Answer (Option HttpResp) (Cluster χ)

abbrev JobThread (χ : Type) (ok : Job → Prop) := Thread {j // ok j} Call Answer (Option HttpResp) (Cluster χ)

section

variable {ok : Job → Prop}

theorem closed_answers (child : ChildApi χ) (ok : Job → Prop) :
    Pool.Answers (closed child ok) fun _ => (Among child).logged :=
  fun _ _ _ _ _ _ ans => Setting.logged_answer ans

theorem closed_kept {P P' : Jobs χ ok} (step : Pool.Step (closed child ok) P P') :
    Pool.KeptStep (closed child ok) (fun _ => (Among child).logged) P P' := by
  refine ⟨step, fun i t _ _ => ⟨?_, rfl⟩⟩
  cases step with
  | spawn i j free => exact .refl _
  | act running next ans => exact answers_later ans
  | @drift σ' same =>
    have unchanged : σ'.sessions = P.state.sessions := same
    show Later P.state.sessions σ'.sessions
    rw [unchanged]
    exact .refl _

/-- Throughout a run, every request and Reconcile sends only what it may. -/
theorem closed_sound {σ : Cluster χ} {P : Jobs χ ok}
    (run : Relation.ReflTransGen (Pool.Step (closed child ok)) (Pool.initial σ) P) :
    Pool.Sound (fun _ => (Among child).logged) (fun j => j.1.Sends) (fun _ _ _ => True) P :=
  (Pool.sound_initial σ).run (closed_answers child ok) (fun j σ => code_sends j.1 σ)
    (run.lift id fun _ _ step => closed_kept step)

/-- A job that has ended has met what its program guarantees whatever the others do. -/
theorem closed_result {Q : Job → Option HttpResp → LoggedView χ → Prop}
    (meets : ∀ (j : Job) σ, j.code.wp (Among child).logged (fun _ _ => True) (Q j) (σ, [])) {σ : Cluster χ}
    {P : Jobs χ ok}
    (run : Relation.ReflTransGen (Pool.Step (closed child ok)) (Pool.initial σ) P) {i : Nat} {t : JobThread χ ok}
    (held : P.threads i = some t) {resp : Option HttpResp} (done : t.rest = .ret resp) :
    Q t.job.1 resp (P.state, t.log) := by
  have sound := (Pool.sound_initial (W := fun _ => (Among child).logged) (G := fun _ _ _ => True)
    (Q := fun j : {j // ok j} => Q j.1) σ).run (closed_answers child ok) (fun j σ => meets j.1 σ)
    (run.lift id fun _ _ step => closed_kept step)
  exact sound.result held done

/-- **The rule for stored Sessions.** What holds of all of them at the start, and of whatever
is written while it holds of all of them, holds of all of them throughout a run. -/
theorem stored_invariant {I : Key → Session → Prop} (ours : ∀ j, ok j → ∀ made, j ≠ .call made)
    (stamped : ∀ k n s, I k s → I k (stamp n s))
    (written : ∀ j (σ : Cluster χ) k s, ok j → (∀ cur, σ.sessions.get k = some cur → I k cur) →
      Written j σ k s → I k s)
    {σ : Cluster χ} (start : ∀ k s, σ.sessions.get k = some s → I k s) {P : Jobs χ ok}
    (run : Relation.ReflTransGen (Pool.Step (closed child ok)) (Pool.initial σ) P) :
    ∀ k s, P.state.sessions.get k = some s → I k s := by
  refine Pool.Sound.invariant (W := fun _ => (Among child).logged) (G := fun j => j.1.Sends)
    (Q := fun _ _ _ => True) (I := fun σ => ∀ k s, σ.sessions.get k = some s → I k s)
    (closed_answers child ok) (fun j σ => code_sends j.1 σ) ?_ ?_ (Pool.sound_initial σ) start
    (run.lift id fun _ _ step => closed_kept step)
  · intro j σ l c a σ' inv sends ans k s held
    rcases stored_cases sends (ours j.1 j.2) ans held with before | ⟨n, s₀, rfl, came⟩
    · exact inv k s before
    · exact stamped k n s₀ (written j.1 σ k s₀ j.2 (inv k) came)
  · intro σ σ' inv same k s held
    rw [same] at held
    exact inv k s held

end

end Codespace.Server
