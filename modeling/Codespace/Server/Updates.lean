import Codespace.Server.Course
import Codespace.Server.Fleet

/-!
# Updates lose nothing

A request that changes a Session fetches it, works out the new one (`transformation`) and
stores it with the version it fetched, again and again as long as the API server answers
with Conflict. Others may do anything in between. `Fetched` is the invariant from the Get
on: nothing was committed for this request yet, and what was fetched was stored at some
earlier state of which the present one is a later one. A version that is still current is
therefore the object that was fetched, and the one commit there is (`Landed`) replaces
that object.
-/

namespace Codespace.Server
set_option autoImplicit false
open Interact Versioned

variable {χ : Type} {child : ChildApi χ} {d : ServerDeps} {r : Request}

/-! ## What is claimed -/

/-- No call has changed any Session. -/
def Quiet (l : CallLog χ) : Prop := ∀ ev ∈ l, ev.after.sessions = ev.before.sessions

/-- The last call of the log, and no other, has changed Sessions: it replaced `cur`, which was
current then and is what a Get had returned before, by `new`. The response says so. -/
def Landed (k : Key) (cur new : Session) (resp : HttpResp) (l : CallLog χ) : Prop :=
  ∃ pre ev, l = pre ++ [ev] ∧ Quiet pre ∧
    (∃ before after, ⟨.get k, .ok cur, before, after⟩ ∈ pre) ∧
    ev.before.sessions.get k = some cur ∧ ev.after.sessions = ev.before.sessions.write k new ∧
    ∃ out, ev.after.sessions.get k = some out ∧ resp = ⟨200, .session out⟩

theorem Landed.not_quiet {k : Key} {cur new : Session} {resp : HttpResp} {l : CallLog χ}
    (landed : Landed k cur new resp l) : ¬ Quiet l := by
  obtain ⟨pre, ev, rfl, -, -, -, written, -⟩ := landed
  intro quiet
  have next := congrArg Store.next (written.symm.trans (quiet ev (by simp)))
  simp at next

/-- A successful response comes with exactly one commit, of the request's own transformation. -/
def Linearized (d : ServerDeps) (route : Route) (r : Request) (resp : HttpResp) (l : CallLog χ) : Prop :=
  resp.status < 300 → ∃ now k change cur, transformation d route r now = some (k, change) ∧
    Landed k cur (change cur) resp l ∧ Owned d route cur

/-! ## The invariant -/

/-- Since the Get that returned `cur`. -/
structure Fetched (k : Key) (cur : Session) (v : LoggedView χ) : Prop where
  quiet : Quiet v.2
  read : ∃ before after, ⟨.get k, .ok cur, before, after⟩ ∈ v.2
  stored : ∃ σ : Cluster χ, σ.sessions.get k = some cur ∧ cur.key = k ∧ cur.Held ∧
    Later σ.sessions v.1.sessions

theorem Quiet.snoc {l : CallLog χ} (h : Quiet l) {ev : Event Call Answer (Cluster χ)}
    (same : ev.after.sessions = ev.before.sessions) : Quiet (l ++ [ev]) := by
  intro e mem
  rcases List.mem_append.1 mem with old | new
  · exact h e old
  · cases List.mem_singleton.1 new
    exact same

section

variable {k : Key} {cur : Session} {v v' : LoggedView χ}

theorem Quiet.rely (h : Quiet v.2) (rely : (Among child).logged.rely v v') : Quiet v'.2 := by
  rw [rely.2]
  exact h

theorem Quiet.reads (h : Quiet v.2) {c : Call} {a : Answer c}
    (ans : (Among child).logged.answer v c a v') (reads : c.reads = true) : Quiet v'.2 := by
  rw [ans.2]
  exact h.snoc (congrArg Cluster.sessions (answers_reads ans.1 reads))

theorem Fetched.rely (h : Fetched k cur v) (rely : (Among child).logged.rely v v') : Fetched k cur v' := by
  obtain ⟨σ, held, key, ok, later⟩ := h.stored
  exact ⟨h.quiet.rely rely, by rw [rely.2]; exact h.read, σ, held, key, ok, later.trans rely.1⟩

theorem Fetched.still (h : Fetched k cur v) {c : Call} {a : Answer c}
    (ans : (Among child).logged.answer v c a v') (same : v'.1 = v.1) : Fetched k cur v' := by
  obtain ⟨before, after, mem⟩ := h.read
  refine ⟨?_, ⟨before, after, by rw [ans.2]; exact List.mem_append_left _ mem⟩, ?_⟩
  · rw [ans.2]
    exact h.quiet.snoc (congrArg Cluster.sessions same)
  · rw [same]
    exact h.stored

theorem Fetched.reads (h : Fetched k cur v) {c : Call} {a : Answer c}
    (ans : (Among child).logged.answer v c a v') (reads : c.reads = true) : Fetched k cur v' :=
  h.still ans (answers_reads ans.1 reads)

/-- A Get that answers with a Session starts the invariant. -/
theorem Quiet.fetched (h : Quiet v.2) (ans : (Among child).logged.answer v (.get k) (.ok cur) v') :
    Fetched k cur v' := by
  obtain ⟨same, held⟩ := answers_get_ok ans.1
  refine ⟨h.reads ans rfl, ⟨v.1, v'.1, by rw [ans.2]; simp⟩, v.1, held, v.1.keyed k _ held,
    v.1.held k _ held, ?_⟩
  rw [same]
  exact .refl _

/-- A Conflict leaves the invariant as it was. -/
theorem Fetched.conflict (h : Fetched k cur v) {sent : Session} {e : ApiError}
    (ans : (Among child).logged.answer v (.update sent) (.error e) v') (conflict : e.isConflict = true) :
    Fetched k cur v' := h.still ans (answers_update_conflict ans.1 conflict)

/-- **Optimistic concurrency.** An Update that is accepted replaces what was fetched. -/
theorem Fetched.landed (h : Fetched k cur v) {sent out : Session} (same : sent.SameObject cur)
    (ans : (Among child).logged.answer v (.update sent) (.ok out) v') :
    Landed k cur sent ⟨200, .session out⟩ v'.2 := by
  obtain ⟨σ, held, key, ok, later⟩ := h.stored
  have sentKey : sent.key = k := same.key.trans key
  obtain ⟨found, accepted, after, rfl⟩ := answers_update_ok ans.1
  have current : found = cur := by
    rw [sentKey, same.version] at accepted
    exact later.check_later held accepted
  subst current
  rw [updated_of_same same] at after ans ⊢
  have written : v'.1.sessions = v.1.sessions.write k sent := by
    rw [after, Cluster.commit_held (held_of_same same ok), sentKey]
  refine ⟨v.2, ⟨_, _, v.1, v'.1⟩, ans.2, h.quiet, h.read, ?_, written, stamp v.1.sessions.next sent, ?_, rfl⟩
  · exact sentKey ▸ (Store.check_ok.1 accepted).1
  · rw [written, Store.get_write_self]

end

/-! ## Requests -/

theorem linearized_refusal {route : Route} {resp : HttpResp} (bad : 400 ≤ resp.status) (l : CallLog χ) :
    Linearized d route r resp l := by
  intro good
  omega

/-- What is known in the course of a request: nothing has been committed for it, and what it
has fetched was stored. -/
structure Known (read : Option (Key × Session)) (v : LoggedView χ) : Prop where
  quiet : Quiet v.2
  fetched : ∀ k cur, read = some (k, cur) → Fetched k cur v

section

variable {route : Route} {read : Option (Key × Session)} {v v' : LoggedView χ}

theorem Known.rely (h : Known read v) (rely : (Among child).logged.rely v v') : Known read v' :=
  ⟨h.quiet.rely rely, fun k cur eq => (h.fetched k cur eq).rely rely⟩

theorem Known.reads (h : Known read v) {c : Call} {a : Answer c} (ans : (Among child).logged.answer v c a v')
    (reads : c.reads = true) : Known read v' :=
  ⟨h.quiet.reads ans reads, fun k cur eq => (h.fetched k cur eq).reads ans reads⟩

theorem Known.got (h : Known none v) {k : Key} {cur : Session}
    (ans : (Among child).logged.answer v (.get k) (.ok cur) v') : Known (some (k, cur)) v' := by
  refine ⟨h.quiet.reads ans rfl, fun k' cur' eq => ?_⟩
  cases eq
  exact h.quiet.fetched ans

/-- Storing what a request makes of the Session it fetched. -/
theorem store_linearizes (now : String) (change : Session → Session) {failure : String} {k : Key}
    {cur : Session} (fetched : Fetched k cur v) (owned : Owned d route cur)
    (own : transformation d route r now = some (k, change)) (same : (change cur).SameObject cur) :
    (store d (change cur) failure).wp (Among child).logged (fun _ _ => True)
      (fun resp v' => Linearized d route r resp v'.2) v := by
  refine wp_store (I := Fetched k cur) (fun _ _ h rely => h.rely rely) (fun _ _ => trivial)
    (fun _ _ _ h ans conflict => h.conflict ans conflict) (fun _ _ bad => linearized_refusal bad _) ?_ fetched
  intro out v₁ v₂ v₃ h ans rely _
  refine ⟨now, k, change, cur, own, ?_, owned⟩
  rw [rely.2]
  exact h.landed same ans

/-- A request that changes a Session, at any point of its course. -/
theorem Course.linearizes {p : Api HttpResp} (course : Course d route r read p) (changes : Changes route r)
    (known : Known read v) : p.wp (Among child).logged (fun _ _ => True)
      (fun resp v' => Linearized d route r resp v'.2) v := by
  induction course generalizing v with
  | reply bad => exact fun _ _ => linearized_refusal (bad changes) _
  | ask reads _ _ ih => exact fun v₁ rely => ⟨trivial, fun a v₂ ans => ih a ((known.rely rely).reads ans reads)⟩
  | fetch _ _ missing found =>
    refine fun v₁ rely => ⟨trivial, fun a v₂ ans => ?_⟩
    cases a with
    | error e => exact missing e ((known.rely rely).reads ans rfl)
    | ok cur => exact found cur ((known.rely rely).got ans)
  | store _ _ own owned =>
    exact store_linearizes _ _ (known.fetched _ _ rfl) owned own (transformation_same own _)
  | create sessions => cases sessions ▸ changes
  | delete session item method =>
    subst session
    rcases changes with scale | put | patch
    · exact absurd scale (by simp [item])
    · exact absurd (method.symm.trans put) (by decide)
    · exact absurd (method.symm.trans patch) (by decide)

end

/-- What is claimed of a job that has ended. -/
def Job.Outcome (j : Job) (resp : Option HttpResp) (v : LoggedView χ) : Prop :=
  ∀ d route r resp', j = .serve d route r → resp = some resp' → Changes route r →
    Linearized d route r resp' v.2

theorem code_outcome (j : Job) (σ : Cluster χ) :
    j.code.wp (Among child).logged (fun _ _ => True) j.Outcome (σ, []) := by
  cases j with
  | reconcile rec k =>
    refine Prog.wp_bind (Prog.wp_true (fun _ _ _ _ => ?_) _)
    rintro d route r resp eq
    cases eq
  | call c =>
    refine Prog.wp_bind (Prog.wp_true (fun _ _ _ _ => ?_) _)
    rintro d route r resp eq
    cases eq
  | serve d route r =>
    show (Server.serve d route r >>= fun resp => .ret (some resp)).wp _ _ _ _
    by_cases changes : Changes route r
    · have quiet : Quiet (σ, ([] : CallLog χ)).2 := fun _ mem => absurd mem List.not_mem_nil
      have known : Known none (σ, ([] : CallLog χ)) := ⟨quiet, fun _ _ eq => by cases eq⟩
      refine Prog.wp_bind (Prog.wp_mono (serve_course.linearizes changes known) ?_)
      rintro resp v linear v' rely _ _ _ _ ⟨⟩ ⟨⟩ _
      rw [rely.2]
      exact linear
    · refine Prog.wp_bind (Prog.wp_true (fun _ _ _ _ => ?_) _)
      rintro _ _ _ _ ⟨⟩ _ changes'
      exact absurd changes' changes

/-- **Main result.** However the calls of any number of requests, Reconciles and others are
interleaved: a request that changes a Session and answers success has made exactly one
commit, which replaced the Session that was current by what the request makes of it. -/
theorem updates_linearizable {σ : Cluster χ} {P : Pool Job Call Answer (Option HttpResp) (Cluster χ)}
    (run : Relation.ReflTransGen (Pool.Step (fleet child)) (Pool.initial σ) P) {i : Nat}
    {t : Thread Job Call Answer (Option HttpResp) (Cluster χ)} (held : P.threads i = some t)
    {route : Route} (job : t.job = .serve d route r) (changes : Changes route r) {resp : HttpResp}
    (done : t.rest = .ret (some resp)) : Linearized d route r resp t.log := by
  have sound := (Pool.sound_initial (W := fun _ => (Among child).logged) (G := fun _ _ _ => True)
    (Q := Job.Outcome) σ).run (fleet_answers child) code_outcome (fleet_run run)
  exact sound.result held done d route r resp job rfl changes

/-- A scale request to a server that is confined to its instance, from start to end. -/
theorem updates_linearizable_scale :
    let σ : Cluster Manifest := .single scaleOnly (sessionOf "i")
    ∃ P t resp, Relation.ReflTransGen (Pool.Step (fleet replaceApi)) (Pool.initial σ) P ∧
      P.threads 0 = some t ∧ t.rest = .ret (some resp) ∧ resp.status = 200 ∧
      Linearized (.plain "i" false) .session scaleRequest resp t.log := by
  intro σ
  let job : Job := .serve (.plain "i" false) .session scaleRequest
  have start : Pool.Step (fleet replaceApi) (Pool.initial σ) _ := .spawn 0 job rfl
  obtain ⟨l, rest, -⟩ := Pool.run_thread (M := fleet replaceApi) (answers_answer replaceApi) job.code
    σ (fun _ => none) 0 job []
  have sent : ((job.code.run (answer replaceApi) σ).1.map HttpResp.status) = some 200 := by decide +kernel
  obtain ⟨resp, answered, ok⟩ := Option.map_eq_some_iff.1 sent
  have run := Relation.ReflTransGen.head start (Pool.turns_steps rest)
  refine ⟨_, _, resp, run, Pool.set_threads_self _ 0 _, congrArg Prog.ret answered, ok, ?_⟩
  exact updates_linearizable run (Pool.set_threads_self _ 0 _) rfl (.inl (by decide)) (congrArg Prog.ret answered)

end Codespace.Server
