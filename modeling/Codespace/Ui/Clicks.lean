import Codespace.Ui.Convergence
import Codespace.Ui.Scaling
import Mathlib.Algebra.BigOperators.Group.List.Basic

/-!
# No click is lost in time

A request that is stored adds its click to the number stored before exactly where that is
still the number that the row showed (`Timely`). `Counted` is the invariant of a run of
such steps: the number stored is the first one and what the committed clicks add up to.
A request that succeeds is committed, so once all have succeeded no click is lost.
-/

namespace Codespace.Ui
set_option autoImplicit false
open Interact Versioned Server Controller

namespace Site

section

variable {χ : Type} (child : ChildApi χ) {k : Key}

/-! ## What is claimed -/

/-- `response.ok`: the request of the click has been answered with success. -/
def Succeeded (w : Site χ k) (click : Click) : Prop :=
  ∃ t resp, w.pool.threads click.thread = some t ∧ t.rest = .ret (some resp) ∧
    200 ≤ resp.status ∧ resp.status < 300

/-- Where all clicks have succeeded and none went below zero, the number stored is the first one,
one more for each click up and one less for each click down. -/
def NoneLost (first : Int) (w : Site χ k) : Prop :=
  (∀ click ∈ w.clicks, Succeeded w click) → (∀ click ∈ w.clicks, 0 ≤ click.shown + click.button.delta) →
    ∀ s, w.pool.state.sessions.get k = some s →
      current s = first + w.clicks.countP (·.button = .up) - w.clicks.countP (·.button = .down)

/-- What a step must not do: store the number of a click, where the number stored is no longer the
one that the row showed. -/
def Timely (w : Site χ k) : Move → Prop
  | .turn i => ∀ click ∈ w.clicks, click.thread = i → ∀ t sent f found, w.pool.threads i = some t →
    t.rest = .call (.update sent) f →
    w.pool.state.sessions.check sent.key sent.metadata.resourceVersion = .ok found → current found = click.shown
  | _ => True

/-- A step, whatever it is. -/
def AnyStep (w w' : Site χ k) : Prop := ∃ m, Step child w m w'

def TimelyStep (w w' : Site χ k) : Prop := ∃ m, Step child w m w' ∧ Timely w m

variable {child}

/-! ## The record of the clicks -/

/-- The job of a thread. -/
def jobAt (w : Site χ k) (i : Nat) : Option Job := (w.pool.threads i).map (·.job.1)

/-- The clicks on record are the requests that were sent. -/
structure Recorded (w : Site χ k) : Prop where
  distinct : (w.clicks.map Click.thread).Nodup
  requests : ∀ click ∈ w.clicks, ∃ d pr,
    w.jobAt click.thread = some (.serve d .session (scaleRequest pr k.ns k.name click.target))
  clicks : ∀ i j, w.jobAt i = some j →
    (∃ rec key, j = .reconcile rec key) ∨ ∃ click ∈ w.clicks, click.thread = i

theorem Recorded.congr {w w' : Site χ k} (recorded : Recorded w) (jobs : w'.jobAt = w.jobAt)
    (clicks : w'.clicks = w.clicks) : Recorded w' :=
  ⟨clicks ▸ recorded.distinct, clicks ▸ jobs ▸ recorded.requests, clicks ▸ jobs ▸ recorded.clicks⟩

theorem recorded_start (σ : Cluster χ) (clients : Nat → Client) : Recorded (start k σ clients) :=
  ⟨List.nodup_nil, fun _ mem => absurd mem List.not_mem_nil, by rintro i j ⟨⟩⟩

theorem jobAt_update {w w' : Site χ k} {i : Nat} {t : JobThread χ (Scaling k)}
    (threads : w'.pool.threads = Function.update w.pool.threads i (some t)) :
    w'.jobAt = Function.update w.jobAt i (some t.job.1) := by
  funext i'
  by_cases same : i' = i
  · subst same
    simp [jobAt, threads]
  · simp [jobAt, threads, same]

/-- The threads of the clicks on record have been started. -/
theorem Recorded.started {w : Site χ k} (recorded : Recorded w) {i : Nat} (free : w.pool.threads i = none)
    {click : Click} (mem : click ∈ w.clicks) : click.thread ≠ i := by
  rintro rfl
  obtain ⟨d, pr, job⟩ := recorded.requests click mem
  rw [jobAt, free] at job
  cases job

/-- The job of a click's thread is its request. -/
theorem Recorded.job {w : Site χ k} (recorded : Recorded w) {click : Click} (mem : click ∈ w.clicks)
    {t : JobThread χ (Scaling k)} (held : w.pool.threads click.thread = some t) :
    ∃ d pr, t.job.1 = .serve d .session (scaleRequest pr k.ns k.name click.target) := by
  obtain ⟨d, pr, request⟩ := recorded.requests click mem
  exact ⟨d, pr, by simpa [jobAt, held] using request⟩

/-- A thread is started, for these clicks. -/
theorem Recorded.spawn {w w' : Site χ k} (recorded : Recorded w) {i : Nat} (free : w.pool.threads i = none)
    {t : JobThread χ (Scaling k)} (threads : w'.pool.threads = Function.update w.pool.threads i (some t))
    {new : List Click} (clicks : w'.clicks = w.clicks ++ new) (once : (new.map Click.thread).Nodup)
    (requests : ∀ click ∈ new, click.thread = i ∧
      ∃ d pr, t.job.1 = .serve d .session (scaleRequest pr k.ns k.name click.target))
    (known : (∃ rec key, t.job.1 = .reconcile rec key) ∨ ∃ click ∈ new, click.thread = i) : Recorded w' := by
  have jobs : w'.jobAt = Function.update w.jobAt i (some t.job.1) := jobAt_update threads
  constructor
  · rw [clicks, List.map_append, List.nodup_append]
    refine ⟨recorded.distinct, once, ?_⟩
    rintro _ old _ added rfl
    obtain ⟨click, mem, eq⟩ := List.mem_map.1 old
    obtain ⟨click', mem', eq'⟩ := List.mem_map.1 added
    exact recorded.started free mem (eq.trans (eq'.symm.trans (requests click' mem').1))
  · intro click mem
    rw [clicks] at mem
    rw [jobs]
    rcases List.mem_append.1 mem with old | added
    · rw [Function.update_of_ne (recorded.started free old)]
      exact recorded.requests click old
    · obtain ⟨thread, d, pr, job⟩ := requests click added
      exact ⟨d, pr, by rw [thread, Function.update_self, job]⟩
  · intro i' j held
    rw [jobs] at held
    rw [clicks]
    by_cases same : i' = i
    · subst same
      rw [Function.update_self, Option.some.injEq] at held
      subst held
      exact known.imp_right fun ⟨click, mem, eq⟩ => ⟨click, List.mem_append_right _ mem, eq⟩
    · rw [Function.update_of_ne same] at held
      exact (recorded.clicks i' j held).imp_right fun ⟨click, mem, eq⟩ => ⟨click, List.mem_append_left _ mem, eq⟩

theorem Recorded.step {w w' : Site χ k} {m : Move} (recorded : Recorded w) (step : Step child w m w') :
    Recorded w' := by
  cases step with
  | @click u i s ix button r shown key sent free =>
    refine recorded.spawn free rfl rfl (List.nodup_singleton _) (fun click mem => ?_)
      (.inr ⟨_, List.mem_singleton_self _, rfl⟩)
    cases List.mem_singleton.1 mem
    exact ⟨rfl, _, _, congrArg (Job.serve _ _) (handleScale_sent key sent)⟩
  | @turn i t c f a σ' held next ans =>
    refine recorded.congr ((jobAt_update rfl).trans ?_) rfl
    rw [Function.update_eq_self_iff, jobAt, held]
    rfl
  | reconcile rec key free =>
    exact recorded.spawn free rfl (List.append_nil _).symm List.nodup_nil (by simp) (.inl ⟨rec, key, rfl⟩)
  | drift same => exact recorded.congr rfl rfl
  | client step => exact recorded.congr rfl rfl

/-! ## The count -/

/-- The request of the click has changed what is stored. -/
def Committed (w : Site χ k) (click : Click) : Prop :=
  ∃ t, w.pool.threads click.thread = some t ∧ ¬ Server.Quiet t.log

open Classical in
/-- What a click has added so far. -/
noncomputable def added (w : Site χ k) (click : Click) : Int := if Committed w click then click.button.delta else 0

/-- What all clicks have added so far. -/
noncomputable def committed (w : Site χ k) : Int := (w.clicks.map w.added).sum

/-- Where no click went below zero, the committed ones have been added to the first number. -/
def Counted (first : Int) (w : Site χ k) : Prop :=
  (∀ click ∈ w.clicks, 0 ≤ click.shown + click.button.delta) →
    ∀ s, w.pool.state.sessions.get k = some s → current s = first + w.committed

theorem added_congr {w w' : Site χ k} {click : Click} (same : Committed w' click ↔ Committed w click) :
    w'.added click = w.added click := by
  by_cases here : w.Committed click <;> simp [added, here, same]

theorem committed_congr {w w' : Site χ k} (clicks : w'.clicks = w.clicks)
    (same : ∀ click ∈ w.clicks, Committed w' click ↔ Committed w click) : w'.committed = w.committed := by
  rw [committed, committed, clicks]
  exact congrArg List.sum (List.map_congr_left fun click mem => added_congr (same click mem))

/-- One more click is committed. -/
theorem committed_add {w w' : Site χ k} (recorded : Recorded w) (clicks : w'.clicks = w.clicks) {click : Click}
    (mem : click ∈ w.clicks) (before : ¬ Committed w click) (after : Committed w' click)
    (others : ∀ other ∈ w.clicks, other.thread ≠ click.thread → (Committed w' other ↔ Committed w other)) :
    w'.committed = w.committed + click.button.delta := by
  have rest : ∀ other ∈ w.clicks.erase click, w'.added other = w.added other := by
    intro other left
    have old := List.mem_of_mem_erase left
    refine added_congr (others other old fun same => ?_)
    have nodup : w.clicks.Nodup := recorded.distinct.of_map _
    exact (nodup.mem_erase_iff.1 left).1 (List.inj_on_of_nodup_map recorded.distinct old mem same)
  have here : w'.added click = click.button.delta := if_pos after
  have nothing : w.added click = 0 := if_neg before
  rw [committed, committed, clicks, ← List.sum_map_erase _ mem, ← List.sum_map_erase _ mem,
    List.map_congr_left rest, here, nothing]
  omega

/-! ## Runs -/

theorem Step.pool {w w' : Site χ k} {m : Move} (step : Step child w m w') :
    Relation.ReflTransGen (Pool.Step (closed child (Scaling k))) w.pool w'.pool := by
  cases step with
  | click shown key sent free => exact .single (.spawn _ _ free)
  | turn held next answers => exact .single (.act held next answers)
  | reconcile rec key free => exact .single (.spawn _ ⟨.reconcile rec key, trivial⟩ free)
  | drift same => exact .single (.drift same)
  | client step => exact .refl

/-- What a step is for the page of a client. -/
theorem Step.page {w w' : Site χ k} {m : Move} (step : Step child w m w') (u : Nat) : ∃ page feed,
    w'.clients u = { w.clients u with page := page, feed := feed } ∧
    Relation.ReflTransGen (Ui.AnyStep child (w.clients u).d (w.clients u).pr (w.clients u).ns)
      ((w.clients u).world w.pool.state) ⟨w'.pool.state, page, feed⟩ := by
  cases step with
  | click shown key sent free => exact ⟨_, _, rfl, .refl⟩
  | turn held next answers => exact ⟨_, _, rfl, .single ⟨_, .call answers⟩⟩
  | reconcile rec key free => exact ⟨_, _, rfl, .refl⟩
  | drift same => exact ⟨_, _, rfl, .single ⟨_, .drift same⟩⟩
  | @client u' a page feed step =>
    by_cases same : u = u'
    · subst same
      exact ⟨page, feed, Function.update_self _ _ _, .single ⟨a, step⟩⟩
    · exact ⟨_, _, Function.update_of_ne same _ _, .refl⟩

/-- **Every page of a site** goes through a run of the hook among everybody who writes Sessions. -/
theorem page_run {w w' : Site χ k} (run : Relation.ReflTransGen (AnyStep child) w w') (u : Nat) : ∃ page feed,
    w'.clients u = { w.clients u with page := page, feed := feed } ∧
    Relation.ReflTransGen (Ui.AnyStep child (w.clients u).d (w.clients u).pr (w.clients u).ns)
      ((w.clients u).world w.pool.state) ⟨w'.pool.state, page, feed⟩ := by
  induction run with
  | refl => exact ⟨_, _, rfl, .refl⟩
  | tail _ last ih =>
    obtain ⟨m, step⟩ := last
    obtain ⟨page, feed, client, before⟩ := ih
    obtain ⟨page', feed', client', after⟩ := step.page u
    rw [client] at client' after
    exact ⟨page', feed', client', before.trans after⟩

theorem timely_run {w w' : Site χ k} (run : Relation.ReflTransGen (TimelyStep child) w w') :
    Relation.ReflTransGen (AnyStep child) w w' :=
  run.lift id fun _ _ step => step.imp fun _ both => both.1

theorem pool_run {w w' : Site χ k} (run : Relation.ReflTransGen (AnyStep child) w w') :
    Relation.ReflTransGen (Pool.Step (closed child (Scaling k))) w.pool w'.pool := by
  induction run with
  | refl => exact .refl
  | tail _ last ih =>
    obtain ⟨m, step⟩ := last
    exact ih.trans step.pool

/-- Throughout a run, every request and Reconcile sends only what it may. -/
theorem run_sound {σ : Cluster χ} {clients : Nat → Client} {w : Site χ k}
    (run : Relation.ReflTransGen (AnyStep child) (start k σ clients) w) :
    Pool.Sound (fun _ => (Among child).logged) (fun j => j.1.Sends) (fun _ _ _ => True) w.pool :=
  closed_sound (pool_run run)

/-- A log with one more call. -/
theorem quiet_snoc_iff {l : CallLog χ} {ev : Event Call Answer (Cluster χ)} :
    Server.Quiet (l ++ [ev]) ↔ Server.Quiet l ∧ ev.after.sessions = ev.before.sessions := by
  simp [Server.Quiet, or_imp, forall_and]

theorem committed_iff {w : Site χ k} {click : Click}
    {t : JobThread χ (Scaling k)}
    (held : w.pool.threads click.thread = some t) : Committed w click ↔ ¬ Server.Quiet t.log := by
  simp [Committed, held]

/-- Another thread does not matter to a click. -/
theorem committed_update {w w' : Site χ k} {i : Nat}
    {t : JobThread χ (Scaling k)}
    (threads : w'.pool.threads = Function.update w.pool.threads i (some t)) {click : Click} (other : click.thread ≠ i) :
    Committed w' click ↔ Committed w click := by
  rw [Committed, Committed, threads, Function.update_of_ne other]

/-- A request or a Reconcile is started. -/
theorem Counted.spawn {first : Int} {w w' : Site χ k} (recorded : Recorded w) (counted : Counted first w) {i : Nat}
    (free : w.pool.threads i = none) {j : {j // Scaling k j}} {rest : Api (Option HttpResp)}
    (pool : w'.pool = w.pool.set i ⟨j, [], rest⟩) {new : List Click} (clicks : w'.clicks = w.clicks ++ new)
    (own : ∀ click ∈ new, click.thread = i) : Counted first w' := by
  have threads : w'.pool.threads = Function.update w.pool.threads i (some ⟨j, [], rest⟩) := congrArg Pool.threads pool
  have old : ∀ click ∈ w.clicks, w'.added click = w.added click :=
    fun click mem => added_congr (committed_update threads (recorded.started free mem))
  have nothing : ∀ click ∈ new, w'.added click = 0 := by
    intro click mem
    have held : w'.pool.threads click.thread = some ⟨j, [], rest⟩ := by rw [own click mem, threads, Function.update_self]
    exact if_neg fun done => (committed_iff held).1 done fun _ mem => absurd mem List.not_mem_nil
  have same : w'.committed = w.committed := by
    rw [committed, committed, clicks, List.map_append, List.sum_append, List.map_congr_left old,
      List.map_congr_left nothing]
    simp
  intro nonneg s stored
  rw [same]
  refine counted (fun click mem => nonneg click ?_) s (by rwa [pool] at stored)
  rw [clicks]
  exact List.mem_append_left _ mem

section

variable {w w' : Site χ k} {i : Nat} (recorded : Recorded w)
  (sound : Pool.Sound (fun _ => (Among child).logged) (fun j => j.1.Sends) (fun _ _ _ => True) w.pool)
  (step : Step child w (.turn i) w')

include recorded sound step

/-- A call of a Reconcile. -/
theorem reconcile_turn {rec : SessionReconciler} {key : Key} (job : w.jobAt i = some (.reconcile rec key)) :
    w'.committed = w.committed ∧ ∀ s, w'.pool.state.sessions.get k = some s →
      ∃ cur, w.pool.state.sessions.get k = some cur ∧ current s = current cur := by
  cases step with
  | @turn _ t c f a σ' held next ans =>
    constructor
    · refine committed_congr rfl fun click mem => committed_update rfl ?_
      rintro rfl
      obtain ⟨d, pr, request⟩ := recorded.requests click mem
      cases job.symm.trans request
    · intro s stored
      have sends := sound.guarantee held next
      rw [show t.job.1 = .reconcile rec key by simpa [jobAt, held] using job] at sends
      rcases stored_cases sends (fun made => by rintro ⟨⟩) ans stored with before | ⟨n, s₀, rfl, came⟩
      · exact ⟨s, before, rfl⟩
      · obtain ⟨cur, before, eq⟩ := reconcile_current came
        exact ⟨cur, before, eq⟩

/-- **A call of a click's request** leaves the Sessions alone, or replaces the Session by one with the
number of the click, once. -/
theorem request_turn {click : Click} (mem : click ∈ w.clicks) (thread : click.thread = i) :
    (w'.pool.state.sessions = w.pool.state.sessions ∧ w'.committed = w.committed) ∨
      ∃ t sent f cur, w.pool.threads i = some t ∧ t.rest = .call (.update sent) f ∧
        w.pool.state.sessions.check sent.key sent.metadata.resourceVersion = .ok cur ∧
        w.pool.state.sessions.get k = some cur ∧ w'.committed = w.committed + click.button.delta ∧
        ∃ s, w'.pool.state.sessions.get k = some s ∧ current s = click.target := by
  subst thread
  cases step with
  | @turn _ t c f a σ' held next ans =>
    obtain ⟨d, pr, job⟩ := recorded.job mem held
    have sends := sound.guarantee held next
    rw [job] at sends
    let w' : Site χ k := ⟨Pool.set ⟨σ', w.pool.threads⟩ click.thread
      ⟨t.job, t.log ++ [⟨c, a, w.pool.state, σ'⟩], f a⟩, fun u => (w.clients u).told c w.pool.state σ', w.clicks⟩
    have here : w'.pool.threads click.thread = some ⟨t.job, t.log ++ [⟨c, a, w.pool.state, σ'⟩], f a⟩ :=
      Pool.set_threads_self _ _ _
    have others : ∀ other ∈ w.clicks, other.thread ≠ click.thread → (Committed w' other ↔ Committed w other) :=
      fun other _ ne => committed_update rfl ne
    rcases scaleRequest_call sends ans with same | ⟨sent, cur, rfl, quiet, ok, stored, after, asked⟩
    · refine .inl ⟨same, committed_congr rfl fun other mem' => ?_⟩
      by_cases thread : other.thread = click.thread
      · rw [committed_iff (thread ▸ here), committed_iff (thread ▸ held), quiet_snoc_iff]
        exact not_congr (and_iff_left same)
      · exact others other mem' thread
    · have waits : ¬ Committed w click := fun done => (committed_iff held).1 done quiet
      have done : Committed w' click := by
        refine (committed_iff here).2 fun all => ?_
        have next := congrArg Store.next (after.symm.trans (quiet_snoc_iff.1 all).2)
        simp at next
      have now : σ'.sessions.get k = some (stamp w.pool.state.sessions.next sent) := by
        rw [after, Store.get_write_self]
      have more : w'.committed = w.committed + click.button.delta :=
        committed_add recorded (show w'.clicks = w.clicks from rfl) mem waits done others
      exact .inr ⟨t, sent, f, cur, held, next, ok, stored, more, _, now, asked⟩

end

/-- **A step** that is timely. -/
theorem Counted.step {first : Int} {w w' : Site χ k} {m : Move} (recorded : Recorded w)
    (sound : Pool.Sound (fun _ => (Among child).logged) (fun j => j.1.Sends) (fun _ _ _ => True) w.pool)
    (counted : Counted first w) (step : Step child w m w') (timely : Timely w m) : Counted first w' := by
  cases step with
  | click shown key sent free => exact counted.spawn recorded free rfl rfl (by simp)
  | reconcile rec key free => exact counted.spawn recorded free rfl (List.append_nil _).symm (by simp)
  | drift same =>
    intro nonneg s stored
    exact counted nonneg s (same ▸ stored)
  | client step => exact counted
  | @turn i t c f a σ' held next ans =>
    have step := Step.turn held next ans
    intro nonneg s stored
    rcases recorded.clicks i t.job.1 (by simp [jobAt, held]) with ⟨rec, key, job⟩ | ⟨click, mem, thread⟩
    · have at_ : w.jobAt i = some (.reconcile rec key) := by simp [jobAt, held, job]
      obtain ⟨same, before⟩ := reconcile_turn recorded sound step at_
      obtain ⟨cur, held, eq⟩ := before s stored
      rw [same, eq]
      exact counted nonneg cur held
    · rcases request_turn recorded sound step mem thread with
        ⟨sessions, same⟩ | ⟨t, sent, f, cur, held, calls, ok, before, more, s', after, target⟩
      · rw [same]
        exact counted nonneg s (sessions ▸ stored)
      · cases after.symm.trans stored
        have shown : current cur = click.shown := timely click mem thread t sent f cur held calls ok
        have asked : click.target = click.shown + click.button.delta := max_eq_right (nonneg click mem)
        have found := counted nonneg cur before
        rw [more]
        omega

/-- A whole run of timely steps. -/
theorem counted_run {σ : Cluster χ} {clients : Nat → Client} {s₀ : Session}
    (held : σ.sessions.get k = some s₀) {w : Site χ k}
    (run : Relation.ReflTransGen (TimelyStep child) (start k σ clients) w) :
    Recorded w ∧ Counted (current s₀) w := by
  induction run with
  | refl =>
    refine ⟨recorded_start σ clients, fun _ s stored => ?_⟩
    cases held.symm.trans stored
    exact (add_zero _).symm
  | tail before last ih =>
    obtain ⟨m, step, timely⟩ := last
    have sound := run_sound (timely_run before)
    exact ⟨ih.1.step step, ih.2.step ih.1 sound step timely⟩

/-- **The condition is needed.** After a run of timely steps, a number that is stored for a click on a
row that showed another one makes the count wrong. -/
theorem untimely_miscounted {σ : Cluster χ} {clients : Nat → Client} {s₀ : Session}
    (held : σ.sessions.get k = some s₀) {w w' : Site χ k} {m : Move}
    (run : Relation.ReflTransGen (TimelyStep child) (start k σ clients) w) (step : Step child w m w')
    (nonneg : ∀ click ∈ w.clicks, 0 ≤ click.shown + click.button.delta) (untimely : ¬ Timely w m)
    (stored : w'.pool.state.sessions ≠ w.pool.state.sessions) : ¬ Counted (current s₀) w' := by
  obtain ⟨recorded, counted⟩ := counted_run held run
  have sound := run_sound (timely_run run)
  intro counted'
  refine untimely ?_
  cases m with
  | turn i =>
    rintro click mem thread t sent f found held calls ok
    rcases request_turn recorded sound step mem thread with
      ⟨same, -⟩ | ⟨t', sent', f', cur, held', calls', ok', before, more, s, after, target⟩
    · exact absurd same stored
    · cases held.symm.trans held'
      cases calls.symm.trans calls'
      cases ok.symm.trans ok'
      have clicks : w'.clicks = w.clicks := by
        cases step
        rfl
      have asked : click.target = click.shown + click.button.delta := max_eq_right (nonneg click mem)
      have found := counted nonneg _ before
      have found' := counted' (clicks ▸ nonneg) s after
      omega
  | _ => trivial

/-- A scale request that has ended well has changed what is stored. -/
def Served (j : Job) (resp : Option HttpResp) (v : LoggedView χ) : Prop :=
  ∀ d pr n resp', j = .serve d .session (scaleRequest pr k.ns k.name n) → resp = some resp' →
    resp'.status < 300 → ¬ Server.Quiet v.2

theorem code_served (j : Job) (σ : Cluster χ) :
    j.code.wp (Among child).logged (fun _ _ => True) (Served (k := k) j) (σ, []) := by
  by_cases request : ∃ d pr n, j = .serve d .session (scaleRequest pr k.ns k.name n)
  · obtain ⟨d, pr, n, eq⟩ := request
    cases scales : isScale (scaleRequest pr k.ns k.name n) with
    | true =>
      refine Prog.wp_mono (code_outcome j σ) fun resp v outcome _ _ _ resp' _ answered ok => ?_
      obtain ⟨_, _, _, _, -, landed, -⟩ := outcome _ _ _ resp' eq answered (.inl scales) ok
      exact landed.not_quiet
    | false =>
      obtain ⟨resp, refused, bad⟩ := scaleRequest_refused (d := d) scales
      rw [eq, Job.code_serve, refused]
      rintro v rely _ _ _ _ _ ⟨⟩ ok
      exact absurd bad (by omega)
  · refine Prog.wp_true (fun resp v d pr n resp' job => ?_) _
    exact absurd ⟨d, pr, n, job⟩ request

/-- A click that has succeeded is committed. -/
theorem Succeeded.committed {σ : Cluster χ} {clients : Nat → Client} {w : Site χ k}
    (run : Relation.ReflTransGen (AnyStep child) (start k σ clients) w) (recorded : Recorded w) {click : Click}
    (mem : click ∈ w.clicks) (succeeded : Succeeded w click) : Committed w click := by
  obtain ⟨t, resp, held, done, -, ok⟩ := succeeded
  obtain ⟨d, pr, job⟩ := recorded.job mem held
  exact (committed_iff held).2 (closed_result code_served (pool_run run) held done d pr _ resp job rfl ok)

/-- The clicks up, less the clicks down. -/
theorem sum_delta (clicks : List Click) : (clicks.map fun click => click.button.delta).sum =
    clicks.countP (·.button = .up) - clicks.countP (·.button = .down) := by
  induction clicks with
  | nil => rfl
  | cons click clicks ih =>
    rw [List.map_cons, List.sum_cons, ih, List.countP_cons, List.countP_cons]
    cases click.button <;> simp [Button.delta] <;> omega

/-- **Main result.** In a run where every number that is stored for a click replaces the number that
the clicked row showed, no click is lost. -/
theorem clicks_kept {σ : Cluster χ} {clients : Nat → Client} {s₀ : Session}
    (held : σ.sessions.get k = some s₀) {w : Site χ k}
    (run : Relation.ReflTransGen (TimelyStep child) (start k σ clients) w) : NoneLost (current s₀) w := by
  obtain ⟨recorded, counted⟩ := counted_run held run
  intro succeeded nonneg s stored
  have all : ∀ click ∈ w.clicks, w.added click = click.button.delta :=
    fun click mem => if_pos ((succeeded click mem).committed (timely_run run) recorded mem)
  rw [counted nonneg s stored, committed, List.map_congr_left all, sum_delta]
  omega

/-! ## Two runs -/

/-- The call is timely for a click on a row that showed `n`. -/
def inTime (n : Int) (σ : Cluster χ) (c : Call) (_ : Answer c) : Bool :=
  match c with
  | .update sent =>
    match σ.sessions.check sent.key sent.metadata.resourceVersion with
    | .ok found => current found = n
    | .error _ => true
  | _ => true

/-- A request may run to its end while the others wait. -/
theorem run_request (child : ChildApi χ) (n : Int) {i : Nat} {j : {j // Scaling k j}} (p : Api (Option HttpResp))
    {w : Site χ k} {l : CallLog χ} (held : w.pool.threads i = some ⟨j, l, p⟩) :
    ∃ w' l', Relation.ReflTransGen (AnyStep child) w w' ∧ w'.clicks = w.clicks ∧
      w'.pool = Pool.set ⟨(p.run (answer child) w.pool.state).2, w.pool.threads⟩ i
        ⟨j, l', .ret (p.run (answer child) w.pool.state).1⟩ ∧
      (p.runChecks (answer child) (inTime n) w.pool.state = true →
        (∀ click ∈ w.clicks, click.thread = i → click.shown = n) →
        Relation.ReflTransGen (TimelyStep child) w w') := by
  induction p generalizing w l with
  | ret a => exact ⟨w, l, .refl, rfl, (Pool.set_idle held).symm, fun _ _ => .refl⟩
  | call c f ih =>
    let out := answer child w.pool.state c
    let t : JobThread χ (Scaling k) := ⟨j, l ++ [⟨c, out.1, w.pool.state, out.2⟩], f out.1⟩
    let next : Site χ k := ⟨Pool.set ⟨out.2, w.pool.threads⟩ i t, fun u => (w.clients u).told c w.pool.state out.2,
      w.clicks⟩
    have step : Step child w (.turn i) next := .turn held rfl (answers_answer child w.pool.state c)
    have held' : next.pool.threads i = some t := Pool.set_threads_self _ i _
    obtain ⟨w', l', run, clicks, pool, timely⟩ := ih out.1 held'
    refine ⟨w', l', .head ⟨_, step⟩ run, clicks, ?_, fun checked shown => ?_⟩
    · rw [pool]
      simp [next, Pool.set, out, t]
    · simp only [Prog.runChecks, Bool.and_eq_true] at checked
      refine .head ⟨_, step, ?_⟩ (timely checked.2 shown)
      rintro click mem thread t sent f' found held'' calls ok
      cases held.symm.trans held''
      cases calls
      rw [shown click mem thread]
      simpa [inTime, ok] using checked.1

/-- A page of the namespace that nobody has loaded yet. -/
def visitor : Client := ⟨.plain "i" false, viewer, "ns", .blank, none⟩

/-- What a click on the row of `ns/a` asks for, while it shows one replica. -/
def scaleJob : {j // Scaling ⟨"ns", "a"⟩ j} :=
  ⟨.serve (.plain "i" false) .session (scaleRequest viewer "ns" "a" 2), rfl, _, _, rfl⟩

/-- One page, and no request yet. -/
def onePage (page : Page) : Site Manifest ⟨"ns", "a"⟩ :=
  ⟨Pool.initial ownCluster, Function.update (fun _ => visitor) 0 { visitor with page := page }, []⟩

theorem onePage_step {page page' : Page} {a : Act} (step : Ui.Step replaceApi (.plain "i" false) viewer "ns"
    ⟨ownCluster, page, none⟩ a ⟨ownCluster, page', none⟩) : TimelyStep replaceApi (onePage page) (onePage page') := by
  have moved : Step replaceApi (onePage page) (.client 0) { onePage page with
      clients := Function.update (onePage page).clients 0 { visitor with page := page' } } := .client step
  have same : Function.update (onePage page).clients 0 { visitor with page := page' } = (onePage page').clients :=
    Function.update_idem _ _ _
  rw [same] at moved
  exact ⟨_, moved, trivial⟩

/-- The page is loaded, and shows the Session. -/
theorem onePage_loaded : Relation.ReflTransGen (TimelyStep replaceApi)
    (start ⟨"ns", "a"⟩ ownCluster fun _ => visitor) (onePage (arrived [])) := by
  have blank : start ⟨"ns", "a"⟩ ownCluster (fun _ => visitor) = onePage .blank :=
    congrArg (Site.mk _ · _) (Function.update_eq_self 0 _).symm
  have served : TimelyStep replaceApi (onePage loading) (onePage snapshot) := onePage_step (.answered rfl rfl)
  rw [blank]
  exact .tail (.tail (.single (onePage_step .effect)) served) (onePage_step (.arrive rfl rfl))

/-- A click up on the row. -/
theorem click_up (P : Jobs Manifest (Scaling ⟨"ns", "a"⟩)) (clicks : List Click) (i : Nat) (free : P.threads i = none) :
    TimelyStep replaceApi ⟨P, (onePage (arrived [])).clients, clicks⟩
      ⟨P.set i ⟨scaleJob, [], scaleJob.1.code⟩, (onePage (arrived [])).clients, clicks ++ [⟨i, 1, .up⟩]⟩ := by
  have any : ((arrived []).rows.any fun s => s.key = ⟨"ns", "a"⟩ && current s = 1) = true := by decide +kernel
  obtain ⟨s, shown, both⟩ := List.any_eq_true.1 any
  simp only [Bool.and_eq_true, decide_eq_true_eq] at both
  obtain ⟨key, one⟩ := both
  have granted : canScale (some (Finmap.singleton "ns" true)) "ns" = true := by decide +kernel
  have sent : handleScale (some (Finmap.singleton "ns" true)) viewer s Button.up.delta =
      some (scaleRequest viewer "ns" "a" 2) := by
    rw [handleScale_eq key, if_pos granted, one]
    rfl
  have step : Step replaceApi ⟨P, (onePage (arrived [])).clients, clicks⟩ (.click 0 .up)
      ⟨P.set i ⟨scaleJob, [], scaleJob.1.code⟩, (onePage (arrived [])).clients, clicks ++ [⟨i, current s, .up⟩]⟩ :=
    .click shown key sent free
  rw [one] at step
  exact ⟨_, step, trivial⟩

/-- The cluster after one request. -/
def scaledOnce : Cluster Manifest := (scaleJob.1.code.run (answer replaceApi) ownCluster).2

theorem ownCluster_get : ownCluster.sessions.get ⟨"ns", "a"⟩ = some ownSession := by decide +kernel

/-- The response of a request that has ended well. -/
theorem succeeded_of_status {w : Site Manifest ⟨"ns", "a"⟩} {click : Click} {σ : Cluster Manifest}
    {l : CallLog Manifest} (held : w.pool.threads click.thread =
      some ⟨scaleJob, l, .ret (scaleJob.1.code.run (answer replaceApi) σ).1⟩)
    (ok : (scaleJob.1.code.run (answer replaceApi) σ).1.map HttpResp.status = some 200) : Succeeded w click := by
  obtain ⟨resp, answered, status⟩ := Option.map_eq_some_iff.1 ok
  exact ⟨_, resp, held, congrArg Prog.ret answered, by omega, by omega⟩

/-- One click, and its request from start to end. -/
theorem clicks_kept_one : ∃ w : Site Manifest ⟨"ns", "a"⟩, ∃ s,
    Relation.ReflTransGen (TimelyStep replaceApi) (start ⟨"ns", "a"⟩ ownCluster fun _ => visitor) w ∧
      w.clicks = [⟨0, 1, .up⟩] ∧ w.pool.state.sessions.get ⟨"ns", "a"⟩ = some s ∧ current s = 2 := by
  let P := (Pool.initial ownCluster).set 0 ⟨scaleJob, [], scaleJob.1.code⟩
  have clicked := onePage_loaded.tail (click_up (Pool.initial ownCluster) [] 0 rfl)
  obtain ⟨w, l, -, clicks, pool, timely⟩ := run_request (w := ⟨P, (onePage (arrived [])).clients, [⟨0, 1, .up⟩]⟩)
    replaceApi 1 scaleJob.1.code (Pool.set_threads_self (Pool.initial ownCluster) 0 _)
  have inTime : scaleJob.1.code.runChecks (answer replaceApi) (inTime 1) ownCluster = true := by decide +kernel
  have run := clicked.trans (timely inTime (by simp))
  have answered : w.pool.threads 0 =
      some ⟨scaleJob, l, .ret (scaleJob.1.code.run (answer replaceApi) ownCluster).1⟩ := by
    rw [pool, Pool.set_threads_self]
    rfl
  have ended : ∀ click ∈ w.clicks, Succeeded w click ∧ 0 ≤ click.shown + click.button.delta := by
    intro click mem
    rw [clicks] at mem
    cases List.mem_singleton.1 mem
    exact ⟨succeeded_of_status answered (by decide +kernel), by decide⟩
  have kept : (scaledOnce.sessions.get ⟨"ns", "a"⟩).isSome = true := by decide +kernel
  obtain ⟨s, stored⟩ := Option.isSome_iff_exists.1 kept
  have stored' : w.pool.state.sessions.get ⟨"ns", "a"⟩ = some s := by rwa [pool]
  have counted := clicks_kept ownCluster_get run (fun click mem => (ended click mem).1)
    (fun click mem => (ended click mem).2) s stored'
  rw [clicks] at counted
  exact ⟨w, s, run, clicks, stored', counted⟩

/-- Two clicks on the same row, one after the other: both succeed, and one is lost. -/
theorem second_click_lost : ∃ w : Site Manifest ⟨"ns", "a"⟩,
    Relation.ReflTransGen (AnyStep replaceApi) (start ⟨"ns", "a"⟩ ownCluster fun _ => visitor) w ∧
      ¬ NoneLost (current ownSession) w := by
  let P := (Pool.initial ownCluster).set 0 ⟨scaleJob, [], scaleJob.1.code⟩
  let P' := P.set 1 ⟨scaleJob, [], scaleJob.1.code⟩
  have idle : P.threads 1 = none := Pool.set_threads_ne _ _ (by decide)
  have clicked := (onePage_loaded.tail (click_up (Pool.initial ownCluster) [] 0 rfl)).tail
    (click_up P [⟨0, 1, .up⟩] 1 idle)
  have waiting : P'.threads 0 = some ⟨scaleJob, [], scaleJob.1.code⟩ := by
    rw [Pool.set_threads_ne _ _ (by decide), Pool.set_threads_self]
  obtain ⟨w₁, l₁, first, clicks₁, pool₁, -⟩ := run_request
    (w := ⟨P', (onePage (arrived [])).clients, [⟨0, 1, .up⟩, ⟨1, 1, .up⟩]⟩) replaceApi 1 scaleJob.1.code waiting
  have waiting₁ : w₁.pool.threads 1 = some ⟨scaleJob, [], scaleJob.1.code⟩ := by
    rw [pool₁, Pool.set_threads_ne _ _ (by decide)]
    exact Pool.set_threads_self P 1 _
  have state₁ : w₁.pool.state = scaledOnce := by
    rw [pool₁]
    rfl
  obtain ⟨w₂, l₂, second, clicks₂, pool₂, -⟩ := run_request replaceApi 1 scaleJob.1.code waiting₁
  rw [state₁] at pool₂
  have clicks : w₂.clicks = [⟨0, 1, .up⟩, ⟨1, 1, .up⟩] := clicks₂.trans clicks₁
  have answered₁ : w₂.pool.threads 0 =
      some ⟨scaleJob, l₁, .ret (scaleJob.1.code.run (answer replaceApi) ownCluster).1⟩ := by
    rw [pool₂, Pool.set_threads_ne _ _ (by decide)]
    show w₁.pool.threads 0 = _
    rw [pool₁, Pool.set_threads_self]
    rfl
  have answered₂ : w₂.pool.threads 1 =
      some ⟨scaleJob, l₂, .ret (scaleJob.1.code.run (answer replaceApi) scaledOnce).1⟩ := by
    rw [pool₂, Pool.set_threads_self]
  have run := (timely_run clicked).trans (first.trans second)
  refine ⟨w₂, run, fun none_lost => ?_⟩
  have ended : ∀ click ∈ w₂.clicks, Succeeded w₂ click ∧ 0 ≤ click.shown + click.button.delta := by
    intro click mem
    rw [clicks] at mem
    rcases List.mem_cons.1 mem with rfl | mem
    · exact ⟨succeeded_of_status answered₁ (by decide +kernel), by decide⟩
    · cases List.mem_singleton.1 mem
      exact ⟨succeeded_of_status answered₂ (by decide +kernel), by decide⟩
  have twice : ((scaleJob.1.code.run (answer replaceApi) scaledOnce).2.sessions.get ⟨"ns", "a"⟩).map current =
      some 2 := by decide +kernel
  obtain ⟨s, stored, two⟩ := Option.map_eq_some_iff.1 twice
  have stored' : w₂.pool.state.sessions.get ⟨"ns", "a"⟩ = some s := by rwa [pool₂]
  have three := none_lost (fun click mem => (ended click mem).1) (fun click mem => (ended click mem).2) s stored'
  rw [clicks, two] at three
  exact absurd three (by decide)

end

end Site

end Codespace.Ui
