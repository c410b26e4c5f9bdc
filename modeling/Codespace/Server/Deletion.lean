import Codespace.Server.Fleet

/-!
# Whose Session a delete request removes

The handler fetches the Session, checks its instance id and then deletes by key. In
between others may put another object under the key, or give the Session another owner,
and the Delete removes that (`adopted_deleted`). `Clear` says of a step that it does not
do this to a request that is about to delete; in a run of such steps every request
removes its own instance's Sessions only.
-/

namespace Codespace.Server
set_option autoImplicit false
open Interact Versioned

variable {χ : Type} {child : ChildApi χ} {d : ServerDeps} {r : Request}

/-- What is stored at the key, if anything, carries the server's instance id. -/
def Mine (d : ServerDeps) (k : Key) (σ : Cluster χ) : Prop :=
  ∀ s, σ.sessions.get k = some s → s.metadata.labels.index d.common.instanceIDLabel = d.instanceID

/-- Every Session that a call of the request changed or removed carried the server's instance
id at that moment. -/
def OwnOnly (d : ServerDeps) (l : CallLog χ) : Prop :=
  ∀ ev ∈ l, ∀ k s, ev.before.sessions.get k = some s → ev.after.sessions.get k ≠ some s →
    s.metadata.labels.index d.common.instanceIDLabel = d.instanceID

/-- The last call fetched a Session of the server's own. -/
def Checked (d : ServerDeps) (k : Key) (l : CallLog χ) : Prop :=
  ∃ cur before after, l.getLast? = some ⟨.get k, .ok cur, before, after⟩ ∧ foreign d cur = false

/-- A delete request to a server that is confined to its instance. -/
def Job.Deletes (j : Job) (d : ServerDeps) : Prop :=
  ∃ r, j = .serve d .session r ∧ r.method = "DELETE" ∧ d.clusterScope = false

/-- The step puts no other instance's Session under a key that somebody is about to delete. -/
def Clear (P P' : Pool Job Call Answer (Option HttpResp) (Cluster χ)) : Prop :=
  ∀ i t, P.threads i = some t → P'.threads i = some t → ∀ d k, t.job.Deletes d →
    Checked d k t.log → Mine d k P.state → Mine d k P'.state

def ClearStep (child : ChildApi χ) (P P' : Pool Job Call Answer (Option HttpResp) (Cluster χ)) : Prop :=
  Pool.Step (fleet child) P P' ∧ Clear P P'

/-- A job among others whose steps are clear. -/
def Undisturbed (child : ChildApi χ) (j : Job) : Setting Call Answer (LoggedView χ) where
  answer := fun v c a v' => Answers child v.1 c a v'.1 ∧ v'.2 = v.2 ++ [⟨c, a, v.1, v'.1⟩]
  rely := fun v v' => v'.2 = v.2 ∧ ∀ d k, j.Deletes d → Checked d k v.2 → Mine d k v.1 → Mine d k v'.1
  rely_refl := fun _ => ⟨rfl, fun _ _ _ _ h => h⟩
  rely_trans := fun first second => ⟨second.1.trans first.1, fun d k deletes checked mine =>
    second.2 d k deletes (first.1 ▸ checked) (first.2 d k deletes checked mine)⟩

theorem undisturbed_answers (child : ChildApi χ) : Pool.Answers (fleet child) (Undisturbed child) :=
  fun _ _ _ _ _ _ ans => ⟨ans, rfl⟩

/-! ## The handler -/

theorem OwnOnly.snoc {l : CallLog χ} (h : OwnOnly d l) {ev : Event Call Answer (Cluster χ)}
    (own : ∀ k s, ev.before.sessions.get k = some s → ev.after.sessions.get k ≠ some s →
      s.metadata.labels.index d.common.instanceIDLabel = d.instanceID) : OwnOnly d (l ++ [ev]) := by
  intro e mem
  rcases List.mem_append.1 mem with old | new
  · exact h e old
  · cases List.mem_singleton.1 new
    exact own

section

variable {j : Job} {v v' : LoggedView χ}

theorem ownOnly_stable : Prog.Stable (Undisturbed child j) fun v => OwnOnly d v.2 :=
  fun _ v' h rely => show OwnOnly d v'.2 from rely.1 ▸ h

theorem OwnOnly.reads (h : OwnOnly d v.2) {c : Call} {a : Answer c}
    (ans : (Undisturbed child j).answer v c a v') (reads : c.reads = true) : OwnOnly d v'.2 := by
  rw [ans.2]
  refine h.snoc fun k s before after => absurd before ?_
  rwa [← answers_reads ans.1 reads]

theorem ownOnly_harmless {c : Call} (reads : c.reads = true) :
    Prog.Harmless (Undisturbed child j) (fun v _ => OwnOnly d v.2) (fun v => OwnOnly d v.2) c :=
  ⟨fun _ h => h, fun _ _ _ h ans => h.reads ans reads⟩

/-- Deleting what is one's own. -/
theorem OwnOnly.delete (h : OwnOnly d v.2) {k : Key} {a : Answer (.delete k)} (mine : Mine d k v.1)
    (ans : (Undisturbed child j).answer v (.delete k) a v') : OwnOnly d v'.2 := by
  rw [ans.2]
  refine h.snoc fun k' s before after => ?_
  by_cases same : k' = k
  · subst same
    exact mine s before
  · exact absurd ((answers_delete ans.1 same).trans before) after

/-- The fetch leaves the request about to delete what is its own. -/
theorem fetched_mine (confined : d.clusterScope = false) {k : Key} {cur : Session}
    (ans : (Undisturbed child j).answer v (.get k) (.ok cur) v') (own : foreign d cur = false) :
    cur.key = k ∧ Checked d k v'.2 ∧ Mine d k v'.1 := by
  obtain ⟨same, held⟩ := answers_get_ok ans.1
  refine ⟨v.1.keyed k _ held, ⟨cur, v.1, v'.1, by rw [ans.2]; simp, own⟩, fun s held' => ?_⟩
  rw [same, held] at held'
  cases held'
  simpa [foreign, confined] using own

theorem handleDeleteSession_own (deletes : j.Deletes d) (confined : d.clusterScope = false)
    (start : OwnOnly d v.2) : (handleDeleteSession d r).wp (Undisturbed child j)
      (fun v _ => OwnOnly d v.2) (fun _ v' => OwnOnly d v'.2) v := by
  unfold handleDeleteSession
  split
  · exact fun v' rely => ownOnly_stable v v' start rely
  split
  · rename_i ns name _ path
    refine wp_mustCan ownOnly_stable (fun _ => ownOnly_harmless rfl) ?_ ?_ start
    · exact fun _ v₁ own _ v₂ rely => ownOnly_stable v₁ v₂ own rely
    intro cl _ v₁ _ own _
    refine wp_fetch ownOnly_stable (ownOnly_harmless rfl) ?_ ?_ own
    · exact fun _ v₁ own _ v₂ rely => ownOnly_stable v₁ v₂ own rely
    intro cur v₂ v₃ own ans notForeign
    obtain ⟨key, checked, mine⟩ := fetched_mine confined ans notForeign
    refine Prog.wp_perform fun v₄ rely => ?_
    have own₄ : OwnOnly d v₄.2 := ownOnly_stable v₃ v₄ (own.reads ans rfl) rely
    refine ⟨own₄, fun out v₅ ans' => ?_⟩
    have own₅ : OwnOnly d v₅.2 := own₄.delete (key ▸ rely.2 d _ deletes checked mine) ans'
    cases out with
    | error e => exact fun v₆ rely => ownOnly_stable v₅ v₆ own₅ rely
    | ok _ => exact fun v₆ rely => ownOnly_stable v₅ v₆ own₅ rely
  · exact fun v' rely => ownOnly_stable v v' start rely

theorem serve_own (child : ChildApi χ) (σ : Cluster χ) (deletes : (Job.serve d .session r).Deletes d) :
    (serve d .session r).wp (Undisturbed child (.serve d .session r))
      (fun v _ => OwnOnly d v.2) (fun _ v' => OwnOnly d v'.2) (σ, []) := by
  obtain ⟨_, ⟨⟩, method, confined⟩ := id deletes
  have start : OwnOnly d ([] : CallLog χ) := fun _ mem => absurd mem List.not_mem_nil
  have stays : ∀ resp, (Prog.ret resp : Api HttpResp).wp (Undisturbed child (.serve d .session r))
      (fun v _ => OwnOnly d v.2) (fun _ v' => OwnOnly d v'.2) (σ, []) :=
    fun _ v' rely => ownOnly_stable (σ, []) v' start rely
  refine serve_session_cases (P := fun p => p.wp (Undisturbed child (.serve d .session r))
      (fun v _ => OwnOnly d v.2) (fun _ v' => OwnOnly d v'.2) (σ, []))
    (fun _ => stays _) (fun _ => stays _) ?_ ?_ ?_ (fun _ _ => handleDeleteSession_own deletes confined start) ?_
  · -- a DELETE of a path that ends in /scale
    intro _
    unfold handleScaleSession
    rw [if_pos (by rw [method]; decide)]
    exact stays _
  · intro _ get
    simp [method] at get
  · intro _ update
    simp [method] at update
  · exact fun _ _ _ notDelete => absurd method notDelete

end

/-! ## Runs -/

/-- What is claimed of a job at every point. -/
def Job.DeletesOwn (j : Job) (v : LoggedView χ) : Prop := ∀ d, j.Deletes d → OwnOnly d v.2

theorem code_own (j : Job) (σ : Cluster χ) :
    j.code.wp (Undisturbed child j) (fun v _ => j.DeletesOwn v) (fun _ v => j.DeletesOwn v) (σ, []) := by
  by_cases deletes : ∃ d, j.Deletes d
  · obtain ⟨d, r, rfl, method, confined⟩ := deletes
    have own := serve_own child σ ⟨r, rfl, method, confined⟩
    have all : ∀ v : LoggedView χ, OwnOnly d v.2 → (Job.serve d .session r).DeletesOwn v := by
      rintro v own _ ⟨_, ⟨⟩, -⟩
      exact own
    refine Prog.wp_bind (Prog.wp_weaken own (fun v _ own => all v own) fun _ v own v' rely => all v' ?_)
    exact ownOnly_stable v v' own rely
  · have idle : ∀ v : LoggedView χ, j.DeletesOwn v := fun v d yes => absurd ⟨d, yes⟩ deletes
    exact Prog.wp_weaken (Prog.wp_true (fun _ => idle) _) (fun v _ _ => idle v) fun _ v _ => idle v

/-- **Main result.** In every run whose steps put no other instance's Session under a key
that a request is about to delete, a delete request to a server that is confined to its
instance changes and removes only Sessions that carry the server's instance id then. -/
theorem deletes_own {σ : Cluster χ} {P : Pool Job Call Answer (Option HttpResp) (Cluster χ)}
    (run : Relation.ReflTransGen (ClearStep child) (Pool.initial σ) P) {i : Nat}
    {t : Thread Job Call Answer (Option HttpResp) (Cluster χ)}
    (held : P.threads i = some t) (deletes : t.job.Deletes d) : OwnOnly d t.log := by
  have kept := run.lift (p := Pool.KeptStep (fleet child) (Undisturbed child)) id fun P P' step =>
    ⟨step.1, fun i t before after => ⟨rfl, step.2 i t before after⟩⟩
  have sound := (Pool.sound_initial (W := Undisturbed child) (G := fun j v _ => j.DeletesOwn v)
    (Q := fun j _ v => j.DeletesOwn v) σ).run (undisturbed_answers child) code_own kept
  exact Prog.wp_cut (.refl _ _) (sound i t held) (fun _ _ h => h) (fun _ _ h => h) d deletes

def deleteJob : Job := .serve (.plain "i" false) .session deleteRequest

theorem deleteJob_deletes : deleteJob.Deletes (.plain "i" false) := ⟨deleteRequest, rfl, rfl, rfl⟩

/-- A delete request that nobody interferes with. -/
theorem deletes_own_alone :
    ∃ P t, Relation.ReflTransGen (ClearStep replaceApi)
        (Pool.initial (.single allowAll (sessionOf "i"))) P ∧
      P.threads 0 = some t ∧ P.state.sessions.get ⟨"ns", "a"⟩ = none ∧ OwnOnly (.plain "i" false) t.log := by
  let σ : Cluster Manifest := .single allowAll (sessionOf "i")
  have start : Pool.Step (fleet replaceApi) (Pool.initial σ) _ := .spawn 0 deleteJob rfl
  obtain ⟨l, rest, -⟩ := Pool.run_thread (M := fleet replaceApi) (answers_answer replaceApi) deleteJob.code
    σ (fun _ => none) 0 deleteJob []
  have clear : ∀ P P', Pool.Turn (fleet replaceApi) (fun _ => none) 0 P P' → Clear P P' := by
    rintro P P' ⟨-, t, t', before, after, longer⟩ i t₀ was is
    by_cases same : i = 0
    · subst same
      rw [before, Pool.set_threads_self] at was
      rw [after, Pool.set_threads_self] at is
      cases was
      cases is
      exact absurd longer (Nat.lt_irrefl _)
    · rw [before, Pool.set_threads_ne _ _ same] at was
      cases was
  have first : ClearStep replaceApi (Pool.initial σ) _ := ⟨start, fun i t was => by cases was⟩
  have run := Relation.ReflTransGen.head first
    (rest.lift (p := ClearStep replaceApi) id fun P P' turn => ⟨turn.1, clear P P' turn⟩)
  have gone : (((deleteJob.code.run (answer replaceApi) σ).2.sessions.get ⟨"ns", "a"⟩).isNone) = true := by
    decide +kernel
  exact ⟨_, _, run, Pool.set_threads_self _ 0 _, Option.isNone_iff_eq_none.1 gone,
    deletes_own run (Pool.set_threads_self _ 0 _) deleteJob_deletes⟩

/-- Another server adopts the Session between the Get and the Delete of a delete request, which
then removes it. -/
theorem adopted_deleted :
    ∃ P t, Relation.ReflTransGen (Pool.Step (fleet replaceApi))
        (Pool.initial (.single allowAll (sessionOf "i"))) P ∧
      P.threads 0 = some t ∧ t.job.Deletes (.plain "i" false) ∧ ¬ OwnOnly (.plain "i" false) t.log := by
  let σ : Cluster Manifest := .single allowAll (sessionOf "i")
  let adoption : Job := .serve (.plain "j" true) .adopt adoptRequest
  let checked := deleteJob.code.advance (answer replaceApi) 2 σ
  let taken := adoption.code.run (answer replaceApi) checked.2
  let final := checked.1.run (answer replaceApi) taken.2
  have first : Pool.Step (fleet replaceApi) (Pool.initial σ) _ := .spawn 0 deleteJob rfl
  obtain ⟨l, checks, -⟩ := Pool.advance_thread (M := fleet replaceApi) (answers_answer replaceApi) 2
    deleteJob.code σ (fun _ => none) 0 deleteJob []
  let waiting : Pool Job Call Answer (Option HttpResp) (Cluster Manifest) :=
    Pool.set ⟨checked.2, fun _ => none⟩ 0 ⟨deleteJob, [] ++ l, checked.1⟩
  have second : Pool.Step (fleet replaceApi) waiting _ := .spawn 1 adoption rfl
  obtain ⟨l', adopts, -⟩ := Pool.run_thread (M := fleet replaceApi) (answers_answer replaceApi)
    adoption.code checked.2 waiting.threads 1 adoption []
  let between : Pool Job Call Answer (Option HttpResp) (Cluster Manifest) :=
    Pool.set ⟨taken.2, waiting.threads⟩ 1 ⟨adoption, [] ++ l', .ret taken.1⟩
  have still : between.threads 0 = some ⟨deleteJob, [] ++ l, checked.1⟩ := rfl
  obtain ⟨l'', deletes, sees⟩ := Pool.run_thread (M := fleet replaceApi) (answers_answer replaceApi)
    checked.1 taken.2 between.threads 0 deleteJob ([] ++ l)
  have same : Pool.set ⟨taken.2, between.threads⟩ 0 ⟨deleteJob, [] ++ l, checked.1⟩ = between :=
    Pool.set_idle still
  rw [same] at deletes
  have run := ((Relation.ReflTransGen.head first (Pool.turns_steps checks)).trans
    (.head second (Pool.turns_steps adopts))).trans (Pool.turns_steps deletes)
  have owner : (taken.2.sessions.get ⟨"ns", "a"⟩).map
      (fun s => s.metadata.labels.index "codespace.dev/instance-id") = some "j" := by decide +kernel
  have gone : (final.2.sessions.get ⟨"ns", "a"⟩).isNone = true := by decide +kernel
  obtain ⟨s, stored, label⟩ := Option.map_eq_some_iff.1 owner
  have removed : final.2.sessions.get ⟨"ns", "a"⟩ ≠ taken.2.sessions.get ⟨"ns", "a"⟩ := by
    rw [stored, Option.isNone_iff_eq_none.1 gone]
    exact nofun
  obtain ⟨ev, mem, before, after⟩ := sees (fun σ => σ.sessions.get ⟨"ns", "a"⟩) removed
  refine ⟨_, _, run, Pool.set_threads_self _ 0 _, deleteJob_deletes, fun own => ?_⟩
  have mine := own ev (List.mem_append_right _ mem) ⟨"ns", "a"⟩ s (before.trans stored) (stored ▸ after)
  exact absurd (show "j" = "i" from label.symm.trans mine) (by decide)

end Codespace.Server
