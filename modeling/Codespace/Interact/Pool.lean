import Codespace.Interact.Program
import Mathlib.Logic.Function.Basic

/-!
# Pools of programs that share a state

A `Pool` holds any number of threads. Each runs the program of its job and keeps a log
of its own calls; the state is shared. One `Step` starts a thread, answers the next call
of some thread, or lets the state drift by itself. A thread that is never scheduled
again has crashed, so a run may stop anywhere.

`Sound` is the invariant that carries rely-guarantee reasoning over a whole run: what
each thread has left to do satisfies its weakest precondition in the shared state.
`Sound.step` preserves it, given that what the other threads do is within each thread's
rely; `Sound.run` and `Sound.result` are the run lemmas.
-/

namespace Interact
set_option autoImplicit false

variable {J C : Type} {R : C → Type} {α σ : Type}

/-- A thread: the job it was started for, the calls it has made, and what is left to do. -/
structure Thread (J C : Type) (R : C → Type) (α σ : Type) where
  job : J
  log : Log C R σ
  rest : Prog C R α

/-- A shared state and the threads started so far. -/
structure Pool (J C : Type) (R : C → Type) (α σ : Type) where
  state : σ
  threads : Nat → Option (Thread J C R α σ)

namespace Pool

/-- The pool with thread `i` replaced. -/
def set (P : Pool J C R α σ) (i : Nat) (t : Thread J C R α σ) : Pool J C R α σ :=
  { P with threads := Function.update P.threads i (some t) }

@[simp] theorem set_state (P : Pool J C R α σ) (i : Nat) (t : Thread J C R α σ) :
    (P.set i t).state = P.state := rfl

@[simp] theorem set_threads_self (P : Pool J C R α σ) (i : Nat) (t : Thread J C R α σ) :
    (P.set i t).threads i = some t := by simp [set]

theorem set_idle {P : Pool J C R α σ} {i : Nat} {t : Thread J C R α σ} (held : P.threads i = some t) :
    P.set i t = P := by
  simp [set, ← held]

theorem set_threads_ne (P : Pool J C R α σ) {i j : Nat} (t : Thread J C R α σ) (ne : j ≠ i) :
    (P.set i t).threads j = P.threads j := by simp [set, ne]

/-- How a pool works: the program of each job, the answers of the shared service, and the
changes of the state that no thread makes. -/
structure Machine (J C : Type) (R : C → Type) (α σ : Type) where
  code : J → Prog C R α
  answer : σ → (c : C) → R c → σ → Prop
  drift : σ → σ → Prop

/-- The machine for these jobs only. -/
def Machine.only (M : Machine J C R α σ) (ok : J → Prop) : Machine {j // ok j} C R α σ where
  code := fun j => M.code j
  answer := M.answer
  drift := M.drift

variable {M : Machine J C R α σ}

/-- One step of a pool. -/
inductive Step (M : Machine J C R α σ) : Pool J C R α σ → Pool J C R α σ → Prop where
  | spawn {P : Pool J C R α σ} (i : Nat) (j : J) : P.threads i = none →
      Step M P (P.set i ⟨j, [], M.code j⟩)
  | act {P : Pool J C R α σ} {i : Nat} {t : Thread J C R α σ} {c : C} {k : R c → Prog C R α}
      {r : R c} {s' : σ} : P.threads i = some t → t.rest = .call c k →
      M.answer P.state c r s' →
      Step M P (set ⟨s', P.threads⟩ i ⟨t.job, t.log ++ [⟨c, r, P.state, s'⟩], k r⟩)
  | drift {P : Pool J C R α σ} {s' : σ} : M.drift P.state s' → Step M P ⟨s', P.threads⟩

/-- The states of a thread's setting: the shared state and the thread's own log. -/
abbrev View (C : Type) (R : C → Type) (σ : Type) := σ × Log C R σ

/-- A setting per job that accounts for the machine's answers: the answer and its log entry. -/
def Answers (M : Machine J C R α σ) (W : J → Setting C R (View C R σ)) : Prop :=
  ∀ j s l c r s', M.answer s c r s' → (W j).answer (s, l) c r (s', l ++ [⟨c, r, s, s'⟩])

/-- A step of the pool that each thread it does not run finds within its rely. -/
def Keeps (W : J → Setting C R (View C R σ)) (P P' : Pool J C R α σ) : Prop :=
  ∀ i t, P.threads i = some t → P'.threads i = some t → (W t.job).rely (P.state, t.log) (P'.state, t.log)

/-- Every thread's remaining program satisfies its weakest precondition. -/
def Sound (W : J → Setting C R (View C R σ)) (G : J → View C R σ → C → Prop)
    (Q : J → α → View C R σ → Prop) (P : Pool J C R α σ) : Prop :=
  ∀ i t, P.threads i = some t → t.rest.wp (W t.job) (G t.job) (Q t.job) (P.state, t.log)

section

variable {W : J → Setting C R (View C R σ)} {G : J → View C R σ → C → Prop}
  {Q : J → α → View C R σ → Prop}

/-- One step: the thread that moved follows its program, the others are within their rely. -/
theorem Sound.step (answers : Answers M W)
    (start : ∀ j s, (M.code j).wp (W j) (G j) (Q j) (s, []))
    {P P' : Pool J C R α σ} (h : Sound W G Q P) (st : Step M P P') (keeps : Keeps W P P') :
    Sound W G Q P' := by
  have still : ∀ i t, P.threads i = some t → P'.threads i = some t →
      t.rest.wp (W t.job) (G t.job) (Q t.job) (P'.state, t.log) :=
    fun i t before after => Prog.wp_rely (h i t before) (keeps i t before after)
  cases st with
  | spawn i j free =>
    intro i' t held
    by_cases same : i' = i
    · subst same
      rw [set_threads_self, Option.some.injEq] at held
      subst held
      exact start j P.state
    · exact still i' t (by rwa [set_threads_ne _ _ same] at held) held
  | @act i t c k r s' running next ans =>
    intro i' t' held
    by_cases same : i' = i
    · subst same
      rw [set_threads_self, Option.some.injEq] at held
      subst held
      have here := h i' t running
      rw [next] at here
      exact (here _ ((W t.job).rely_refl _)).2 r _ (answers t.job P.state t.log c r s' ans)
    · exact still i' t' (by rwa [set_threads_ne _ _ same] at held) held
  | drift d => exact fun i t held => still i t held held

/-- The steps of a pool that keep within every thread's rely. -/
def KeptStep (M : Machine J C R α σ) (W : J → Setting C R (View C R σ)) (P P' : Pool J C R α σ) :
    Prop := Step M P P' ∧ Keeps W P P'

/-- A whole run keeps every thread sound. -/
theorem Sound.run (answers : Answers M W)
    (start : ∀ j s, (M.code j).wp (W j) (G j) (Q j) (s, []))
    {P P' : Pool J C R α σ} (h : Sound W G Q P)
    (run : Relation.ReflTransGen (KeptStep M W) P P') : Sound W G Q P' := by
  induction run with
  | refl => exact h
  | tail _ last ih => exact ih.step answers start last.1 last.2

/-- What a step does to the state: nothing, a call that some thread was allowed to make, or
what happens by itself. -/
theorem Sound.moves {P P' : Pool J C R α σ} (h : Sound W G Q P) (st : Step M P P') :
    P'.state = P.state ∨
      (∃ i t c r, P.threads i = some t ∧ G t.job (P.state, t.log) c ∧ M.answer P.state c r P'.state) ∨
      M.drift P.state P'.state := by
  cases st with
  | spawn i j free => exact .inl rfl
  | @act i t c k r s' running next ans =>
    have here := h i t running
    rw [next] at here
    exact .inr (.inl ⟨i, t, c, r, running, (here _ ((W t.job).rely_refl _)).1, ans⟩)
  | drift d => exact .inr (.inr d)

/-- **Invariants.** What is kept by every call that a thread is allowed to make, and by every
drift, holds throughout a run. -/
theorem Sound.invariant (answers : Answers M W)
    (start : ∀ j s, (M.code j).wp (W j) (G j) (Q j) (s, [])) {I : σ → Prop}
    (act : ∀ j s l c r s', I s → G j (s, l) c → M.answer s c r s' → I s')
    (drift : ∀ s s', I s → M.drift s s' → I s') {P P' : Pool J C R α σ} (h : Sound W G Q P)
    (inv : I P.state) (run : Relation.ReflTransGen (KeptStep M W) P P') : I P'.state := by
  induction run with
  | refl => exact inv
  | @tail P₁ P₂ before last ih =>
    rcases (h.run answers start before).moves last.1 with same | ⟨i, t, c, r, -, allowed, ans⟩ | drifted
    · rw [same]
      exact ih
    · exact act t.job _ _ c r _ ih allowed ans
    · exact drift _ _ ih drifted

/-- **Threads in parallel.** Where every call that a thread is allowed to make, and every drift, is
within the rely of all threads, no step can do otherwise. -/
theorem Sound.parallel (answers : Answers M W)
    (start : ∀ j s, (M.code j).wp (W j) (G j) (Q j) (s, []))
    (act : ∀ j s l c r s', G j (s, l) c → M.answer s c r s' → ∀ j' l', (W j').rely (s, l') (s', l'))
    (drift : ∀ s s', M.drift s s' → ∀ j l, (W j).rely (s, l) (s', l)) {P P' : Pool J C R α σ} (h : Sound W G Q P)
    (run : Relation.ReflTransGen (Step M) P P') : Relation.ReflTransGen (KeptStep M W) P P' := by
  induction run with
  | refl => exact .refl
  | @tail P₁ P₂ _ last ih =>
    refine ih.tail ⟨last, fun i t _ _ => ?_⟩
    rcases (h.run answers start ih).moves last with same | ⟨i', t', c, r, -, allowed, ans⟩ | drifted
    · rw [same]
      exact (W t.job).rely_refl _
    · exact act t'.job _ _ c r _ allowed ans t.job t.log
    · exact drift _ _ drifted t.job t.log

/-- A thread that has returned has met its postcondition. -/
theorem Sound.result {P : Pool J C R α σ} (h : Sound W G Q P) {i : Nat} {t : Thread J C R α σ}
    (held : P.threads i = some t) {a : α} (done : t.rest = .ret a) :
    Q t.job a (P.state, t.log) := by
  have here := h i t held
  rw [done] at here
  exact here _ ((W t.job).rely_refl _)

/-- The next call of a thread satisfies its guarantee. -/
theorem Sound.guarantee {P : Pool J C R α σ} (h : Sound W G Q P) {i : Nat}
    {t : Thread J C R α σ} (held : P.threads i = some t) {c : C} {k : R c → Prog C R α}
    (next : t.rest = .call c k) : G t.job (P.state, t.log) c := by
  have here := h i t held
  rw [next] at here
  exact (here _ ((W t.job).rely_refl _)).1

end

/-- A thread calls in a state of the pool: what holds of the pool's state whenever a step is taken
holds of every state in a log. -/
theorem logged_before {I : σ → Prop} {P₀ P : Pool J C R α σ}
    (run : Relation.ReflTransGen (fun P P' => Step M P P' ∧ I P.state) P₀ P)
    (start : ∀ i t, P₀.threads i = some t → ∀ ev ∈ t.log, I ev.before) :
    ∀ i t, P.threads i = some t → ∀ ev ∈ t.log, I ev.before := by
  induction run with
  | refl => exact start
  | @tail P₁ P₂ _ last ih =>
    intro i' t' held
    cases last.1 with
    | spawn i j free =>
      by_cases same : i' = i
      · subst same
        rw [set_threads_self, Option.some.injEq] at held
        subst held
        exact fun ev mem => absurd mem List.not_mem_nil
      · exact ih i' t' (by rwa [set_threads_ne _ _ same] at held)
    | @act i t c k r s' running next ans =>
      by_cases same : i' = i
      · subst same
        rw [set_threads_self, Option.some.injEq] at held
        subst held
        intro ev mem
        rcases List.mem_append.1 mem with old | new
        · exact ih i' t running ev old
        · cases List.mem_singleton.1 new
          exact last.2
      · exact ih i' t' (by rwa [set_threads_ne _ _ same] at held)
    | drift d => exact ih i' t' held

/-- A call of thread `i`, while `others` wait. -/
def Turn (M : Machine J C R α σ) (others : Nat → Option (Thread J C R α σ)) (i : Nat)
    (P P' : Pool J C R α σ) : Prop :=
  Step M P P' ∧ ∃ t t', P = set ⟨P.state, others⟩ i t ∧ P' = set ⟨P'.state, others⟩ i t' ∧
    t.log.length < t'.log.length

/-- A thread may make its next calls while the others wait. If what is seen of the state has
changed afterwards, one of these calls has changed it. -/
theorem advance_thread {step : σ → (c : C) → R c × σ}
    (answers : ∀ s c, M.answer s c (step s c).1 (step s c).2) (n : Nat) (p : Prog C R α) (s : σ)
    (others : Nat → Option (Thread J C R α σ)) (i : Nat) (j : J) (l : Log C R σ) :
    ∃ l', Relation.ReflTransGen (Turn M others i) (set ⟨s, others⟩ i ⟨j, l, p⟩)
        (set ⟨(p.advance step n s).2, others⟩ i ⟨j, l ++ l', (p.advance step n s).1⟩) ∧
      ∀ {β : Type} (seen : σ → β), seen (p.advance step n s).2 ≠ seen s →
        ∃ ev ∈ l', seen ev.before = seen s ∧ seen ev.after ≠ seen s := by
  induction n generalizing p s l with
  | zero => exact ⟨[], by rw [List.append_nil]; exact .refl, fun seen changed => absurd rfl changed⟩
  | succ n ih =>
    cases p with
    | ret a => exact ⟨[], by rw [List.append_nil]; exact .refl, fun seen changed => absurd rfl changed⟩
    | call c k =>
      let ev : Event C R σ := ⟨c, (step s c).1, s, (step s c).2⟩
      obtain ⟨l', rest, sees⟩ := ih (k ev.answer) ev.after (l ++ [ev])
      have first : Turn M others i (set ⟨s, others⟩ i ⟨j, l, .call c k⟩)
          (set ⟨ev.after, others⟩ i ⟨j, l ++ [ev], k ev.answer⟩) := by
        refine ⟨?_, _, _, rfl, rfl, by simp⟩
        have acted := Step.act (M := M) (set_threads_self ⟨s, others⟩ i ⟨j, l, .call c k⟩) rfl (answers s c)
        simpa [set, ev] using acted
      refine ⟨ev :: l', .head first ?_, fun seen changed => ?_⟩
      · rw [List.append_assoc] at rest
        exact rest
      · by_cases same : seen ev.after = seen s
        · obtain ⟨e, mem, before, change⟩ := sees seen (same ▸ changed)
          exact ⟨e, List.mem_cons_of_mem _ mem, before.trans same, same ▸ change⟩
        · exact ⟨ev, List.mem_cons_self, rfl, same⟩

/-- A thread may run to its end while the others wait. -/
theorem run_thread {step : σ → (c : C) → R c × σ}
    (answers : ∀ s c, M.answer s c (step s c).1 (step s c).2) (p : Prog C R α) (s : σ)
    (others : Nat → Option (Thread J C R α σ)) (i : Nat) (j : J) (l : Log C R σ) :
    ∃ l', Relation.ReflTransGen (Turn M others i) (set ⟨s, others⟩ i ⟨j, l, p⟩)
        (set ⟨(p.run step s).2, others⟩ i ⟨j, l ++ l', .ret (p.run step s).1⟩) ∧
      ∀ {β : Type} (seen : σ → β), seen (p.run step s).2 ≠ seen s →
        ∃ ev ∈ l', seen ev.before = seen s ∧ seen ev.after ≠ seen s := by
  obtain ⟨n, eq⟩ := p.exists_advance step s
  have advanced := advance_thread answers n p s others i j l
  rwa [eq] at advanced

/-- A thread may run to its end by steps of a kind, if every call of it passes a check for that. -/
theorem run_checked {step : σ → (c : C) → R c × σ}
    (answers : ∀ s c, M.answer s c (step s c).1 (step s c).2) {ok : σ → (c : C) → R c → Bool}
    {T : Pool J C R α σ → Pool J C R α σ → Prop}
    (checked : ∀ P P', Step M P P' → (∃ c, ok P.state c (step P.state c).1 = true ∧ P'.state = (step P.state c).2) →
      T P P') {P : Pool J C R α σ} {i : Nat} {t : Thread J C R α σ} (running : P.threads i = some t)
    (checks : t.rest.runChecks step ok P.state = true) :
    ∃ P', Relation.ReflTransGen T P P' ∧ P'.state = (t.rest.run step P.state).2 ∧
      ∀ i', i' ≠ i → P'.threads i' = P.threads i' := by
  obtain ⟨j, l, p⟩ := t
  induction p generalizing P l with
  | ret a => exact ⟨P, .refl, rfl, fun _ _ => rfl⟩
  | call c f ih =>
    simp only [Prog.runChecks, Bool.and_eq_true] at checks
    let ev : Event C R σ := ⟨c, (step P.state c).1, P.state, (step P.state c).2⟩
    let next := set ⟨ev.after, P.threads⟩ i ⟨j, l ++ [ev], f ev.answer⟩
    have first : T P next := checked _ _ (.act running rfl (answers P.state c)) ⟨c, checks.1, rfl⟩
    obtain ⟨P', rest, state, others⟩ := ih ev.answer (P := next) _ (set_threads_self ..) checks.2
    exact ⟨P', rest.head first, state, fun i' ne => (others i' ne).trans (set_threads_ne _ _ ne)⟩

theorem turns_steps {others : Nat → Option (Thread J C R α σ)} {i : Nat} {P P' : Pool J C R α σ}
    (turns : Relation.ReflTransGen (Turn M others i) P P') : Relation.ReflTransGen (Step M) P P' :=
  turns.lift id fun _ _ turn => turn.1

/-- A pool in which no thread has been started. -/
def initial (s : σ) : Pool J C R α σ := ⟨s, fun _ => none⟩

theorem sound_initial {W : J → Setting C R (View C R σ)} {G : J → View C R σ → C → Prop}
    {Q : J → α → View C R σ → Prop} (s : σ) : Sound W G Q (initial s) := by
  intro i t held
  cases held

end Pool

/-! ## A setting that keeps the log -/

namespace Setting

variable {C : Type} {R : C → Type} {σ : Type}

/-- The setting `W` with the log of the program's own calls added to its state. -/
def logged (W : Setting C R σ) : Setting C R (Pool.View C R σ) where
  answer := fun v c r v' => W.answer v.1 c r v'.1 ∧ v'.2 = v.2 ++ [⟨c, r, v.1, v'.1⟩]
  rely := fun v v' => W.rely v.1 v'.1 ∧ v'.2 = v.2
  rely_refl := fun v => ⟨W.rely_refl v.1, rfl⟩
  rely_trans := fun h h' => ⟨W.rely_trans h.1 h'.1, h'.2.trans h.2⟩

theorem logged_answer {W : Setting C R σ} {s s' : σ} {l : Log C R σ} {c : C} {r : R c}
    (h : W.answer s c r s') : W.logged.answer (s, l) c r (s', l ++ [⟨c, r, s, s'⟩]) := ⟨h, rfl⟩

/-- What is shown of a program without its log holds with it. -/
theorem wp_logged {α : Type} {W : Setting C R σ} {G : σ → C → Prop} {p : Prog C R α} {Q : α → σ → Prop}
    {v : Pool.View C R σ} (h : p.wp W G Q v.1) : p.wp W.logged (fun v => G v.1) (fun a v => Q a v.1) v := by
  induction p generalizing v with
  | ret a => exact fun v' rely => h v'.1 rely.1
  | call c f ih => exact fun v' rely => ⟨(h v'.1 rely.1).1, fun r v'' ans => ih r ((h v'.1 rely.1).2 r v''.1 ans.1)⟩

/-- A function that answers calls, keeping the log. -/
def recorded (step : σ → (c : C) → R c × σ) (v : Pool.View C R σ) (c : C) : R c × Pool.View C R σ :=
  ((step v.1 c).1, ((step v.1 c).2, v.2 ++ [⟨c, (step v.1 c).1, v.1, (step v.1 c).2⟩]))

theorem recorded_answers {W : Setting C R σ} {step : σ → (c : C) → R c × σ}
    (answers : ∀ s c, W.answer s c (step s c).1 (step s c).2) (v : Pool.View C R σ) (c : C) :
    W.logged.answer v c (recorded step v c).1 (recorded step v c).2 := ⟨answers v.1 c, rfl⟩

end Setting

end Interact
