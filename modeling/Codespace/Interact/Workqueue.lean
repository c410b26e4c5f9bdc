import Codespace.Interact.Program
import Mathlib.Data.Set.Insert

/-!
# Work queues

A `Loop` keeps a queue of keys. It takes a key off the queue and runs a program for it, and a
change of the world puts back the keys that it `touches`, also while their programs run. A
program that asks for it is run again, and after a crash the queue is filled anew.

`Works` is the contract: what a program is to establish for its key if nothing touches the
key, and that this lasts until something does. `Sound` is the invariant of the loop under the
contract, and `Sound.run` says that it survives every run.
-/

namespace Interact
set_option autoImplicit false

variable {K C : Type} {R : C → Type} {α σ : Type}

/-- A loop over a queue of keys. -/
structure Loop (K C : Type) (R : C → Type) (α σ : Type) where
  code : K → Prog C R α
  /-- The key is queued again after this result. -/
  retry : α → Prop
  answer : σ → (c : C) → R c → σ → Prop
  others : σ → σ → Prop
  /-- The keys that are queued when the world changes. -/
  touches : σ → σ → K → Prop
  restart : σ → σ → Prop
  /-- The queue after a start. -/
  first : σ → Set K

namespace Loop

/-- The world, the queue, and the programs that are running. -/
structure State (K C : Type) (R : C → Type) (α σ : Type) where
  world : σ
  queued : Set K
  working : K → Option (Prog C R α)

section

variable (L : Loop K C R α σ)

/-- A loop that has just been started. -/
def started (s : σ) : State K C R α σ := ⟨s, L.first s, fun _ => none⟩

/-- The queue after a change of the world. -/
def told (P : State K C R α σ) (s : σ) : Set K := P.queued ∪ {k | L.touches P.world s k}

variable [DecidableEq K]

inductive Step : State K C R α σ → State K C R α σ → Prop where
  | others {P : State K C R α σ} {s : σ} : L.others P.world s → Step P ⟨s, L.told P s, P.working⟩
  | enqueue (P : State K C R α σ) (k : K) : Step P ⟨P.world, insert k P.queued, P.working⟩
  | start {P : State K C R α σ} {k : K} : k ∈ P.queued → P.working k = none →
      Step P ⟨P.world, P.queued \ {k}, Function.update P.working k (some (L.code k))⟩
  | act {P : State K C R α σ} {k : K} {c : C} {f : R c → Prog C R α} {r : R c} {s : σ} :
      P.working k = some (.call c f) → L.answer P.world c r s →
      Step P ⟨s, L.told P s, Function.update P.working k (some (f r))⟩
  | finish {P : State K C R α σ} {k : K} {a : α} : P.working k = some (.ret a) →
      Step P ⟨P.world, P.queued ∪ {k' | k' = k ∧ L.retry a}, Function.update P.working k none⟩
  | crash {P : State K C R α σ} {s : σ} : L.restart P.world s → Step P (L.started s)

end

/-! ## The contract -/

section

variable (L : Loop K C R α σ) (G : K → σ → C → Prop) (k : K)

/-- What may happen to the world without the program for `k`. -/
inductive Elsewhere (s : σ) : σ → Prop where
  | others {s' : σ} : L.others s s' → Elsewhere s s'
  | call {k' : K} {c : C} {r : R c} {s' : σ} : k' ≠ k → G k' s c → L.answer s c r s' → Elsewhere s s'

/-- A world, and whether `k` has been queued since its program was started. -/
abbrev Watched (σ : Type) := σ × Prop

/-- What is seen of a step without the program for `k`: `k` is queued, or the world changes. -/
def Passes (v v' : Watched σ) : Prop :=
  (v.2 → v'.2) ∧ (v'.1 = v.1 ∨ L.Elsewhere G k v.1 v'.1 ∧ (L.touches v.1 v'.1 k → v'.2))

/-- The surroundings of the program for `k`. -/
def watched : Setting C R (Watched σ) where
  answer := fun v c r v' => L.answer v.1 c r v'.1 ∧ (v.2 → v'.2) ∧ (L.touches v.1 v'.1 k → v'.2)
  rely := Relation.ReflTransGen (L.Passes G k)
  rely_refl := fun _ => .refl
  rely_trans := Relation.ReflTransGen.trans

/-- How a program may end: its key is good, or queued, or queued again. -/
def Post (Good : K → σ → Prop) (a : α) (v : Watched σ) : Prop := v.2 ∨ L.retry a ∨ Good k v.1

end

/-- The contract of a loop: `I` always holds, a program makes calls within `G`, and leaves its
key good. -/
structure Works (L : Loop K C R α σ) (I : σ → Prop) (G : K → σ → C → Prop) (Good : K → σ → Prop) : Prop where
  others : ∀ {s s'}, I s → L.others s s' → I s'
  call : ∀ {k s c r s'}, I s → G k s c → L.answer s c r s' → I s'
  restart : ∀ {s s'}, I s → L.restart s s' → I s'
  first : ∀ k {s s'}, I s → L.restart s s' → k ∈ L.first s' ∨ Good k s'
  lasts : ∀ {k s s'}, I s → Good k s → L.Elsewhere G k s s' → L.touches s s' k ∨ Good k s'
  pass : ∀ k {s}, I s →
    (L.code k).wp (L.watched G k) (fun v c => G k v.1 c) (L.Post k Good) (s, False)

/-- An assertion that a step without the program for `k` keeps, unless `k` is queued. -/
theorem stable_of_passes {L : Loop K C R α σ} {G : K → σ → C → Prop} {k : K} {A : σ → Prop}
    (step : ∀ {s s'}, A s → L.Elsewhere G k s s' → L.touches s s' k ∨ A s') {v v' : Watched σ}
    (h : v.2 ∨ A v.1) (rely : (L.watched G k).rely v v') : v'.2 ∨ A v'.1 := by
  induction rely with
  | refl => exact h
  | tail _ last ih =>
    obtain ⟨kept, same | ⟨elsewhere, touched⟩⟩ := last
    · rw [same]
      exact ih.imp_left kept
    · rcases ih with queued | holds
      · exact .inl (kept queued)
      · exact (step holds elsewhere).imp_left touched

/-! ## Runs -/

section

variable {L : Loop K C R α σ} {I : σ → Prop} {G : K → σ → C → Prop} {Good : K → σ → Prop}
  {P P' : State K C R α σ}

/-- One key: its program follows the contract, or it is queued or good. -/
def SoundAt (L : Loop K C R α σ) (G : K → σ → C → Prop) (Good : K → σ → Prop) (k : K) (v : Watched σ) :
    Option (Prog C R α) → Prop
  | some p => p.wp (L.watched G k) (fun v c => G k v.1 c) (L.Post k Good) v
  | none => v.2 ∨ Good k v.1

/-- The invariant of the loop. -/
structure Sound (L : Loop K C R α σ) (I : σ → Prop) (G : K → σ → C → Prop) (Good : K → σ → Prop)
    (P : State K C R α σ) : Prop where
  inv : I P.world
  keys : ∀ k, L.SoundAt G Good k (P.world, k ∈ P.queued) (P.working k)

/-- After a restart. -/
theorem Sound.of_restart (works : L.Works I G Good) {s s' : σ} (inv : I s) (restart : L.restart s s') :
    L.Sound I G Good (L.started s') :=
  ⟨works.restart inv restart, fun k => works.first k inv restart⟩

/-- A key stays sound while its program waits. -/
theorem SoundAt.passes (works : L.Works I G Good) {k : K} {v v' : Watched σ} {w : Option (Prog C R α)}
    (h : L.SoundAt G Good k v w) (inv : I v.1) (passes : L.Passes G k v v') : L.SoundAt G Good k v' w := by
  cases w with
  | some p => exact Prog.wp_rely h (.single passes)
  | none =>
    obtain ⟨kept, same | ⟨elsewhere, touched⟩⟩ := passes
    · rw [SoundAt, same]
      exact h.imp_left kept
    · rcases h with queued | good
      · exact .inl (kept queued)
      · exact (works.lasts inv good elsewhere).imp_left touched

/-- **Level-triggered.** A key that is neither queued nor worked on is good. -/
theorem Sound.good (h : L.Sound I G Good P) {k : K} (idle : P.working k = none) (done : k ∉ P.queued) :
    Good k P.world := by
  have here := h.keys k
  rw [idle] at here
  exact here.resolve_left done

variable [DecidableEq K]

/-- A step that replaces the program for one key. -/
theorem Sound.update (works : L.Works I G Good) (h : L.Sound I G Good P) {s : σ} {queued : Set K} {k : K}
    {w : Option (Prog C R α)} (inv : I s) (here : L.SoundAt G Good k (s, k ∈ queued) w)
    (there : ∀ k', k' ≠ k → L.Passes G k' (P.world, k' ∈ P.queued) (s, k' ∈ queued)) :
    L.Sound I G Good ⟨s, queued, Function.update P.working k w⟩ := by
  refine ⟨inv, fun k' => ?_⟩
  by_cases same : k' = k
  · subst same
    simpa only [Function.update_self] using here
  · simpa only [Function.update_of_ne same] using (h.keys k').passes works h.inv (there k' same)

/-- One step keeps the invariant. -/
theorem Sound.step (works : L.Works I G Good) (h : L.Sound I G Good P) (step : L.Step P P') :
    L.Sound I G Good P' := by
  cases step with
  | @others s moved =>
    exact ⟨works.others h.inv moved, fun k =>
      (h.keys k).passes works h.inv ⟨.inl, .inr ⟨.others moved, .inr⟩⟩⟩
  | enqueue k => exact ⟨h.inv, fun k' => (h.keys k').passes works h.inv ⟨.inr, .inl rfl⟩⟩
  | @start k queued idle =>
    refine h.update works h.inv ?_ fun k' other => ⟨fun before => ⟨before, other⟩, .inl rfl⟩
    exact Prog.wp_rely (works.pass k h.inv) (.single ⟨False.elim, .inl rfl⟩)
  | @act k c f r s runs ans =>
    have own := h.keys k
    rw [runs] at own
    obtain ⟨allowed, rest⟩ := own _ .refl
    refine h.update works (works.call h.inv allowed ans) (rest r _ ⟨ans, .inl, .inr⟩) fun k' other => ?_
    exact ⟨.inl, .inr ⟨.call (Ne.symm other) allowed ans, .inr⟩⟩
  | @finish k a runs =>
    have ended := h.keys k
    rw [runs] at ended
    refine h.update works h.inv ?_ fun k' _ => ⟨.inl, .inl rfl⟩
    rcases ended _ .refl with queued | again | good
    · exact .inl (.inl queued)
    · exact .inl (.inr ⟨rfl, again⟩)
    · exact .inr good
  | crash restart => exact .of_restart works h.inv restart

/-- So does a whole run. -/
theorem Sound.run (works : L.Works I G Good) (h : L.Sound I G Good P)
    (run : Relation.ReflTransGen L.Step P P') : L.Sound I G Good P' := by
  induction run with
  | refl => exact h
  | tail _ last ih => exact ih.step works last

/-- A program may run as this function answers it, and queues what it touches. -/
theorem steps_of_run {step : σ → (c : C) → R c × σ} (answers : ∀ s c, L.answer s c (step s c).1 (step s c).2)
    {k : K} {p : Prog C R α} (runs : P.working k = some p) : ∃ Q, Relation.ReflTransGen L.Step P
      ⟨(p.run step P.world).2, Q, Function.update P.working k (some (.ret (p.run step P.world).1))⟩ ∧
      ((∀ s c, ¬ L.touches s (step s c).2 k) → k ∈ Q → k ∈ P.queued) := by
  induction p generalizing P with
  | ret a =>
    refine ⟨P.queued, ?_, fun _ mem => mem⟩
    simp only [Prog.run_ret, ← runs, Function.update_eq_self]
    exact .refl
  | call c f ih =>
    let P' : State K C R α σ := ⟨(step P.world c).2, L.told P (step P.world c).2,
      Function.update P.working k (some (f (step P.world c).1))⟩
    have first : L.Step P P' := .act runs (answers P.world c)
    obtain ⟨Q, rest, calm⟩ := ih (step P.world c).1 (P := P') (Function.update_self ..)
    simp only [P', Function.update_idem] at rest
    exact ⟨Q, rest.head first, fun untouched mem => (calm untouched mem).resolve_right (untouched _ _)⟩

/-- So may the whole pass of a key, after which it is queued only if something touched it. -/
theorem steps_of_pass {step : σ → (c : C) → R c × σ} (answers : ∀ s c, L.answer s c (step s c).1 (step s c).2)
    {k : K} (queued : k ∈ P.queued) (idle : P.working k = none) (ends : ¬ L.retry ((L.code k).run step P.world).1) :
    ∃ Q, Relation.ReflTransGen L.Step P ⟨((L.code k).run step P.world).2, Q, P.working⟩ ∧
      ((∀ s c, ¬ L.touches s (step s c).2 k) → k ∉ Q) := by
  let P' : State K C R α σ := ⟨P.world, P.queued \ {k}, Function.update P.working k (some (L.code k))⟩
  obtain ⟨Q, steps, calm⟩ := steps_of_run (P := P') answers (Function.update_self ..)
  have finished := steps.tail (.finish (Function.update_self ..))
  simp only [P', Function.update_idem] at finished calm
  rw [← idle, Function.update_eq_self] at finished
  refine ⟨_, finished.head (.start queued idle), fun untouched mem => ?_⟩
  rcases mem with before | ⟨-, again⟩
  · exact (calm untouched before).2 rfl
  · exact ends again

end

end Loop

end Interact
