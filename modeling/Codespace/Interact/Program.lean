import Mathlib.Logic.Relation

/-!
# Programs that call their surroundings

A `Prog C R α` is a program of its calls only: it either returns or makes a call
`c : C` and goes on with the answer, an `R c`. Everything else it computes is Lean.
The calls have no meaning here. A `Setting` gives them one: how a call may be
answered in a state, and what others may do to the state between two calls.

`Exec` runs a program in a setting, up to any point (so also up to a crash), `run`
runs it against a function that answers every call, and `wp` is the weakest
precondition of a rely-guarantee logic: others keep to `rely`, and every call the
program makes satisfies the guarantee `G`. `wp_exec` is its soundness, at every
point of a run.
-/

namespace Interact
set_option autoImplicit false

/-- A program over the calls `C`; call `c` is answered by an `R c`. -/
inductive Prog (C : Type) (R : C → Type) (α : Type) : Type where
  | ret (a : α)
  | call (c : C) (k : R c → Prog C R α)

namespace Prog

variable {C : Type} {R : C → Type} {α β γ σ : Type}

/-- Run the first program, then the second on its result. -/
def bind : Prog C R α → (α → Prog C R β) → Prog C R β
  | .ret a, f => f a
  | .call c k, f => .call c fun r => (k r).bind f

instance : Monad (Prog C R) where
  pure := .ret
  bind := bind

/-- Make one call and return its answer. -/
def perform (c : C) : Prog C R (R c) := .call c .ret

@[simp] theorem pure_eq (a : α) : (pure a : Prog C R α) = .ret a := rfl

@[simp] theorem ret_bind (a : α) (f : α → Prog C R β) : (Prog.ret a >>= f) = f a := rfl

@[simp] theorem call_bind (c : C) (k : R c → Prog C R α) (f : α → Prog C R β) :
    (Prog.call c k >>= f) = .call c fun r => k r >>= f := rfl

@[simp] theorem perform_bind (c : C) (f : R c → Prog C R β) :
    (perform c >>= f) = .call c f := rfl

theorem bind_ret (p : Prog C R α) : p >>= Prog.ret = p := by
  induction p with
  | ret a => rfl
  | call c k ih => simp only [call_bind, ih]

theorem bind_assoc (p : Prog C R α) (f : α → Prog C R β) (g : β → Prog C R γ) :
    p >>= f >>= g = p >>= fun a => f a >>= g := by
  induction p with
  | ret a => rfl
  | call c k ih => simp only [call_bind, ih]

instance : LawfulMonad (Prog C R) :=
  LawfulMonad.mk' _ bind_ret (fun _ _ => rfl) bind_assoc

/-! ## Runs against a function -/

/-- The run of a program where `step` answers every call. -/
def run (step : σ → (c : C) → R c × σ) : Prog C R α → σ → α × σ
  | .ret a, s => (a, s)
  | .call c k, s => (k (step s c).1).run step (step s c).2

@[simp] theorem run_ret (step : σ → (c : C) → R c × σ) (a : α) (s : σ) :
    (Prog.ret a : Prog C R α).run step s = (a, s) := rfl

@[simp] theorem run_call (step : σ → (c : C) → R c × σ) (c : C) (k : R c → Prog C R α) (s : σ) :
    (Prog.call c k).run step s = (k (step s c).1).run step (step s c).2 := rfl

@[simp] theorem run_bind (step : σ → (c : C) → R c × σ) (p : Prog C R α) (f : α → Prog C R β)
    (s : σ) : (p >>= f).run step s = (f (p.run step s).1).run step (p.run step s).2 := by
  induction p generalizing s with
  | ret a => rfl
  | call c k ih => exact ih _ _

/-- The calls of the run, in order. -/
def calls (step : σ → (c : C) → R c × σ) : Prog C R α → σ → List C
  | .ret _, _ => []
  | .call c k, s => c :: (k (step s c).1).calls step (step s c).2

@[simp] theorem calls_ret (step : σ → (c : C) → R c × σ) (a : α) (s : σ) :
    (Prog.ret a : Prog C R α).calls step s = [] := rfl

@[simp] theorem calls_call (step : σ → (c : C) → R c × σ) (c : C) (k : R c → Prog C R α) (s : σ) :
    (Prog.call c k).calls step s = c :: (k (step s c).1).calls step (step s c).2 := rfl

@[simp] theorem calls_bind (step : σ → (c : C) → R c × σ) (p : Prog C R α) (f : α → Prog C R β)
    (s : σ) : (p >>= f).calls step s = p.calls step s ++ (f (p.run step s).1).calls step (p.run step s).2 := by
  induction p generalizing s with
  | ret a => rfl
  | call c k ih =>
    rw [call_bind, calls_call, calls_call, run_call, List.cons_append, ih]

/-- The run as far as its `n`-th call: what is left to do then, and the state. -/
def advance (step : σ → (c : C) → R c × σ) : Nat → Prog C R α → σ → Prog C R α × σ
  | 0, p, s => (p, s)
  | _ + 1, .ret a, s => (.ret a, s)
  | n + 1, .call c k, s => (k (step s c).1).advance step n (step s c).2

theorem exists_advance (step : σ → (c : C) → R c × σ) (p : Prog C R α) (s : σ) :
    ∃ n, p.advance step n s = (.ret (p.run step s).1, (p.run step s).2) := by
  induction p generalizing s with
  | ret a => exact ⟨0, rfl⟩
  | call c k ih =>
    obtain ⟨n, rest⟩ := ih (step s c).1 (step s c).2
    exact ⟨n + 1, rest⟩

/-- The result where the surroundings answer by a function and never change. -/
def eval (answer : (c : C) → R c) : Prog C R α → α
  | .ret a => a
  | .call c k => (k (answer c)).eval answer

@[simp] theorem eval_ret (answer : (c : C) → R c) (a : α) : (Prog.ret a : Prog C R α).eval answer = a := rfl

@[simp] theorem eval_call (answer : (c : C) → R c) (c : C) (k : R c → Prog C R α) :
    (Prog.call c k).eval answer = (k (answer c)).eval answer := rfl

@[simp] theorem eval_bind (answer : (c : C) → R c) (p : Prog C R α) (f : α → Prog C R β) :
    (p >>= f).eval answer = (f (p.eval answer)).eval answer := by
  induction p with
  | ret a => rfl
  | call c k ih => exact ih _

/-- Every call of the run passes the check. -/
def runChecks (step : σ → (c : C) → R c × σ) (ok : σ → (c : C) → R c → Bool) :
    Prog C R α → σ → Bool
  | .ret _, _ => true
  | .call c k, s => ok s c (step s c).1 && (k (step s c).1).runChecks step ok (step s c).2

end Prog

/-! ## Settings and executions -/

/-- The surroundings of a program: how a call may be answered in a state, and what
others may do to the state while the program is between two calls. -/
structure Setting (C : Type) (R : C → Type) (σ : Type) where
  answer : σ → (c : C) → R c → σ → Prop
  rely : σ → σ → Prop
  rely_refl : ∀ s, rely s s
  rely_trans : ∀ {s₁ s₂ s₃}, rely s₁ s₂ → rely s₂ s₃ → rely s₁ s₃

namespace Setting

variable {C : Type} {R : C → Type} {σ : Type}

/-- The setting where nobody else does anything. -/
def alone (answer : σ → (c : C) → R c → σ → Prop) : Setting C R σ where
  answer := answer
  rely := Eq
  rely_refl := fun _ => rfl
  rely_trans := Eq.trans

@[simp] theorem alone_rely {answer : σ → (c : C) → R c → σ → Prop} {s s' : σ} :
    (alone answer).rely s s' ↔ s = s' := Iff.rfl

@[simp] theorem alone_answer {answer : σ → (c : C) → R c → σ → Prop} :
    (alone answer).answer = answer := rfl

end Setting

/-- `Exec W p s p' s'`: in the setting `W`, the program `p` started in `s` can get to the
point where `p'` is left to do, in the state `s'`. -/
inductive Exec {C : Type} {R : C → Type} {α σ : Type} (W : Setting C R σ) :
    Prog C R α → σ → Prog C R α → σ → Prop where
  | refl (p : Prog C R α) (s : σ) : Exec W p s p s
  | other {p p' : Prog C R α} {s s₁ s' : σ} : W.rely s s₁ → Exec W p s₁ p' s' → Exec W p s p' s'
  | call {c : C} {k : R c → Prog C R α} {r : R c} {p' : Prog C R α} {s s₁ s' : σ} :
      W.answer s c r s₁ → Exec W (k r) s₁ p' s' → Exec W (.call c k) s p' s'

namespace Exec

variable {C : Type} {R : C → Type} {α σ : Type} {W : Setting C R σ}

theorem trans {p p' p'' : Prog C R α} {s s' s'' : σ} (first : Exec W p s p' s')
    (rest : Exec W p' s' p'' s'') : Exec W p s p'' s'' := by
  induction first with
  | refl => exact rest
  | other r _ ih => exact .other r (ih rest)
  | call a _ ih => exact .call a (ih rest)

/-- A run against a function is an execution wherever that function is one way to answer. -/
theorem of_run {step : σ → (c : C) → R c × σ}
    (answers : ∀ s c, W.answer s c (step s c).1 (step s c).2) (p : Prog C R α) (s : σ) :
    Exec W p s (.ret (p.run step s).1) (p.run step s).2 := by
  induction p generalizing s with
  | ret a => exact .refl _ _
  | call c k ih => exact .call (answers s c) (ih _ _)

/-- A run against a function may be stopped at any call. -/
theorem of_advance {step : σ → (c : C) → R c × σ}
    (answers : ∀ s c, W.answer s c (step s c).1 (step s c).2) (n : Nat) (p : Prog C R α) (s : σ) :
    Exec W p s (p.advance step n s).1 (p.advance step n s).2 := by
  induction n generalizing p s with
  | zero => exact .refl _ _
  | succ n ih =>
    cases p with
    | ret a => exact .refl _ _
    | call c k => exact .call (answers s c) (ih _ _)

/-- So is a run whose every call passes a check that makes it one. -/
theorem of_checked_run {step : σ → (c : C) → R c × σ} {ok : σ → (c : C) → R c → Bool}
    (answers : ∀ s c, ok s c (step s c).1 = true → W.answer s c (step s c).1 (step s c).2)
    {p : Prog C R α} {s : σ} (checked : p.runChecks step ok s = true) :
    Exec W p s (.ret (p.run step s).1) (p.run step s).2 := by
  induction p generalizing s with
  | ret a => exact .refl _ _
  | call c k ih =>
    simp only [Prog.runChecks, Bool.and_eq_true] at checked
    exact .call (answers s c checked.1) (ih _ checked.2)

/-- An execution is one in every setting that allows as much. -/
theorem mono {W' : Setting C R σ} {p p' : Prog C R α} {s s' : σ} (e : Exec W p s p' s')
    (answer : ∀ s c r s', W.answer s c r s' → W'.answer s c r s')
    (rely : ∀ s s', W.rely s s' → W'.rely s s') : Exec W' p s p' s' := by
  induction e with
  | refl => exact .refl _ _
  | other r _ ih => exact .other (rely _ _ r) ih
  | call a _ ih => exact .call (answer _ _ _ _ a) ih

end Exec

/-! ## Weakest preconditions -/

namespace Prog

variable {C : Type} {R : C → Type} {α β σ : Type} {W : Setting C R σ} {G : σ → C → Prop}

/-- From `s`, whatever others do within `rely`, every call of the program satisfies `G` when
it is made, and the program returns only where `Q` holds. -/
def wp (W : Setting C R σ) (G : σ → C → Prop) : Prog C R α → (α → σ → Prop) → σ → Prop
  | .ret a, Q, s => ∀ s', W.rely s s' → Q a s'
  | .call c k, Q, s => ∀ s₁, W.rely s s₁ →
      G s₁ c ∧ ∀ r s₂, W.answer s₁ c r s₂ → (k r).wp W G Q s₂

@[simp] theorem wp_ret {a : α} {Q : α → σ → Prop} {s : σ} :
    (Prog.ret a : Prog C R α).wp W G Q s ↔ ∀ s', W.rely s s' → Q a s' := Iff.rfl

@[simp] theorem wp_call {c : C} {k : R c → Prog C R α} {Q : α → σ → Prop} {s : σ} :
    (Prog.call c k).wp W G Q s ↔ ∀ s₁, W.rely s s₁ →
      G s₁ c ∧ ∀ r s₂, W.answer s₁ c r s₂ → (k r).wp W G Q s₂ := Iff.rfl

/-- What others do keeps `I`. -/
def Stable (W : Setting C R σ) (I : σ → Prop) : Prop := ∀ s s', I s → W.rely s s' → I s'

/-- Where `I` holds the call may be made, and every answer to it keeps `I`. -/
structure Harmless (W : Setting C R σ) (G : σ → C → Prop) (I : σ → Prop) (c : C) : Prop where
  asks : ∀ s, I s → G s c
  keeps : ∀ s a s', I s → W.answer s c a s' → I s'

/-- The rule for one call. -/
theorem wp_perform {c : C} {f : R c → Prog C R β} {Q : β → σ → Prop} {s : σ}
    (h : ∀ s₁, W.rely s s₁ → G s₁ c ∧ ∀ r s₂, W.answer s₁ c r s₂ → (f r).wp W G Q s₂) :
    (perform c >>= f).wp W G Q s := h

/-- A weakest precondition is stable under what others do. -/
theorem wp_rely {p : Prog C R α} {Q : α → σ → Prop} {s s' : σ} (h : p.wp W G Q s)
    (r : W.rely s s') : p.wp W G Q s' := by
  cases p with
  | ret a => exact fun s₁ r₁ => h s₁ (W.rely_trans r r₁)
  | call c k => exact fun s₁ r₁ => h s₁ (W.rely_trans r r₁)

/-- The rule of consequence. -/
theorem wp_weaken {p : Prog C R α} {G' : σ → C → Prop} {Q Q' : α → σ → Prop} {s : σ}
    (h : p.wp W G Q s) (call : ∀ s c, G s c → G' s c) (ret : ∀ a s, Q a s → Q' a s) :
    p.wp W G' Q' s := by
  induction p generalizing s with
  | ret a => exact fun s' r => ret _ _ (h s' r)
  | call c k ih =>
    exact fun s₁ r => ⟨call _ _ (h s₁ r).1, fun a s₂ ans => ih a ((h s₁ r).2 a s₂ ans)⟩

theorem wp_mono {p : Prog C R α} {Q Q' : α → σ → Prop} {s : σ} (h : p.wp W G Q s)
    (imp : ∀ a s', Q a s' → Q' a s') : p.wp W G Q' s := wp_weaken h (fun _ _ g => g) imp

/-- Nothing is promised. -/
theorem wp_true {p : Prog C R α} {Q : α → σ → Prop} (all : ∀ a s, Q a s) (s : σ) :
    p.wp W (fun _ _ => True) Q s := by
  induction p generalizing s with
  | ret a => exact fun s' _ => all a s'
  | call c k ih => exact fun s₁ _ => ⟨trivial, fun r s₂ _ => ih r s₂⟩

/-- Sequencing: the first program must establish the precondition of the second. -/
theorem wp_bind {p : Prog C R α} {f : α → Prog C R β} {Q : β → σ → Prop} {s : σ}
    (h : p.wp W G (fun a s' => (f a).wp W G Q s') s) : (p >>= f).wp W G Q s := by
  induction p generalizing s with
  | ret a => exact h s (W.rely_refl s)
  | call c k ih => exact fun s₁ r => ⟨(h s₁ r).1, fun a s₂ ans => ih a ((h s₁ r).2 a s₂ ans)⟩

/-- **Soundness.** What is left to do at any point of an execution still satisfies its
weakest precondition there. -/
theorem wp_exec {p p' : Prog C R α} {Q : α → σ → Prop} {s s' : σ} (e : Exec W p s p' s')
    (h : p.wp W G Q s) : p'.wp W G Q s' := by
  induction e with
  | refl => exact h
  | other r _ ih => exact ih (wp_rely h r)
  | @call c k r _ s _ _ a _ ih => exact ih ((h s (W.rely_refl s)).2 r _ a)

/-- A completed execution ends where the postcondition holds. -/
theorem wp_result {p : Prog C R α} {a : α} {Q : α → σ → Prop} {s s' : σ}
    (e : Exec W p s (.ret a) s') (h : p.wp W G Q s) : Q a s' :=
  wp_exec e h s' (W.rely_refl s')

/-- A call about to be made satisfies the guarantee. -/
theorem wp_guarantee {p : Prog C R α} {c : C} {k : R c → Prog C R α} {Q : α → σ → Prop}
    {s s' : σ} (e : Exec W p s (.call c k) s') (h : p.wp W G Q s) : G s' c :=
  (wp_exec e h s' (W.rely_refl s')).1

/-- What holds before every call and after the return holds at every point of an execution. -/
theorem wp_cut {p p' : Prog C R α} {Q : α → σ → Prop} {M : σ → Prop} {s s' : σ}
    (e : Exec W p s p' s') (h : p.wp W G Q s) (call : ∀ s c, G s c → M s)
    (ret : ∀ a s, Q a s → M s) : M s' := by
  have here := wp_exec e h
  cases p' with
  | ret a => exact ret a s' (here s' (W.rely_refl s'))
  | call c k => exact call s' c (here s' (W.rely_refl s')).1

/-! ## Programs that make certain calls only -/

/-- Whatever the answers are, every call of the program satisfies `P`. -/
def Only (P : C → Prop) : Prog C R α → Prop
  | .ret _ => True
  | .call c k => P c ∧ ∀ r, (k r).Only P

variable {P : C → Prop}

theorem Only.bind {p : Prog C R α} {f : α → Prog C R β} (first : p.Only P) (rest : ∀ a, (f a).Only P) :
    (p >>= f).Only P := by
  induction p with
  | ret a => exact rest a
  | call c k ih => exact ⟨first.1, fun r => ih r (first.2 r)⟩

theorem Only.mono {P' : C → Prop} {p : Prog C R α} (only : p.Only P) (imp : ∀ c, P c → P' c) : p.Only P' := by
  induction p with
  | ret a => exact trivial
  | call c k ih => exact ⟨imp c only.1, fun r => ih r (only.2 r)⟩

theorem Only.and {P' : C → Prop} {p : Prog C R α} (first : p.Only P) (second : p.Only P') :
    p.Only fun c => P c ∧ P' c := by
  induction p with
  | ret a => exact trivial
  | call c k ih => exact ⟨⟨first.1, second.1⟩, fun r => ih r (first.2 r) (second.2 r)⟩

/-- An invariant that others and the calls of the program keep. -/
theorem Only.keeps {p : Prog C R α} (only : p.Only P) {I : σ → Prop} (stable : Stable W I)
    (keeps : ∀ s c a s', P c → I s → W.answer s c a s' → I s') (guarantee : ∀ s c, P c → I s → G s c)
    {s : σ} (start : I s) : p.wp W G (fun _ s' => I s') s := by
  induction p generalizing s with
  | ret a => exact fun s' r => stable s s' start r
  | call c k ih =>
    intro s₁ r
    have here := stable s s₁ start r
    exact ⟨guarantee s₁ c only.1 here, fun a s₂ ans => ih a (only.2 a) (keeps s₁ c a s₂ only.1 here ans)⟩

/-- What is known of the calls adds to the guarantee. -/
theorem Only.strengthen {p : Prog C R α} (only : p.Only P) {Q : α → σ → Prop} {s : σ} (h : p.wp W G Q s) :
    p.wp W (fun s c => G s c ∧ P c) Q s := by
  induction p generalizing s with
  | ret a => exact h
  | call c k ih =>
    exact fun s₁ r => ⟨⟨(h s₁ r).1, only.1⟩, fun a s₂ ans => ih a (only.2 a) ((h s₁ r).2 a s₂ ans)⟩

theorem Only.wp {p : Prog C R α} (only : p.Only P) (guarantee : ∀ s c, P c → G s c) (s : σ) :
    p.wp W G (fun _ _ => True) s :=
  only.keeps (I := fun _ => True) (fun _ _ _ _ => trivial) (fun _ _ _ _ _ _ _ => trivial)
    (fun s c made _ => guarantee s c made) trivial

end Prog

/-! ## Logs -/

/-- One answered call, with the states before and after it. -/
structure Event (C : Type) (R : C → Type) (σ : Type) where
  call : C
  answer : R call
  before : σ
  after : σ

/-- The log a program keeps of its own calls. -/
abbrev Log (C : Type) (R : C → Type) (σ : Type) := List (Event C R σ)

end Interact
