import Codespace.Api.Answers
import Codespace.Controller.Reconcile
import Codespace.Interact.Pool
import Codespace.Server.Rules

/-!
# Servers, controllers and others at work

A pool of everything that works on one cluster: requests on any servers, Reconciles, and
single calls by anybody else. One step is one API call of one of them. `drift` is what
the cluster does by itself; as far as Sessions go, any number of writes and removals.
-/

namespace Codespace.Server
set_option autoImplicit false
open Interact Versioned Controller

variable {χ : Type}

/-- The calls of a request, with the cluster before and after each. -/
abbrev CallLog (χ : Type) := Log Call Answer (Cluster χ)

abbrev LoggedView (χ : Type) := Pool.View Call Answer (Cluster χ)

inductive Job where
  | serve (d : ServerDeps) (route : Route) (r : Request)
  | reconcile (rec : SessionReconciler) (k : Key)
  | call (c : Call)

/-- The program of a job; only a request ends with a response. -/
def Job.code : Job → Api (Option HttpResp)
  | .serve d route r => do return some (← Server.serve d route r)
  | .reconcile rec k => do
    let _ ← Reconcile rec k
    return none
  | .call c => do
    let _ ← api c
    return none

theorem Job.code_serve (d : ServerDeps) (route : Route) (r : Request) :
    (Job.serve d route r).code = (Server.serve d route r >>= fun resp => .ret (some resp)) := rfl

/-- All of them on one cluster. -/
def fleet (child : ChildApi χ) : Pool.Machine Job Call Answer (Option HttpResp) (Cluster χ) where
  code := Job.code
  answer := Answers child
  drift := fun σ σ' => Later σ.sessions σ'.sessions

/-- One request among the others. -/
def Among (child : ChildApi χ) : Setting Call Answer (Cluster χ) where
  answer := Answers child
  rely := fun σ σ' => Later σ.sessions σ'.sessions
  rely_refl := fun _ => .refl _
  rely_trans := Later.trans

theorem fleet_answers (child : ChildApi χ) : Pool.Answers (fleet child) fun _ => (Among child).logged :=
  fun _ _ _ _ _ _ ans => Setting.logged_answer ans

/-- Whatever a step of the pool is, the others find it within their rely. -/
theorem fleet_keeps {child : ChildApi χ} {P P' : Pool Job Call Answer (Option HttpResp) (Cluster χ)}
    (step : Pool.Step (fleet child) P P') : Pool.Keeps (fun _ => (Among child).logged) P P' := by
  intro i t _ _
  refine ⟨?_, rfl⟩
  cases step with
  | spawn i j free => exact .refl _
  | act running next ans => exact answers_later ans
  | drift later => exact later

/-- The states that others and the cluster itself may lead to. -/
theorem fleet_run {child : ChildApi χ} {P P' : Pool Job Call Answer (Option HttpResp) (Cluster χ)}
    (run : Relation.ReflTransGen (Pool.Step (fleet child)) P P') :
    Relation.ReflTransGen (Pool.KeptStep (fleet child) fun _ => (Among child).logged) P P' :=
  run.lift id fun _ _ step => ⟨step, fleet_keeps step⟩

/-- A job that has ended has met what its program guarantees whatever the others do. -/
theorem fleet_result {child : ChildApi χ} {Q : Job → Option HttpResp → LoggedView χ → Prop}
    (meets : ∀ (j : Job) σ, j.code.wp (Among child).logged (fun _ _ => True) (Q j) (σ, [])) {σ : Cluster χ}
    {P : Pool Job Call Answer (Option HttpResp) (Cluster χ)}
    (run : Relation.ReflTransGen (Pool.Step (fleet child)) (Pool.initial σ) P) {i : Nat}
    {t : Thread Job Call Answer (Option HttpResp) (Cluster χ)} (held : P.threads i = some t)
    {resp : Option HttpResp} (done : t.rest = .ret resp) : Q t.job resp (P.state, t.log) :=
  ((Pool.sound_initial (W := fun _ => (Among child).logged) (G := fun _ _ _ => True) (Q := Q) σ).run
    (fleet_answers child) meets (fleet_run run)).result held done

end Codespace.Server
