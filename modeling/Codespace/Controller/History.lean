import Codespace.Api.Answers
import Codespace.Controller.Desired

/-!
# Reconciles among other writers

What a Reconcile shares the stored Session with: people who edit its spec (`SpecEdit`).
`Edited` is the setting where nothing else happens, and `History` is any number of edits
and Reconciles in it, each Reconcile cut off anywhere.
-/

namespace Codespace.Controller
set_option autoImplicit false
open Versioned Interact

variable {χ : Type}

/-- Somebody stores another spec. -/
def SpecEdit (k : Key) (σ σ' : Cluster χ) : Prop :=
  ∃ cur spec, σ.sessions.get k = some cur ∧ σ' = σ.commit { cur with spec := spec }

/-- The API server while others edit the spec. -/
def Edited (child : ChildApi χ) (k : Key) : Setting Call Answer (Cluster χ) where
  answer := Answers child
  rely := Relation.ReflTransGen (SpecEdit k)
  rely_refl := fun _ => .refl
  rely_trans := fun a b => a.trans b

/-- One event of a history: an edit, or a Reconcile that gets some way, with failing calls
and further edits on that way. -/
def Happens (child : ChildApi χ) (r : SessionReconciler) (k : Key) (σ σ' : Cluster χ) : Prop :=
  SpecEdit k σ σ' ∨ ∃ left, Exec (Edited child k) (Reconcile r k) σ left σ'

abbrev History (child : ChildApi χ) (r : SessionReconciler) (k : Key) :=
  Relation.ReflTransGen (Happens child r k)

section

variable {k : Key} {σ σ' : Cluster χ} {s next : Session}

/-- A commit of a Session that is not under deletion stores it. -/
theorem commit_live (σ : Cluster χ) (next : Session) (key : next.key = k)
    (live : next.deleting = false) :
    (σ.commit next).sessions.get k = some (stamp σ.sessions.next next) := by
  rw [← key]
  rcases Cluster.commit_get_self σ next with ⟨-, now⟩ | ⟨gone, -⟩
  · exact now
  · exact absurd (fun d => by rw [live] at d; cases d) gone

/-- An edit stores the same object with another spec. -/
theorem SpecEdit.stored (edit : SpecEdit k σ σ') (held : σ.sessions.get k = some s)
    (live : s.deleting = false) : ∃ n spec,
      σ'.sessions.get k = some (stamp n { s with spec := spec }) ∧ σ'.children = σ.children := by
  obtain ⟨cur, spec, held', rfl⟩ := edit
  rw [held, Option.some.injEq] at held'
  subst held'
  exact ⟨_, spec, commit_live _ _ (σ.keyed k s held) live, Cluster.commit_children _⟩

theorem SpecEdit.later (edit : SpecEdit k σ σ') : Later σ.sessions σ'.sessions := by
  obtain ⟨cur, spec, -, rfl⟩ := edit
  exact Cluster.commit_later _

/-- The key of what `ensureFinalizer` sends. -/
theorem addFinalizer_key (sess : Session) : (addFinalizer sess).1.key = sess.key := by
  obtain ⟨finalizers, eq⟩ := addFinalizer_eq sess
  rw [eq]
  rfl

end
end Codespace.Controller
