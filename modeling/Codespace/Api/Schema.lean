import Codespace.Api.Session
import Codespace.Text.Regex

/-!
# What the CRD admits

The validation of `config/crd/bases/codespace.codespace.dev_sessions.yaml`, for a spec as
the operator decodes it. An absent `auth` block is an empty mode without OIDC; a block that
is there has its mode defaulted to `none`.
-/

namespace Codespace
set_option autoImplicit false
open Text

/-- `^\d+(Gi|Mi)$`. -/
def sizePattern : Regex Char :=
  .cat (.cat (.one Char.isDigit) (.star (.one Char.isDigit)))
    (.alt (.follow ['G', 'i'] .empty) (.follow ['M', 'i'] .empty))

theorem mem_digits {w : List Char} : w ∈ (Regex.cat (.one Char.isDigit) (.star (.one Char.isDigit))).lang ↔
    w ≠ [] ∧ ∀ c ∈ w, c.isDigit = true := by
  rw [Regex.lang, Language.mem_mul]
  constructor
  · rintro ⟨_, ⟨c, digit, rfl⟩, rest, mem, rfl⟩
    exact ⟨List.cons_ne_nil _ _, List.forall_mem_cons.2 ⟨digit, Regex.mem_star_one.1 mem⟩⟩
  · rintro ⟨some, all⟩
    cases w with
    | nil => exact absurd rfl some
    | cons c rest =>
      obtain ⟨digit, digits⟩ := List.forall_mem_cons.1 all
      exact ⟨[c], ⟨c, digit, rfl⟩, rest, Regex.mem_star_one.2 digits, rfl⟩

theorem mem_word {u w : List Char} : w ∈ (Regex.follow u .empty).lang ↔ w = u := by
  simp [Regex.mem_follow, Regex.lang]

/-- The sizes are the texts of digits with one of the two units. -/
theorem sizePattern_accepts {size : String} : sizePattern.accepts size.toList = true ↔
    ∃ digits : List Char, digits ≠ [] ∧ (∀ c ∈ digits, c.isDigit = true) ∧
      ∃ unit ∈ ["Gi", "Mi"], size = String.ofList digits ++ unit := by
  have text : ∀ (digits : List Char) (unit : String),
      digits ++ unit.toList = size.toList ↔ size = String.ofList digits ++ unit := by
    intro digits unit
    rw [← String.toList_inj, String.toList_append, String.toList_ofList, eq_comm]
  rw [Regex.accepts_iff]
  show size.toList ∈ (Regex.cat (.one Char.isDigit) (.star (.one Char.isDigit))).lang *
    ((Regex.follow ['G', 'i'] .empty).lang + (Regex.follow ['M', 'i'] .empty).lang) ↔ _
  simp only [Language.mem_mul, Language.mem_add, mem_word, mem_digits]
  constructor
  · rintro ⟨digits, ⟨some, all⟩, _, rfl | rfl, same⟩
    · exact ⟨digits, some, all, "Gi", by decide, (text digits "Gi").1 same⟩
    · exact ⟨digits, some, all, "Mi", by decide, (text digits "Mi").1 same⟩
  · rintro ⟨digits, some, all, unit, known, same⟩
    refine ⟨digits, ⟨some, all⟩, unit.toList, ?_, (text digits unit).2 same⟩
    simp only [List.mem_cons, List.not_mem_nil, or_false] at known
    rcases known with rfl | rfl
    · exact .inl rfl
    · exact .inr rfl

namespace PVCSpec

def schemaValid (pvc : PVCSpec) : Bool := pvc.mountPath ≠ "" && sizePattern.accepts pvc.size.toList

end PVCSpec

def AuthSpec.schemaValid (auth : AuthSpec) : Bool :=
  (auth.mode = "" && auth.oidc.isNone || auth.mode = "oauth2proxy" || auth.mode = "none") &&
    auth.oidc.all fun oidc => regexMatch oidc.issuerURL "^https?://"

def ProfileSpec.schemaValid (profile : ProfileSpec) : Bool :=
  profile.ide ∈ ["jupyterlab", "vscode", "rstudio", "custom"] && profile.image ≠ ""

def SessionSpec.schemaValid (spec : SessionSpec) : Bool :=
  spec.profile.schemaValid && spec.auth.schemaValid && spec.home.all PVCSpec.schemaValid &&
    spec.scratch.all PVCSpec.schemaValid

example : SessionSpec.plain.schemaValid = true := by decide

end Codespace
