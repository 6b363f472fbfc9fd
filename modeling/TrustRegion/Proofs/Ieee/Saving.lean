import TrustRegion.Json.Saved
import TrustRegion.Proofs.Ieee.Number
import TrustRegion.Proofs.Operations

/-! What becomes of settings that are saved and read again: the form of a number that is not finite
is not one of a number, and the check of the settings does let one such radius pass. -/
namespace TrustRegion

open Scalar (isFinite)
open Json (Value)

variable {T ν : Type}

namespace Json.Value

theorem choice?_name {α : Type} {all : List α} {code : α → String} (injective : code.Injective)
    {a : α} (mem : a ∈ all) : (name (code a) : Value ν).choice? all code = some a := by
  show all.find? (fun other => code other == code a) = some a
  induction all with
  | nil => cases mem
  | cons other all ih =>
    rw [List.find?_cons]
    by_cases same : code other = code a
    · rw [same, beq_self_eq_true, injective same]
    · rw [beq_false_of_ne same]
      exact ih ((List.mem_cons.mp mem).resolve_left fun e => same (congrArg code e.symm))

theorem number?_ofScalar [Scalar T] (x : T) :
    (ofScalar x).number? = if isFinite x then some x else none := by
  unfold ofScalar
  split <;> rfl

end Json.Value

theorem DirectionNorm.ofSaved?_saved (n : DirectionNorm) :
    ofSaved? (n.saved : Value ν) = some n := by
  refine Value.choice?_name ?_ ?_
  · rintro ⟨⟩ ⟨⟩ <;> decide
  · cases n <;> decide

theorem ResidualNorm.ofSaved?_saved (n : ResidualNorm) :
    ofSaved? (n.saved : Value ν) = some n := by
  refine Value.choice?_name ?_ ?_
  · rintro ⟨⟩ ⟨⟩ <;> decide
  · cases n <;> decide

namespace Settings

variable [Scalar T]

theorem record?_saved (s : Settings T) :
    s.saved.record? fieldNames =
      some [.ofScalar s.radius, s.directionNorm.saved, s.residualNorm.saved,
        .bool s.keepsHistory] := by
  rfl

/-- Settings are read back as they were if their radius is finite, and else not at all. -/
theorem ofSaved?_saved {number : T → Option T}
    (reads : ∀ x, isFinite x = true → number x = some x) (s : Settings T) :
    ofSaved? number s.saved = if isFinite s.radius then some s else none := by
  unfold ofSaved?
  rw [record?_saved]
  by_cases finite : isFinite s.radius = true
  · simp [Value.number?_ofScalar, finite, reads, DirectionNorm.ofSaved?_saved,
      ResidualNorm.ofSaved?_saved, Value.bool?]
  · simp [Value.number?_ofScalar, finite]

/-- The check lets the finite radii pass that are not negative, zeros of both signs among them, and
one that is infinite. -/
theorem unpacked_radius_of_validate [Ieee T] {s : Settings T} (valid : s.validate = .ok ())
    (infinite : isFinite s.radius = false) : Ieee.unpacked s.radius = .infinity .positive := by
  obtain ⟨number, nonneg⟩ := checkRadius_eq_ok.mp valid
  rw [Ieee.isNaN_eq] at number
  rw [Ieee.lt_iff, Ieee.unpacked_zero] at nonneg
  rw [Ieee.isFinite_eq] at infinite
  exact Unpacked.eq_infinity number nonneg infinite

/-- Of the settings that pass the check, those with an infinite radius are the only ones that cannot
be read back: their radius is saved as `null`, which is no number. -/
theorem reread_iff_of_validate [Ieee T] {number : T → Option T}
    (reads : ∀ x, isFinite x = true → number x = some x) {s : Settings T}
    (valid : s.validate = .ok ()) :
    (ofSaved? number s.saved = some s ↔ Ieee.unpacked s.radius ≠ .infinity .positive) ∧
      (Ieee.unpacked s.radius = .infinity .positive →
        Value.ofScalar s.radius = .null ∧ ofSaved? number s.saved = none) := by
  rw [ofSaved?_saved reads]
  by_cases finite : isFinite s.radius = true
  · have number : Ieee.unpacked s.radius ≠ .infinity .positive := Ieee.unpacked_ne_infinity finite
    rw [if_pos finite]
    exact ⟨iff_of_true rfl number, fun h => absurd h number⟩
  · have infinite := unpacked_radius_of_validate valid (Bool.eq_false_iff.mpr finite)
    have null : Value.ofScalar s.radius = .null := if_neg finite
    rw [if_neg finite]
    exact ⟨iff_of_false nofun fun h => h infinite, fun _ => ⟨null, rfl⟩⟩

/-- Settings with a radius of negative zero. -/
def pinned : Settings Float := ⟨-0, .preconditioned, .natural, true⟩

theorem reread_iff_of_validate_pinned :
    ((∀ x : Float, isFinite x = true → some x = some x) ∧ pinned.validate = .ok ()) ∧
      ofSaved? some pinned.saved = some pinned := by
  have valid : pinned.validate = .ok () := rfl
  have number : Ieee.unpacked pinned.radius ≠ .infinity .positive :=
    Ieee.unpacked_ne_infinity (by decide)
  exact ⟨⟨fun _ _ => rfl, valid⟩,
    (reread_iff_of_validate (fun _ _ => rfl) valid).1.mpr number⟩

/-- Settings with a radius that no step reaches. -/
def unbounded : Settings Float := ⟨1 / 0, .unpreconditioned, .unpreconditioned, false⟩

/-- An infinite radius is admissible, and it is lost when it is saved. -/
theorem unbounded_not_reread :
    unbounded.validate = .ok () ∧ ofSaved? some unbounded.saved = none := by
  have infinite : isFinite unbounded.radius = false := by decide
  refine ⟨rfl, ?_⟩
  rw [ofSaved?_saved fun _ _ => rfl, infinite]
  rfl

end Settings

end TrustRegion
