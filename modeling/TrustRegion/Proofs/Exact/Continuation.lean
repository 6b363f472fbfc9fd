import TrustRegion.Proofs.Exact.Cauchy

/-! What a solve gains from a pass on: at least what the pass gains, whatever follows it. -/
namespace TrustRegion

open RunM

noncomputable section

namespace Iterate

variable {E : Type} {it : Iterate ℝ E}

/-- How far a pass goes along its direction within the radius `ρ`, which is none if it is zero. -/
def passLength (ρ : ℝ) (it : Iterate ℝ E) : ℝ :=
  if 0 < ρ ∧ ρ * ρ ≤ it.fullSq then it.boundaryLength ρ else it.fullLength

theorem changeAlong_fullLength (hc : it.curvature ≠ 0) :
    it.changeAlong it.fullLength = -(1 / 2 * it.fullLength * it.rz) := by
  have hrz : it.fullLength * it.curvature = it.rz := div_mul_cancel₀ _ hc
  unfold changeAlong
  linear_combination 1 / 2 * it.fullLength * hrz

end Iterate

namespace Subproblem

open Iterate

section

variable {E : Type} [NormedAddCommGroup E] [InnerProductSpace ℝ E] {Q : Subproblem E} {k : ℕ}
  {it : Iterate ℝ E} {q : ℝ}

theorem Reaches.passLength_mem (h : Q.Reaches k it q) :
    0 ≤ it.passLength Q.radius ∧ it.passLength Q.radius ≤ it.fullLength := by
  unfold passLength
  split
  · next crosses => exact h.boundaryLength_mem crosses.1 crosses.2
  · exact ⟨h.fullLength_nonneg, le_rfl⟩

theorem Reaches.change_of_inside (h : Q.Reaches k it q) (inside : Q.Inside it) :
    it.changeAlong (it.passLength Q.radius) = -(1 / 2 * it.fullLength * it.rz) := by
  have hlength : it.passLength Q.radius = it.fullLength :=
    if_neg fun crosses => (inside crosses.1).not_ge crosses.2
  rw [hlength, changeAlong_fullLength h.curvature_pos.ne']

theorem Reaches.change_nonpos (h : Q.Reaches k it q) :
    it.changeAlong (it.passLength Q.radius) ≤ 0 := by
  obtain ⟨nonneg, hle⟩ := h.passLength_mem
  have hchange := changeAlong_le_of_le_fullLength h.curvature_pos nonneg hle
  rwa [changeAlong_zero] at hchange

end

section

variable {n : ℕ} {Q : Subproblem (RealVector n)} {s : Settings Exact} {H P C : Type}
  [ActsOn (List Exact) H] [ActsOn (List Exact) P] [ConvergenceTest Exact C]

/-- A solve that goes on from a pass ends with at least what that pass gains: later passes lower
the objective further. -/
theorem Reaches.objective_le (fits : Q.Fits s) (left : ℕ) {k : ℕ}
    {it : Iterate ℝ (RealVector n)} {q : ℝ} {run run' : Run Exact (Euclidean Exact) H P C}
    {stop : Stop (List Exact)} (reach : Q.Reaches k it q)
    (hrun : run.Obeys Q.Acts Q.Preconditions)
    (hf : run.figures = Figures.lift ⟨√it.stepSq, q, k + 1⟩) (hleft : left = Q.cap - (k + 1))
    (h : passes s left it.lift run = .ok stop run') :
    ∃ v : ℝ, run'.figures.objective = .real v ∧
      v ≤ q + it.changeAlong (it.passLength Q.radius) := by
  have hκ := reach.curvature_pos.ne'
  rw [passes.eq_def] at h
  simp only [bind_eq_ok, iterations_apply, note_apply, exists_ok_eq, Bool.and_eq_true,
    decide_eq_true_eq] at h
  split at h
  · next crosses =>
    simp only [bind_eq_ok, pure_apply] at h
    obtain ⟨step, run₁, truncates, ⟨⟩⟩ := h
    obtain ⟨constrained, crosses⟩ := (Iterate.crosses_lift fits hκ).mp crosses
    obtain ⟨-, hfig⟩ := truncate_lift fits truncates reach constrained crosses hf
    refine ⟨_, congrArg Figures.objective hfig, ?_⟩
    rw [passLength, if_pos ⟨constrained, crosses⟩]
  · next inside =>
    simp only [bind_eq_ok] at h
    obtain ⟨next, run₁, ha, outcome, run₂, hr, h⟩ := h
    have full : FullStep s it.lift run next run₁ := ⟨inside, ha⟩
    obtain ⟨inside, z, hz, rfl, hrun₂, hfig, hout⟩ := full.reviewed_lift fits hr reach hrun hf
    rw [reach.change_of_inside inside, ← sub_eq_add_neg]
    cases outcome with
    | some reason =>
      cases h
      exact ⟨_, congrArg Figures.objective hfig, le_rfl⟩
    | none =>
      cases left with
      | zero =>
        cases h
        exact ⟨_, congrArg Figures.objective hfig, le_rfl⟩
      | succ left =>
        simp only [bind_eq_ok] at h
        obtain ⟨phase, run₃, ht, h⟩ := h
        obtain ⟨hf₃, hphase⟩ := turn_lift fits ht hrun₂ hout.1 hκ
        cases phase with
        | stopped reason step =>
          cases h
          rw [hfig] at hf₃
          exact ⟨_, congrArg Figures.objective hf₃, le_rfl⟩
        | going it' =>
          obtain ⟨w, hw, curved, rfl, hrun₃⟩ := hphase
          have next := Reaches.next reach inside hz hout.1 hout.2 (by omega) hw curved
          have hf₃ : run₃.figures = Figures.lift ⟨√(it.nextStepSq Q.norm),
              q - 1 / 2 * it.fullLength * it.rz, k + 1 + 1⟩ := by
            rw [hf₃, hfig]
            rfl
          obtain ⟨v, hv, hle⟩ := Reaches.objective_le fits left next hrun₃ hf₃ (by omega) h
          have later := next.change_nonpos
          exact ⟨v, hv, by linarith⟩

end

end Subproblem

end

end TrustRegion
