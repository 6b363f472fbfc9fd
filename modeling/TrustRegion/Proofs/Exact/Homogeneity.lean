import TrustRegion.Proofs.Exact.Dilation

/-! Solves for a multiple of the right-hand side within the same multiple of the radius: where the
operator and the preconditioner are homogeneous, all that is reported is multiplied with them. -/
namespace TrustRegion

open scoped RealInnerProductSpace
open RunM

variable {n : ℕ} {H P C : Type}

noncomputable section

/-- Phases that end for the same reason with a step and its multiple, or hand on an iterate and its
multiple. -/
inductive Phase.Dilates (n : ℕ) (c : ℝ) : Phase (List Exact) (Iterate Exact (List Exact)) →
    Phase (List Exact) (Iterate Exact (List Exact)) → Prop where
  | stopped (reason : Reason) (step : List Exact) :
      Dilates n c (.stopped reason step) (.stopped reason (step.map (.real c * ·)))
  | going (it : Iterate ℝ (RealVector n)) (curved : 0 < it.curvature) :
      Dilates n c (.going it.lift) (.going (it.dilate c).lift)

def Stop.dilate (c : ℝ) (stop : Stop (List Exact)) : Stop (List Exact) :=
  { stop with step := stop.step.map (.real c * ·) }

namespace Dilation

variable (L : Dilation n)

theorem sq_pos : 0 < L.factor * L.factor := mul_self_pos.mpr L.factor_ne_zero

theorem mul_pos_iff (x : ℝ) : 0 < L.factor * L.factor * x ↔ 0 < x :=
  mul_pos_iff_of_pos_left L.sq_pos

theorem mul_neg_iff (x : ℝ) : L.factor * L.factor * x < 0 ↔ x < 0 := by
  rw [← neg_pos, ← mul_neg, L.mul_pos_iff, neg_pos]

theorem real_nonpos_iff (x : ℝ) : Exact.real (L.factor * L.factor * x) ≤ 0 ↔ Exact.real x ≤ 0 := by
  rw [Exact.zero_eq, Exact.real_le, Exact.real_le, ← not_lt, L.mul_pos_iff, not_lt]

end Dilation

variable [ActsOn (List Exact) H] [ActsOn (List Exact) P]

section Steps

variable {L : Dilation n} {J J' : C → C → Prop} {s : Settings Exact} {ρ : ℝ}
  {it next : Iterate ℝ (RealVector n)}

theorem dilates_start (b : RealVector n) : Dilates (H := H) (P := P) L J J
    (fun x x' => x = (Start.opening b (L.preconditioner b)).lift ∧
      x' = ((Start.opening b (L.preconditioner b)).dilate L.factor).lift)
    (start (entries b)) (start (entries (L.factor • b))) := by
  have hzero (x : RealVector n) : Dilates (H := H) (P := P) L J J
      (fun z z' => z = entries (0 : RealVector n) ∧ z' = entries (0 : RealVector n))
      (zerosLike (entries x)) (zerosLike (entries (L.factor • x))) := by
    intro run run' h
    rw [zerosLike_entries, zerosLike_entries]
    exact ⟨⟨rfl, rfl⟩, h⟩
  refine .step (hzero b) (.step (dilates_copy b 0 0) (.step (dilates_dot b b) ?_))
  rw [if_pos (Exact.isFinite_real), if_pos (Exact.isFinite_real)]
  refine .step (dilates_precondition b 0 0) (.step (dilates_dot b _) (dilates_pure ⟨rfl, ?_⟩))
  simp only [Start.lift, Start.dilate, Start.opening, smul_zero]

theorem dilates_gradientStep (hρ : s.radius = .real ρ) (b x y y' : RealVector n) :
    Dilates (H := H) (P := P) L J J (fun z z' => z' = z.map (.real L.factor * ·))
      (gradientStep s (entries b) (.real ⟪b, b⟫) (entries x) (entries y))
      (gradientStep (s.dilate |L.factor|) (entries (L.factor • b))
        (.real (L.factor * L.factor) * .real ⟪b, b⟫) (entries (L.factor • x)) (entries y')) := by
  have hc := L.factor_ne_zero
  obtain ⟨a, ha⟩ := Settings.exists_gradientLength hρ ⟪b, b⟫
  unfold gradientStep
  dsimp only [ge_iff_le]
  rw [Settings.radius_eq_zero_dilate hc, Settings.radiusSq_dilate_div hc, Exact.half_eq,
    Exact.real_neg]
  simp only [Settings.le_radiusSq_dilate hc]
  split
  · exact dilates_pure (entries_smul _ _)
  · rw [Settings.gradientNorm_dilate hc, ha]
    refine .bind (dilates_setStepNorm _) fun _ _ _ => .step (dilates_axpy a b x)
      (.step (dilates_operate _ y y') (.step (dilates_aypx _ b _) (.step (dilates_dot _ _)
        (.bind (dilates_mapObjective fun q => ?_) fun _ _ _ =>
          .bind dilates_countIteration fun _ _ _ => dilates_pure (entries_smul _ _)))))
    exact congrArg Exact.real (mul_neg _ _).symm

theorem dilates_boundaryStep (τ : Exact) (κ rz : ℝ) (p d : RealVector n) :
    Dilates (H := H) (P := P) L J J (fun z z' => z' = z.map (.real L.factor * ·))
      (boundaryStep s τ (.real κ) (.real rz) (entries p) (entries d))
      (boundaryStep (s.dilate |L.factor|) τ (.real (L.factor * L.factor * κ))
        (.real (L.factor * L.factor * rz)) (entries (L.factor • p)) (entries (L.factor • d))) := by
  refine .bind (dilates_setStepNorm _) fun _ _ _ => .bind (dilates_axpy_last p d τ)
    fun z z' hz => .bind (dilates_mapObjective fun q => ?_) fun _ _ _ => dilates_pure hz
  rw [modelChange_dilate, Exact.real_mul_add]

theorem directionSq_pos_dilate : (it.dilate L.factor).lift.directionSq > 0 ↔
    it.lift.directionSq > 0 :=
  L.mul_pos_iff it.directionSq

theorem dilates_leave (hρ : s.radius = .real ρ) (b : RealVector n)
    (it : Iterate ℝ (RealVector n)) :
    Dilates (H := H) (P := P) L J J (fun z z' => z' = z.map (.real L.factor * ·))
      (leave s (entries b) (.real ⟪b, b⟫) it.lift)
      (leave (s.dilate |L.factor|) (entries (L.factor • b))
        (.real (L.factor * L.factor) * .real ⟪b, b⟫) (it.dilate L.factor).lift) := by
  have hlength : (s.dilate |L.factor|).radiusSq / (it.dilate L.factor).lift.directionSq =
      s.radiusSq / it.lift.directionSq :=
    Settings.radiusSq_dilate_div L.factor_ne_zero (.real it.directionSq)
  unfold leave
  rw [Settings.isConstrained_dilate L.factor_ne_zero, hlength]
  simp only [directionSq_pos_dilate]
  split
  · split
    · exact dilates_boundaryStep _ _ _ _ _
    · exact dilates_gradientStep hρ b _ _ _
  · exact dilates_pure (entries_smul _ _)

theorem dilates_truncate (hρ : s.radius = .real ρ) :
    Dilates (H := H) (P := P) L J J (fun z z' => z' = z.map (.real L.factor * ·))
      (truncate s it.lift) (truncate (s.dilate |L.factor|) (it.dilate L.factor).lift) := by
  unfold truncate
  rw [Iterate.boundary_dilate L.factor_ne_zero hρ]
  simp only [directionSq_pos_dilate]
  refine .bind (dilates_note _ _) fun _ _ _ => ?_
  split
  · exact dilates_boundaryStep _ _ _ _ _
  · exact dilates_pure (entries_smul _ _)

theorem dilates_residualNorm (r z : RealVector n) (rz : ℝ) {known? known?' : Option Exact}
    (hknown : known?' = known?.map (.real |L.factor| * ·)) :
    Dilates (H := H) (P := P) L J J (fun v v' => v' = .real |L.factor| * v)
      (residualNorm s (entries r) (entries z) (.real rz) known?)
      (residualNorm (s.dilate |L.factor|) (entries (L.factor • r)) (entries (L.factor • z))
        (.real (L.factor * L.factor * rz)) known?') := by
  have measured (x : RealVector n) : Dilates (H := H) (P := P) L J J
      (fun v v' => v' = .real |L.factor| * v) (norm (entries x))
      (norm (entries (L.factor • x))) := by
    refine (dilates_norm x).imp ?_
    rintro _ _ ⟨rfl, rfl⟩
    rfl
  unfold residualNorm
  have hkind : (s.dilate |L.factor|).residualNorm = s.residualNorm := rfl
  rw [hkind, hknown]
  cases s.residualNorm with
  | preconditioned => exact measured z
  | unpreconditioned =>
    cases known? with
    | none => exact measured r
    | some known => exact dilates_pure rfl
  | natural => exact dilates_pure (Exact.sqrt_mul_self_mul L.factor_ne_zero (a := .real rz))

theorem dilates_trackStep (curved : 0 < it.curvature) (x : RealVector n) :
    Dilates (H := H) (P := P) L J J
      (fun v v' => ∃ q : ℝ, v = .real q ∧ v' = .real (L.factor * L.factor * q))
      (trackStep s it.lift (entries x))
      (trackStep (s.dilate |L.factor|) (it.dilate L.factor).lift (entries (L.factor • x))) := by
  unfold trackStep
  have hkind : (s.dilate |L.factor|).directionNorm = s.directionNorm := rfl
  rw [hkind]
  cases s.directionNorm with
  | preconditioned =>
    refine dilates_pure ⟨it.fullSq, it.nextSq_lift curved.ne', ?_⟩
    rw [it.nextSq_dilate L.factor_ne_zero curved, it.nextSq_lift curved.ne', Exact.real_mul]
  | unpreconditioned => exact (dilates_dot x x).imp fun _ _ h => ⟨_, h⟩

theorem dilates_advance (curved : 0 < it.curvature) : Dilates (H := H) (P := P) L J J
    (fun x x' => ∃ next : Iterate ℝ (RealVector n),
      x = next.lift ∧ x' = (next.dilate L.factor).lift)
    (advance s it.lift) (advance (s.dilate |L.factor|) (it.dilate L.factor).lift) := by
  have hc := L.factor_ne_zero
  have hsquare (q : ℝ) : Exact.real (L.factor * L.factor * q) =
      .real (L.factor * L.factor) * .real q := rfl
  rw [advance_eq, advance_eq, it.alpha_lift curved.ne', it.alpha_dilate hc curved, Exact.half_eq,
    Exact.real_neg]
  refine .step (dilates_axpy _ _ _) (.step (dilates_axpy _ _ _)
    (.step (dilates_precondition _ _ _) (.bind (dilates_trackStep curved _) ?_)))
  rintro _ _ ⟨q, rfl, rfl⟩
  rw [hsquare, Exact.sqrt_mul_self_mul hc]
  refine .bind (dilates_setStepNorm _) fun _ _ _ => .bind (dilates_mapObjective fun φ => ?_)
    fun _ _ _ => .step (dilates_dot _ _) (dilates_pure ⟨⟨_, _, _, _, _, _, _, _, _, _⟩, rfl, rfl⟩)
  rw [Exact.real_mul_sub]
  exact congrArg _ (Exact.mul_real_mul _ _ (.real it.rz))

theorem beta_dilate : (it.dilate L.factor).lift.beta (next.dilate L.factor).lift =
    it.lift.beta next.lift :=
  Exact.real_mul_div L.sq_pos.ne' (a := .real next.rz) (b := .real it.rz)

theorem dilates_trackTurn (curved : 0 < it.curvature) (prev : it.rz ≠ 0) (p : RealVector n) :
    Dilates (H := H) (P := P) L J J
      (fun v v' => ∃ x y : ℝ, v = (.real x, .real y) ∧
        v' = (.real (L.factor * L.factor * x), .real (L.factor * L.factor * y)))
      (trackTurn s it.lift next.lift (entries p))
      (trackTurn (s.dilate |L.factor|) (it.dilate L.factor).lift (next.dilate L.factor).lift
        (entries (L.factor • p))) := by
  unfold trackTurn
  have hkind : (s.dilate |L.factor|).directionNorm = s.directionNorm := rfl
  rw [hkind, beta_dilate, it.beta_lift prev, it.alpha_lift curved.ne',
    it.alpha_dilate L.factor_ne_zero curved]
  cases s.directionNorm with
  | preconditioned =>
    refine dilates_pure ⟨it.nextCross .preconditioned next, it.nextDirectionSq .preconditioned next,
      rfl, ?_⟩
    simp only [Iterate.lift, Iterate.dilate, Iterate.nextCross, Iterate.nextDirectionSq,
      Exact.real_mul, Exact.real_add, Prod.mk.injEq, Exact.real.injEq]
    constructor <;> ring
  | unpreconditioned =>
    exact .step (dilates_dot _ _) (.step (dilates_dot _ _) (dilates_pure ⟨_, _, rfl, rfl⟩))

theorem dilates_turn (curved : 0 < it.curvature) (prev : it.rz ≠ 0) :
    Dilates (H := H) (P := P) L J J (Phase.Dilates n L.factor) (turn s it.lift next.lift)
      (turn (s.dilate |L.factor|) (it.dilate L.factor).lift (next.dilate L.factor).lift) := by
  rw [turn_eq, turn_eq, beta_dilate, it.beta_lift prev]
  refine .step (dilates_aypx _ _ _) (.bind (dilates_trackTurn curved prev _) ?_)
  rintro _ _ ⟨x, y, rfl, rfl⟩
  refine .step (dilates_operate _ _ _) (.step (dilates_dot _ _)
    (.bind dilates_countIteration fun _ _ _ => ?_))
  simp only [Exact.isFinite_real, Bool.not_true, Bool.false_eq_true, ↓reduceIte, L.real_nonpos_iff]
  split
  · have hstep : (next.dilate L.factor).lift.step = next.lift.step.map (.real L.factor * ·) :=
      entries_smul _ _
    rw [hstep]
    exact .bind (dilates_note _ _) fun _ _ _ => dilates_pure (.stopped _ _)
  · next curved =>
    exact dilates_pure (.going ⟨_, _, _, _, _, _, _, _, _, _⟩ (not_le.mp curved))

variable [ConvergenceTest Exact C]

/-- Tests that give the same answer to a norm and to its multiple. -/
def Proportionate (k : ℝ) (i : ℕ) (J J' : C → C → Prop) : Prop :=
  ∀ t t', J t t' → ∀ x : Exact,
    (ConvergenceTest.evaluate t' i (.real k * x)).1 = (ConvergenceTest.evaluate t i x).1 ∧
      J' (ConvergenceTest.evaluate t i x).2 (ConvergenceTest.evaluate t' i (.real k * x)).2

theorem dilates_judge {i : ℕ} (answers : Proportionate |L.factor| i J J') (x : Exact) :
    Dilates (H := H) (P := P) L J J' Eq (judge i x) (judge i (.real |L.factor| * x)) := by
  intro run run' h
  obtain ⟨hverdict, htest⟩ := answers _ _ h.test x
  rw [judge_apply, judge_apply]
  refine ⟨hverdict.symm, h.serves.of_eq rfl rfl, h.serves'.of_eq rfl rfl, htest, h.figures, ?_⟩
  exact congrArg ((i, .real |L.factor| * x) :: ·) h.residuals

theorem dilates_review (answers : ∀ i, Proportionate |L.factor| i J J) :
    Dilates (H := H) (P := P) L J J
      (fun outcome outcome' => outcome = outcome' ∧ (outcome = none → it.rz ≠ 0))
      (review s it.lift next.lift)
      (review (s.dilate |L.factor|) (it.dilate L.factor).lift (next.dilate L.factor).lift) := by
  have hneg : (next.dilate L.factor).lift.rz < 0 ↔ next.lift.rz < 0 := L.mul_neg_iff next.rz
  unfold review
  simp only [hneg, beta_dilate]
  split
  · exact .bind (dilates_note _ _) fun _ _ _ => dilates_pure ⟨rfl, nofun⟩
  · refine .bind (dilates_residualNorm next.residual next.preconditioned next.rz rfl) ?_
    rintro norm _ rfl
    refine .bind dilates_iterations ?_
    rintro i _ rfl
    refine .bind (dilates_judge (answers i) norm) ?_
    rintro verdict _ rfl
    cases verdict with
    | converged why => exact .bind (dilates_note _ _) fun _ _ _ => dilates_pure ⟨rfl, nofun⟩
    | diverged why => exact .bind (dilates_note _ _) fun _ _ _ => dilates_pure ⟨rfl, nofun⟩
    | iterating =>
      refine .bind dilates_iterations fun _ _ _ => .bind (dilates_note _ _) fun _ _ _ => ?_
      split
      · exact .bind (dilates_note _ _) fun _ _ _ => dilates_pure ⟨rfl, nofun⟩
      · next hβ =>
        rw [Iterate.beta_vanishes, not_or] at hβ
        exact dilates_pure ⟨rfl, fun _ => hβ.1⟩

/-- The passes of the two runs cross the boundary, are reviewed and turn together. -/
theorem dilates_passes (hρ : s.radius = .real ρ) (answers : ∀ i, Proportionate |L.factor| i J J)
    (remaining : ℕ) {it : Iterate ℝ (RealVector n)} (curved : 0 < it.curvature) :
    Dilates (H := H) (P := P) L J J (fun stop stop' => stop' = stop.dilate L.factor)
      (passes s remaining it.lift)
      (passes (s.dilate |L.factor|) remaining (it.dilate L.factor).lift) := by
  have hcrosses : decide ((it.dilate L.factor).lift.nextSq ≥ (s.dilate |L.factor|).radiusSq) =
      decide (it.lift.nextSq ≥ s.radiusSq) := by
    rw [decide_eq_decide, it.nextSq_dilate L.factor_ne_zero curved]
    exact Settings.radiusSq_dilate_le L.factor_ne_zero _
  rw [passes.eq_def, passes.eq_def]
  dsimp only
  rw [hcrosses, Settings.isConstrained_dilate L.factor_ne_zero]
  refine .bind dilates_iterations fun _ _ _ => .bind (dilates_note _ _) fun _ _ _ => ?_
  split
  · exact .bind (dilates_truncate hρ) fun x x' hx => dilates_pure (congrArg (Stop.mk _) hx)
  · refine .bind (dilates_advance curved) ?_
    rintro _ _ ⟨next, rfl, rfl⟩
    refine .bind (dilates_review answers) ?_
    rintro outcome _ ⟨rfl, hprev⟩
    cases outcome with
    | some reason => exact dilates_pure (congrArg (Stop.mk _) (entries_smul _ _))
    | none =>
      cases remaining with
      | zero =>
        exact .bind dilates_iterations fun _ _ _ => .bind (dilates_note _ _) fun _ _ _ =>
          dilates_pure (congrArg (Stop.mk _) (entries_smul _ _))
      | succ remaining =>
        refine .bind (dilates_turn curved (hprev rfl)) ?_
        rintro _ _ (⟨reason, step⟩ | ⟨it, curved⟩)
        · exact dilates_pure rfl
        · exact dilates_passes hρ answers remaining curved

theorem dilates_probe (opens : Proportionate |L.factor| 0 J J') (b z : RealVector n) :
    Dilates (H := H) (P := P) L J J'
      (fun p p' => p = ⟨entries z, entries (L.operator z), .real ⟪z, L.operator z⟫⟩ ∧
        p' = ⟨entries (L.factor • z), entries (L.factor • L.operator z),
          .real (L.factor * L.factor * ⟪z, L.operator z⟫)⟩)
      (probe s (Start.opening b z).lift)
      (probe (s.dilate |L.factor|) ((Start.opening b z).dilate L.factor).lift) := by
  have hroot : some (Scalar.sqrt ((Start.opening b z).dilate L.factor).lift.rr) =
      (some (Scalar.sqrt (Start.opening b z).lift.rr)).map (.real |L.factor| * ·) :=
    congrArg some (Exact.sqrt_mul_self_mul L.factor_ne_zero (a := .real ⟪b, b⟫))
  unfold probe
  refine .bind (dilates_residualNorm b z ⟪b, z⟫ hroot) ?_
  rintro norm _ rfl
  exact .bind (dilates_judge opens norm) fun _ _ _ => .bind (dilates_note _ _) fun _ _ _ =>
    .step (dilates_copy _ _ _) (.step (dilates_operate _ _ _) (.bind dilates_countIteration
      fun _ _ _ => .step (dilates_dot _ _) (dilates_pure ⟨rfl, rfl⟩)))

omit [ConvergenceTest Exact C] in
theorem dilates_measure (b z w : RealVector n) : Dilates (H := H) (P := P) L J J
    (fun v v' => v = .real (Iterate.opening s.directionNorm b z w).directionSq ∧
      v' = .real (L.factor * L.factor * (Iterate.opening s.directionNorm b z w).directionSq))
    (measure s (Start.opening b z).lift (entries z))
    (measure (s.dilate |L.factor|) ((Start.opening b z).dilate L.factor).lift
      (entries (L.factor • z))) := by
  unfold measure
  have hkind : (s.dilate |L.factor|).directionNorm = s.directionNorm := rfl
  rw [hkind]
  cases s.directionNorm with
  | preconditioned => exact dilates_pure ⟨rfl, rfl⟩
  | unpreconditioned => exact dilates_dot z z

theorem dilates_first (hρ : s.radius = .real ρ) (opens : Proportionate |L.factor| 0 J J')
    (b z : RealVector n) :
    Dilates (H := H) (P := P) L J J' (Phase.Dilates n L.factor)
      (first s (entries b) (Start.opening b z).lift)
      (first (s.dilate |L.factor|) (entries (L.factor • b))
        ((Start.opening b z).dilate L.factor).lift) := by
  rw [first_eq, first_eq]
  refine .step (dilates_probe opens b z) ?_
  unfold depart
  simp only [Exact.isFinite_real, Bool.not_true, Bool.false_eq_true, ↓reduceIte, L.real_nonpos_iff]
  refine .step (dilates_measure b z (L.operator z)) ?_
  set it := Iterate.opening s.directionNorm b z (L.operator z) with hit
  have hiterate : Start.iterate ((Start.opening b z).dilate L.factor).lift
      ⟨entries (L.factor • z), entries (L.factor • L.operator z),
        .real (L.factor * L.factor * ⟪z, L.operator z⟫)⟩
      (.real (L.factor * L.factor * it.directionSq)) = (it.dilate L.factor).lift := by
    simp [Start.iterate, Start.lift, Start.dilate, Start.opening, Iterate.lift, Iterate.dilate, hit,
      Iterate.opening]
  rw [hiterate]
  split
  · refine .bind (dilates_note _ _) fun _ _ _ => .bind (dilates_leave hρ b it) ?_
    rintro step _ rfl
    exact dilates_pure (.stopped _ _)
  · next curved => exact dilates_pure (.going it (not_le.mp curved))

theorem dilates_iterate (hρ : s.radius = .real ρ) (opens : Proportionate |L.factor| 0 J J')
    (answers : ∀ i, Proportionate |L.factor| i J' J') (b : RealVector n) (m : ℕ) :
    Dilates (H := H) (P := P) L J (fun _ _ => True)
      (fun stop stop' => stop' = stop.dilate L.factor)
      (iterate s (entries b) m) (iterate (s.dilate |L.factor|) (entries (L.factor • b)) m) := by
  have hdimension : Dilates (H := H) (P := P) L J J (fun k k' => k = n ∧ k' = n)
      (dimension (entries b)) (dimension (entries (L.factor • b))) :=
    fun _ _ h => ⟨⟨length_entries b, length_entries _⟩, h⟩
  refine .step hdimension (.step (dilates_start b) ?_)
  set z := L.preconditioner b
  have hneg : ((Start.opening b z).dilate L.factor).lift.rz < 0 ↔ (Start.opening b z).lift.rz < 0 :=
    L.mul_neg_iff _
  have hfinite (b : Start ℝ (RealVector n)) : Scalar.isFinite b.lift.rz = true := rfl
  simp only [hfinite, Bool.not_true, Bool.false_eq_true, ↓reduceIte, hneg]
  split
  · exact .bind (dilates_note _ _) fun _ _ _ => .bind (dilates_gradientStep hρ b 0 0 _).forget
      fun x x' hx => dilates_pure (congrArg (Stop.mk _) hx)
  · refine .bind (dilates_first hρ opens b z) ?_
    rintro _ _ (⟨reason, step⟩ | ⟨it, curved⟩)
    · exact Dilates.forget (dilates_pure rfl)
    · exact (dilates_passes hρ answers _ curved).forget

end Steps

section Solve

namespace Criterion

/-- The criteria without an absolute tolerance. -/
inductive Relative : Criterion Exact → Prop where
  | never : Relative .never
  | residual {test : ResidualTest Exact} (h : test.tolerances.atol = 0) : Relative (.residual test)

/-- Such criteria after questions about norms and their multiples. -/
inductive Dilates (k : ℝ) : Criterion Exact → Criterion Exact → Prop where
  | never : Dilates k .never .never
  | residual {test : ResidualTest Exact} (h : test.tolerances.atol = 0) :
      Dilates k (.residual test) (.residual (test.dilate k))

variable {k : ℝ}

theorem opens_dilates (hk : 0 < k) :
    Proportionate k 0 (fun t t' : Criterion Exact => t = t' ∧ t.Relative) (Dilates k) := by
  rintro t _ ⟨rfl, h⟩ x
  cases h with
  | never => exact ⟨rfl, .never⟩
  | residual h =>
    simp only [ConvergenceTest.evaluate, evaluate, ResidualTest.evaluate_zero_dilate hk h]
    exact ⟨rfl, .residual h⟩

theorem answers_dilates (hk : 0 < k) (i : ℕ) :
    Proportionate k i (Dilates k) (Dilates k) := by
  intro t t' h x
  cases h with
  | never => exact ⟨rfl, .never⟩
  | @residual test h =>
    have kept : (test.evaluate i x).2.tolerances = test.tolerances := by
      unfold ResidualTest.evaluate
      split <;> rfl
    simp only [ConvergenceTest.evaluate, evaluate, ResidualTest.evaluate_dilate hk h]
    exact ⟨trivial, .residual (kept ▸ h)⟩

end Criterion

def Report.dilate (c : ℝ) (report : Report Exact) : Report Exact :=
  { report with
    stepNorm := .real |c| * report.stepNorm
    objective := .real (c * c) * report.objective
    residualNorm? := report.residualNorm?.map (.real |c| * ·)
    history := report.history.map (.real |c| * ·) }

/-- The solution with its step multiplied by `c`, its norms by `|c|` and its objective by `c²`. -/
def Solution.dilate (c : ℝ) (solution : Solution Exact (List Exact)) :
    Solution Exact (List Exact) :=
  { solution with
    step := solution.step.map (.real c * ·)
    residualNorm? := solution.residualNorm?.map (.real |c| * ·)
    stepNorm := .real |c| * solution.stepNorm
    objective := .real (c * c) * solution.objective }

/-- Two solves that both succeed, the second with the multiples of all that the first comes to, for
the same reason and after as many iterations. -/
structure Solved.Dilates {S : Type} (c : ℝ) (solved solved' : Solved Exact (List Exact) S H P C) :
    Prop where
  solution : ∃ solution, solved.result = .ok solution ∧ solved'.result = .ok (solution.dilate c)
  residuals : Event.residuals solved'.events = dilateNorms |c| (Event.residuals solved.events)
  report : solved'.solver.report = solved.solver.report.dilate c

theorem Solver.reportOf_dilate {c : ℝ} {s : Settings Exact} (f : Figures Exact)
    {events events' : List (Event Exact)} (reason? : Option Reason)
    (h : Event.residuals events' = dilateNorms |c| (Event.residuals events)) :
    Solver.reportOf (s.dilate |c|) (f.dilate c) events' reason? =
      (Solver.reportOf s f events reason?).dilate c := by
  have hnorms : (Event.residuals events').map (·.2) =
      ((Event.residuals events).map (·.2)).map (.real |c| * ·) := by
    rw [h, dilateNorms, List.map_map, List.map_map]
    rfl
  have hkeeps : (s.dilate |c|).keepsHistory = s.keepsHistory := rfl
  unfold Solver.reportOf Report.dilate
  simp only [hnorms, hkeeps, List.getLast?_map]
  cases s.keepsHistory <;> rfl

theorem Solver.dilates_of_iterate [ConvergenceTest Exact C] {L : Dilation n} {J : C → C → Prop}
    {solver solver' : Solver Exact} {cs : Collaborators (Euclidean Exact) H P C}
    {b b' : List Exact} {m : ℕ} {stop : Stop (List Exact)}
    {run run' : Run Exact (Euclidean Exact) H P C} (valid : solver.settings.validate = .ok ())
    (valid' : solver'.settings.validate = .ok ())
    (hs : solver'.settings = solver.settings.dilate |L.factor|)
    (ends : iterate solver.settings b m cs.begin = .ok stop run)
    (ends' : iterate solver'.settings b' m cs.begin = .ok (stop.dilate L.factor) run')
    (after : run.Dilates L J run') :
    (solver.solve cs b m).Dilates L.factor (solver'.solve cs b' m) := by
  have residuals (reason : Reason) (i i' : ℕ) :
      Event.residuals (Event.terminated reason i' :: run'.latest).reverse =
        dilateNorms |L.factor|
          (Event.residuals (Event.terminated reason i :: run.latest).reverse) := by
    rw [Event.residuals_reverse, Event.residuals_reverse, dilateNorms, List.map_reverse]
    exact congrArg List.reverse after.residuals
  have report (events events' : List (Event Exact))
      (h : Event.residuals events' = dilateNorms |L.factor| (Event.residuals events)) :
      (solver'.observe run'.figures events' (some stop.reason)).report =
        (solver.observe run.figures events (some stop.reason)).report.dilate L.factor := by
    simp only [Solver.observe, hs, after.figures]
    exact Solver.reportOf_dilate run.figures (some stop.reason) h
  rw [Solver.solve_of_ok valid ends, Solver.solve_of_ok valid' ends']
  constructor
  case solution =>
    have norm := congrArg Report.residualNorm?
      (report _ _ (residuals stop.reason run.figures.iterations run'.figures.iterations))
    refine ⟨_, rfl, congrArg Except.ok ?_⟩
    simp only [Solution.dilate, Solution.mk.injEq]
    refine ⟨rfl, rfl, ?_, norm, ?_, ?_, rfl⟩
    all_goals rw [after.figures]; rfl
  case residuals => exact residuals _ _ _
  case report => exact report _ _ (residuals _ _ _)

/-- In exact arithmetic, with an operator and a preconditioner that `c` can be drawn out of and
without an absolute tolerance: a solve for `c` times the right-hand side within `|c|` times the
radius comes to the multiples of all that the solve for the right-hand side comes to. -/
theorem solve_homogeneous {solver : Solver Exact}
    {cs : Collaborators (Euclidean Exact) H P (Criterion Exact)} {b : RealVector n} {m : ℕ}
    {f g : RealVector n → RealVector n} {c : ℝ} (valid : solver.settings.validate = .ok ())
    (hc : c ≠ 0) (hH : Serves f cs.operator) (hP : Serves g cs.preconditioner)
    (hf : ∀ x, f (c • x) = c • f x) (hg : ∀ x, g (c • x) = c • g x) (hC : cs.test.Relative) :
    ∃ solver', solver.setRadius (.real |c| * solver.settings.radius) = .ok solver' ∧
      (solver.solve cs (entries b) m).Dilates c (solver'.solve cs (entries (c • b)) m) := by
  obtain ⟨L, rfl, rfl, rfl⟩ : ∃ L : Dilation n, L.factor = c ∧ L.operator = f ∧
    L.preconditioner = g := ⟨⟨c, hc, f, g, hf, hg⟩, rfl, rfl, rfl⟩
  have hk : 0 < |L.factor| := abs_pos.mpr hc
  obtain ⟨ρ, hρ, nonneg⟩ : ∃ ρ : ℝ, solver.settings.radius = .real ρ ∧ 0 ≤ ρ := by
    have fits : (solver.settings.subproblem b m (fun _ _ => True) fun _ _ => True).Fits
      solver.settings := Settings.subproblem_fits valid
    exact ⟨_, fits.radius, fits.nonneg⟩
  have admissible : Settings.checkRadius (.real |L.factor| * solver.settings.radius) = .ok () := by
    simp [Settings.checkRadius, hρ, mul_nonneg hk.le nonneg]
  set solver' : Solver Exact := { solver with settings := solver.settings.dilate |L.factor| }
  have valid' : solver'.settings.validate = .ok () := admissible
  have figures : cs.begin.figures = cs.begin.figures.dilate L.factor := by
    simp [Collaborators.begin, Figures.zero, Figures.dilate]
  have begins : cs.begin.Dilates L (fun t t' => t = t' ∧ t.Relative) cs.begin :=
    ⟨⟨hH, hP⟩, ⟨hH, hP⟩, ⟨rfl, hC⟩, figures, rfl⟩
  have iterates := dilates_iterate (m := m) hρ (Criterion.opens_dilates hk)
    (Criterion.answers_dilates hk) b begins
  obtain ⟨stop, run, _, run', ends, ends', rfl, after⟩ | ⟨_, _, _, _, _, hfalse⟩ := iterates.cases
  · refine ⟨solver', by rw [Solver.setRadius, admissible]; rfl, ?_⟩
    exact Solver.dilates_of_iterate valid valid' rfl ends ends' after
  · exact hfalse.elim

/-- Three times the right-hand side, turned round, within three times the radius, under a test for
half of the first norm. -/
theorem solve_homogeneous_scaling :
    let solver := Solver.plain 3 .preconditioned
    let test := ResidualTest.fresh ⟨Exact.real (1 / 2), 0, Exact.real 10⟩
    let cs : Collaborators (Euclidean Exact) (Rule Exact) (Rule Exact) (Criterion Exact) :=
      { Collaborators.scaling 2 1 with test := .residual test }
    solver.settings.validate = .ok () ∧ (-3 : ℝ) ≠ 0 ∧
      Serves (fun x : RealVector 2 => (2 : ℝ) • x) cs.operator ∧
      Serves (fun x : RealVector 2 => (1 : ℝ) • x) cs.preconditioner ∧ cs.test.Relative ∧
      ∃ solver', solver.setRadius (.real |-3| * solver.settings.radius) = .ok solver' ∧
        (solver.solve cs (entries !₂[3, 4]) 5).Dilates (-3)
          (solver'.solve cs (entries ((-3 : ℝ) • !₂[3, 4])) 5) := by
  intro solver test cs
  have valid : solver.settings.validate = .ok () := by
    simp [Settings.validate, Settings.checkRadius, solver, Solver.plain]
  have hc : (-3 : ℝ) ≠ 0 := by norm_num
  have hH : Serves (fun x : RealVector 2 => (2 : ℝ) • x) cs.operator := Rule.serves_scale 2
  have hP : Serves (fun x : RealVector 2 => (1 : ℝ) • x) cs.preconditioner := Rule.serves_scale 1
  have hC : cs.test.Relative := .residual rfl
  exact ⟨valid, hc, hH, hP, hC, solve_homogeneous valid hc hH hP (fun x => smul_comm _ _ x)
    (fun x => smul_comm _ _ x) hC⟩

end Solve

end

end TrustRegion
