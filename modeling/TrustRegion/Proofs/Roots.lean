import TrustRegion.Proofs.Norms
import TrustRegion.Proofs.Verdicts
import TrustRegion.Space.Euclidean

/-! The square roots of a solve that tracks the norm of the preconditioner, and the cuts at the
boundary that some of them are taken for. -/
namespace TrustRegion

open RunM

variable {T H P C : Type} [Scalar T]

/-- What the norm of a residual is the root of. -/
def residualSq (s : Settings T) (residual preconditioned : List T) (rz : T) : T :=
  match s.residualNorm with
  | .preconditioned => Dense.dot preconditioned preconditioned
  | .unpreconditioned => Dense.dot residual residual
  | .natural => rz

section Solve

variable [ActsOn (List T) H] [ActsOn (List T) P] [ConvergenceTest T C] (s : Settings T)
  (rhs : List T) (m : Nat) (run₀ : Run T (Euclidean T) H P C)

/-- The numbers that a solve takes the square roots of, by the places where it does. -/
inductive TakesRoot : T → Prop where
  | rhs {b : Start T (List T)} {run : Run T (Euclidean T) H P C}
      (starts : start rhs run₀ = .ok b run) (finite : Scalar.isFinite b.rz = true)
      (nonneg : ¬ b.rz < 0) : TakesRoot b.rr
  | first {b : Start T (List T)} {run : Run T (Euclidean T) H P C}
      (starts : start rhs run₀ = .ok b run) (finite : Scalar.isFinite b.rz = true)
      (nonneg : ¬ b.rz < 0) : TakesRoot (residualSq s b.residual b.preconditioned b.rz)
  | gradientNorm {b : Start T (List T)} {run : Run T (Euclidean T) H P C}
      (starts : start rhs run₀ = .ok b run) (falls : TakesGradient s rhs run₀)
      (bounded : (s.radius == 0) = false) (inside : s.radiusSq ≥ b.rr) : TakesRoot b.rr
  | gradientLength {b : Start T (List T)} {run : Run T (Euclidean T) H P C}
      (starts : start rhs run₀ = .ok b run) (falls : TakesGradient s rhs run₀)
      (bounded : (s.radius == 0) = false) (outside : ¬ s.radiusSq ≥ b.rr) :
      TakesRoot (s.radiusSq / b.rr)
  | leave {b : Start T (List T)} {p : Probe T (List T)} {directionSq : T}
      {run run' run'' : Run T (Euclidean T) H P C} (starts : start rhs run₀ = .ok b run)
      (finite : Scalar.isFinite b.rz = true) (nonneg : ¬ b.rz < 0)
      (probes : probe s b run = .ok p run') (curved : Scalar.isFinite p.curvature = true)
      (measures : measure s b p.direction run' = .ok directionSq run'') (flat : p.curvature ≤ 0)
      (constrained : s.isConstrained = true) (long : directionSq > 0) :
      TakesRoot (s.radiusSq / directionSq)
  | boundary {k : Nat} {it : Iterate T (List T)} {run : Run T (Euclidean T) H P C}
      (pass : ReachesPass s rhs m run₀ k it run) (crosses : it.Crosses s)
      (long : it.directionSq > 0) :
      TakesRoot (it.cross * it.cross + it.directionSq * (s.radiusSq - it.stepSq))
  | advance {k : Nat} {it : Iterate T (List T)} {run : Run T (Euclidean T) H P C}
      (pass : ReachesPass s rhs m run₀ k it run) (inside : ¬ it.Crosses s) : TakesRoot it.nextSq
  | review {k : Nat} {it next : Iterate T (List T)} {run run' : Run T (Euclidean T) H P C}
      (pass : ReachesPass s rhs m run₀ k it run) (full : FullStep s it run next run')
      (nonneg : ¬ next.rz < 0) : TakesRoot (residualSq s next.residual next.preconditioned next.rz)

end Solve

section OtherRoot

/-- The same arithmetic with another root. -/
abbrev Scalar.withRoot (root : T → T) : Scalar T := { ‹Scalar T› with sqrt := root }

variable {root : T → T} {s : Settings T} {rhs : List T}

theorem Dense.addBlocks_withRoot (root : T → T) (blocks : Nat) (lanes terms : List T) :
    (letI : Scalar T := .withRoot root; addBlocks blocks lanes terms) =
      addBlocks blocks lanes terms := by
  induction blocks generalizing lanes terms with
  | zero => rfl
  | succ blocks ih => exact ih _ _

theorem Dense.dot_withRoot (root : T → T) (x y : List T) :
    (letI : Scalar T := .withRoot root; dot x y) = dot x y := by
  unfold dot blockedSum
  rw [addBlocks_withRoot]

theorem dot_withRoot (root : T → T) (x y : List T) :
    (letI : Scalar T := .withRoot root; (dot x y : RunM T (Euclidean T) H P C T)) = dot x y := by
  funext run
  simp only [dot, VectorSpace.dot, Euclidean.dot, Dense.dot_withRoot]

theorem start_withRoot [ActsOn (List T) P] (root : T → T) (rhs : List T) :
    (letI : Scalar T := .withRoot root; (start rhs : RunM T (Euclidean T) H P C _)) =
      start rhs := by
  simp only [start, dot_withRoot]
  rfl

theorem gradientStep_withRoot [ActsOn (List T) H] {rr : T} {step scratch : List T}
    (inside : (s.radius == 0) = false → s.radiusSq ≥ rr → root rr = Scalar.sqrt rr)
    (outside : (s.radius == 0) = false → ¬ s.radiusSq ≥ rr →
      root (s.radiusSq / rr) = Scalar.sqrt (s.radiusSq / rr)) :
    (letI : Scalar T := .withRoot root;
      (gradientStep s rhs rr step scratch : RunM T (Euclidean T) H P C _)) =
      gradientStep s rhs rr step scratch := by
  unfold gradientStep
  refine ite_congr rfl (fun _ => rfl) fun bounded => ?_
  have bounded : (s.radius == 0) = false := by simpa using bounded
  have hnorm : (if decide (s.radiusSq ≥ rr) = true then root rr else s.radius) =
      if decide (s.radiusSq ≥ rr) = true then Scalar.sqrt rr else s.radius :=
    ite_congr rfl (fun h => inside bounded (of_decide_eq_true h)) fun _ => rfl
  have hfactor : (if decide (s.radiusSq ≥ rr) = true then 1 else root (s.radiusSq / rr)) =
      if decide (s.radiusSq ≥ rr) = true then 1 else Scalar.sqrt (s.radiusSq / rr) :=
    ite_congr rfl (fun _ => rfl) fun h => outside bounded (by simpa using h)
  simp only [dot_withRoot, ← hnorm, ← hfactor]
  rfl

theorem residualNorm_withRoot {r z : List T} {rz : T} {known? : Option T}
    (same : root (residualSq s r z rz) = Scalar.sqrt (residualSq s r z rz)) :
    (letI : Scalar T := .withRoot root;
      (residualNorm s r z rz known? : RunM T (Euclidean T) H P C T)) =
      residualNorm s r z rz known? := by
  have hnorm (x : List T) (h : root (Dense.dot x x) = Scalar.sqrt (Dense.dot x x)) :
      (letI : Scalar T := .withRoot root; (RunM.norm x : RunM T (Euclidean T) H P C T)) =
        RunM.norm x := by
    funext run
    simp only [RunM.norm, VectorSpace.norm, Dense.norm, Dense.dot_withRoot, ← h]
    rfl
  unfold residualSq at same
  unfold residualNorm
  cases hn : s.residualNorm with
  | preconditioned =>
    rw [hn] at same
    exact hnorm z same
  | unpreconditioned =>
    rw [hn] at same
    cases known? with
    | some known => rfl
    | none => exact hnorm r same
  | natural =>
    rw [hn] at same
    exact congrArg pure same

theorem turn_withRoot [ActsOn (List T) H] (root : T → T) (it next : Iterate T (List T)) :
    (letI : Scalar T := .withRoot root; (turn s it next : RunM T (Euclidean T) H P C _)) =
      turn s it next := by
  simp only [turn, dot_withRoot]
  rfl

theorem truncate_withRoot {it : Iterate T (List T)}
    (same : it.directionSq > 0 →
      root (it.cross * it.cross + it.directionSq * (s.radiusSq - it.stepSq)) =
        Scalar.sqrt (it.cross * it.cross + it.directionSq * (s.radiusSq - it.stepSq))) :
    (letI : Scalar T := .withRoot root; (truncate s it : RunM T (Euclidean T) H P C _)) =
      truncate s it := by
  unfold truncate
  refine congrArg _ (funext fun _ => ite_congr rfl (fun long => ?_) fun _ => rfl)
  simp only [Iterate.boundary, ← same long]
  rfl

theorem advance_withRoot [ActsOn (List T) P] {it : Iterate T (List T)}
    (norm : s.directionNorm = .preconditioned)
    (same : root it.nextSq = Scalar.sqrt it.nextSq) :
    (letI : Scalar T := .withRoot root; (advance s it : RunM T (Euclidean T) H P C _)) =
      advance s it := by
  simp only [advance, norm, dot_withRoot, pure_bind, ← same]
  rfl

theorem leave_withRoot [ActsOn (List T) H] {rr : T} {it : Iterate T (List T)}
    (long : s.isConstrained = true → it.directionSq > 0 →
      root (s.radiusSq / it.directionSq) = Scalar.sqrt (s.radiusSq / it.directionSq))
    (short : s.isConstrained = true → ¬ it.directionSq > 0 →
      (letI : Scalar T := .withRoot root;
        (gradientStep s rhs rr it.step it.product : RunM T (Euclidean T) H P C _)) =
        gradientStep s rhs rr it.step it.product) :
    (letI : Scalar T := .withRoot root; (leave s rhs rr it : RunM T (Euclidean T) H P C _)) =
      leave s rhs rr it := by
  unfold leave
  refine ite_congr rfl (fun constrained => ite_congr rfl (fun hlong => ?_)
    fun hshort => short constrained hshort) fun _ => rfl
  rw [← long constrained hlong]
  rfl

theorem review_withRoot [ConvergenceTest T C] {it next : Iterate T (List T)}
    (same : ¬ next.rz < 0 → root (residualSq s next.residual next.preconditioned next.rz) =
      Scalar.sqrt (residualSq s next.residual next.preconditioned next.rz)) :
    (letI : Scalar T := .withRoot root; (review s it next : RunM T (Euclidean T) H P C _)) =
      review s it next := by
  unfold review
  refine ite_congr rfl (fun _ => rfl) fun nonneg => ?_
  rw [residualNorm_withRoot (same nonneg)]
  rfl

theorem measure_withRoot (root : T → T) {b : Start T (List T)} (direction : List T) :
    (letI : Scalar T := .withRoot root;
      (measure s b direction : RunM T (Euclidean T) H P C T)) = measure s b direction := by
  simp only [measure, dot_withRoot]

theorem probe_withRoot [ActsOn (List T) H] [ConvergenceTest T C] {b : Start T (List T)}
    (rhs : root b.rr = Scalar.sqrt b.rr)
    (first : root (residualSq s b.residual b.preconditioned b.rz) =
      Scalar.sqrt (residualSq s b.residual b.preconditioned b.rz)) :
    (letI : Scalar T := .withRoot root;
      (probe s b : RunM T (Euclidean T) H P C (Probe T (List T)))) =
      probe s b := by
  simp only [probe, dot_withRoot]
  rw [residualNorm_withRoot first, ← rhs]
  rfl

variable [ActsOn (List T) H] [ActsOn (List T) P] [ConvergenceTest T C] {m k : Nat}
  {run₀ run run' : Run T (Euclidean T) H P C}

/-- A gradient step that a solve falls back to asks for no root but one of `TakesRoot`. -/
theorem TakesGradient.gradientStep_withRoot {b : Start T (List T)} {step scratch : List T}
    (falls : TakesGradient s rhs run₀) (starts : start rhs run₀ = .ok b run)
    (same : ∀ x, TakesRoot s rhs m run₀ x → root x = Scalar.sqrt x) :
    (letI : Scalar T := .withRoot root;
      (gradientStep s rhs b.rr step scratch : RunM T (Euclidean T) H P C _)) =
      gradientStep s rhs b.rr step scratch :=
  TrustRegion.gradientStep_withRoot
    (fun bounded inside => same _ (.gradientNorm starts falls bounded inside))
    fun bounded outside => same _ (.gradientLength starts falls bounded outside)

theorem depart_withRoot {b : Start T (List T)} {p : Probe T (List T)}
    (starts : start rhs run₀ = .ok b run) (finite : Scalar.isFinite b.rz = true)
    (nonneg : ¬ b.rz < 0) (probes : probe s b run = .ok p run')
    (same : ∀ x, TakesRoot s rhs m run₀ x → root x = Scalar.sqrt x) :
    (letI : Scalar T := .withRoot root; (depart s rhs b p : RunM T (Euclidean T) H P C _) run') =
      depart s rhs b p run' := by
  unfold depart
  refine ite_congr_at rfl (fun infinite => ?_) fun curved => ?_
  · have falls : TakesGradient s rhs run₀ :=
      .operator starts finite nonneg probes (by simpa using infinite)
    rw [falls.gradientStep_withRoot starts same]
  · have curved : Scalar.isFinite p.curvature = true := by simpa using curved
    refine bind_congr_at (congrFun (measure_withRoot root _) _) fun directionSq run'' measures =>
      ite_congr_at rfl (fun flat => ?_) fun _ => rfl
    have hleave : (letI : Scalar T := .withRoot root;
        (leave s rhs b.rr (b.iterate p directionSq) : RunM T (Euclidean T) H P C _)) =
        leave s rhs b.rr (b.iterate p directionSq) :=
      leave_withRoot
        (fun constrained long => same _
          (.leave starts finite nonneg probes curved measures flat constrained long))
        fun constrained short =>
          (TakesGradient.direction starts finite nonneg probes curved measures flat constrained
            short).gradientStep_withRoot starts same
    exact bind_congr_at rfl fun _ mid _ => bind_congr_at (congrFun hleave mid) fun _ _ _ => rfl

theorem passes_withRoot (norm : s.directionNorm = .preconditioned)
    (same : ∀ x, TakesRoot s rhs m run₀ x → root x = Scalar.sqrt x) (remaining : Nat)
    {k : Nat} {it : Iterate T (List T)} {run : Run T (Euclidean T) H P C}
    (pass : ReachesPass s rhs m run₀ k it run)
    (left : remaining = iterationCap rhs m run₀ - (k + 1)) :
    (letI : Scalar T := .withRoot root;
      (passes s remaining it : RunM T (Euclidean T) H P C (Stop (List T))) run) =
      passes s remaining it run := by
  by_cases crosses : it.Crosses s
  · have truncates : (letI : Scalar T := .withRoot root;
        (truncate s it : RunM T (Euclidean T) H P C _)) = truncate s it :=
      truncate_withRoot fun long => same _ (.boundary pass crosses long)
    rw [passes_crossing remaining crosses]
    refine Eq.trans (letI : Scalar T := .withRoot root; passes_crossing remaining crosses) ?_
    exact bind_congr_at (congrFun truncates _) fun _ _ _ => rfl
  · have advances : (letI : Scalar T := .withRoot root;
        (advance s it : RunM T (Euclidean T) H P C _)) = advance s it :=
      advance_withRoot norm (same _ (.advance pass crosses))
    rw [passes_inside remaining crosses]
    refine Eq.trans (letI : Scalar T := .withRoot root; passes_inside remaining crosses) ?_
    refine bind_congr_at (congrFun advances _) fun next run₁ full => ?_
    have full : FullStep s it run next run₁ := ⟨crosses, full⟩
    have reviews : (letI : Scalar T := .withRoot root;
        (review s it next : RunM T (Euclidean T) H P C _)) = review s it next :=
      review_withRoot fun nonneg => same _ (.review pass full nonneg)
    unfold conclude
    refine bind_congr_at (congrFun reviews _) fun outcome run₂ goes => ?_
    cases outcome with
    | some reason => rfl
    | none =>
      cases remaining with
      | zero => rfl
      | succ remaining =>
        refine bind_congr_at (congrFun (turn_withRoot root it next) _) fun phase run₃ turns => ?_
        cases phase with
        | stopped reason step => rfl
        | going it' =>
          exact passes_withRoot norm same remaining
            (.next pass full goes (by omega) turns) (by omega)

/-- A solve that tracks the norm of the preconditioner takes no roots but those of `TakesRoot`: with
another root that agrees on these numbers it is the same. -/
theorem iterate_withRoot (norm : s.directionNorm = .preconditioned)
    (same : ∀ x, TakesRoot s rhs m run₀ x → root x = Scalar.sqrt x) :
    (letI : Scalar T := .withRoot root;
      (iterate s rhs m : RunM T (Euclidean T) H P C (Stop (List T))) run₀) =
      iterate s rhs m run₀ := by
  unfold iterate
  refine bind_congr_at rfl fun n run goes => ?_
  cases goes
  refine bind_congr_at (congrFun (start_withRoot root rhs) _) fun b run₁ starts => ?_
  have falls (falls : TakesGradient s rhs run₀) (scratch : List T) :
      (letI : Scalar T := .withRoot root;
        (gradientStep s rhs b.rr b.zero scratch : RunM T (Euclidean T) H P C _)) =
        gradientStep s rhs b.rr b.zero scratch := falls.gradientStep_withRoot starts same
  refine ite_congr_at rfl (fun infinite => ?_) fun finite => ?_
  · have refused : Scalar.isFinite b.rz = false := by simpa using infinite
    rw [falls (.preconditioner starts (.inl refused))]
  · have finite : Scalar.isFinite b.rz = true := by simpa using finite
    refine ite_congr_at rfl (fun neg => ?_) fun nonneg => ?_
    · rw [falls (.preconditioner starts (.inr neg))]
    · have probes : (letI : Scalar T := .withRoot root;
          (probe s b : RunM T (Euclidean T) H P C _)) = probe s b :=
        probe_withRoot (same _ (.rhs starts finite nonneg)) (same _ (.first starts finite nonneg))
      have firsts : (letI : Scalar T := .withRoot root;
          (first s rhs b : RunM T (Euclidean T) H P C _) run₁) = first s rhs b run₁ := by
        refine Eq.trans (letI : Scalar T := .withRoot root; congrFun (first_eq b) run₁)
          (Eq.trans ?_ (congrFun (first_eq b) run₁).symm)
        exact bind_congr_at (congrFun probes _) fun p run₂ probes =>
          depart_withRoot starts finite nonneg probes same
      refine bind_congr_at firsts fun phase run₂ goes => ?_
      cases phase with
      | stopped reason step => rfl
      | going it => exact passes_withRoot norm same _ (.first starts finite nonneg goes) rfl

namespace Solver

theorem solve_withRoot {solver : Solver T} {cs : Collaborators (Euclidean T) H P C}
    (norm : solver.settings.directionNorm = .preconditioned)
    (same : ∀ x, TakesRoot solver.settings rhs m cs.begin x → root x = Scalar.sqrt x) :
    (letI : Scalar T := .withRoot root; solver.solve cs rhs m) = solver.solve cs rhs m := by
  have valid : (letI : Scalar T := .withRoot root; solver.settings.validate) =
      solver.settings.validate := rfl
  have goes : (letI : Scalar T := .withRoot root;
      (iterate solver.settings rhs m : RunM T (Euclidean T) H P C _)
        { cs with figures := .zero, latest := [] }) =
      iterate solver.settings rhs m cs.begin := iterate_withRoot norm same
  unfold Solver.solve
  rw [valid, goes]
  rfl

end Solver

end OtherRoot

section Tracked

variable {V S : Type} [VectorSpace T V S] [ActsOn V H] [ActsOn V P] [ConvergenceTest T C]
  {s : Settings T} {it next : Iterate T V}

omit [ActsOn V H] [ConvergenceTest T C] in
theorem yields_advance_stepSq (norm : s.directionNorm = .preconditioned) :
    (advance s it : RunM T S H P C (Iterate T V)).Yields (·.stepSq = it.nextSq) := by
  have predicted : (pure it.nextSq : RunM T S H P C T).Yields (· = it.nextSq) := yields_pure rfl
  simp only [advance_eq, trackStep, norm]
  exact .bind fun _ => .bind fun _ => .bind fun _ => predicted.andThen fun _ hstepSq =>
    .bind fun _ => .bind fun _ => .bind fun _ => yields_pure hstepSq

omit [ActsOn V P] [ConvergenceTest T C] in
theorem yields_turn_stepSq :
    (turn s it next : RunM T S H P C (Phase V (Iterate T V))).Yields fun phase =>
      ∀ it', phase = .going it' → it'.stepSq = next.stepSq := by
  rw [turn_eq]
  refine .bind fun _ => .bind fun _ => .bind fun _ => .bind fun _ => .bind fun _ => ?_
  split
  · exact .bind fun _ => yields_pure nofun
  · split
    · exact .bind fun _ => yields_pure nofun
    · refine yields_pure ?_
      rintro _ ⟨⟩
      rfl

end Tracked

section Cut

theorem yields_axpy {a : T} {x y : List T} :
    (axpy a x y : RunM T (Euclidean T) H P C (List T)).Yields (· = Dense.combine a x 1 y) := by
  intro run v run' h
  simp only [axpy, VectorSpace.axpy, Euclidean.axpy, sameLength] at h
  split at h
  · cases h
    rfl
  · cases h

theorem yields_aypx {a : T} {x y : List T} :
    (aypx a x y : RunM T (Euclidean T) H P C (List T)).Yields (· = Dense.combine 1 x a y) := by
  intro run v run' h
  simp only [aypx, VectorSpace.aypx, Euclidean.aypx, sameLength] at h
  split at h
  · cases h
    rfl
  · cases h

theorem yields_boundaryStep {s : Settings T} {tau curvature rz : T} {direction step : List T} :
    (boundaryStep s tau curvature rz direction step : RunM T (Euclidean T) H P C (List T)).Yields
      (· = Dense.combine tau direction 1 step) :=
  .bind fun _ => yields_axpy.andThen fun _ hstep => .bind fun _ => yields_pure hstep

theorem yields_truncate_long {s : Settings T} {it : Iterate T (List T)}
    (long : it.directionSq > 0) : (truncate s it : RunM T (Euclidean T) H P C (List T)).Yields
      (· = Dense.combine (it.boundary s) it.direction 1 it.step) := by
  unfold truncate
  rw [if_pos long]
  exact .bind fun _ => yields_boundaryStep

variable {V S : Type} [VectorSpace T V S] [ActsOn V H] [ActsOn V P] [ConvergenceTest T C]
  {s : Settings T} {rhs : V} {m k : Nat} {run₀ run : Run T S H P C} {stop : Stop V}

/-- Only a pass that would cross the boundary ends a solve as cut off there. -/
theorem Ends.crossing (ends : Ends s rhs m run₀ k stop run)
    (cut : stop.reason = .constrainedStep) : ∃ it run₁, ReachesPass s rhs m run₀ k it run₁ ∧
      it.Crosses s ∧ truncate s it (run₁.enter it) = .ok stop.step run := by
  cases ends with
  | badPreconditioner | indefinitePreconditioner | limit => cases cut
  | boundary pass crosses truncates => exact ⟨_, _, pass, crosses, truncates⟩
  | first _ _ _ stops => exact absurd cut (Phase.BlamesOperator.uncut (yields_first stops))
  | turn _ _ _ _ stops => exact absurd cut (Phase.StaysAt.uncut (yields_turn stops))
  | @review k it next reason run run₁ run₂ pass full stops =>
    obtain rfl : reason = .constrainedStep := cut
    obtain ⟨-, hout, -⟩ | ⟨norm, mid, -, -, -, hout | ⟨-, hout⟩⟩ := inquiry_review stops
    · cases hout
    · cases hverdict : (ConvergenceTest.evaluate run₁.test run₁.figures.iterations norm).1 <;>
        simp [hverdict, Verdict.reason?] at hout
    · cases hout

end Cut

end TrustRegion
