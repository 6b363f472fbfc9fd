import TrustRegion.Proofs.Cap
import TrustRegion.Proofs.Exact.Continuation
import TrustRegion.Proofs.Failures
import TrustRegion.Proofs.Radius

/-! More room never makes the objective worse: neither a wider radius nor a greater limit. -/
namespace TrustRegion

open scoped RealInnerProductSpace
open RunM

noncomputable section

namespace Subproblem

open Iterate

section

variable {E : Type} [NormedAddCommGroup E] [InnerProductSpace ℝ E] {Q : Subproblem E} {k : ℕ}
  {it : Iterate ℝ E} {q ρ : ℝ}

def within (Q : Subproblem E) (ρ : ℝ) : Subproblem E := { Q with radius := ρ }

theorem Reaches.widen (h : Q.Reaches k it q) (hr : 0 < Q.radius) (hρ : Q.radius ≤ ρ) :
    (Q.within ρ).Reaches k it q := by
  induction h with
  | first hz hw nonneg curved => exact .first hz hw nonneg curved
  | next _ inside hz prev pos below hw curved ih =>
    have wide : (Q.within ρ).Inside _ := fun _ =>
      (inside hr).trans_le (mul_self_le_mul_self hr.le hρ)
    exact .next ih wide hz prev pos below hw curved

theorem Reaches.boundaryLength_le_passLength (h : Q.Reaches k it q) (hr : 0 < Q.radius)
    (hρ : Q.radius ≤ ρ) (crosses : Q.radius * Q.radius ≤ it.fullSq) :
    it.boundaryLength Q.radius ≤ it.passLength ρ := by
  have hp := h.directionSq_pos hr crosses
  have hs := h.stepSq_lt hr
  unfold passLength
  split
  · apply le_boundaryLength hp
    rw [boundaryLength_root hp hs.le]
    exact mul_self_le_mul_self hr.le hρ
  · exact (h.boundaryLength_mem hr crosses).2

theorem opening_changeAlong_le {z w : E} {d : ℝ} (nonneg : 0 ≤ ⟪Q.rhs, z⟫) (flat : ⟪z, w⟫ ≤ 0)
    (hr : 0 ≤ Q.radius) (hρ : Q.radius ≤ ρ) (long : 0 < d) :
    (opening Q.norm Q.rhs z w).changeAlong √(ρ * ρ / d) ≤
      (opening Q.norm Q.rhs z w).changeAlong √(Q.radius * Q.radius / d) := by
  have hsq : Q.radius * Q.radius ≤ ρ * ρ := mul_self_le_mul_self hr hρ
  have hlength : √(Q.radius * Q.radius / d) ≤ √(ρ * ρ / d) :=
    Real.sqrt_le_sqrt (div_le_div_of_nonneg_right hsq long.le)
  apply changeAlong_le hlength
  have hmean : 0 ≤ 1 / 2 * (√(Q.radius * Q.radius / d) + √(ρ * ρ / d)) := by positivity
  exact (mul_nonpos_of_nonneg_of_nonpos hmean flat).trans nonneg

end

end Subproblem

section First

variable {n : ℕ} {H P C : Type} [ActsOn (List Exact) H] [ActsOn (List Exact) P]
  [ConvergenceTest Exact C] {Q : Subproblem (RealVector n)} {s s' : Settings Exact} {ρ : ℝ}
  {z : RealVector n} {run run₁ run₂ : Run Exact (Euclidean Exact) H P C}
  {phase : Phase (List Exact) (Iterate Exact (List Exact))}

theorem first_objective_le (fits : Q.Fits s) (fits' : (Q.within ρ).Fits s') (wider : s.Wider s')
    (hr : 0 < Q.radius) (hρ : Q.radius ≤ ρ) (nonneg : 0 ≤ ⟪Q.rhs, z⟫)
    (hrun : run.Obeys Q.Acts Q.Preconditions) (hf : run.figures = Figures.lift ⟨0, 0, 0⟩)
    (long : ∀ p mid d mid', probe s (Start.opening Q.rhs z).lift run = .ok p mid →
      measure s (Start.opening Q.rhs z).lift p.direction mid = .ok d mid' →
        Scalar.isFinite p.curvature = true → p.curvature ≤ 0 → d > 0)
    {reason : Reason} {step : List Exact}
    (h : first s (entries Q.rhs) (Start.opening Q.rhs z).lift run = .ok (.stopped reason step) run₁)
    (h' : first s' (entries Q.rhs) (Start.opening Q.rhs z).lift run = .ok phase run₂) :
    (∃ step', phase = .stopped .negativeCurvature step') ∧ ∃ v v' : ℝ,
      run₁.figures.objective = .real v ∧ run₂.figures.objective = .real v' ∧ v' ≤ v := by
  rw [first_eq] at h h'
  rw [probe_widen wider] at h'
  obtain ⟨p, mid, probes, h⟩ := bind_eq_ok.mp h
  obtain ⟨p', mid', probes', h'⟩ := bind_eq_ok.mp h'
  rw [probes] at probes'
  cases probes'
  obtain ⟨w, -, rfl, -, hf₁⟩ := probe_lift probes hrun hf
  have hdepart := h
  rw [depart, if_neg (by simp)] at hdepart
  obtain ⟨d, mid', measures, hdepart⟩ := bind_eq_ok.mp hdepart
  have flat : ⟪z, w⟫ ≤ 0 := by
    by_contra curved
    rw [if_neg (by simpa using curved)] at hdepart
    cases hdepart
  have hd := long _ _ _ _ probes measures rfl flat
  obtain ⟨rfl, -, hf₂⟩ := measure_lift (w := w) fits measures
  have hfig := hf₂.trans hf₁
  have measures' := measures
  rw [← measure_widen wider] at measures'
  obtain ⟨-, hv⟩ := depart_lift fits hr flat measures hd hfig h
  obtain ⟨hphase, hv'⟩ := depart_lift fits' (hr.trans_le hρ) flat measures' hd hfig h'
  exact ⟨⟨_, hphase⟩, _, _, congrArg Figures.objective hv, congrArg Figures.objective hv',
    Subproblem.opening_changeAlong_le nonneg flat hr.le hρ hd⟩

variable {m k : ℕ} {run₀ run run' : Run Exact (Euclidean Exact) H P C}
  {stop stop' : Stop (List Exact)}

theorem Ends.objective_le_self (ends : Ends s (entries Q.rhs) m run₀ k stop run) (fits : Q.Fits s)
    (hcap : Q.cap = min m n) (begins : run₀.Begins Q) :
    run.figures.objective ≤ run.figures.objective := by
  obtain ⟨x, f, -, -, hf⟩ := ends.exists_ends fits hcap begins
  rw [hf]
  exact le_refl f.objective

/-- A solve that is cut off goes on with a wider radius, and no worse: the pass goes further, up to
its full step. -/
theorem CutOff.objective_le (cut : CutOff s (entries Q.rhs) m run₀ k stop run) (fits : Q.Fits s)
    (fits' : (Q.within ρ).Fits s') (widens : s.Wider s') (hr : 0 < Q.radius) (hρ : Q.radius ≤ ρ)
    (hcap : Q.cap = min m n) (begins : run₀.Begins Q)
    (go : iterate s' (entries Q.rhs) m run₀ = .ok stop' run') :
    run'.figures.objective ≤ run.figures.objective := by
  obtain ⟨pass, crosses, truncates⟩ := cut
  rw [(pass.widen widens).iterate_eq, iterationCap_entries, ← hcap] at go
  obtain ⟨it, q, reach, rfl, hrun, hf⟩ := pass.exists_reaches fits hcap begins
  obtain ⟨-, crosses⟩ := (Iterate.crosses_lift fits reach.curvature_pos.ne').mp crosses
  obtain ⟨-, hfig⟩ := truncate_lift fits truncates reach hr crosses hf
  have reach' := reach.widen hr hρ
  obtain ⟨v, hv, hgain⟩ := reach'.objective_le fits' _ hrun hf rfl go
  have further := reach.boundaryLength_le_passLength hr hρ crosses
  have change := Iterate.changeAlong_le_of_le_fullLength reach.curvature_pos further
    reach'.passLength_mem.2
  rw [hv, hfig]
  exact hgain.trans (add_le_add_right change q)

theorem Ends.opening_objective_le (ends : Ends s (entries Q.rhs) m run₀ 0 stop run)
    (uncut : ¬ CutOff s (entries Q.rhs) m run₀ 0 stop run)
    (direct : ¬ TakesGradient s (entries Q.rhs) run₀) (fits : Q.Fits s)
    (fits' : (Q.within ρ).Fits s') (widens : s.Wider s') (hr : 0 < Q.radius) (hρ : Q.radius ≤ ρ)
    (begins : run₀.Begins Q) (go : iterate s' (entries Q.rhs) m run₀ = .ok stop' run') :
    run'.figures.objective ≤ run.figures.objective := by
  cases ends with
  | badPreconditioner starts infinite =>
    exact absurd (.preconditioner starts (.inl infinite)) direct
  | indefinitePreconditioner starts _ neg =>
    exact absurd (.preconditioner starts (.inr neg)) direct
  | boundary pass crosses truncates => exact absurd (.boundary pass crosses truncates) uncut
  | first starts finite nonneg stops =>
    have long := long_of_not_takesGradient direct starts finite nonneg (fits.isConstrained.mpr hr)
    rw [iterate, bind_of_ok (dimension_apply _ _), bind_of_ok starts, if_neg (by simp [finite]),
      if_neg nonneg] at go
    obtain ⟨phase, run₂, hfirst, go⟩ := bind_eq_ok.mp go
    obtain ⟨z, hz, rfl, hrun₁, hf₁⟩ := start_lift starts begins
    obtain ⟨⟨step', rfl⟩, v, v', hv, hv', hle⟩ := first_objective_le fits fits' widens hr hρ
      (not_lt.mp nonneg) hrun₁ (hf₁.trans begins.figures) long stops hfirst
    cases go
    rw [hv, hv']
    exact hle

end First

section

variable {n : ℕ} {H P C : Type} [ActsOn (List Exact) H] [ActsOn (List Exact) P]
  [ConvergenceTest Exact C] {solver wider : Solver Exact}
  {cs : Collaborators (Euclidean Exact) H P C} {b : RealVector n} {m m' : ℕ} {radius : Exact}
  {solution solution' : Solution Exact (List Exact)}

omit [ActsOn (List Exact) H] [ActsOn (List Exact) P] [ConvergenceTest Exact C] in
theorem Settings.wider_of_le {s : Settings Exact} (hr : 0 < s.radius) (hle : s.radius ≤ radius) :
    s.Wider { s with radius } := by
  cases hs : s.radius with
  | undefined => cases hs ▸ hr
  | real ρ =>
    cases radius with
    | undefined => cases hs ▸ hle
    | real ρ' =>
      rw [hs] at hr hle
      have hr : 0 < ρ := hr
      have hle : ρ ≤ ρ' := hle
      refine ⟨rfl, rfl, fun x h => ?_⟩
      cases x with
      | undefined => cases h.2
      | real y =>
        have hy : ρ' * ρ' ≤ y := h.2
        refine ⟨by simpa [isConstrained, hs] using hr, ?_⟩
        have hsq : ρ * ρ ≤ y := (mul_self_le_mul_self hr.le hle).trans hy
        simpa [radiusSq, hs] using hsq

theorem not_takesGradient_scaling {h p : ℝ} (hh : 0 < h) (hp : 0 < p) (hb : b ≠ 0) (ρ : ℝ)
    (norm : DirectionNorm) :
    ¬ TakesGradient (Solver.plain ρ norm).settings (entries b)
      (Collaborators.scaling h p).begin := by
  refine not_takesGradient_of_curved (Rule.serves_scale h).computes (Rule.serves_scale p).computes
    ?_ ?_
  · exact (inner_smul_self_pos hp b hb).le
  · exact inner_smul_self_pos hh _ (smul_ne_zero hp.ne' hb)

/-- In exact arithmetic a wider radius never worsens the reported objective, whatever the
collaborators and the convergence test answer: a solve that does not fall back to the gradient asks
the test what it would ask first with the wider radius, and would then come to an objective that is
no greater. -/
theorem solve_objective_le_of_radius (hr : 0 < solver.settings.radius)
    (hle : solver.settings.radius ≤ radius) (hwider : solver.setRadius radius = .ok wider)
    (hH : StaysReal n cs.operator) (hP : StaysReal n cs.preconditioner)
    (direct : ¬ TakesGradient solver.settings (entries b) cs.begin)
    (h : (solver.solve cs (entries b) m).result = .ok solution)
    (h' : (wider.solve cs (entries b) m).result = .ok solution') :
    Event.evaluations (solver.solve cs (entries b) m).events <+:
        Event.evaluations (wider.solve cs (entries b) m).events ∧
      solution'.objective ≤ solution.objective := by
  obtain rfl := Solver.eq_of_setRadius hwider
  have widens : solver.settings.Wider { solver.settings with radius } :=
    Settings.wider_of_le hr hle
  obtain ⟨valid, k, stop, run, ends, -, -, -, hobj, -⟩ := Solver.solve_eq_ok h
  obtain ⟨valid', k', stop', run', ends', -, -, -, hobj', -⟩ := Solver.solve_eq_ok h'
  refine ⟨Solver.evaluations_prefix valid valid' (behind_iterate widens m cs.begin), ?_⟩
  let Q := solver.settings.subproblem b m (fun _ _ => True) fun _ _ => True
  have fits : Q.Fits solver.settings := Settings.subproblem_fits valid
  have fits' : (Q.within radius.toReal).Fits { solver.settings with radius } :=
    Settings.subproblem_fits valid'
  have hrQ : 0 < Q.radius := by rwa [fits.radius] at hr
  have hleQ : Q.radius ≤ radius.toReal := by
    have hradius : radius = .real radius.toReal := fits'.radius
    rwa [fits.radius, hradius] at hle
  have obeys : cs.begin.Obeys Q.Acts Q.Preconditions := ⟨hH.answers, hP.answers⟩
  have begins : cs.begin.Begins Q := obeys.begins rfl
  rw [hobj, hobj']
  have go : iterate { solver.settings with radius } (entries b) m cs.begin = .ok stop' run' :=
    ends'.iterate_eq
  by_cases cut : CutOff solver.settings (entries b) m cs.begin k stop run
  · exact cut.objective_le fits fits' widens hrQ hleQ rfl begins go
  · rcases k with _ | k
    · exact ends.opening_objective_le cut direct fits fits' widens hrQ hleQ begins go
    · have same := ends.widen widens (Nat.succ_le_succ k.zero_le) cut
      rw [same.iterate_eq] at go
      cases go
      exact ends.objective_le_self fits rfl begins

/-- The equation `s = b` within two radii that both cut off its solution. -/
theorem solve_objective_le_of_radius_scaling :
    ∃ wider solution solution', (Solver.plain 1 .preconditioned).setRadius (.real 2) = .ok wider ∧
      ((Solver.plain 1 .preconditioned).solve (.scaling 1 1) (entries !₂[3, 4]) 5).result =
        .ok solution ∧
      (wider.solve (.scaling 1 1) (entries !₂[3, 4]) 5).result = .ok solution' ∧
      solution'.objective ≤ solution.objective := by
  have hwider : (Solver.plain 1 .preconditioned).setRadius (.real 2) =
      .ok (Solver.plain 2 .preconditioned) := by
    have admissible : ¬ (2 : ℝ) < 0 := by norm_num
    simp [Solver.setRadius, Settings.checkRadius, admissible, Except.map, Solver.plain]
  obtain ⟨solution, h⟩ :=
    Solver.solve_scaling zero_le_one .preconditioned 1 1 (!₂[3, 4] : RealVector 2) 5
  obtain ⟨solution', h'⟩ :=
    Solver.solve_scaling zero_le_two .preconditioned 1 1 (!₂[3, 4] : RealVector 2) 5
  have direct := not_takesGradient_scaling one_pos one_pos three_four_ne_zero 1 .preconditioned
  have compared := solve_objective_le_of_radius (Exact.real_lt.mpr zero_lt_one)
    (Exact.real_le.mpr one_le_two) hwider (Rule.serves_scale 1).computes.staysReal
    (Rule.serves_scale 1).computes.staysReal direct h h'
  exact ⟨_, solution, solution', hwider, h, h', compared.2⟩

/-- In exact arithmetic a greater limit never worsens the reported objective. -/
theorem solve_objective_le_of_cap (hm : m ≤ m') (hH : StaysReal n cs.operator)
    (hP : StaysReal n cs.preconditioner)
    (h : (solver.solve cs (entries b) m).result = .ok solution)
    (h' : (solver.solve cs (entries b) m').result = .ok solution') :
    solution'.objective ≤ solution.objective := by
  obtain ⟨valid, k, stop, run, ends, -, -, -, hobj, -⟩ := Solver.solve_eq_ok h
  obtain ⟨-, k', stop', run', ends', -, -, -, hobj', -⟩ := Solver.solve_eq_ok h'
  let Q := solver.settings.subproblem b m' (fun _ _ => True) fun _ _ => True
  have fits : Q.Fits solver.settings := Settings.subproblem_fits valid
  have obeys : cs.begin.Obeys Q.Acts Q.Preconditions := ⟨hH.answers, hP.answers⟩
  have begins : cs.begin.Begins Q := obeys.begins rfl
  rw [hobj, hobj']
  have go : iterate solver.settings (entries b) m' cs.begin = .ok stop' run' := ends'.iterate_eq
  by_cases exhausted : Exhausted solver.settings (entries b) m cs.begin k stop run
  · obtain ⟨pass, full, reviews⟩ := exhausted
    rw [(pass.raise hm).iterate_eq, iterationCap_entries] at go
    obtain ⟨it, q, reach, rfl, hrun, hf⟩ := (pass.raise hm).exists_reaches fits rfl begins
    obtain ⟨inside, z, -, rfl, -, hf₂, -⟩ := full.reviewed_lift fits reviews reach hrun hf
    obtain ⟨v, hv, hgain⟩ := reach.objective_le fits _ hrun hf rfl go
    rw [reach.change_of_inside inside, ← sub_eq_add_neg] at hgain
    rw [hv, Run.log_figures, hf₂]
    exact hgain
  · have same := ends.raise hm exhausted
    rw [same.iterate_eq] at go
    cases go
    exact same.objective_le_self fits rfl begins

end

/-- The iteration limit cuts a solve short and does nothing else, whatever the arithmetic and the
collaborators; in exact arithmetic a greater one never worsens the reported objective. -/
theorem solve_cut_by_cap :
    (∀ {T V S H P C : Type} [Scalar T] [VectorSpace T V S] [ActsOn V H] [ActsOn V P]
      [ConvergenceTest T C] (solver : Solver T) (cs : Collaborators S H P C) (rhs : V),
        solver.CapShortens cs rhs) ∧
    ∀ {n : ℕ} {H P C : Type} [ActsOn (List Exact) H] [ActsOn (List Exact) P]
      [ConvergenceTest Exact C] {solver : Solver Exact}
      {cs : Collaborators (Euclidean Exact) H P C} {b : RealVector n} {m m' : ℕ}
      {solution solution' : Solution Exact (List Exact)}, m ≤ m' →
        StaysReal n cs.operator → StaysReal n cs.preconditioner →
        (solver.solve cs (entries b) m).result = .ok solution →
        (solver.solve cs (entries b) m').result = .ok solution' →
          solution'.objective ≤ solution.objective :=
  ⟨fun solver cs rhs => solver.cap_shortens cs rhs, solve_objective_le_of_cap⟩

theorem solve_cut_by_cap_examples :
    Event.evaluations (Solver.watched.solve Solver.twoEquations [3, 4] 1).events <+:
        Event.evaluations (Solver.watched.solve Solver.twoEquations [3, 4] 5).events ∧
      Solver.watched.solve Solver.brokenOperator [3, 4] 1 =
        Solver.watched.solve Solver.brokenOperator [3, 4] 5 ∧
      ∃ solution solution' : Solution Exact (List Exact),
        ((Solver.plain 0 .preconditioned).solve (.scaling 2 1) (entries !₂[3, 4]) 1).result =
          .ok solution ∧
        ((Solver.plain 0 .preconditioned).solve (.scaling 2 1) (entries !₂[3, 4]) 2).result =
          .ok solution' ∧
        solution'.objective ≤ solution.objective := by
  have twoEquations := solve_cut_by_cap.1 Solver.watched Solver.twoEquations [3, 4]
  have brokenOperator := solve_cut_by_cap.1 Solver.watched Solver.brokenOperator [3, 4]
  have failed : (Solver.watched.solve Solver.brokenOperator [3, 4] 1).result =
      .error (.operatorFailure "no memory") := rfl
  have unlimited : ∀ solution, (Solver.watched.solve Solver.brokenOperator [3, 4] 1).result =
      .ok solution → solution.reason ≠ .iterationLimit := by
    intro solution h
    rw [failed] at h
    cases h
  obtain ⟨solution, h⟩ :=
    Solver.solve_scaling le_rfl .preconditioned 2 1 (!₂[3, 4] : RealVector 2) 1
  obtain ⟨solution', h'⟩ :=
    Solver.solve_scaling le_rfl .preconditioned 2 1 (!₂[3, 4] : RealVector 2) 2
  have compared := solve_cut_by_cap.2 one_le_two (Rule.serves_scale 2).computes.staysReal
    (Rule.serves_scale 1).computes.staysReal h h'
  exact ⟨twoEquations.asked (by norm_num), brokenOperator.same (by norm_num) unlimited, solution,
    solution', h, h', compared⟩

end

end TrustRegion
