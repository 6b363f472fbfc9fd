import TrustRegion.Proofs.Comparison
import TrustRegion.Proofs.Pairing
import TrustRegion.Space.Euclidean

/-! Spaces whose operations are functions of their arguments, and runs over them that are the same
up to the reported norm of the step and to calls that are of no further consequence. -/
namespace TrustRegion

variable {T V S H P C α β γ : Type}

/-- Operations of a space as functions of their arguments alone. -/
structure Operations (T V : Type) where
  dimension : V → Nat
  zerosLike : V → V
  copy : V → V → Written V
  dot : V → V → Except Failure T
  norm : V → Except Failure T
  axpy : T → V → V → Written V
  aypx : T → V → V → Written V

namespace Operations

/-- The space answers as the operations do in each of the states, and remains in them. -/
structure Govern [VectorSpace T V S] (ops : Operations T V) (K : S → Prop) : Prop where
  dimension : ∀ s, K s → ∀ x, VectorSpace.dimension s x = ops.dimension x
  zerosLike : ∀ s, K s → ∀ x, VectorSpace.zerosLike s x = ops.zerosLike x
  copy : ∀ s, K s → ∀ x y, ∃ s', K s' ∧ VectorSpace.copy s x y = (ops.copy x y, s')
  dot : ∀ s, K s → ∀ x y, ∃ s', K s' ∧ VectorSpace.dot s x y = (ops.dot x y, s')
  norm : ∀ s, K s → ∀ x, ∃ s', K s' ∧ VectorSpace.norm s x .two = (ops.norm x, s')
  axpy : ∀ s, K s → ∀ a x y, ∃ s', K s' ∧ VectorSpace.axpy s a x y = (ops.axpy a x y, s')
  aypx : ∀ s, K s → ∀ a x y, ∃ s', K s' ∧ VectorSpace.aypx s a x y = (ops.aypx a x y, s')

/-- Norms exist, and so do the products of vectors that have been built from a common one. -/
structure Measures (ops : Operations T V) : Prop where
  norm : ∀ x, ∃ t, ops.norm x = .ok t
  square : ∀ x, ∃ t, ops.dot x x = .ok t
  product : ∀ a b p d z, (ops.axpy a p d).failure? = none → (ops.aypx b z p).failure? = none →
    ∃ t, ops.dot (ops.axpy a p d).content (ops.aypx b z p).content = .ok t

end Operations

/-- A space whose operations are functions of their arguments, among which norms exist. -/
def Steady [VectorSpace T V S] (s : S) : Prop :=
  ∃ (ops : Operations T V) (K : S → Prop), ops.Govern K ∧ ops.Measures ∧ K s

section Euclidean

variable [Scalar T]

def Euclidean.operations : Operations T (List T) where
  dimension := List.length
  zerosLike x := Dense.zeros x.length
  copy := Euclidean.copy
  dot := Euclidean.dot
  norm x := .ok (Dense.norm x .two)
  axpy := Euclidean.axpy
  aypx := Euclidean.aypx

omit [Scalar T] in
theorem length_of_sameLength {x y content : List T} (h : (sameLength x y content).failure? = none) :
    x.length = y.length ∧ (sameLength x y content).content = content := by
  unfold sameLength at h ⊢
  split at h
  · next hl => exact ⟨hl, by rw [if_pos hl]⟩
  · cases h

theorem Euclidean.measures : (Euclidean.operations : Operations T (List T)).Measures where
  norm x := ⟨_, rfl⟩
  square x := ⟨Dense.dot x x, if_pos rfl⟩
  product a b p d z stepped turned := by
    obtain ⟨hpd, hstep⟩ := length_of_sameLength stepped
    obtain ⟨hzp, hturn⟩ := length_of_sameLength turned
    refine ⟨_, if_pos ?_⟩
    show (Euclidean.axpy a p d).content.length = (Euclidean.aypx b z p).content.length
    rw [Euclidean.axpy, hstep, Euclidean.aypx, hturn, Dense.length_combine _ _ _ _ hpd,
      Dense.length_combine _ _ _ _ hzp, hpd]

theorem Euclidean.steady (s : Euclidean T) : Steady s := by
  refine ⟨Euclidean.operations, fun _ => True, ?_, Euclidean.measures, trivial⟩
  constructor
  case dimension => exact fun _ _ _ => rfl
  case zerosLike => exact fun _ _ _ => rfl
  all_goals
    intros
    exact ⟨_, trivial, rfl⟩

end Euclidean

/-- A question to the convergence test with its answer, where of the norm there is only to be seen
what the function shows. -/
def Event.seenThrough (seen : T → γ) : Nat × T × Verdict → Nat × γ × Verdict
  | (iteration, norm, verdict) => (iteration, seen norm, verdict)

theorem Event.map_seenThrough_id (asked : List (Nat × T × Verdict)) :
    asked.map (Event.seenThrough id) = asked :=
  List.map_id asked

/-- Two runs over a space in one of the states, whose tests stand in the relation, and which are
otherwise the same up to the reported norm of the step, the calls of the space, the notes and what
is not seen of the residual norms. -/
structure Run.Alike (K : S → Prop) (J : C → C → Prop) (seen : T → γ) (run run' : Run T S H P C) :
    Prop where
  space : K run.space
  space' : K run'.space
  operator : run.operator = run'.operator
  preconditioner : run.preconditioner = run'.preconditioner
  test : J run.test run'.test
  objective : run.figures.objective = run'.figures.objective
  iterations : run.figures.iterations = run'.figures.iterations
  verdicts : run.verdicts.map (Event.seenThrough seen) =
    run'.verdicts.map (Event.seenThrough seen)

namespace Run

variable {K : S → Prop} {J : C → C → Prop} {seen : T → γ} {run run' mid mid' : Run T S H P C}

theorem Alike.refl (hK : K run.space) (hJ : J run.test run.test) : run.Alike K J seen run :=
  ⟨hK, hK, rfl, rfl, hJ, rfl, rfl, rfl⟩

theorem Alike.congr (h : run.Alike K J seen run') (hm : run.Alike K Eq id mid)
    (hm' : run'.Alike K Eq id mid') : mid.Alike K J seen mid' where
  space := hm.space'
  space' := hm'.space'
  operator := hm.operator.symm.trans (h.operator.trans hm'.operator)
  preconditioner := hm.preconditioner.symm.trans (h.preconditioner.trans hm'.preconditioner)
  test := by
    rw [← hm.test, ← hm'.test]
    exact h.test
  objective := hm.objective.symm.trans (h.objective.trans hm'.objective)
  iterations := hm.iterations.symm.trans (h.iterations.trans hm'.iterations)
  verdicts := by
    have heq := hm.verdicts
    have heq' := hm'.verdicts
    rw [Event.map_seenThrough_id, Event.map_seenThrough_id] at heq heq'
    rw [← heq, ← heq']
    exact h.verdicts

theorem verdicts_log {e : Event T} (quiet : Event.evaluations [e] = []) :
    (run.log e).verdicts = run.verdicts := by
  rw [Run.verdicts, log_latest, ← List.singleton_append, Event.evaluations_append, quiet]
  rfl

theorem Alike.log (h : run.Alike K J seen run') {e e' : Event T}
    (quiet : Event.evaluations [e] = []) (quiet' : Event.evaluations [e'] = []) :
    (run.log e).Alike K J seen (run'.log e') where
  space := h.space
  space' := h.space'
  operator := h.operator
  preconditioner := h.preconditioner
  test := h.test
  objective := h.objective
  iterations := h.iterations
  verdicts := by
    rw [verdicts_log quiet, verdicts_log quiet']
    exact h.verdicts

theorem Alike.after (h : run.Alike K J seen run') {s : S} (hs : K s) {e : Event T}
    (quiet : Event.evaluations [e] = []) :
    run.Alike K J seen (Run.log { run' with space := s } e) :=
  { h with
    space' := hs
    verdicts := h.verdicts.trans (congrArg _ (verdicts_log quiet).symm) }

theorem Alike.withSpace (h : run.Alike K J seen run') {s s' : S} (hs : K s) (hs' : K s') :
    Run.Alike K J seen { run with space := s } { run' with space := s' } :=
  { h with space := hs, space' := hs' }

theorem Alike.withStepNorm (h : run.Alike K J seen run') (x x' : T) :
    Run.Alike K J seen { run with figures.stepNorm := x } { run' with figures.stepNorm := x' } :=
  { h with }

theorem Alike.ofWritten (h : run.Alike K J seen run') (callee : Callee) (written : Written V) :
    Joined (Alike K J seen) Eq (run.ofWritten callee written) (run'.ofWritten callee written) := by
  unfold Run.ofWritten
  split
  · exact ⟨rfl, h.log rfl rfl⟩
  · exact ⟨rfl, h.log rfl rfl⟩

theorem Alike.ofAnswer (h : run.Alike K J seen run') (callee : Callee) (answer : Except Failure T) :
    Joined (Alike K J seen) Eq (run.ofAnswer callee answer) (run'.ofAnswer callee answer) := by
  cases answer with
  | ok number => exact ⟨rfl, h.log rfl rfl⟩
  | error failure => exact ⟨rfl, h.log rfl rfl⟩

end Run

namespace RunM

open Run

variable {K : S → Prop} {J : C → C → Prop} {seen : T → γ} {m m' : RunM T S H P C α}
  {run run' mid : Run T S H P C}

/-- Computations of no consequence of their own may differ from run to run. -/
theorem joined_of_meets (h : run.Alike K J seen run')
    (hm : m.Meets run fun _ mid => run.Alike K Eq id mid)
    (hm' : m'.Meets run' fun _ mid => run'.Alike K Eq id mid) :
    Joined (Alike K J seen) (fun _ _ => True) (m run) (m' run') := by
  obtain ⟨a, mid, hrun, hmid⟩ := hm
  obtain ⟨a', mid', hrun', hmid'⟩ := hm'
  rw [hrun, hrun']
  exact ⟨trivial, h.congr hmid hmid'⟩

variable [VectorSpace T V S] {ops : Operations T V} {x y : V}

omit [VectorSpace T V S] in
theorem keeps_written (callee : Callee) {call : S → Written V × S} {written : Written V}
    (hcall : ∀ s, K s → ∃ s', K s' ∧ call s = (written, s')) :
    Keeps (Alike K J seen) fun run : Run T S H P C =>
      Run.ofWritten callee (call run.space).1 { run with space := (call run.space).2 } := by
  intro run run' h
  obtain ⟨s, hs, hrun⟩ := hcall _ h.space
  obtain ⟨s', hs', hrun'⟩ := hcall _ h.space'
  simp only [hrun, hrun']
  exact (h.withSpace hs hs').ofWritten callee written

theorem keeps_answer (callee : Callee) {call : S → Except Failure T × S} {answer : Except Failure T}
    (hcall : ∀ s, K s → ∃ s', K s' ∧ call s = (answer, s')) :
    Keeps (Alike K J seen) fun run : Run T S H P C =>
      Run.ofAnswer callee (call run.space).1 { run with space := (call run.space).2 } := by
  intro run run' h
  obtain ⟨s, hs, hrun⟩ := hcall _ h.space
  obtain ⟨s', hs', hrun'⟩ := hcall _ h.space'
  simp only [hrun, hrun']
  exact (h.withSpace hs hs').ofAnswer callee answer

theorem meets_answer (callee : Callee) (call : S → Except Failure T × S) {t : T}
    (hcall : ∀ s, K s → ∃ s', K s' ∧ call s = (.ok t, s')) (h : run.Alike K Eq id mid) :
    Meets (fun run => Run.ofAnswer callee (call run.space).1
      { run with space := (call run.space).2 }) mid fun _ mid' => run.Alike K Eq id mid' := by
  obtain ⟨s, hs, hmid⟩ := hcall _ h.space'
  refine ⟨t, Run.log { mid with space := s } (.called callee none), ?_, ?_⟩
  · simp only [hmid]
    rfl
  · exact h.after hs rfl

theorem meets_dot (governs : ops.Govern K) {t : T} (hdot : ops.dot x y = .ok t)
    (h : run.Alike K Eq id mid) :
    (dot x y : RunM T S H P C T).Meets mid fun _ mid' => run.Alike K Eq id mid' :=
  meets_answer _ (VectorSpace.dot · x y) (fun s hs => hdot ▸ governs.dot s hs x y) h

theorem meets_norm (governs : ops.Govern K) {t : T} (hnorm : ops.norm x = .ok t)
    (h : run.Alike K Eq id mid) :
    (norm x : RunM T S H P C T).Meets mid fun _ mid' => run.Alike K Eq id mid' :=
  meets_answer _ (VectorSpace.norm · x .two) (fun s hs => hnorm ▸ governs.norm s hs x) h

variable [ActsOn V H] [ActsOn V P]

theorem Silent.keeps (governs : ops.Govern K) (h : m.Silent) : m.Keeps (Alike K J seen) := by
  induction h with
  | pure a => exact fun run run' h => ⟨rfl, h⟩
  | bind _ _ hm hk => exact hm.bind hk
  | dimension x =>
    intro run run' h
    refine ⟨?_, h⟩
    rw [governs.dimension _ h.space, governs.dimension _ h.space']
  | zerosLike x =>
    intro run run' h
    refine ⟨?_, h⟩
    rw [governs.zerosLike _ h.space, governs.zerosLike _ h.space']
  | copy x y => exact keeps_written _ fun s hs => governs.copy s hs x y
  | axpy a x y => exact keeps_written _ fun s hs => governs.axpy s hs a x y
  | aypx a x y => exact keeps_written _ fun s hs => governs.aypx s hs a x y
  | dot x y => exact keeps_answer _ fun s hs => governs.dot s hs x y
  | norm x => exact keeps_answer _ fun s hs => governs.norm s hs x
  | operate x y =>
    intro run run' h
    simp only [RunM.operate, h.operator]
    refine Alike.ofWritten ?_ .operator _
    exact { h with operator := rfl }
  | precondition r z =>
    intro run run' h
    simp only [RunM.precondition, h.preconditioner]
    refine Alike.ofWritten ?_ .preconditioner _
    exact { h with preconditioner := rfl }
  | note n => exact fun run run' h => ⟨rfl, h.log rfl rfl⟩
  | iterations => exact fun run run' h => ⟨h.iterations, h⟩
  | countIteration =>
    exact fun run run' h => ⟨rfl, { h with iterations := congrArg (· + 1) h.iterations }⟩
  | setStepNorm x => exact fun run run' h => ⟨rfl, h.withStepNorm x x⟩
  | mapObjective f => exact fun run run' h => ⟨rfl, { h with objective := congrArg f h.objective }⟩

end RunM

end TrustRegion
