import TrustRegion.Proofs.Observers

/-! The books of a solve, in every arithmetic: its iterations, the applications of the operator and
of the preconditioner, and the iterations that the convergence test is asked about. -/
namespace TrustRegion

variable {T V S H P C α β : Type}

namespace Event

theorem callCount_append (callee : Callee) (events later : List (Event T)) :
    callCount callee (events ++ later) = callCount callee events + callCount callee later := by
  rw [callCount, calls, List.filterMap_append, List.countP_append]
  rfl

end Event

/-- The books of a solve that has come so far. -/
structure Ledger where
  iterations : Nat
  operator : Nat
  preconditioner : Nat
  asked : List Nat

namespace Ledger

def ofEvents (iterations : Nat) (events : List (Event T)) : Ledger where
  iterations
  operator := Event.callCount .operator events
  preconditioner := Event.callCount .preconditioner events
  asked := (Event.evaluations events).map (·.1)

def empty : Ledger := ⟨0, 0, 0, []⟩

def operate (l : Ledger) : Ledger := { l with operator := l.operator + 1 }

def precondition (l : Ledger) : Ledger := { l with preconditioner := l.preconditioner + 1 }

def count (l : Ledger) : Ledger := { l with iterations := l.iterations + 1 }

def ask (l : Ledger) (iteration : Nat) : Ledger := { l with asked := l.asked ++ [iteration] }

/-- The operator is applied once, which counts as an iteration. -/
def work (l : Ledger) : Ledger := l.operate.count

/-- A gradient step is work, unless there is no radius. -/
def fallBack [Scalar T] (s : Settings T) (l : Ledger) : Ledger :=
  if s.radius == 0 then l else l.work

/-- The books at a pass after `k` full steps. -/
def ofPass (k : Nat) : Ledger := ⟨k + 1, k + 1, k + 1, List.range (k + 1)⟩

def enter (l : Ledger) : Event T → Ledger
  | .called .operator _ => l.operate
  | .called .preconditioner _ => l.precondition
  | .evaluated iteration _ _ _ => l.ask iteration
  | _ => l

theorem ofEvents_concat (i : Nat) (events : List (Event T)) (event : Event T) :
    ofEvents i (events ++ [event]) = (ofEvents i events).enter event := by
  unfold ofEvents
  rw [Event.callCount_append, Event.callCount_append, Event.evaluations_append, List.map_append]
  cases event with
  | called callee => cases callee <;> simp [enter, operate, precondition, Event.callCount,
      Event.calls, Event.evaluations]
  | _ => simp [enter, ask, Event.callCount, Event.calls, Event.evaluations]

theorem ask_ofPass (k : Nat) : (ofPass k).precondition.ask (k + 1) =
    ⟨k + 1, k + 1, k + 2, List.range (k + 2)⟩ := by
  rw [List.range_succ]
  rfl

theorem work_ofPass (k : Nat) : ((ofPass k).precondition.ask (k + 1)).work = ofPass (k + 1) := by
  rw [ask_ofPass]
  rfl

end Ledger

def Run.ledger (run : Run T S H P C) : Ledger :=
  .ofEvents run.figures.iterations run.latest.reverse

theorem Run.ledger_log (run : Run T S H P C) (event : Event T) :
    (run.log event).ledger = run.ledger.enter event := by
  rw [ledger, log_latest, List.reverse_cons, Ledger.ofEvents_concat]
  rfl

namespace RunM

/-- A computation that finds the books as `before` and, if it succeeds, leaves them so. -/
def Books (before : Ledger) (m : RunM T S H P C α) (after : α → Ledger → Prop) : Prop :=
  ∀ ⦃run a run'⦄, run.ledger = before → m run = .ok a run' → after a run'.ledger

variable {l l' : Ledger} {m : RunM T S H P C α} {k : α → RunM T S H P C β}
  {after : α → Ledger → Prop} {after' : β → Ledger → Prop}

theorem Books.bind (hm : m.Books l after) (hk : ∀ a l', after a l' → (k a).Books l' after') :
    (m >>= k).Books l after' := by
  intro run b run' hl h
  obtain ⟨a, mid, hrun, hrest⟩ := bind_eq_ok.mp h
  exact hk a _ (hm hl hrun) rfl hrest

abbrev Posts (before after : Ledger) (m : RunM T S H P C α) : Prop :=
  m.Books before fun _ l => l = after

theorem Posts.bind (hm : m.Posts l l') (hk : ∀ a, (k a).Books l' after') :
    (m >>= k).Books l after' :=
  Books.bind hm fun a _ h => h ▸ hk a

theorem books_pure {a : α} (h : after a l) : (pure a : RunM T S H P C α).Books l after := by
  rintro run a' run' rfl hrun
  cases hrun
  exact h

theorem posts_note {n : Note T} : (note n : RunM T S H P C Unit).Posts l l := by
  rintro run a run' rfl h
  cases h
  exact run.ledger_log _

theorem books_iterations : (iterations : RunM T S H P C Nat).Books l fun i l' =>
    i = l.iterations ∧ l' = l := by
  rintro run a run' rfl h
  cases h
  exact ⟨rfl, rfl⟩

theorem posts_countIteration : (countIteration : RunM T S H P C Unit).Posts l l.count := by
  rintro run a run' rfl h
  cases h
  rfl

theorem posts_setStepNorm {x : T} : (setStepNorm x : RunM T S H P C Unit).Posts l l := by
  rintro run a run' rfl h
  cases h
  rfl

theorem posts_mapObjective {g : T → T} : (mapObjective g : RunM T S H P C Unit).Posts l l := by
  rintro run a run' rfl h
  cases h
  rfl

section Space

variable [VectorSpace T V S] {a : T} {x y : V}

theorem posts_zerosLike : (zerosLike x : RunM T S H P C V).Posts l l := by
  rintro run a run' rfl h
  cases h
  rfl

theorem posts_copy : (copy x y : RunM T S H P C V).Posts l l := by
  rintro run v run' rfl h
  rw [Run.eq_of_ofWritten h, Run.ledger_log]
  rfl

theorem posts_dot : (dot x y : RunM T S H P C T).Posts l l := by
  rintro run v run' rfl h
  rw [Run.eq_of_ofAnswer h, Run.ledger_log]
  rfl

theorem posts_norm : (norm x : RunM T S H P C T).Posts l l := by
  rintro run v run' rfl h
  rw [Run.eq_of_ofAnswer h, Run.ledger_log]
  rfl

theorem posts_axpy : (axpy a x y : RunM T S H P C V).Posts l l := by
  rintro run v run' rfl h
  rw [Run.eq_of_ofWritten h, Run.ledger_log]
  rfl

theorem posts_aypx : (aypx a x y : RunM T S H P C V).Posts l l := by
  rintro run v run' rfl h
  rw [Run.eq_of_ofWritten h, Run.ledger_log]
  rfl

end Space

theorem posts_operate [ActsOn V H] {x y : V} :
    (operate x y : RunM T S H P C V).Posts l l.operate := by
  rintro run v run' rfl h
  rw [Run.eq_of_ofWritten h, Run.ledger_log]
  rfl

theorem posts_precondition [ActsOn V P] {x y : V} :
    (precondition x y : RunM T S H P C V).Posts l l.precondition := by
  rintro run v run' rfl h
  rw [Run.eq_of_ofWritten h, Run.ledger_log]
  rfl

theorem posts_judge [ConvergenceTest T C] {i : Nat} {x : T} :
    (judge i x : RunM T S H P C Verdict).Posts l (l.ask i) := by
  rintro run v run' rfl h
  obtain ⟨_, _, ⟨⟩, ⟨⟩⟩ := bind_eq_ok.mp h
  rw [Run.ledger_log]
  exact congrArg (Ledger.ask · i) (run.ledger_log (.residual i x))

end RunM

open RunM

section Phases

variable [Scalar T] [VectorSpace T V S] {s : Settings T} {rhs : V} {l : Ledger}

theorem posts_start [ActsOn V P] :
    (start rhs : RunM T S H P C (Start T V)).Posts l l.precondition := by
  refine posts_zerosLike.bind fun _ => posts_copy.bind fun _ => posts_dot.bind fun _ => ?_
  split
  · exact posts_precondition.bind fun _ => posts_dot.bind fun _ => books_pure rfl
  · rintro run b run' - ⟨⟩

theorem posts_gradientStep [ActsOn V H] {rr : T} {step scratch : V} :
    (gradientStep s rhs rr step scratch : RunM T S H P C V).Posts l (l.fallBack s) := by
  unfold gradientStep Ledger.fallBack
  split
  · exact books_pure rfl
  · exact posts_setStepNorm.bind fun _ => posts_axpy.bind fun _ => posts_operate.bind fun _ =>
      posts_aypx.bind fun _ => posts_dot.bind fun _ => posts_mapObjective.bind fun _ =>
      posts_countIteration.bind fun _ => books_pure rfl

theorem posts_boundaryStep {tau curvature rz : T} {direction step : V} :
    (boundaryStep s tau curvature rz direction step : RunM T S H P C V).Posts l l :=
  posts_setStepNorm.bind fun _ => posts_axpy.bind fun _ =>
    posts_mapObjective.bind fun _ => books_pure rfl

theorem posts_residualNorm {r z : V} {rz : T} {known? : Option T} :
    (residualNorm s r z rz known? : RunM T S H P C T).Posts l l := by
  unfold residualNorm
  split
  · exact posts_norm
  · split
    · exact books_pure rfl
    · exact posts_norm
  · exact books_pure rfl

theorem posts_truncate {it : Iterate T V} :
    (truncate s it : RunM T S H P C V).Posts l l := by
  refine posts_note.bind fun _ => ?_
  split
  · exact posts_boundaryStep
  · exact books_pure rfl

theorem posts_advance [ActsOn V P] {it : Iterate T V} :
    (advance s it : RunM T S H P C (Iterate T V)).Posts l l.precondition := by
  refine posts_axpy.bind fun _ => posts_axpy.bind fun _ => posts_precondition.bind fun _ => ?_
  cases s.directionNorm
  case' preconditioned => refine Posts.bind (books_pure rfl) fun _ => ?_
  case' unpreconditioned => refine posts_dot.bind fun _ => ?_
  all_goals
    exact posts_setStepNorm.bind fun _ => posts_mapObjective.bind fun _ =>
      posts_dot.bind fun _ => books_pure rfl

/-- Leaving along the first direction is work only where the gradient takes its place. -/
theorem books_leave [ActsOn V H] {rr : T} {it : Iterate T V} :
    (leave s rhs rr it : RunM T S H P C V).Books l fun _ l' =>
      l' = l ∨ s.isConstrained = true ∧ l' = l.fallBack s := by
  unfold leave
  by_cases constrained : s.isConstrained = true
  · rw [if_pos constrained]
    split
    · exact fun run a run' hl h => .inl (posts_boundaryStep hl h)
    · exact fun run a run' hl h => .inr ⟨constrained, posts_gradientStep hl h⟩
  · rw [if_neg constrained]
    exact books_pure (.inl rfl)

/-- The books after a first phase that began with `l`. -/
def Ledger.AfterFirst (s : Settings T) (l : Ledger) : Phase V (Iterate T V) → Ledger → Prop
  | .going _, l' => l' = (l.ask 0).work
  | .stopped .badOperator _, l' => l' = (l.ask 0).work.fallBack s
  | .stopped .negativeCurvature _, l' =>
    l' = (l.ask 0).work ∨ s.isConstrained = true ∧ l' = (l.ask 0).work.fallBack s
  | .stopped _ _, _ => False

theorem books_first [ActsOn V H] [ConvergenceTest T C] {b : Start T V} :
    (first s rhs b : RunM T S H P C (Phase V (Iterate T V))).Books l (l.AfterFirst s) := by
  refine posts_residualNorm.bind fun _ => posts_judge.bind fun _ => posts_note.bind fun _ =>
    posts_copy.bind fun _ => posts_operate.bind fun _ => posts_countIteration.bind fun _ =>
    posts_dot.bind fun _ => ?_
  split
  · exact posts_note.bind fun _ => posts_gradientStep.bind fun _ => books_pure rfl
  · cases s.directionNorm
    case' preconditioned => refine Posts.bind (books_pure rfl) fun _ => ?_
    case' unpreconditioned => refine posts_dot.bind fun _ => ?_
    all_goals
      split
      · exact posts_note.bind fun _ => books_leave.bind fun _ _ hl => books_pure hl
      · exact books_pure rfl

/-- The books after a review that began with `l`. -/
def Ledger.AfterReview (l : Ledger) : Option Reason → Ledger → Prop
  | some .indefinitePreconditioner, l' => l' = l
  | none, l' | some (.converged _), l' | some (.diverged _), l' | some .breakdown, l' =>
    l' = l.ask l.iterations
  | some _, _ => False

theorem books_review [ConvergenceTest T C] {it next : Iterate T V} :
    (review s it next : RunM T S H P C (Option Reason)).Books l l.AfterReview := by
  unfold review
  split
  · exact posts_note.bind fun _ => books_pure rfl
  · refine posts_residualNorm.bind fun _ => books_iterations.bind ?_
    rintro _ _ ⟨rfl, rfl⟩
    refine posts_judge.bind fun verdict => ?_
    cases verdict with
    | converged => exact posts_note.bind fun _ => books_pure rfl
    | diverged => exact posts_note.bind fun _ => books_pure rfl
    | iterating =>
      refine books_iterations.bind ?_
      rintro _ _ ⟨-, rfl⟩
      refine posts_note.bind fun _ => ?_
      split
      · exact posts_note.bind fun _ => books_pure rfl
      · exact books_pure rfl

/-- A turn is work, whether it hands on or blames the operator. -/
def Ledger.AfterTurn (l : Ledger) : Phase V (Iterate T V) → Ledger → Prop
  | .going _, l' | .stopped .badOperator _, l' | .stopped .negativeCurvature _, l' => l' = l.work
  | .stopped _ _, _ => False

theorem books_turn [ActsOn V H] {it next : Iterate T V} :
    (turn s it next : RunM T S H P C (Phase V (Iterate T V))).Books l l.AfterTurn := by
  refine posts_aypx.bind fun _ => ?_
  cases s.directionNorm
  case' unpreconditioned => refine posts_dot.bind fun _ => posts_dot.bind fun _ => ?_
  all_goals
    refine Posts.bind (books_pure rfl) fun _ => ?_
    refine posts_operate.bind fun _ => posts_dot.bind fun _ => posts_countIteration.bind fun _ => ?_
    split
    · exact posts_note.bind fun _ => books_pure rfl
    · split
      · exact posts_note.bind fun _ => books_pure rfl
      · exact books_pure rfl

end Phases

section Solve

variable [Scalar T] [VectorSpace T V S] [ActsOn V H] [ActsOn V P] [ConvergenceTest T C]
  {s : Settings T} {rhs : V} {m k : Nat} {run₀ run run' : Run T S H P C} {it next : Iterate T V}
  {stop : Stop V}

/-- The preconditioner is found indefinite before there is a direction: the first product of
residual and preconditioned residual is finite and negative. -/
def StartsIndefinite (rhs : V) (run₀ : Run T S H P C) : Prop :=
  ∃ (b : Start T V) (run : Run T S H P C), start rhs run₀ = .ok b run ∧
    Scalar.isFinite b.rz = true ∧ b.rz < 0

omit [ActsOn V H] [ConvergenceTest T C] in
theorem not_startsIndefinite {b : Start T V} (starts : start rhs run₀ = .ok b run)
    (nonneg : ¬ b.rz < 0) : ¬ StartsIndefinite rhs run₀ := by
  rintro ⟨b', run', starts', -, neg⟩
  rw [starts] at starts'
  cases starts'
  exact nonneg neg

theorem ReachesPass.not_startsIndefinite (pass : ReachesPass s rhs m run₀ k it run) :
    ¬ StartsIndefinite rhs run₀ := by
  induction pass with
  | first starts _ nonneg _ => exact TrustRegion.not_startsIndefinite starts nonneg
  | next _ _ _ _ _ ih => exact ih

theorem ReachesPass.lt_cap (pass : ReachesPass s rhs m run₀ k it run) :
    k < max 1 (iterationCap rhs m run₀) := by
  cases pass with
  | first => exact Nat.le_max_left 1 _
  | next _ _ _ below _ => exact Nat.lt_of_lt_of_le below (Nat.le_max_right 1 _)

omit [VectorSpace T V S] [ActsOn V H] [ActsOn V P] [ConvergenceTest T C] in
theorem Run.ledger_enter (run : Run T S H P C) : (run.enter it).ledger = run.ledger :=
  run.ledger_log _

omit [ActsOn V H] [ConvergenceTest T C] in
theorem FullStep.ledger_eq (full : FullStep s it run next run') (h : run.ledger = .ofPass k) :
    run'.ledger = (Ledger.ofPass k).precondition :=
  posts_advance (run.ledger_enter.trans h) full.advances

/-- A pass is reached with the books of its number, whatever the arithmetic. -/
theorem ReachesPass.ledger_eq (pass : ReachesPass s rhs m run₀ k it run)
    (h₀ : run₀.ledger = .empty) : run.ledger = .ofPass k := by
  induction pass with
  | first starts _ _ goes => exact books_first (posts_start h₀ starts) goes
  | next _ full reviews _ turns ih =>
    rw [← Ledger.work_ofPass]
    exact books_turn (books_review (full.ledger_eq ih) reviews) turns

end Solve

/-- What the books come to, reason by reason, where a solve may take `cap` iterations; `indefinite`
tells whether its preconditioner is found indefinite at once. -/
def Ledger.Closes [Scalar T] (s : Settings T) (cap : Nat) (indefinite : Prop) (reason : Reason)
    (l : Ledger) : Prop :=
  let asked := l.asked.length
  let unasked := asked = 0 ∧ l.preconditioner = 1 ∧ l.iterations = if s.radius == 0 then 0 else 1
  let advanced := asked = l.iterations + 1 ∧ l.preconditioner = asked ∧ l.iterations ≤ cap
  let blamed := 1 ≤ asked ∧ l.preconditioner = asked ∧ l.iterations = asked ∧ asked ≤ cap
  let replaced := asked = 1 ∧ l.preconditioner = 1 ∧ l.iterations = 2 ∧ (s.radius == 0) = false
  l.asked = List.range asked ∧ l.operator = l.iterations ∧
  match reason with
  | .badPreconditioner => unasked
  | .indefinitePreconditioner =>
    indefinite ∧ unasked ∨
      ¬ indefinite ∧ 1 ≤ asked ∧ l.preconditioner = asked + 1 ∧ l.iterations = asked ∧ asked ≤ cap
  | .converged _ | .diverged _ | .breakdown => advanced
  | .iterationLimit => advanced ∧ l.iterations = cap
  | .constrainedStep => blamed
  | .negativeCurvature => blamed ∨ replaced ∧ s.isConstrained = true
  | .badOperator => blamed ∧ (asked = 1 → s.radius == 0) ∨ replaced

namespace Ledger

variable [Scalar T] {s : Settings T} {l : Ledger} {cap k : Nat} {indefinite : Prop}
  {reason : Reason}

theorem closes_unasked (h : reason = .badPreconditioner ∨
    reason = .indefinitePreconditioner ∧ indefinite) :
    (empty.precondition.fallBack s).Closes s cap indefinite reason := by
  have fallen : empty.precondition.fallBack s =
      if s.radius == 0 then ⟨0, 0, 1, []⟩ else ⟨1, 1, 1, []⟩ := rfl
  obtain rfl | ⟨rfl, hindefinite⟩ := h
  · cases hs : s.radius == 0 <;> simp [fallen, hs, Closes]
  · cases hs : s.radius == 0 <;> simp [fallen, hs, Closes, hindefinite]

theorem closes_first (positive : 1 ≤ cap) {step : V}
    (h : empty.precondition.AfterFirst s (.stopped reason step) l) :
    l.Closes s cap indefinite reason := by
  have fallen : (empty.precondition.ask 0).work.fallBack s =
      if s.radius == 0 then ⟨1, 1, 1, [0]⟩ else ⟨2, 2, 1, [0]⟩ := rfl
  cases reason with
  | badOperator =>
    have hl := h.trans fallen
    cases hs : s.radius == 0 <;> simp [hl, hs, Closes, positive]
  | negativeCurvature =>
    obtain rfl | ⟨constrained, h⟩ := h
    · simp [Closes, positive, empty, precondition, ask, work, operate, count]
    · have hl := h.trans fallen
      cases hs : s.radius == 0 <;> simp [hl, hs, Closes, positive, constrained]
  | _ => exact h.elim

theorem closes_review (below : k < cap) (opened : ¬ indefinite)
    (h : (ofPass k).precondition.AfterReview (some reason) l) :
    l.Closes s cap indefinite reason := by
  have asked : (ofPass k).precondition.ask (ofPass k).precondition.iterations =
      ⟨k + 1, k + 1, k + 2, List.range (k + 2)⟩ := ask_ofPass k
  cases reason with
  | indefinitePreconditioner =>
    subst h
    simp [Closes, ofPass, precondition, opened]
    omega
  | converged | diverged | breakdown =>
    rw [AfterReview, asked] at h
    subst h
    simp [Closes]
    omega
  | _ => exact h.elim

theorem closes_limit : ((ofPass k).precondition.ask (k + 1)).Closes s (k + 1) indefinite
    .iterationLimit := by
  rw [ask_ofPass]
  simp [Closes]

theorem closes_boundary (below : k < cap) :
    (ofPass k).Closes s cap indefinite .constrainedStep := by
  simp [Closes, ofPass]
  omega

theorem closes_turn (below : k + 1 < cap) {step : V}
    (h : ((ofPass k).precondition.ask (k + 1)).AfterTurn
      (.stopped reason step : Phase V (Iterate T V)) l) :
    l.Closes s cap indefinite reason := by
  have worked := work_ofPass k
  cases reason with
  | badOperator | negativeCurvature =>
    rw [AfterTurn, worked] at h
    subst h
    simp [Closes, ofPass]
    omega
  | _ => exact h.elim

end Ledger

/-- A solve ends with the books of the pass or the phase that ends it. -/
theorem Ends.closes [Scalar T] [VectorSpace T V S] [ActsOn V H] [ActsOn V P] [ConvergenceTest T C]
    {s : Settings T} {rhs : V} {m k : Nat} {run₀ run : Run T S H P C} {stop : Stop V}
    (ends : Ends s rhs m run₀ k stop run) (h₀ : run₀.ledger = .empty) :
    run.ledger.Closes s (max 1 (iterationCap rhs m run₀)) (StartsIndefinite rhs run₀)
      stop.reason := by
  have noted (run : Run T S H P C) (n : Note T) : (run.log (.noted n)).ledger = run.ledger :=
    run.ledger_log _
  cases ends with
  | badPreconditioner starts infinite falls =>
    rw [posts_gradientStep ((noted _ _).trans (posts_start h₀ starts)) falls]
    exact Ledger.closes_unasked (.inl rfl)
  | indefinitePreconditioner starts finite neg falls =>
    rw [posts_gradientStep ((noted _ _).trans (posts_start h₀ starts)) falls]
    exact Ledger.closes_unasked (.inr ⟨rfl, _, _, starts, finite, neg⟩)
  | first starts _ _ stops =>
    exact Ledger.closes_first (Nat.le_max_left 1 _) (books_first (posts_start h₀ starts) stops)
  | boundary pass _ truncates =>
    rw [posts_truncate ((Run.ledger_enter _).trans (pass.ledger_eq h₀)) truncates]
    exact Ledger.closes_boundary pass.lt_cap
  | review pass full stops =>
    exact Ledger.closes_review pass.lt_cap pass.not_startsIndefinite
      (books_review (full.ledger_eq (pass.ledger_eq h₀)) stops)
  | @limit k _ _ _ _ run₂ pass full reviews reached =>
    have below := pass.lt_cap
    have hcap : max 1 (iterationCap rhs m run₀) = k + 1 := by omega
    rw [noted, books_review (full.ledger_eq (pass.ledger_eq h₀)) reviews, hcap]
    exact Ledger.closes_limit
  | turn pass full reviews below stops =>
    have reviewed := books_review (full.ledger_eq (pass.ledger_eq h₀)) reviews
    exact Ledger.closes_turn (by omega) (books_turn reviewed stops)

namespace Solver

variable [Scalar T] [VectorSpace T V S] [ActsOn V H] [ActsOn V P] [ConvergenceTest T C]

end Solver

end TrustRegion
