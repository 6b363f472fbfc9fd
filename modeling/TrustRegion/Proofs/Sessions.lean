import TrustRegion.Proofs.Failures
import TrustRegion.Proofs.Twins
import TrustRegion.Session

/-! Sessions: whatever a solver and its convergence test have been through, their next solve is
that of a new solver with a new test. -/
namespace TrustRegion

/-- What can be done in a session: a solver is replaced, configured or watched, or it solves. -/
inductive Command (T : Type) : Type 1 where
  | renew (settings : Settings T)
  | setRadius (radius : T)
  | setDirectionNorm (norm : DirectionNorm)
  | setResidualNorm (norm : ResidualNorm)
  | addMonitor (monitor : Monitor T)
  | solve {V S H P : Type} [VectorSpace T V S] [ActsOn V H] [ActsOn V P] (space : S)
      (operator : H) (preconditioner : P) (rhs : V) (maxIterations : Nat)

/-- One solve repeats another: the same result, the same report and the same events. -/
structure Solved.Repeats {T V S H P C : Type} (solved solved' : Solved T V S H P C) : Prop where
  result : solved.result = solved'.result
  report : solved.solver.report = solved'.solver.report
  events : solved.events = solved'.events

namespace Criterion

variable {T : Type} [Scalar T]

omit [Scalar T] in
/-- Tests without a memory that the first question would not replace: residual tests with the same
tolerances, or none. -/
inductive Alike : Criterion T → Criterion T → Prop where
  | residual {test test' : ResidualTest T} (h : test.tolerances = test'.tolerances) :
      Alike (.residual test) (.residual test')
  | never : Alike .never .never

variable {c c' : Criterion T}

omit [Scalar T] in
theorem Alike.symm (h : Alike c c') : Alike c' c := by
  cases h with
  | residual h => exact .residual h.symm
  | never => exact .never

/-- The first question fixes all that a residual test remembers. -/
theorem Alike.interchange (h : Alike c c') : Interchange c c' := by
  cases h with
  | @residual test test' h =>
    obtain ⟨tolerances, initial, target⟩ := test
    obtain ⟨tolerances', initial', target'⟩ := test'
    obtain rfl : tolerances = tolerances' := h
    exact fun _ => ⟨rfl, rfl⟩
  | never => exact fun _ => ⟨rfl, rfl⟩

theorem Alike.evaluate (h : Alike c c') (i : Nat) (x : T) : Alike c (c'.evaluate i x).2 := by
  cases h with
  | @residual test test' h =>
    have kept : (test'.evaluate i x).2.tolerances = test'.tolerances := by
      unfold ResidualTest.evaluate
      split <;> rfl
    exact .residual (h.trans kept.symm)
  | never => exact .never

end Criterion

namespace Solver

variable {T V S H P C : Type} [Scalar T] [VectorSpace T V S] [ActsOn V H] [ActsOn V P]
  [ConvergenceTest T C] {J : C → C → Prop}

theorem solve_repeats {solver : Solver T} (valid : solver.settings.validate = .ok ())
    (solver' : Solver T) (hsettings : solver'.settings = solver.settings)
    (cs : Collaborators S H P C) (rhs : V) (m : Nat)
    (pairs : (iterate solver.settings rhs m : RunM T S H P C (Stop V)).Pairs J) {test : C}
    (hJ : J cs.test test) :
    (solver.solve cs rhs m).Repeats (solver'.solve { cs with test } rhs m) ∧
      J (solver.solve cs rhs m).collaborators.test
        (solver'.solve { cs with test } rhs m).collaborators.test := by
  have valid' : solver'.settings.validate = .ok () := hsettings ▸ valid
  have alike : Run.Joined (Run.Twin J) Eq (iterate solver.settings rhs m cs.begin)
      (iterate solver'.settings rhs m (Collaborators.begin { cs with test })) := by
    rw [hsettings]
    exact pairs.keeps ⟨test, hJ, rfl⟩
  obtain ⟨stop, run, _, _, h, h', rfl, test', hJ', rfl⟩ |
    ⟨failure, run, _, h, h', test', hJ', rfl⟩ := Run.Paired.cases alike
  · rw [solve_of_ok valid h, solve_of_ok valid' h']
    exact ⟨⟨rfl, by simp [observe, hsettings], rfl⟩, hJ'⟩
  · rw [solve_of_error valid h, solve_of_error valid' h']
    exact ⟨⟨rfl, by simp [observe, hsettings], rfl⟩, hJ'⟩

end Solver

namespace Session

variable {T : Type} [Scalar T]

/-- A session after a command; one that is refused changes nothing. -/
def execute (session : Session T) : Command T → Session T
  | .renew settings => (session.renew settings).toOption.getD session
  | .setRadius radius =>
    { session with solver := (session.solver.setRadius radius).toOption.getD session.solver }
  | .setDirectionNorm norm => { session with solver := session.solver.setDirectionNorm norm }
  | .setResidualNorm norm => { session with solver := session.solver.setResidualNorm norm }
  | .addMonitor monitor => { session with solver := session.solver.addMonitor monitor }
  | @Command.solve _ _ _ _ _ _ _ _ space operator preconditioner rhs maxIterations =>
    (session.solve space operator preconditioner rhs maxIterations).2

def after (session : Session T) (commands : List (Command T)) : Session T :=
  commands.foldl execute session

/-- A session that has just begun: a new solver with a new residual test, or with none. -/
inductive Opened : Session T → Prop where
  | residual {settings : Settings T} {solver : Solver T} {tolerances : Tolerances T}
      {test : ResidualTest T} (created : Solver.create settings = .ok solver)
      (tested : ResidualTest.create tolerances = .ok test) : Opened ⟨solver, .residual test⟩
  | never {settings : Settings T} {solver : Solver T}
      (created : Solver.create settings = .ok solver) : Opened ⟨solver, .never⟩

/-- What commands preserve of a session that began with the criterion. -/
structure Sound (criterion : Criterion T) (session : Session T) : Prop where
  reachable : session.solver.Reachable
  alike : criterion.Alike session.criterion

variable {session : Session T} {criterion : Criterion T}

theorem Opened.sound (opened : session.Opened) : Sound session.criterion session := by
  cases opened with
  | residual created _ => exact ⟨.create created, .residual rfl⟩
  | never created => exact ⟨.create created, .never⟩

theorem Sound.execute (sound : Sound criterion session) (command : Command T) :
    Sound criterion (session.execute command) := by
  cases command with
  | renew settings =>
    show Sound criterion ((session.renew settings).toOption.getD session)
    unfold renew
    cases h : Solver.create settings with
    | error failure => exact sound
    | ok solver => exact ⟨.create h, sound.alike⟩
  | setRadius radius =>
    show Sound criterion
      { session with solver := (session.solver.setRadius radius).toOption.getD session.solver }
    cases h : session.solver.setRadius radius with
    | error failure => exact sound
    | ok solver => exact ⟨sound.reachable.setRadius h, sound.alike⟩
  | setDirectionNorm norm => exact ⟨sound.reachable.setDirectionNorm norm, sound.alike⟩
  | setResidualNorm norm => exact ⟨sound.reachable.setResidualNorm norm, sound.alike⟩
  | addMonitor monitor => exact ⟨sound.reachable.addMonitor monitor, sound.alike⟩
  | solve space operator preconditioner rhs m =>
    have answers : AnswersAlike fun c c' : Criterion T => c = c' ∧ criterion.Alike c := by
      rintro c _ ⟨rfl, h⟩ i x
      exact ⟨rfl, rfl, rfl, h.evaluate i x⟩
    have kept := Solver.solve_repeats sound.reachable.valid session.solver rfl
      ⟨space, operator, preconditioner, session.criterion⟩ rhs m (pairs_iterate answers)
      ⟨rfl, sound.alike⟩
    exact ⟨sound.reachable.solve _ rhs m, kept.2.2⟩

theorem Sound.after (sound : Sound criterion session) (commands : List (Command T)) :
    Sound criterion (session.after commands) := by
  induction commands generalizing session with
  | nil => exact sound
  | cons command commands ih => exact ih (sound.execute command)

/-- A session keeps nothing of its solves. After any commands, whether they have succeeded or not,
a solve is the same as by a new solver of the current settings with the test that the session began
with. -/
theorem solve_forgets {V S H P : Type} [VectorSpace T V S] [ActsOn V H] [ActsOn V P]
    (opened : session.Opened) (commands : List (Command T)) (space : S) (operator : H)
    (preconditioner : P) (rhs : V) (m : Nat) :
    ∃ solver, Solver.create (session.after commands).solver.settings = .ok solver ∧
      ((session.after commands).solve space operator preconditioner rhs m).1.Repeats
        (Session.solve ⟨solver, session.criterion⟩ space operator preconditioner rhs m).1 := by
  have sound := opened.sound.after commands
  let solver := (session.after commands).solver
  let fresh : Solver T := ⟨solver.settings, .blank, []⟩
  have valid : solver.settings.validate = .ok () := sound.reachable.valid
  have created : Solver.create solver.settings = .ok fresh := by
    rw [Solver.create, valid]
    rfl
  have repeats := Solver.solve_repeats valid fresh rfl
    ⟨space, operator, preconditioner, (session.after commands).criterion⟩ rhs m
    pairs_iterate_of_interchange sound.alike.symm.interchange
  exact ⟨fresh, created, repeats.1⟩

def standard : Session Float :=
  ⟨⟨.standard, .blank, []⟩, .residual (.fresh .standard)⟩

/-- Commands among which there are refused ones and a solve that fails. -/
def troubled : List (Command Float) :=
  [.addMonitor .emptyHistory, .setRadius (-1), .setRadius 2,
    .solve Solver.brokenOperator.space Solver.brokenOperator.operator
      Solver.brokenOperator.preconditioner [3, 4] 5]

theorem solve_forgets_troubled : standard.Opened ∧
    (standard.after troubled).solver.report.residualNorm?.isSome = true ∧
    ∃ solver, Solver.create (standard.after troubled).solver.settings = .ok solver ∧
      ((standard.after troubled).solve Solver.twoEquations.space Solver.twoEquations.operator
        Solver.twoEquations.preconditioner [3, 4] 5).1.Repeats
          (Session.solve ⟨solver, standard.criterion⟩ Solver.twoEquations.space
            Solver.twoEquations.operator Solver.twoEquations.preconditioner [3, 4] 5).1 := by
  have created : Solver.create Settings.standard = .ok standard.solver := rfl
  have tested : ResidualTest.create Tolerances.standard =
      .ok (.fresh (.standard : Tolerances Float)) := rfl
  have opened : standard.Opened := .residual created tested
  exact ⟨opened, rfl, solve_forgets opened troubled _ _ _ _ _⟩

end Session

end TrustRegion
