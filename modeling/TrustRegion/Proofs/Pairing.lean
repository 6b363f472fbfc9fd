import TrustRegion.Proofs.Composition

/-! Runs side by side, with collaborators of the same kind or of different kinds: what their
outcomes have in common, carried along the sequence of computations. -/
namespace TrustRegion

variable {T V S H P C S' H' P' C' α α' β β' : Type}

namespace Run

/-- Two outcomes that are values and runs in one relation, or the same failure after runs in
another. -/
def Paired (Q : α → α' → Run T S H P C → Run T S' H' P' C' → Prop)
    (E : Failure → Run T S H P C → Run T S' H' P' C' → Prop) :
    EStateM.Result Failure (Run T S H P C) α →
      EStateM.Result Failure (Run T S' H' P' C') α' → Prop
  | .ok a run, .ok a' run' => Q a a' run run'
  | .error failure run, .error failure' run' => failure = failure' ∧ E failure run run'
  | _, _ => False

theorem Paired.cases {Q : α → α' → Run T S H P C → Run T S' H' P' C' → Prop}
    {E : Failure → Run T S H P C → Run T S' H' P' C' → Prop}
    {x : EStateM.Result Failure (Run T S H P C) α}
    {y : EStateM.Result Failure (Run T S' H' P' C') α'} (h : Paired Q E x y) :
    (∃ a run a' run', x = .ok a run ∧ y = .ok a' run' ∧ Q a a' run run') ∨
      ∃ failure run run', x = .error failure run ∧ y = .error failure run' ∧
        E failure run run' := by
  cases x with
  | ok a run =>
    cases y with
    | ok a' run' => exact .inl ⟨a, run, a', run', rfl, rfl, h⟩
    | error failure' run' => exact h.elim
  | error failure run =>
    cases y with
    | ok a' run' => exact h.elim
    | error failure' run' =>
      obtain ⟨rfl, hE⟩ := h
      exact .inr ⟨failure, run, run', rfl, rfl, hE⟩

/-- Two outcomes that are values in one relation or the same failure, after runs in another. -/
def Joined (Q : Run T S H P C → Run T S H P C → Prop) (R : α → α' → Prop) :
    EStateM.Result Failure (Run T S H P C) α →
      EStateM.Result Failure (Run T S H P C) α' → Prop :=
  Paired (fun a a' run run' => R a a' ∧ Q run run') fun _ => Q

theorem Joined.imp {Q : Run T S H P C → Run T S H P C → Prop} {R R' : α → α' → Prop}
    {x : EStateM.Result Failure (Run T S H P C) α}
    {y : EStateM.Result Failure (Run T S H P C) α'} (h : Joined Q R x y)
    (himp : ∀ a a', R a a' → R' a a') : Joined Q R' x y := by
  obtain ⟨a, run, a', run', rfl, rfl, hR, hQ⟩ | ⟨failure, run, run', rfl, rfl, hQ⟩ := h.cases
  · exact ⟨himp a a' hR, hQ⟩
  · exact ⟨rfl, hQ⟩

end Run

namespace RunM

open Run

theorem paired_bind {Q : α → α' → Run T S H P C → Run T S' H' P' C' → Prop}
    {Q' : β → β' → Run T S H P C → Run T S' H' P' C' → Prop}
    {E : Failure → Run T S H P C → Run T S' H' P' C' → Prop} {m : RunM T S H P C α}
    {m' : RunM T S' H' P' C' α'} {k : α → RunM T S H P C β} {k' : α' → RunM T S' H' P' C' β'}
    {run : Run T S H P C} {run' : Run T S' H' P' C'} (hm : Paired Q E (m run) (m' run'))
    (hk : ∀ a a' mid mid', m run = .ok a mid → m' run' = .ok a' mid' → Q a a' mid mid' →
      Paired Q' E (k a mid) (k' a' mid')) :
    Paired Q' E ((m >>= k) run) ((m' >>= k') run') := by
  obtain ⟨a, mid, a', mid', h, h', hQ⟩ | ⟨failure, mid, mid', h, h', hE⟩ := hm.cases
  · rw [bind_of_ok h, bind_of_ok h']
    exact hk a a' mid mid' h h' hQ
  · simp only [bind, EStateM.bind, h, h']
    exact ⟨rfl, hE⟩

section Joined

variable {Q : Run T S H P C → Run T S H P C → Prop} {R : α → α' → Prop} {R' : β → β' → Prop}
  {m : RunM T S H P C α} {k : α → RunM T S H P C β} {run run' : Run T S H P C}

theorem joined_bind {m' : RunM T S H P C α'} {k' : α' → RunM T S H P C β'}
    (hm : Joined Q R (m run) (m' run'))
    (hk : ∀ a a' mid mid', m run = .ok a mid → m' run' = .ok a' mid' → R a a' → Q mid mid' →
      Joined Q R' (k a mid) (k' a' mid')) :
    Joined Q R' ((m >>= k) run) ((m' >>= k') run') :=
  paired_bind hm fun a a' mid mid' hrun hrun' h => hk a a' mid mid' hrun hrun' h.1 h.2

/-- A computation of which two related runs make the same. -/
def Keeps (Q : Run T S H P C → Run T S H P C → Prop) (m : RunM T S H P C α) : Prop :=
  ∀ ⦃run run'⦄, Q run run' → Joined Q Eq (m run) (m run')

theorem Keeps.joined_bind {k' : α → RunM T S H P C β'} (hm : m.Keeps Q) (h : Q run run')
    (hk : ∀ a mid mid', m run = .ok a mid → m run' = .ok a mid' → Q mid mid' →
      Joined Q R' (k a mid) (k' a mid')) :
    Joined Q R' ((m >>= k) run) ((m >>= k') run') := by
  refine RunM.joined_bind (hm h) fun a a' mid mid' hrun hrun' heq hmid => ?_
  subst heq
  exact hk a mid mid' hrun hrun' hmid

theorem Keeps.bind (hm : m.Keeps Q) (hk : ∀ a, (k a).Keeps Q) : (m >>= k).Keeps Q := by
  intro run run' h
  exact hm.joined_bind h fun a mid mid' _ _ hmid => hk a hmid

variable [Scalar T] [VectorSpace T V S] [ActsOn V H] [ActsOn V P]

/-- Refusing a right-hand side is all that a start does beside what other phases do. -/
theorem keeps_start (silent : ∀ {γ : Type} {m : RunM T S H P C γ}, m.Silent → m.Keeps Q)
    (rhs : V) : (start rhs : RunM T S H P C (Start T V)).Keeps Q := by
  refine (silent (.zerosLike rhs)).bind fun zero => (silent (.copy rhs zero)).bind fun residual =>
    (silent (.dot residual residual)).bind fun rr => ?_
  split
  · exact silent (.bind (.precondition _ _) fun _ => .bind (.dot _ _) fun _ => .pure _)
  · exact fun run run' h => ⟨rfl, h⟩

end Joined

end RunM

end TrustRegion
