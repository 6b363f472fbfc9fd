import TrustRegion.Proofs.Pairing
import TrustRegion.Space.Euclidean

/-! Collaborators behind a record of their applications, and runs with them beside the runs without
the record: what has been handed over and left so far has the right length, or the run fails for a
length. -/
namespace TrustRegion

variable {T V S H P C α β : Type}

/-- What an application was given and what it has left. -/
structure Application (V : Type) where
  argument : V
  buffer : V
  written : Written V

/-- An object with the applications that it has carried out, the latest first. -/
structure Recorded (V A : Type) where
  inner : A
  applications : List (Application V)

instance {A : Type} [ActsOn V A] : ActsOn V (Recorded V A) where
  apply a x y :=
    let (written, inner) := ActsOn.apply a.inner x y
    (written, ⟨inner, ⟨x, y, written⟩ :: a.applications⟩)

namespace Collaborators

def recorded (V : Type) (cs : Collaborators S H P C) :
    Collaborators S (Recorded V H) (Recorded V P) C where
  space := cs.space
  operator := ⟨cs.operator, []⟩
  preconditioner := ⟨cs.preconditioner, []⟩
  test := cs.test

/-- The applications of the operator and of the preconditioner. -/
def applications (cs : Collaborators S (Recorded V H) (Recorded V P) C) : List (Application V) :=
  cs.operator.applications ++ cs.preconditioner.applications

/-- All applications were given vectors of `n` entries. -/
def Fed (n : Nat) (cs : Collaborators S (Recorded (List T) H) (Recorded (List T) P) C) : Prop :=
  ∀ a ∈ cs.applications, a.argument.length = n ∧ a.buffer.length = n

/-- All applications that succeeded have left vectors of `n` entries. -/
def Answered (n : Nat) (cs : Collaborators S (Recorded (List T) H) (Recorded (List T) P) C) :
    Prop :=
  ∀ a ∈ cs.applications, a.written.failure? = none → a.written.content.length = n

/-- The right lengths so far, but for a vector of `l` entries that has been left last. -/
def Owes (n l : Nat) (cs : Collaborators S (Recorded (List T) H) (Recorded (List T) P) C) : Prop :=
  cs.Fed n ∧ (l = n → cs.Answered n)

variable {n : Nat} {cs cs' : Collaborators S (Recorded (List T) H) (Recorded (List T) P) C}

theorem Owes.of_applications {l : Nat} (h : cs.Owes n l)
    (same : cs'.applications = cs.applications) : cs'.Owes n l := by
  unfold Owes Fed Answered
  rw [same]
  exact h

theorem Owes.apply {app : Application (List T)} (h : cs.Owes n n)
    (hmem : ∀ a ∈ cs'.applications, a = app ∨ a ∈ cs.applications)
    (hargument : app.argument.length = n) (hbuffer : app.buffer.length = n) :
    cs'.Fed n ∧
      ((app.written.failure? = none → app.written.content.length = n) → cs'.Answered n) := by
  constructor
  · intro a ha
    rcases hmem a ha with rfl | hold
    · exact ⟨hargument, hbuffer⟩
    · exact h.1 a hold
  · intro hleft a ha
    rcases hmem a ha with rfl | hold
    · exact hleft
    · exact h.2 rfl a hold

end Collaborators

def Failure.IsMismatch (failure : Failure) : Prop :=
  ∃ expected actual, failure = .dimensionMismatch expected actual

namespace Run

/-- The run without the record. -/
def bare (run : Run T S (Recorded V H) (Recorded V P) C) : Run T S H P C where
  space := run.space
  operator := run.operator.inner
  preconditioner := run.preconditioner.inner
  test := run.test
  figures := run.figures
  latest := run.latest

/-- Outcomes with and without the record that are the same: either they are values of which the
condition holds, or all applications had the right lengths, or the failure is that of a length. -/
def Checked (n : Nat) (post : α → Run T S (Recorded (List T) H) (Recorded (List T) P) C → Prop) :
    EStateM.Result Failure (Run T S (Recorded (List T) H) (Recorded (List T) P) C) α →
      EStateM.Result Failure (Run T S H P C) α → Prop :=
  Paired (fun a a' run run' => a' = a ∧ run' = run.bare ∧ post a run) fun failure run run' =>
    run' = run.bare ∧ run.Fed n ∧ (run.Answered n ∨ failure.IsMismatch)

theorem Checked.cases {n : Nat}
    {post : α → Run T S (Recorded (List T) H) (Recorded (List T) P) C → Prop}
    {x : EStateM.Result Failure (Run T S (Recorded (List T) H) (Recorded (List T) P) C) α}
    {y : EStateM.Result Failure (Run T S H P C) α} (h : Checked n post x y) :
    (∃ a run, x = .ok a run ∧ y = .ok a run.bare ∧ post a run) ∨
      ∃ failure run, x = .error failure run ∧ y = .error failure run.bare ∧ run.Fed n ∧
        (run.Answered n ∨ failure.IsMismatch) := by
  obtain ⟨_, run, a, _, rfl, rfl, rfl, rfl, hpost⟩ | ⟨failure, run, _, rfl, rfl, rfl, hlengths⟩ :=
    Paired.cases h
  · exact .inl ⟨a, run, rfl, rfl, hpost⟩
  · exact .inr ⟨failure, run, rfl, rfl, hlengths⟩

end Run

namespace RunM

open Run

variable {n l : Nat} {x y c : List T}
  {post : α → Run T S (Recorded (List T) H) (Recorded (List T) P) C → Prop}
  {post' : β → Run T S (Recorded (List T) H) (Recorded (List T) P) C → Prop}
  {run : Run T S (Recorded (List T) H) (Recorded (List T) P) C}

theorem checked_bind {m : RunM T S (Recorded (List T) H) (Recorded (List T) P) C α}
    {m' : RunM T S H P C α} {k : α → RunM T S (Recorded (List T) H) (Recorded (List T) P) C β}
    {k' : α → RunM T S H P C β} (hm : Checked n post (m run) (m' run.bare))
    (hk : ∀ a mid, post a mid → Checked n post' (k a mid) (k' a mid.bare)) :
    Checked n post' ((m >>= k) run) ((m' >>= k') run.bare) := by
  refine paired_bind hm fun a a' mid mid' _ _ ⟨ha, hmid, hpost⟩ => ?_
  subst ha hmid
  exact hk a' mid hpost

theorem checked_pure {a : α} (h : post a run) :
    Checked n post ((pure a : RunM T S _ _ C α) run) ((pure a : RunM T S H P C α) run.bare) :=
  ⟨rfl, rfl, h⟩

theorem checked_throw (h : run.Owes n n) (failure : Failure) :
    Checked n post ((throw failure : RunM T S _ _ C α) run)
      ((throw failure : RunM T S H P C α) run.bare) :=
  ⟨rfl, rfl, h.1, .inl (h.2 rfl)⟩

theorem checked_ofWritten (callee : Callee) {written : Written (List T)} (fed : run.Fed n)
    (answered : (written.failure? = none → written.content.length = n) → run.Answered n) :
    Checked n (fun c run => run.Owes n c.length) (run.ofWritten callee written)
      (run.bare.ofWritten callee written) := by
  unfold Run.ofWritten
  cases hf : written.failure? with
  | none => exact ⟨rfl, rfl, fed, fun hl => answered fun _ => hl⟩
  | some failure => exact ⟨rfl, rfl, fed, .inl (answered fun hnone => by simp [hf] at hnone)⟩

theorem checked_operate [ActsOn (List T) H] (hx : x.length = n) (hy : y.length = n)
    (h : run.Owes n n) :
    Checked n (fun c run => run.Owes n c.length) (operate x y run) (operate x y run.bare) := by
  let app : Application (List T) := ⟨x, y, (ActsOn.apply run.operator.inner x y).1⟩
  let after : Run T S (Recorded (List T) H) (Recorded (List T) P) C :=
    { run with operator :=
        ⟨(ActsOn.apply run.operator.inner x y).2, app :: run.operator.applications⟩ }
  have hmem : ∀ a ∈ after.applications, a = app ∨ a ∈ run.applications :=
    fun a ha => List.mem_cons.mp ha
  obtain ⟨fed, answered⟩ := h.apply hmem hx hy
  exact checked_ofWritten .operator fed answered

theorem checked_precondition [ActsOn (List T) P] (hx : x.length = n) (hy : y.length = n)
    (h : run.Owes n n) :
    Checked n (fun c run => run.Owes n c.length) (precondition x y run)
      (precondition x y run.bare) := by
  let app : Application (List T) := ⟨x, y, (ActsOn.apply run.preconditioner.inner x y).1⟩
  let after : Run T S (Recorded (List T) H) (Recorded (List T) P) C :=
    { run with preconditioner :=
        ⟨(ActsOn.apply run.preconditioner.inner x y).2, app :: run.preconditioner.applications⟩ }
  have hmem : ∀ a ∈ after.applications, a = app ∨ a ∈ run.applications := by
    intro a ha
    obtain hoperator | hcons := List.mem_append.mp ha
    · exact .inr (List.mem_append_left _ hoperator)
    · obtain happ | hold := List.mem_cons.mp hcons
      · exact .inl happ
      · exact .inr (List.mem_append_right _ hold)
  obtain ⟨fed, answered⟩ := h.apply hmem hx hy
  exact checked_ofWritten .preconditioner fed answered

theorem checked_quiet {m : RunM T S (Recorded (List T) H) (Recorded (List T) P) C α}
    {m' : RunM T S H P C α} {a : α} {after : Run T S (Recorded (List T) H) (Recorded (List T) P) C}
    (hm : m run = .ok a after) (hm' : m' run.bare = .ok a after.bare)
    (same : after.applications = run.applications) (h : run.Owes n l) :
    Checked n (fun _ run => run.Owes n l) (m run) (m' run.bare) := by
  rw [hm, hm']
  exact ⟨rfl, rfl, h.of_applications same⟩

end RunM

section Euclidean

variable [Scalar T] {n l : Nat} {a : T} {x y : List T}

namespace RunM

section Calls

variable {run : Run T (Euclidean T) H P C}

theorem copy_of_length (h : x.length = y.length) :
    copy x y run = .ok x (run.log (.called (.space .copy) none)) := by
  simp only [copy, VectorSpace.copy, Euclidean.copy, sameLength, if_pos h, Run.ofWritten]

theorem dot_of_length (h : x.length = y.length) :
    dot x y run = .ok (Dense.dot x y) (run.log (.called (.space .dot) none)) := by
  simp only [dot, VectorSpace.dot, Euclidean.dot, if_pos h, Run.ofAnswer]

theorem dot_of_mismatch (h : x.length ≠ y.length) :
    dot x y run = .error (.lengths x.length y.length)
      (run.log (.called (.space .dot) (some (.lengths x.length y.length)))) := by
  simp only [dot, VectorSpace.dot, Euclidean.dot, if_neg h, Run.ofAnswer]

theorem axpy_of_length (h : x.length = y.length) :
    axpy a x y run = .ok (Dense.combine a x 1 y) (run.log (.called (.space .axpy) none)) := by
  simp only [axpy, VectorSpace.axpy, Euclidean.axpy, sameLength, if_pos h, Run.ofWritten]

theorem aypx_of_length (h : x.length = y.length) :
    aypx a x y run = .ok (Dense.combine 1 x a y) (run.log (.called (.space .aypx) none)) := by
  simp only [aypx, VectorSpace.aypx, Euclidean.aypx, sameLength, if_pos h, Run.ofWritten]

theorem aypx_of_mismatch (h : x.length ≠ y.length) :
    aypx a x y run = .error (.lengths x.length y.length)
      (run.log (.called (.space .aypx) (some (.lengths x.length y.length)))) := by
  simp only [aypx, VectorSpace.aypx, Euclidean.aypx, sameLength, if_neg h, Run.ofWritten]

end Calls

open Run

variable {run : Run T (Euclidean T) (Recorded (List T) H) (Recorded (List T) P) C}

theorem checked_zerosLike (hx : x.length = n) (h : run.Owes n l) :
    Checked n (fun v run => v.length = n ∧ run.Owes n l) (zerosLike x run)
      (zerosLike x run.bare) :=
  ⟨rfl, rfl, (Dense.length_zeros _).trans hx, h⟩

theorem checked_copy (hx : x.length = n) (hy : y.length = n) (h : run.Owes n l) :
    Checked n (fun v run => v.length = n ∧ run.Owes n l) (copy x y run) (copy x y run.bare) := by
  have hxy := hx.trans hy.symm
  rw [copy_of_length hxy, copy_of_length hxy]
  exact ⟨rfl, rfl, hx, h⟩

theorem checked_axpy (hx : x.length = n) (hy : y.length = n) (h : run.Owes n l) :
    Checked n (fun v run => v.length = n ∧ run.Owes n l) (axpy a x y run)
      (axpy a x y run.bare) := by
  have hxy := hx.trans hy.symm
  rw [axpy_of_length hxy, axpy_of_length hxy]
  exact ⟨rfl, rfl, (Dense.length_combine _ _ _ _ hxy).trans hy, h⟩

theorem checked_norm (h : run.Owes n l) :
    Checked n (fun _ run => run.Owes n l) (norm x run) (norm x run.bare) :=
  ⟨rfl, rfl, h⟩

theorem checked_dot (hx : x.length = n) (hy : y.length = n) (h : run.Owes n l) :
    Checked n (fun _ run => run.Owes n l) (dot x y run) (dot x y run.bare) := by
  have hxy := hx.trans hy.symm
  rw [dot_of_length hxy, dot_of_length hxy]
  exact ⟨rfl, rfl, h⟩

/-- A product with the vector that has been left last finds out whether it has the right length. -/
theorem checked_dot_last (hx : x.length = n) (h : run.Owes n y.length) :
    Checked n (fun _ run => y.length = n ∧ run.Owes n n) (dot x y run) (dot x y run.bare) := by
  by_cases hy : y.length = n
  · have hxy := hx.trans hy.symm
    rw [dot_of_length hxy, dot_of_length hxy]
    exact ⟨rfl, rfl, hy, hy ▸ h⟩
  · have hxy : x.length ≠ y.length := fun heq => hy (heq.symm.trans hx)
    rw [dot_of_mismatch hxy, dot_of_mismatch hxy]
    exact ⟨rfl, rfl, h.1, .inr ⟨_, _, rfl⟩⟩

theorem checked_aypx_last (hx : x.length = n) (h : run.Owes n y.length) :
    Checked n (fun v run => v.length = n ∧ run.Owes n n) (aypx a x y run)
      (aypx a x y run.bare) := by
  by_cases hy : y.length = n
  · have hxy := hx.trans hy.symm
    rw [aypx_of_length hxy, aypx_of_length hxy]
    exact ⟨rfl, rfl, (Dense.length_combine _ _ _ _ hxy).trans hy, hy ▸ h⟩
  · have hxy : x.length ≠ y.length := fun heq => hy (heq.symm.trans hx)
    rw [aypx_of_mismatch hxy, aypx_of_mismatch hxy]
    exact ⟨rfl, rfl, h.1, .inr ⟨_, _, rfl⟩⟩

end RunM

end Euclidean

end TrustRegion
