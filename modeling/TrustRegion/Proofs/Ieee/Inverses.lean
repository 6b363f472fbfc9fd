import TrustRegion.Operator.Diagonal
import TrustRegion.Proofs.Ieee.Number
import TrustRegion.Proofs.Ieee.Reciprocal

/-! What the Jacobi preconditioner stores in floating-point arithmetic: for every entry that it
accepts an inverse of the same sign, which overflows if the entry is too close to zero. -/
namespace TrustRegion

open Float.Model (UnpackedFloat)

/-- Floating-point numbers that are kept as the bits of a format. -/
class PackedIeee (T : Type) [Scalar T] extends Ieee T where
  exists_bits (a : T) : ∃ bits, UnpackedFloat.unpack format bits = unpacked a
  unpacked_one : unpacked 1 = Unpacked.one format
  wide : 2 ≤ format.mantissaBitsWithoutImplicit
  biased : 0 < format.exponentBias

instance : PackedIeee Float where
  exists_bits _ := ⟨_, rfl⟩
  unpacked_one := by rfl
  wide := by decide
  biased := by decide

instance : PackedIeee Float32 where
  exists_bits _ := ⟨_, rfl⟩
  unpacked_one := by rfl
  wide := by decide
  biased := by decide

namespace Jacobi

variable {T : Type} [Scalar T]

/-- Entry `i` is the first that has no usable inverse. -/
structure FirstSingular (d : List T) (i : ℕ) (a : T) : Prop where
  entry : d[i]? = some a
  singular : isSingular a = true
  earlier : ∀ b ∈ d.take i, isSingular b = false

theorem inverses_of_regular {d : List T} (h : ∀ a ∈ d, isSingular a = false) (k : ℕ) :
    inverses k d = .ok (d.map (1 / ·)) := by
  induction d generalizing k with
  | nil => rfl
  | cons a d ih =>
    obtain ⟨ha, hd⟩ := List.forall_mem_cons.mp h
    rw [inverses, if_neg (Bool.eq_false_iff.mp ha), ih hd]
    rfl

theorem inverses_of_firstSingular {d : List T} {i : ℕ} {a : T} (h : FirstSingular d i a) (k : ℕ) :
    inverses k d = .error (.invalidArgument s!"diagonal[{k + i}]" (Scalar.text a)
      "Jacobi preconditioner requires finite nonzero diagonal entries") := by
  obtain ⟨entry, singular, earlier⟩ := h
  induction d generalizing k i with
  | nil => cases entry
  | cons b d ih =>
    cases i with
    | zero =>
      obtain rfl : b = a := Option.some.inj entry
      rw [inverses, if_pos singular, Nat.add_zero]
    | succ i =>
      obtain ⟨hb, hd⟩ := List.forall_mem_cons.mp earlier
      rw [inverses, if_neg (Bool.eq_false_iff.mp hb), ih (k + 1) entry hd,
        Nat.add_right_comm, Nat.add_assoc]
      rfl

theorem regular_or_exists_firstSingular (d : List T) :
    (∀ a ∈ d, isSingular a = false) ∨ ∃ i a, FirstSingular d i a := by
  induction d with
  | nil => exact .inl (List.forall_mem_nil _)
  | cons a d ih =>
    cases ha : isSingular a with
    | true => exact .inr ⟨0, a, rfl, ha, List.forall_mem_nil _⟩
    | false =>
      obtain hd | ⟨i, b, entry, singular, earlier⟩ := ih
      · exact .inl (List.forall_mem_cons.mpr ⟨ha, hd⟩)
      · exact .inr ⟨i + 1, b, entry, singular, List.forall_mem_cons.mpr ⟨ha, earlier⟩⟩

variable [PackedIeee T]

/-- An entry that is accepted and what is stored for it. -/
structure Inverts (a v : T) : Prop where
  regular : isSingular a = false
  eq : v = 1 / a
  nonzero : (v == 0) = false
  pos_iff : 0 < v ↔ 0 < a
  neg_iff : v < 0 ↔ a < 0
  finite_iff : Scalar.isFinite v = true ↔
    Unpacked.faint (Ieee.format T) < Unpacked.magnitude (Ieee.unpacked a)

theorem inverts_one_div {a : T} (regular : isSingular a = false) : Inverts a (1 / a) := by
  obtain ⟨bits, hbits⟩ := PackedIeee.exists_bits a
  obtain ⟨nonzero, finite⟩ : (a == 0) = false ∧ Scalar.isFinite a = true := by
    simpa [isSingular] using regular
  rw [Ieee.beq_eq, Ieee.unpacked_zero] at nonzero
  rw [Ieee.isFinite_eq] at finite
  have reciprocal :=
    Unpacked.isReciprocal_one_div PackedIeee.wide PackedIeee.biased hbits finite nonzero
  rw [← PackedIeee.unpacked_one, ← Ieee.unpacked_div] at reciprocal
  constructor
  case regular => exact regular
  case eq => rfl
  case nonzero =>
    rw [Ieee.beq_eq, Ieee.unpacked_zero]
    exact reciprocal.nonzero
  case pos_iff =>
    rw [Ieee.pos_iff, Ieee.pos_iff]
    exact reciprocal.pos_iff
  case neg_iff =>
    rw [Ieee.lt_iff, Ieee.lt_iff, Ieee.unpacked_zero]
    exact reciprocal.neg_iff
  case finite_iff =>
    rw [Ieee.isFinite_eq]
    exact reciprocal.finite_iff

/-- A diagonal is refused at its first entry that is zero or not finite. Otherwise what is stored
for an entry is neither a zero nor a NaN and has its sign, and it is finite exactly if the entry is
further from zero than a quarter of the least normal number. -/
theorem ofDiagonal_inverts (d : List T) :
    (∃ i a, FirstSingular d i a ∧
      ofDiagonal d = .error (.invalidArgument s!"diagonal[{i}]" (Scalar.text a)
        "Jacobi preconditioner requires finite nonzero diagonal entries")) ∨
    ∃ J, ofDiagonal d = .ok J ∧ List.Forall₂ Inverts d J.inverse := by
  obtain regular | ⟨i, a, first⟩ := regular_or_exists_firstSingular d
  · refine .inr ⟨⟨d.map (1 / ·)⟩, ?_, ?_⟩
    · rw [ofDiagonal, inverses_of_regular regular]
      rfl
    · rw [List.forall₂_map_right_iff, List.forall₂_same]
      exact fun a ha => inverts_one_div (regular a ha)
  · refine .inl ⟨i, a, first, ?_⟩
    rw [ofDiagonal, inverses_of_firstSingular first, Nat.zero_add]
    rfl

/-- The least number above zero is accepted, and its inverse overflows. -/
theorem ofDiagonal_overflows_faint : ∃ J : Jacobi Float,
    ofDiagonal [Float.ofBits 1] = .ok J ∧ ∃ v ∈ J.inverse, Scalar.isFinite v = false :=
  ⟨⟨[1 / Float.ofBits 1]⟩, by rfl, _, List.mem_singleton_self _, by rfl⟩

end Jacobi

end TrustRegion
