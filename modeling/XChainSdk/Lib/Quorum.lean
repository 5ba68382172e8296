import Mathlib.Algebra.BigOperators.Group.Finset.Basic
import Mathlib.Algebra.Order.BigOperators.Group.Finset
import Mathlib.Algebra.Order.Ring.Defs
import Mathlib.Tactic.Linarith

/-!
# Weighted two-thirds quorums

* `Quorum.TwoThirds w U A` : the members of `A` weigh strictly more than two thirds of `U`.
* `TwoThirds.mono` : a larger set of members of non-negative weight is a quorum too.
* `TwoThirds.inter` : two quorums of one set share more than a third of its weight.
-/

namespace Quorum

variable {σ K : Type*} [CommRing K] [LinearOrder K] [IsStrictOrderedRing K]

/-- The members of `A` weigh strictly more than two thirds of `U`. -/
def TwoThirds (w : σ → K) (U A : Finset σ) : Prop := 2 * ∑ s ∈ U, w s < 3 * ∑ s ∈ A, w s

instance (w : σ → K) (U A : Finset σ) : Decidable (TwoThirds w U A) := by
  unfold TwoThirds; infer_instance

variable {w : σ → K} {U A B : Finset σ}

omit [IsStrictOrderedRing K] in
theorem twoThirds_congr {w' : σ → K} (hU : ∀ s ∈ U, w' s = w s) (hA : ∀ s ∈ A, w' s = w s) :
    TwoThirds w' U A ↔ TwoThirds w U A := by
  rw [TwoThirds, TwoThirds, Finset.sum_congr rfl hU, Finset.sum_congr rfl hA]

theorem TwoThirds.mono (hw : ∀ s ∈ B, 0 ≤ w s) (hAB : A ⊆ B) (h : TwoThirds w U A) :
    TwoThirds w U B := by
  have hle : ∑ s ∈ A, w s ≤ ∑ s ∈ B, w s :=
    Finset.sum_le_sum_of_subset_of_nonneg hAB fun s hs _ => hw s hs
  unfold TwoThirds at *
  linarith

/-- **Intersection.**  Two quorums of `U` share members that weigh more than a third of it. -/
theorem TwoThirds.inter [DecidableEq σ] (hw : ∀ s ∈ U, 0 ≤ w s) (hAU : A ⊆ U) (hBU : B ⊆ U)
    (hA : TwoThirds w U A) (hB : TwoThirds w U B) :
    ∑ s ∈ U, w s < 3 * ∑ s ∈ A ∩ B, w s := by
  have hunion : ∑ s ∈ A ∪ B, w s ≤ ∑ s ∈ U, w s :=
    Finset.sum_le_sum_of_subset_of_nonneg (Finset.union_subset hAU hBU) fun s hs _ => hw s hs
  have hsum : ∑ s ∈ A ∪ B, w s + ∑ s ∈ A ∩ B, w s = ∑ s ∈ A, w s + ∑ s ∈ B, w s :=
    Finset.sum_union_inter
  unfold TwoThirds at *
  linarith

end Quorum
