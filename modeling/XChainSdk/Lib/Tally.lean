import Mathlib.Data.List.Count
import Mathlib.Data.List.Perm.Basic
import Mathlib.Order.Nat
import Mathlib.Order.MinMax

/-!
# The largest multiplicity

* `Tally.largest` : how often the most frequent element of a list stands in it.
* `Tally.largest_append_singleton` : what one more element makes of it.
* `Tally.largest_map_le` : a map that tells fewer elements apart has no smaller one.
-/

namespace Tally

variable {α β : Type*} [DecidableEq α] [DecidableEq β] {l l' : List α} {n : ℕ}

/-- The multiplicity of the most frequent element. -/
def largest (l : List α) : ℕ := (l.map fun a => l.count a).foldr max 0

theorem foldr_max_le_iff {ns : List ℕ} : ns.foldr max 0 ≤ n ↔ ∀ m ∈ ns, m ≤ n := by
  induction ns with
  | nil => simp
  | cons m ns ih => rw [List.foldr_cons, max_le_iff, ih, List.forall_mem_cons]

theorem largest_le_iff : largest l ≤ n ↔ ∀ a ∈ l, l.count a ≤ n := by
  rw [largest, foldr_max_le_iff, List.forall_mem_map]

theorem count_le_largest (a : α) : l.count a ≤ largest l := by
  by_cases h : a ∈ l
  · exact largest_le_iff.1 le_rfl a h
  · rw [List.count_eq_zero_of_not_mem h]
    exact Nat.zero_le _

theorem largest_perm (h : l.Perm l') : largest l = largest l' := by
  refine le_antisymm (largest_le_iff.2 fun a _ => ?_) (largest_le_iff.2 fun a _ => ?_)
  · rw [h.count_eq]
    exact count_le_largest a
  · rw [← h.count_eq]
    exact count_le_largest a

/-- One more element counts once more, and no other does. -/
theorem largest_append_singleton (l : List α) (a : α) :
    largest (l ++ [a]) = max (largest l) (l.count a + 1) := by
  have hcount : ∀ b, (l ++ [a]).count b = l.count b + if a = b then 1 else 0 := fun b => by
    rw [List.count_append, List.count_singleton]
    simp [beq_iff_eq]
  refine le_antisymm (largest_le_iff.2 fun b _ => ?_) (max_le (largest_le_iff.2 fun b _ => ?_) ?_)
  · rw [hcount]
    by_cases hab : a = b
    · subst hab
      rw [if_pos rfl]
      exact le_max_right _ _
    · rw [if_neg hab]
      exact le_max_of_le_left (count_le_largest b)
  · calc l.count b ≤ (l ++ [a]).count b := by
          rw [hcount]
          exact Nat.le_add_right _ _
      _ ≤ largest (l ++ [a]) := count_le_largest b
  · calc l.count a + 1 = (l ++ [a]).count a := by rw [hcount, if_pos rfl]
      _ ≤ largest (l ++ [a]) := count_le_largest a

/-- A map that tells no more elements apart has no smaller multiplicity. -/
theorem largest_map_le {γ : Type*} {l : List γ} {f : γ → α} {g : γ → β}
    (h : ∀ a ∈ l, ∀ b ∈ l, f a = f b → g a = g b) : largest (l.map f) ≤ largest (l.map g) := by
  refine largest_le_iff.2 fun _ hk => ?_
  obtain ⟨a, ha, rfl⟩ := List.mem_map.1 hk
  calc (l.map f).count (f a) = l.countP fun b => f b == f a := by
        rw [List.count, List.countP_map]
        rfl
    _ ≤ l.countP fun b => g b == g a := by
        refine List.countP_mono_left fun b hb heq => ?_
        rw [beq_iff_eq] at heq ⊢
        exact h b hb a ha heq
    _ = (l.map g).count (g a) := by
        rw [List.count, List.countP_map]
        rfl
    _ ≤ largest (l.map g) := count_le_largest (g a)

end Tally
