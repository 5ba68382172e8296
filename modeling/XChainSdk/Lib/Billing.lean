import Mathlib.Algebra.Order.Group.Defs
import Mathlib.Algebra.Order.BigOperators.Group.List
import Mathlib.Tactic.Abel

/-!
# Charges against one balance

Charges are served in the order of a list; one that does not fit what is left is passed over.

* `Billing.served` : which charges are served.
* `Billing.count_eq_fits_iff` : when the charges served are those of the prefix that fits.
* `Billing.nothingLater_of_sum_le` : charges whose sum fits the balance are all served.
* `Billing.Completes` : charges of which some were not known beforehand.
-/

namespace Billing

variable {α : Type*} [AddCommGroup α] [LinearOrder α]

/-- Which of the charges are served. -/
def served (b : α) : List α → List Bool
  | [] => []
  | c :: cs => if c ≤ b then true :: served (b - c) cs else false :: served b cs

/-- The number of charges that are served. -/
def count (b : α) (cs : List α) : ℕ := (served b cs).count true

/-- The length of the longest prefix that fits. -/
def fits (b : α) : List α → ℕ
  | [] => 0
  | c :: cs => if c ≤ b then fits (b - c) cs + 1 else 0

/-- What is left once the prefix that fits is paid. -/
def left (b : α) (cs : List α) : α := b - (cs.take (fits b cs)).sum

/-- No charge after the prefix that fits can be served. -/
def NothingLater (b : α) (cs : List α) : Prop := ∀ c ∈ cs.drop (fits b cs), left b cs < c

variable {b c : α} {cs : List α}

theorem count_cons (b c : α) (cs : List α) :
    count b (c :: cs) = if c ≤ b then count (b - c) cs + 1 else count b cs := by
  rw [count, served]
  split <;> simp [count]

theorem left_cons (h : c ≤ b) : left b (c :: cs) = left (b - c) cs := by
  rw [left, left, fits, if_pos h, List.take_succ_cons, List.sum_cons]
  abel

theorem count_eq_zero_iff : count b cs = 0 ↔ ∀ c ∈ cs, b < c := by
  induction cs generalizing b with
  | nil => simp [count, served]
  | cons c cs ih =>
    rw [count_cons, List.forall_mem_cons]
    by_cases h : c ≤ b
    · simp [h, not_lt.2 h]
    · simp [h, not_le.1 h, ih]

/-- The prefix that fits is served, and then what fits of the rest. -/
theorem count_eq_fits_add (b : α) (cs : List α) :
    count b cs = fits b cs + count (left b cs) (cs.drop (fits b cs)) := by
  induction cs generalizing b with
  | nil => rfl
  | cons c cs ih =>
    by_cases h : c ≤ b
    · rw [count_cons, if_pos h, left_cons h, fits, if_pos h, List.drop_succ_cons, ih]
      omega
    · simp [fits, left, h]

/-- **The charges served are those of the prefix that fits** if nothing later fits what is left. -/
theorem count_eq_fits_iff : count b cs = fits b cs ↔ NothingLater b cs := by
  rw [count_eq_fits_add, NothingLater, ← count_eq_zero_iff]
  omega

theorem nothingLater_of_lt (h : ∀ c ∈ cs, b < c) : NothingLater b cs := by
  rw [← count_eq_fits_iff, count_eq_zero_iff.2 h]
  cases cs with
  | nil => rfl
  | cons c cs => rw [fits, if_neg (not_le.2 (h c List.mem_cons_self))]

variable [IsOrderedAddMonoid α]

theorem fits_eq_length_of_sum_le (hnonneg : ∀ c ∈ cs, 0 ≤ c) (h : cs.sum ≤ b) :
    fits b cs = cs.length := by
  induction cs generalizing b with
  | nil => rfl
  | cons c cs ih =>
    rw [List.forall_mem_cons] at hnonneg
    obtain ⟨hc, hcs⟩ := hnonneg
    rw [List.sum_cons] at h
    have hfits : c ≤ b := (le_add_of_nonneg_right (List.sum_nonneg hcs)).trans h
    rw [fits, if_pos hfits, ih hcs (le_sub_iff_add_le'.2 h), List.length_cons]

theorem nothingLater_of_sum_le (hnonneg : ∀ c ∈ cs, 0 ≤ c) (h : cs.sum ≤ b) :
    NothingLater b cs := by
  intro c hc
  rw [fits_eq_length_of_sum_le hnonneg h, List.drop_length] at hc
  cases hc

/-! ### Charges that were not known -/

/-- The charges complete a list of which some were known. -/
def Completes (known : List (Option α)) (cs : List α) : Prop :=
  List.Forall₂ (fun k c => 0 ≤ c ∧ ∀ a, k = some a → c = a) known cs

/-- Every charge that was known is served. -/
def KnownServed (known : List (Option α)) (b : α) (cs : List α) : Prop :=
  List.Forall₂ (fun k ok => k.isSome → ok = true) known (served b cs)

/-- Known charges that are all served fit the balance together, whatever the others are. -/
theorem sum_known_le {known : List (Option α)} (hcompletes : Completes known cs)
    (hserved : KnownServed known b cs) (hsome : ∃ k ∈ known, k.isSome) :
    (known.filterMap id).sum ≤ b := by
  have hstep (known : List (Option α)) (cs : List α) (b : α) (hcompletes : Completes known cs)
      (hserved : KnownServed known b cs) (hb : 0 ≤ b) : (known.filterMap id).sum ≤ b := by
    induction hcompletes generalizing b with
    | nil => simpa using hb
    | @cons k c known cs hkc _ ih =>
      obtain ⟨hc, hknown⟩ := hkc
      rw [KnownServed, served] at hserved
      by_cases hfit : c ≤ b
      · rw [if_pos hfit, List.forall₂_cons] at hserved
        have hrest := ih (b - c) hserved.2 (sub_nonneg.2 hfit)
        cases k with
        | none =>
          rw [List.filterMap_cons_none rfl]
          exact hrest.trans (sub_le_self b hc)
        | some a =>
          have hsum : ((some a :: known).filterMap id).sum = a + (known.filterMap id).sum := by simp
          rw [hsum, ← hknown a rfl]
          exact le_sub_iff_add_le'.1 hrest
      · rw [if_neg hfit, List.forall₂_cons] at hserved
        cases k with
        | none =>
          rw [List.filterMap_cons_none rfl]
          exact ih b hserved.2 hb
        | some a => exact absurd (hserved.1 rfl) Bool.false_ne_true
  refine hstep known cs b hcompletes hserved ?_
  -- a charge that is served is no more than the balance
  induction hcompletes generalizing b with
  | nil => obtain ⟨k, hk, -⟩ := hsome; cases hk
  | @cons k c known cs hkc _ ih =>
    obtain ⟨hc, hknown⟩ := hkc
    rw [KnownServed, served] at hserved
    by_cases hfit : c ≤ b
    · exact hc.trans hfit
    · rw [if_neg hfit, List.forall₂_cons] at hserved
      refine ih hserved.2 ?_
      obtain ⟨k', hk', hsome'⟩ := hsome
      rcases List.mem_cons.1 hk' with rfl | hk'
      · exact absurd (hserved.1 hsome') Bool.false_ne_true
      · exact ⟨k', hk', hsome'⟩

end Billing
