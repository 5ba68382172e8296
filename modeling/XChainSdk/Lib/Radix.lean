import Mathlib.Data.List.TakeWhile
import Mathlib.Data.Nat.Digits.Lemmas

/-!
# Positional notation, most significant digit first

* `Radix.value` : the number that digits spell, read from the left.
* `Radix.fixed` : the digits of a number at a fixed length; `fixed_value` and `value_fixed` make
  it a bijection below the power of the base.
* `Radix.digits` : the digits without leading zeros; `zeros_append_digits` recovers every text of
  digits from its number and its count of leading zeros.
* `Radix.rebase` : digits of one base in another that keep their leading zeros.
-/

namespace Radix

/-- The number that digits of base `b` spell. -/
def value (b : ℕ) (ds : List ℕ) : ℕ := ds.foldl (fun n d => n * b + d) 0

variable {b : ℕ}

theorem value_eq_ofDigits (ds : List ℕ) : value b ds = Nat.ofDigits b ds.reverse := by
  induction ds using List.reverseRecOn with
  | nil => rfl
  | append_singleton ds d ih =>
    rw [value, List.foldl_append, List.reverse_append, List.reverse_singleton,
      List.singleton_append, Nat.ofDigits_cons, ← ih]
    simp only [List.foldl_cons, List.foldl_nil, value]
    ring

@[simp] theorem value_nil : value b [] = 0 := rfl

theorem value_append (ds es : List ℕ) :
    value b (ds ++ es) = value b ds * b ^ es.length + value b es := by
  simp only [value_eq_ofDigits, List.reverse_append, Nat.ofDigits_append, List.length_reverse]
  ring

theorem value_concat (ds : List ℕ) (d : ℕ) : value b (ds ++ [d]) = value b ds * b + d := by
  rw [value, List.foldl_append]
  rfl

theorem value_lt {ds : List ℕ} (h : ∀ d ∈ ds, d < b) : value b ds < b ^ ds.length := by
  induction ds using List.reverseRecOn with
  | nil => simp
  | append_singleton ds d ih =>
    have hd : d < b := h d (by simp)
    have hds : value b ds + 1 ≤ b ^ ds.length := ih fun e he => h e (by simp [he])
    calc value b (ds ++ [d]) = value b ds * b + d := value_concat ds d
      _ < (value b ds + 1) * b := by rw [add_mul]; omega
      _ ≤ b ^ ds.length * b := Nat.mul_le_mul_right b hds
      _ = b ^ (ds ++ [d]).length := by simp [pow_succ]

/-! ### A fixed length -/

/-- The last `k` digits of `n`. -/
def fixed (b : ℕ) : ℕ → ℕ → List ℕ
  | 0, _ => []
  | k + 1, n => fixed b k (n / b) ++ [n % b]

@[simp] theorem length_fixed (k n : ℕ) : (fixed b k n).length = k := by
  induction k generalizing n with
  | zero => rfl
  | succ k ih => simp [fixed, ih]

theorem lt_of_mem_fixed (hb : 0 < b) {k n d : ℕ} (h : d ∈ fixed b k n) : d < b := by
  induction k generalizing n with
  | zero => cases h
  | succ k ih =>
    rcases List.mem_append.1 h with h | h
    · exact ih h
    · rw [List.mem_singleton.1 h]
      exact Nat.mod_lt _ hb

theorem value_fixed (k n : ℕ) : value b (fixed b k n) = n % b ^ k := by
  induction k generalizing n with
  | zero => simp [fixed, Nat.mod_one]
  | succ k ih => rw [fixed, value_concat, ih, pow_succ', Nat.mod_mul, Nat.mul_comm, Nat.add_comm]

theorem value_fixed_of_lt {k n : ℕ} (h : n < b ^ k) : value b (fixed b k n) = n := by
  rw [value_fixed, Nat.mod_eq_of_lt h]

theorem fixed_value {ds : List ℕ} (h : ∀ d ∈ ds, d < b) :
    fixed b ds.length (value b ds) = ds := by
  induction ds using List.reverseRecOn with
  | nil => rfl
  | append_singleton ds d ih =>
    have hd : d < b := h d (by simp)
    have hdiv : (value b ds * b + d) / b = value b ds := by
      rw [Nat.add_comm, Nat.add_mul_div_right _ _ (by omega), Nat.div_eq_of_lt hd, Nat.zero_add]
    have hmod : (value b ds * b + d) % b = d := by
      rw [Nat.add_comm, Nat.add_mul_mod_self_right, Nat.mod_eq_of_lt hd]
    rw [List.length_append, List.length_singleton, fixed, value_concat, hdiv, hmod,
      ih fun e he => h e (by simp [he])]

theorem value_inj {ds es : List ℕ} (hlen : ds.length = es.length) (hds : ∀ d ∈ ds, d < b)
    (hes : ∀ d ∈ es, d < b) (h : value b ds = value b es) : ds = es := by
  rw [← fixed_value hds, ← fixed_value hes, hlen, h]

/-! ### No leading zeros -/

/-- The digits of `n`; zero has none. -/
def digits (b n : ℕ) : List ℕ := (Nat.digits b n).reverse

theorem value_digits (n : ℕ) : value b (digits b n) = n := by
  rw [value_eq_ofDigits, digits, List.reverse_reverse, Nat.ofDigits_digits]

theorem lt_of_mem_digits (hb : 1 < b) {n d : ℕ} (h : d ∈ digits b n) : d < b :=
  Nat.digits_lt_base hb (List.mem_reverse.1 h)

/-- The digits of a number do not begin with a zero. -/
theorem takeWhile_digits (n : ℕ) : (digits b n).takeWhile (· == 0) = [] := by
  rw [List.takeWhile_eq_nil_iff]
  intro hpos hzero
  have hne : Nat.digits b n ≠ [] := by
    intro hnil
    simp [digits, hnil] at hpos
  have hn : n ≠ 0 := by
    rintro rfl
    simp at hne
  have hlast := Nat.getLast_digit_ne_zero b hn
  refine hlast ?_
  simpa [digits, List.getElem_reverse, List.getLast_eq_getElem] using hzero

theorem digits_value {ds : List ℕ} (hb : 1 < b) (h : ∀ d ∈ ds, d < b)
    (hzero : ds.takeWhile (· == 0) = []) : digits b (value b ds) = ds := by
  have hdigits : Nat.digits b (Nat.ofDigits b ds.reverse) = ds.reverse := by
    refine Nat.digits_ofDigits b hb _ (fun d hd => h d (List.mem_reverse.1 hd)) fun hne => ?_
    have hds : ds ≠ [] := fun hnil => hne (by rw [hnil, List.reverse_nil])
    obtain ⟨d, rest, rfl⟩ := List.exists_cons_of_ne_nil hds
    intro hd
    have hd' : d = 0 := by simpa using hd
    simp [hd'] at hzero
  rw [digits, value_eq_ofDigits, hdigits, List.reverse_reverse]

/-- How many zeros digits begin with. -/
def zeros (ds : List ℕ) : ℕ := (ds.takeWhile (· == 0)).length

theorem zeros_append (k n : ℕ) : zeros (List.replicate k 0 ++ digits b n) = k := by
  have hall : ∀ d ∈ List.replicate k 0, (d == 0) = true := fun d hd => by
    rw [List.eq_of_mem_replicate hd]
    rfl
  rw [zeros, List.takeWhile_append_of_pos hall, takeWhile_digits, List.append_nil,
    List.length_replicate]

theorem value_zeros_append (k : ℕ) (ds : List ℕ) :
    value b (List.replicate k 0 ++ ds) = value b ds := by
  have hzero : value b (List.replicate k 0) = 0 := by
    induction k with
    | zero => rfl
    | succ k ih => rw [List.replicate_succ', value_concat, ih, zero_mul]
  rw [value_append, hzero, zero_mul, zero_add]

/-- **Digits are their leading zeros and their number.** -/
theorem zeros_append_digits {ds : List ℕ} (hb : 1 < b) (h : ∀ d ∈ ds, d < b) :
    List.replicate (zeros ds) 0 ++ digits b (value b ds) = ds := by
  have hall : ∀ d ∈ ds.takeWhile (· == 0), d = 0 := fun d hd => by
    simpa using List.mem_takeWhile_imp hd
  have hrep : ds.takeWhile (· == 0) = List.replicate (zeros ds) 0 :=
    List.eq_replicate_iff.2 ⟨rfl, hall⟩
  have hsplit := List.takeWhile_append_dropWhile (p := (· == 0)) (l := ds)
  have hvalue : value b ds = value b (ds.dropWhile (· == 0)) := by
    conv_lhs => rw [← hsplit, hrep, value_zeros_append]
  have hdrop : (ds.dropWhile (· == 0)).takeWhile (· == 0) = [] := by
    rw [List.takeWhile_eq_nil_iff]
    intro hpos
    exact List.dropWhile_get_zero_not _ _ hpos
  rw [hvalue, digits_value hb (fun d hd => h d ((List.dropWhile_sublist _).subset hd)) hdrop,
    ← hrep, hsplit]

/-- The digits of base `b` in base `c`, with their leading zeros one for one. -/
def rebase (b c : ℕ) (ds : List ℕ) : List ℕ :=
  List.replicate (zeros ds) 0 ++ digits c (value b ds)

theorem lt_of_mem_rebase {c : ℕ} (hc : 1 < c) {ds : List ℕ} {d : ℕ} (h : d ∈ rebase b c ds) :
    d < c := by
  rcases List.mem_append.1 h with h | h
  · rw [List.eq_of_mem_replicate h]
    omega
  · exact lt_of_mem_digits hc h

/-- **Another base and back.** -/
theorem rebase_rebase {c : ℕ} {ds : List ℕ} (hb : 1 < b) (h : ∀ d ∈ ds, d < b) :
    rebase c b (rebase b c ds) = ds := by
  have hvalue : value c (rebase b c ds) = value b ds := by
    rw [rebase, value_zeros_append, value_digits]
  rw [rebase, hvalue, rebase, zeros_append, zeros_append_digits hb h]

end Radix
