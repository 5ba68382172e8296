import XChainSdk.Js.Number
import Mathlib.Data.List.TakeWhile
import Mathlib.Data.Nat.Prime.Basic
import Mathlib.Tactic.IntervalCases
import Mathlib.Tactic.LinearCombination
import Mathlib.Tactic.Positivity

/-!
# Decimal texts and big decimals

The big-decimal package is configured for 64 significant digits.  A sum is rounded to them, a
comparison is exact, and `toFixed` writes a number out in plain notation.

* `AllDigits` : text of digits only.
* `isNonNegativeDecimal` : the texts `/^\d+(\.\d+)?$/`.
* `IsDecimal`, `toFixed` : numbers with a finite expansion and their plain text;
  `decimalText_toFixed` reads it back.
* `roundSig` : rounding to significant digits, with `FitsSig` for the numbers that have no more.
* `MathJs` : the reader of numeric text, on plain decimals exact.
-/

namespace XChainSdk

/-! ### Digits -/

theorem digitsValue_append (ds es : List Char) :
    digitsValue (ds ++ es) = digitsValue ds * 10 ^ es.length + digitsValue es := by
  rw [digitsValue, Nat.ofDigitChars_append, Nat.ofDigitChars_eq_ofDigitChars_zero, digitsValue,
    digitsValue, mul_comm]

/-- Text of digits only. -/
def AllDigits (ds : List Char) : Prop := ∀ c ∈ ds, c.isDigit = true

theorem allDigits_toDigits (n : ℕ) : AllDigits (Nat.toDigits 10 n) := fun _ hc =>
  Nat.isDigit_of_mem_toDigits (by decide) (by decide) hc

theorem AllDigits.takeWhile_append {ds : List Char} (h : AllDigits ds) {c : Char}
    (hc : c.isDigit = false) (r : List Char) :
    (ds ++ c :: r).takeWhile Char.isDigit = ds ∧ (ds ++ c :: r).dropWhile Char.isDigit = c :: r := by
  rw [List.takeWhile_append_of_pos h, List.dropWhile_append_of_pos h]
  simp [hc]

theorem AllDigits.takeWhile_self {ds : List Char} (h : AllDigits ds) :
    ds.takeWhile Char.isDigit = ds ∧ ds.dropWhile Char.isDigit = [] :=
  ⟨List.takeWhile_eq_self_iff.2 h, List.dropWhile_eq_nil_iff.2 h⟩

theorem splitSign_of_digits {cs : List Char} {c : Char} (h : c.isDigit = true) :
    splitSign (c :: cs) = (false, c :: cs) := by
  rw [splitSign.eq_def]
  split
  · next he => cases he; exact absurd h (by decide)
  · next he => cases he; exact absurd h (by decide)
  · rfl

theorem isJsSpace_of_isDigit {c : Char} (h : c.isDigit = true) : isJsSpace c = false := by
  simp only [Char.isDigit, Bool.and_eq_true, decide_eq_true_eq, ge_iff_le,
    UInt32.le_iff_toNat_le] at h
  have h1 : 48 ≤ c.toNat := h.1
  have h2 : c.toNat ≤ 57 := h.2
  simp only [isJsSpace, Bool.or_eq_false_iff, Bool.and_eq_false_iff, decide_eq_false_iff_not,
    beq_eq_false_iff_ne]
  omega

theorem trimChars_of_no_space {cs : List Char} (h : ∀ c ∈ cs, isJsSpace c = false) :
    trimChars cs = cs := by
  have hdrop : ∀ l : List Char, (∀ c ∈ l, isJsSpace c = false) → l.dropWhile isJsSpace = l := by
    intro l hl
    cases l with
    | nil => rfl
    | cons c l => simp [hl c (by simp)]
  rw [trimChars, hdrop cs h, hdrop cs.reverse (by simpa using h), List.reverse_reverse]

/-- The text of a plain decimal: integer digits, and a point before any further ones. -/
def pointText (ip fs : List Char) : List Char := ip ++ if fs = [] then [] else '.' :: fs

theorem unsignedDecimal_pointText {ip fs : List Char} (hip : AllDigits ip) (hne : ip ≠ [])
    (hfs : AllDigits fs) : unsignedDecimal (pointText ip fs) =
      some ((digitsValue (ip ++ fs) : ℚ) / 10 ^ fs.length, []) := by
  by_cases h : fs = []
  · obtain ⟨htake, hdrop⟩ := hip.takeWhile_self
    simp [pointText, h, unsignedDecimal, htake, hdrop, hne]
  · obtain ⟨htake, hdrop⟩ := hip.takeWhile_append (c := '.') (by decide) fs
    obtain ⟨hftake, hfdrop⟩ := hfs.takeWhile_self
    simp only [pointText, if_neg h, unsignedDecimal, htake, hdrop, hftake, hfdrop, hne, false_and,
      if_false]

theorem splitSign_pointText {ip fs : List Char} (hip : AllDigits ip) (hne : ip ≠ []) :
    splitSign (pointText ip fs) = (false, pointText ip fs) := by
  obtain ⟨c, ip', rfl⟩ := List.exists_cons_of_ne_nil hne
  exact splitSign_of_digits (hip c (by simp))

/-- A plain decimal reads as its digits over a power of ten. -/
theorem decimalText_pointText {ip fs : List Char} (hip : AllDigits ip) (hne : ip ≠ [])
    (hfs : AllDigits fs) : decimalText (String.ofList (pointText ip fs)) =
      some ((digitsValue (ip ++ fs) : ℚ) / 10 ^ fs.length) := by
  simp only [decimalText, String.toList_ofList, splitSign_pointText hip hne,
    unsignedDecimal_pointText hip hne hfs, Bool.false_eq_true, if_false]

/-! ### Canonical amounts of a policy -/

/-- `/^\d+(\.\d+)?$/`. -/
def isNonNegativeDecimal (s : String) : Bool :=
  let ip := s.toList.takeWhile Char.isDigit
  ip != [] && match s.toList.dropWhile Char.isDigit with
    | [] => true
    | c :: fs => c == '.' && fs != [] && fs.all Char.isDigit

theorem isNonNegativeDecimal_iff {s : String} :
    isNonNegativeDecimal s = true ↔
      ∃ ip fs, AllDigits ip ∧ ip ≠ [] ∧ AllDigits fs ∧ s.toList = pointText ip fs := by
  constructor
  · intro h
    have hsplit := List.takeWhile_append_dropWhile (p := Char.isDigit) (l := s.toList)
    have hip : AllDigits (s.toList.takeWhile Char.isDigit) := fun c hc => List.mem_takeWhile_imp hc
    simp only [isNonNegativeDecimal, Bool.and_eq_true, bne_iff_ne] at h
    obtain ⟨hne, hrest⟩ := h
    cases hd : s.toList.dropWhile Char.isDigit with
    | nil =>
      rw [hd, List.append_nil] at hsplit
      exact ⟨_, [], hip, hne, by simp [AllDigits], by simp [pointText, hsplit]⟩
    | cons c fs =>
      simp only [hd, Bool.and_eq_true, beq_iff_eq, bne_iff_ne] at hrest
      obtain ⟨⟨rfl, hfs⟩, hall⟩ := hrest
      rw [hd] at hsplit
      exact ⟨_, fs, hip, hne, List.all_eq_true.1 hall, by simp [pointText, hfs, hsplit]⟩
  · rintro ⟨ip, fs, hip, hne, hfs, hs⟩
    by_cases h : fs = []
    · obtain ⟨htake, hdrop⟩ := hip.takeWhile_self
      simp [isNonNegativeDecimal, hs, pointText, h, htake, hdrop, hne]
    · obtain ⟨htake, hdrop⟩ := hip.takeWhile_append (c := '.') (by decide) fs
      simp [isNonNegativeDecimal, hs, pointText, h, htake, hdrop, hne, List.all_eq_true.2 hfs]

/-- A number with a finite decimal expansion. -/
def IsDecimal (q : ℚ) : Prop := ∃ (k : ℕ) (z : ℤ), q * 10 ^ k = z

theorem isDecimal_intCast (z : ℤ) : IsDecimal z := ⟨0, z, by simp⟩

theorem IsDecimal.add {p q : ℚ} (hp : IsDecimal p) (hq : IsDecimal q) : IsDecimal (p + q) := by
  obtain ⟨j, y, hy⟩ := hp
  obtain ⟨k, z, hz⟩ := hq
  refine ⟨j + k, y * 10 ^ k + z * 10 ^ j, ?_⟩
  push_cast
  rw [← hy, ← hz]
  ring

theorem IsDecimal.neg {q : ℚ} (hq : IsDecimal q) : IsDecimal (-q) := by
  obtain ⟨k, z, hz⟩ := hq
  exact ⟨k, -z, by push_cast; rw [← hz]; ring⟩

theorem isDecimal_div (n k : ℕ) : IsDecimal ((n : ℚ) / 10 ^ k) :=
  ⟨k, n, by rw [div_mul_cancel₀ _ (by positivity)]; norm_cast⟩

/-- What a canonical amount reads as. -/
theorem decimalText_of_isNonNegativeDecimal {s : String} (h : isNonNegativeDecimal s = true) :
    ∃ q, decimalText s = some q ∧ 0 ≤ q ∧ IsDecimal q := by
  obtain ⟨ip, fs, hip, hne, hfs, hs⟩ := isNonNegativeDecimal_iff.1 h
  refine ⟨(digitsValue (ip ++ fs) : ℚ) / 10 ^ fs.length, ?_, by positivity, isDecimal_div _ _⟩
  have hof : s = String.ofList (pointText ip fs) := by rw [← hs, String.ofList_toList]
  rw [hof, decimalText_pointText hip hne hfs]

/-! ### Plain notation -/

/-- The digits of `r` after its point, `n` of them at most. -/
def fracDigits : ℕ → ℚ → List Char
  | 0, _ => []
  | n + 1, r =>
    if r = 0 then [] else Nat.digitChar ⌊r * 10⌋.toNat :: fracDigits n (r * 10 - ⌊r * 10⌋)

/-- The plain text of a number at or above zero. -/
def unsignedFixed (q : ℚ) : List Char :=
  pointText (Nat.toDigits 10 ⌊q⌋.toNat) (fracDigits q.den (q - ⌊q⌋))

/-- `toFixed()` of a finite number. -/
def toFixed (q : ℚ) : String :=
  String.ofList (if q < 0 then '-' :: unsignedFixed (-q) else unsignedFixed q)

theorem digitsValue_cons_digitChar {d : ℕ} (hd : d < 10) (ds : List Char) :
    digitsValue (Nat.digitChar d :: ds) = d * 10 ^ ds.length + digitsValue ds := by
  have h1 : digitsValue [Nat.digitChar d] = d := by
    rw [digitsValue, Nat.ofDigitChars_cons_digitChar_of_lt_ten hd, Nat.ofDigitChars_nil]
    omega
  rw [← List.singleton_append, digitsValue_append, h1]

theorem isDigit_digitChar {d : ℕ} (hd : d < 10) : (Nat.digitChar d).isDigit = true := by
  interval_cases d <;> decide

/-- The induction is on the places left: one more digit of `r` leaves the rest of `r * 10`. -/
theorem fracDigits_spec (n : ℕ) (r : ℚ) (h0 : 0 ≤ r) (h1 : r < 1)
    (hz : ∃ z : ℤ, r * 10 ^ n = z) :
    AllDigits (fracDigits n r) ∧
      (digitsValue (fracDigits n r) : ℚ) / 10 ^ (fracDigits n r).length = r := by
  induction n generalizing r with
  | zero =>
    obtain ⟨z, hz⟩ := hz
    have hr : r = z := by simpa using hz
    have hz0 : z = 0 := by
      have hlo : 0 ≤ z := by rw [hr] at h0; exact_mod_cast h0
      have hhi : z < 1 := by rw [hr] at h1; exact_mod_cast h1
      omega
    exact ⟨by simp [AllDigits, fracDigits], by simp [fracDigits, digitsValue, hr, hz0]⟩
  | succ n ih =>
    by_cases hr : r = 0
    · exact ⟨by simp [AllDigits, fracDigits, hr], by simp [fracDigits, digitsValue, hr]⟩
    · have hfloor : (⌊r * 10⌋ : ℚ) ≤ r * 10 := Int.floor_le _
      have hlt : r * 10 < ⌊r * 10⌋ + 1 := Int.lt_floor_add_one _
      have hnonneg : 0 ≤ ⌊r * 10⌋ := Int.floor_nonneg.2 (by positivity)
      have hten : ⌊r * 10⌋ < 10 := by
        rw [Int.floor_lt]
        push_cast
        linarith
      have hcast : ((⌊r * 10⌋.toNat : ℕ) : ℚ) = ⌊r * 10⌋ := by
        rw [← Int.cast_natCast, Int.toNat_of_nonneg hnonneg]
      have hd : ⌊r * 10⌋.toNat < 10 := by omega
      obtain ⟨z, hz⟩ := hz
      obtain ⟨hall, hval⟩ := ih (r * 10 - ⌊r * 10⌋) (by linarith) (by linarith)
        ⟨z - ⌊r * 10⌋ * 10 ^ n, by push_cast; rw [← hz]; ring⟩
      rw [fracDigits, if_neg hr]
      refine ⟨fun c hc => ?_, ?_⟩
      · rcases List.mem_cons.1 hc with rfl | hc
        · exact isDigit_digitChar hd
        · exact hall c hc
      · rw [digitsValue_cons_digitChar hd, List.length_cons]
        rw [div_eq_iff (by positivity)] at hval ⊢
        push_cast
        rw [hcast, hval]
        ring

theorem dvd_ten_pow_self {b k : ℕ} (hb : b ≠ 0) (h : b ∣ 10 ^ k) : b ∣ 10 ^ b := by
  have h25 : b ∣ 2 ^ k * 5 ^ k := by rw [← mul_pow]; exact h
  obtain ⟨x, y, hx, hy, rfl⟩ := Nat.dvd_mul.1 h25
  obtain ⟨i, -, rfl⟩ := (Nat.dvd_prime_pow Nat.prime_two).1 hx
  obtain ⟨j, -, rfl⟩ := (Nat.dvd_prime_pow Nat.prime_five).1 hy
  have hi : i ≤ 2 ^ i * 5 ^ j :=
    (Nat.lt_pow_self (by decide)).le.trans (Nat.le_mul_of_pos_right _ (by positivity))
  have hj : j ≤ 2 ^ i * 5 ^ j :=
    (Nat.lt_pow_self (by decide)).le.trans (Nat.le_mul_of_pos_left _ (by positivity))
  calc 2 ^ i * 5 ^ j ∣ 2 ^ (2 ^ i * 5 ^ j) * 5 ^ (2 ^ i * 5 ^ j) :=
        mul_dvd_mul (pow_dvd_pow 2 hi) (pow_dvd_pow 5 hj)
    _ = 10 ^ (2 ^ i * 5 ^ j) := (mul_pow 2 5 _).symm

/-- As many places as the denominator counts are enough for a finite expansion. -/
theorem IsDecimal.mul_ten_pow_den {q : ℚ} (h : IsDecimal q) : ∃ z : ℤ, q * 10 ^ q.den = z := by
  obtain ⟨k, z, hz⟩ := h
  have hnum : q.num * 10 ^ k = z * q.den := by
    have hq : q * q.den = q.num := Rat.mul_den_eq_num q
    have hc : (q.num : ℚ) * 10 ^ k = z * q.den := by rw [← hq, ← hz]; ring
    exact_mod_cast hc
  have hdvd : q.den ∣ 10 ^ k := by
    have hint : (q.den : ℤ) ∣ q.num * 10 ^ k := ⟨z, by rw [hnum, mul_comm]⟩
    have hnat : q.den ∣ q.num.natAbs * 10 ^ k := by
      have := Int.natAbs_dvd_natAbs.2 hint
      simpa [Int.natAbs_mul, Int.natAbs_pow] using this
    exact (q.reduced.symm.dvd_of_dvd_mul_left hnat)
  obtain ⟨m, hm⟩ := dvd_ten_pow_self q.den_ne_zero hdvd
  refine ⟨q.num * m, ?_⟩
  have hq : q * q.den = q.num := Rat.mul_den_eq_num q
  have hpow : (10 : ℚ) ^ q.den = q.den * m := by exact_mod_cast hm
  rw [hpow, ← mul_assoc, hq]
  push_cast
  rfl

theorem unsignedFixed_spec {q : ℚ} (h0 : 0 ≤ q) (h : IsDecimal q) :
    ∃ ip fs, AllDigits ip ∧ ip ≠ [] ∧ AllDigits fs ∧ unsignedFixed q = pointText ip fs ∧
      (digitsValue (ip ++ fs) : ℚ) / 10 ^ fs.length = q := by
  obtain ⟨z, hz⟩ := h.mul_ten_pow_den
  obtain ⟨hall, hval⟩ := fracDigits_spec q.den (q - ⌊q⌋) (sub_nonneg.2 (Int.floor_le q))
    (by linarith [Int.lt_floor_add_one q])
    ⟨z - ⌊q⌋ * 10 ^ q.den, by push_cast; rw [← hz]; ring⟩
  refine ⟨_, _, allDigits_toDigits _, Nat.toDigits_ne_nil, hall, rfl, ?_⟩
  have hint : digitsValue (Nat.toDigits 10 ⌊q⌋.toNat) = ⌊q⌋.toNat := Nat.ofDigitChars_ten_toDigits
  have hcast : ((⌊q⌋.toNat : ℕ) : ℚ) = ⌊q⌋ := by
    rw [← Int.cast_natCast, Int.toNat_of_nonneg (Int.floor_nonneg.2 h0)]
  rw [div_eq_iff (by positivity)] at hval ⊢
  rw [digitsValue_append, hint]
  push_cast
  rw [hval, hcast]
  ring

/-- **Plain notation is lossless.** -/
theorem decimalText_toFixed {q : ℚ} (h : IsDecimal q) : decimalText (toFixed q) = some q := by
  by_cases hneg : q < 0
  · obtain ⟨ip, fs, hip, hne, hfs, htext, hval⟩ := unsignedFixed_spec (q := -q) (by linarith) h.neg
    simp only [toFixed, if_pos hneg, decimalText, String.toList_ofList, splitSign, htext,
      unsignedDecimal_pointText hip hne hfs, hval, if_true, neg_neg]
  · obtain ⟨ip, fs, hip, hne, hfs, htext, hval⟩ := unsignedFixed_spec (not_lt.1 hneg) h
    rw [toFixed, if_neg hneg, htext, decimalText_pointText hip hne hfs, hval]

theorem isNonNegativeDecimal_toFixed {q : ℚ} (h0 : 0 ≤ q) (h : IsDecimal q) :
    isNonNegativeDecimal (toFixed q) = true := by
  obtain ⟨ip, fs, hip, hne, hfs, htext, -⟩ := unsignedFixed_spec h0 h
  exact isNonNegativeDecimal_iff.2 ⟨ip, fs, hip, hne, hfs, by
    rw [toFixed, if_neg (not_lt.2 h0), String.toList_ofList, htext]⟩

/-! ### Significant digits -/

/-- The unit of the last of `p` significant digits. -/
def sigUnit (p : ℕ) (q : ℚ) : ℚ := 10 ^ (Int.log 10 |q| - p + 1)

/-- Rounds to `p` significant digits, halves away from zero. -/
def roundSig (p : ℕ) (q : ℚ) : ℚ :=
  let r : ℚ := ⌊|q| / sigUnit p q + 1 / 2⌋ * sigUnit p q
  if q < 0 then -r else r

/-- The number has `p` significant digits at most. -/
def FitsSig (p : ℕ) (q : ℚ) : Prop := (|q| / sigUnit p q).den = 1

instance (p : ℕ) (q : ℚ) : Decidable (FitsSig p q) := inferInstanceAs (Decidable (_ = _))

theorem sigUnit_pos (p : ℕ) (q : ℚ) : 0 < sigUnit p q := zpow_pos (by norm_num) _

theorem roundSig_of_fits {p : ℕ} {q : ℚ} (h : FitsSig p q) : roundSig p q = q := by
  have hz : ((|q| / sigUnit p q).num : ℚ) = |q| / sigUnit p q := Rat.coe_int_num_of_den_eq_one h
  have hfloor : ⌊|q| / sigUnit p q + 1 / 2⌋ = (|q| / sigUnit p q).num := by
    rw [← hz, Int.floor_intCast_add, Rat.num_intCast]
    norm_num
  have hr : (⌊|q| / sigUnit p q + 1 / 2⌋ : ℚ) * sigUnit p q = |q| := by
    rw [hfloor, hz, div_mul_cancel₀ _ (sigUnit_pos p q).ne']
  by_cases hneg : q < 0
  · rw [roundSig, if_pos hneg, hr, abs_of_neg hneg, neg_neg]
  · rw [roundSig, if_neg hneg, hr, abs_of_nonneg (not_lt.1 hneg)]

theorem isDecimal_mul_zpow (z e : ℤ) : IsDecimal ((z : ℚ) * 10 ^ e) := by
  obtain ⟨n, rfl | rfl⟩ := Int.eq_nat_or_neg e
  · exact ⟨0, z * 10 ^ n, by push_cast; rw [zpow_natCast]; ring⟩
  · refine ⟨n, z, ?_⟩
    rw [zpow_neg, zpow_natCast, mul_assoc, inv_mul_cancel₀ (by positivity), mul_one]

theorem isDecimal_roundSig (p : ℕ) (q : ℚ) : IsDecimal (roundSig p q) := by
  have hr : IsDecimal ((⌊|q| / sigUnit p q + 1 / 2⌋ : ℚ) * sigUnit p q) := isDecimal_mul_zpow _ _
  rw [roundSig]
  split_ifs
  exacts [hr.neg, hr]

theorem roundSig_nonneg {p : ℕ} {q : ℚ} (h : 0 ≤ q) : 0 ≤ roundSig p q := by
  rw [roundSig, if_neg (not_lt.2 h)]
  have hfloor : 0 ≤ ⌊|q| / sigUnit p q + 1 / 2⌋ :=
    Int.floor_nonneg.2 (by have := sigUnit_pos p q; positivity)
  exact mul_nonneg (by exact_mod_cast hfloor) (sigUnit_pos p q).le

/-! ### The big-decimal package -/

/-- Significant digits of the package's sums. -/
def BIGNUMBER_PRECISION : ℕ := 64

namespace JsNum

/-- `x.plus(y)`. -/
def plus : JsNum → JsNum → JsNum
  | fin p, fin q => fin (roundSig BIGNUMBER_PRECISION (p + q))
  | inf a, inf b => if a = b then inf a else nan
  | inf a, fin _ | fin _, inf a => inf a
  | nan, _ | _, nan => nan

/-- `x.minus(y)`. -/
def minus (x y : JsNum) : JsNum :=
  x.plus (match y with
    | fin q => fin (-q)
    | inf neg => inf !neg
    | nan => nan)

/-- `x.toFixed()`. -/
def toFixedText : JsNum → String
  | nan => "NaN"
  | inf true => "-Infinity"
  | inf false => "Infinity"
  | fin q => toFixed q

theorem toFixedText_ne_empty (x : JsNum) : x.toFixedText ≠ "" := by
  cases x with
  | nan => decide
  | inf negative => cases negative <;> decide
  | fin q =>
    intro h
    have hnil := congrArg String.toList h
    rw [toFixedText, toFixed, String.toList_ofList] at hnil
    split_ifs at hnil
    · cases hnil
    · rw [unsignedFixed, pointText] at hnil
      exact Nat.toDigits_ne_nil (List.append_eq_nil_iff.1 hnil).1

end JsNum

/-- `math.bignumber(s)`; `none` is a thrown error.  Plain decimals are read exactly. -/
structure MathJs where
  bignumber : String → Option JsNum
  bignumber_decimal : ∀ s, isNonNegativeDecimal s = true →
    bignumber s = (decimalText s).map .fin
  bignumber_toFixed : ∀ q, IsDecimal q → bignumber (toFixed q) = some (.fin q)
  isDecimal_bignumber : ∀ s q, bignumber s = some (.fin q) → IsDecimal q

namespace MathJs

variable (M : MathJs)

/-- Exact decimal comparison `a > b`. -/
def gtDecimal (a b : String) : Option Bool := do
  let x ← M.bignumber a
  let y ← M.bignumber b
  return y.lt x

/-- The sum of two decimals in plain notation. -/
def addDecimal (a b : String) : Option String := do
  let x ← M.bignumber a
  let y ← M.bignumber b
  return (x.plus y).toFixedText

/-- The finite number that a text reads as. -/
def value (s : String) : Option ℚ := (M.bignumber s).bind JsNum.toRat?

theorem value_eq_some {s : String} {q : ℚ} :
    M.value s = some q ↔ M.bignumber s = some (.fin q) := by
  unfold value
  cases M.bignumber s with
  | none => simp
  | some x => cases x <;> simp [JsNum.toRat?]

theorem value_decimal {s : String} (h : isNonNegativeDecimal s = true) :
    M.value s = decimalText s := by
  unfold value
  rw [M.bignumber_decimal s h]
  cases decimalText s <;> rfl

/-- A sum of finite decimals, rounded to the precision of the package. -/
theorem value_addDecimal {a b : String} {x y : ℚ} (ha : M.value a = some x)
    (hb : M.value b = some y) : ∃ s, M.addDecimal a b = some s ∧
      M.value s = some (roundSig BIGNUMBER_PRECISION (x + y)) := by
  rw [value_eq_some] at ha hb
  exact ⟨toFixed (roundSig BIGNUMBER_PRECISION (x + y)),
    by simp [addDecimal, ha, hb, JsNum.plus, JsNum.toFixedText],
    M.value_eq_some.2 (M.bignumber_toFixed _ (isDecimal_roundSig _ _))⟩

theorem gtDecimal_eq {a b : String} {x y : ℚ} (ha : M.value a = some x)
    (hb : M.value b = some y) : M.gtDecimal a b = some (decide (y < x)) := by
  rw [value_eq_some] at ha hb
  simp [gtDecimal, ha, hb, JsNum.lt]

theorem value_zero : M.value "0" = some 0 := by
  rw [M.value_decimal (by decide)]
  decide +kernel

end MathJs

theorem unsignedDecimal_isDecimal {cs r : List Char} {q : ℚ}
    (h : unsignedDecimal cs = some (q, r)) : IsDecimal q := by
  simp only [unsignedDecimal] at h
  split_ifs at h
  cases h
  exact isDecimal_div _ _

/-- A reader that takes plain decimals and nothing else. -/
def plainMath : MathJs where
  bignumber s := (decimalText s).map .fin
  bignumber_decimal _ _ := rfl
  bignumber_toFixed q h := by rw [decimalText_toFixed h, Option.map_some]
  isDecimal_bignumber s q h := by
    obtain ⟨p, hp, rfl⟩ : ∃ p, decimalText s = some p ∧ p = q := by simpa using h
    simp only [decimalText] at hp
    split at hp
    · next hu =>
      have hdec := unsignedDecimal_isDecimal hu
      split_ifs at hp
      · cases hp; exact hdec.neg
      · cases hp; exact hdec
    · cases hp

end XChainSdk
