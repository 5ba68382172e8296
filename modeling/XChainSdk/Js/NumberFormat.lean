import XChainSdk.Js.Decimal
import XChainSdk.Js.Value
import Mathlib.Data.List.DropRight

/-!
# Big decimals in the program

The helpers that the program wraps around the big-decimal package.  They read a value, round to 64
significant digits after every operation, and write the result in plain notation.

* `isNumeric`, `Utility.bcnum` : the values that are read, and what they read as.
* `JsNum.times`, `JsNum.dividedBy` : the operations of the package.
* `parseIntText_natText` : `parseInt` of a count.
* `toFixedAt` : plain notation with a fixed number of decimals.
* `bcnum_signedText`, `Spells.bcnum` : a signed plain decimal reads as its number, or as zero when
  a double cannot hold it.
-/

namespace XChainSdk

/-! ### Which values are numbers -/

/-- `isNumeric` -/
def isNumeric : Js → Bool
  | .bigint _ => true
  | x => decide (parseFloatText x.toText ≠ .nan) && x.toNumber.isFinite

/-- `significantDigits` of a finite number: those of its shortest text. -/
def significantDigits : JsNum → ℕ
  | .fin q =>
    let mantissa := ((finiteText q).takeWhile fun c => c != 'e').filter fun c => c != '-' && c != '.'
    ((mantissa.dropWhile (· == '0')).rdropWhile (· == '0')).length
  | _ => 0

/-- The number is no faithful reading of what the caller wrote. -/
def isRounded : Js → Bool
  | .num (.fin q) => decide (q.den = 1 ∧ 2 ^ 53 ≤ |q|) || decide (15 < significantDigits (.fin q))
  | _ => false

/-- `bcnum` -/
def Utility.bcnum (M : MathJs) (num : Js) : Option JsNum :=
  let text := trim num.toText
  if text = "NaN" ∨ text = "Infinity" ∨ text = "-Infinity" ∨ isNumeric num = false then
    some (.fin 0)
  else M.bignumber text

/-! ### Operations -/

namespace JsNum

/-- `x.times(y)`. -/
def times : JsNum → JsNum → JsNum
  | fin p, fin q => fin (roundSig BIGNUMBER_PRECISION (p * q))
  | inf a, inf b => inf (a != b)
  | inf a, fin q | fin q, inf a => if q = 0 then nan else inf (a != decide (q < 0))
  | nan, _ | _, nan => nan

/-- `x.div(y)`. -/
def dividedBy : JsNum → JsNum → JsNum
  | fin p, fin q =>
    if q = 0 then if p = 0 then nan else inf (decide (p < 0))
    else fin (roundSig BIGNUMBER_PRECISION (p / q))
  | inf _, inf _ => nan
  | inf a, fin q => inf (a != decide (q < 0))
  | fin _, inf _ => fin 0
  | nan, _ | _, nan => nan

/-- `x.floor()`. -/
def floor : JsNum → JsNum
  | fin q => fin ⌊q⌋
  | x => x

end JsNum

/-! ### Counts -/

theorem digitIn_ten {c : Char} (hc : c.isDigit = true) : digitIn 10 c = some (c.toNat - 48) := by
  simp only [Char.isDigit, Bool.and_eq_true, decide_eq_true_eq, ge_iff_le,
    UInt32.le_iff_toNat_le] at hc
  obtain ⟨h1, h2⟩ := hc
  have hlow : '0' ≤ c := UInt32.le_iff_toNat_le.2 h1
  have hhigh : c ≤ '9' := UInt32.le_iff_toNat_le.2 h2
  have hnat : c.toNat ≤ 57 := h2
  simp only [digitIn, hlow, hhigh, and_self, if_true, Option.filter_some]
  exact if_pos (by simp; omega)

theorem radixValue_ten {ds : List Char} (h : AllDigits ds) : radixValue 10 ds = digitsValue ds := by
  rw [radixValue, digitsValue, Nat.ofDigitChars]
  refine List.foldl_ext _ _ _ fun acc c hc => ?_
  rw [digitIn_ten (h c hc), Option.getD_some]
  rfl

theorem parseIntText_natText (n : ℕ) : parseIntText (natText n) = toDouble n := by
  have hdig := allDigits_toDigits n
  have hvalue : digitsValue (Nat.toDigits 10 n) = n := Nat.ofDigitChars_ten_toDigits
  obtain ⟨c, cs, hcs⟩ := List.exists_cons_of_ne_nil (Nat.toDigits_ne_nil (b := 10) (n := n))
  rw [hcs] at hdig hvalue
  have hc : c.isDigit = true := hdig c (by simp)
  have htake : (c :: cs).takeWhile (fun c => (digitIn 10 c).isSome) = c :: cs := by
    refine List.takeWhile_eq_self_iff.2 fun d hd => ?_
    rw [digitIn_ten (hdig d hd), Option.isSome_some]
  have hdigits : parseDigits 10 false (c :: cs) = toDouble n := by
    rw [parseDigits, htake, if_neg (List.cons_ne_nil c cs), radixValue_ten hdig, hvalue]
    rfl
  have hdrop : (c :: cs).dropWhile isJsSpace = c :: cs := by
    rw [List.dropWhile_cons_of_neg (by rw [isJsSpace_of_isDigit hc]; simp)]
  rw [parseIntText, natText, String.toList_ofList, hcs, hdrop, splitSign_of_digits hc]
  dsimp only
  split
  · next rest h =>
    -- the second character is a digit, so this is no radix prefix
    exact absurd (hdig 'x' (by rw [h]; simp)) (by decide)
  · next rest h => exact absurd (hdig 'X' (by rw [h]; simp)) (by decide)
  · exact hdigits

/-! ### Plain notation with fixed decimals -/

/-- A magnitude in units of the last of `d` decimals, halves away from zero. -/
def fixedUnits (d : ℕ) (q : ℚ) : ℕ := ⌊|q| * 10 ^ d + 1 / 2⌋.toNat

/-- The last `d` digits. -/
def lastDigits (d n : ℕ) : List Char :=
  if d = 0 then [] else
    List.replicate (d - (Nat.toDigits 10 (n % 10 ^ d)).length) '0' ++ Nat.toDigits 10 (n % 10 ^ d)

/-- `format(x, { notation: 'fixed', precision: d })`. -/
def toFixedAt (d : ℕ) : JsNum → String
  | .fin q =>
    let text := pointText (Nat.toDigits 10 (fixedUnits d q / 10 ^ d)) (lastDigits d (fixedUnits d q))
    String.ofList (if q < 0 then '-' :: text else text)
  | x => x.toFixedText

/-! ### Signed plain decimals -/

/-- The text of a plain decimal with a sign in front. -/
def signedText (neg : Bool) (ip fs : List Char) : List Char :=
  if neg then '-' :: pointText ip fs else pointText ip fs

/-- The number that a signed plain decimal spells. -/
def signedValue (neg : Bool) (ip fs : List Char) : ℚ :=
  if neg then -((digitsValue (ip ++ fs) : ℚ) / 10 ^ fs.length)
  else (digitsValue (ip ++ fs) : ℚ) / 10 ^ fs.length

/-- A reader that reads signed decimals too. -/
def MathJs.ReadsSigned (M : MathJs) : Prop :=
  ∀ neg ip fs, AllDigits ip → ip ≠ [] → AllDigits fs →
    M.bignumber (String.ofList (signedText neg ip fs)) = some (.fin (signedValue neg ip fs))

variable {neg : Bool} {ip fs : List Char}

theorem isJsSpace_of_mem_signedText (hip : AllDigits ip) (hfs : AllDigits fs) {c : Char}
    (hc : c ∈ signedText neg ip fs) : isJsSpace c = false := by
  have hpoint : c ∈ pointText ip fs → isJsSpace c = false := by
    intro hmem
    rcases List.mem_append.1 hmem with hmem | hmem
    · exact isJsSpace_of_isDigit (hip c hmem)
    · split at hmem
      · cases hmem
      · rcases List.mem_cons.1 hmem with rfl | hmem
        · decide
        · exact isJsSpace_of_isDigit (hfs c hmem)
  cases neg with
  | false => exact hpoint hc
  | true =>
    rcases List.mem_cons.1 hc with rfl | hmem
    · decide
    · exact hpoint hmem

theorem trim_signedText (hip : AllDigits ip) (hfs : AllDigits fs) :
    trimChars (signedText neg ip fs) = signedText neg ip fs :=
  trimChars_of_no_space fun _ => isJsSpace_of_mem_signedText hip hfs

theorem splitSign_signedText (hip : AllDigits ip) (hne : ip ≠ []) :
    splitSign (signedText neg ip fs) = (neg, pointText ip fs) := by
  cases neg with
  | false => exact splitSign_pointText hip hne
  | true => rfl

/-- A point text begins with a digit. -/
theorem exists_pointText_cons (fs : List Char) (hip : AllDigits ip) (hne : ip ≠ []) :
    ∃ c cs, c.isDigit = true ∧ pointText ip fs = c :: cs := by
  obtain ⟨c, ip', rfl⟩ := List.exists_cons_of_ne_nil hne
  exact ⟨c, _, hip c List.mem_cons_self, rfl⟩

theorem not_infinity_of_pointText (hip : AllDigits ip) (hne : ip ≠ []) :
    pointText ip fs ≠ "Infinity".toList ∧ "Infinity".toList.isPrefixOf (pointText ip fs) = false := by
  obtain ⟨c, cs, hc, htext⟩ := exists_pointText_cons fs hip hne
  have hI : c ≠ 'I' := by
    rintro rfl
    exact absurd hc (by decide)
  have hlist : "Infinity".toList = 'I' :: "nfinity".toList := by decide
  rw [htext, hlist]
  constructor
  · intro h
    exact hI (List.cons.inj h).1
  · simp [List.isPrefixOf, Ne.symm hI]

theorem toDouble_ne_nan (q : ℚ) : toDouble q ≠ .nan := by
  unfold toDouble
  split
  · exact JsNum.noConfusion
  · dsimp only
    split <;> exact JsNum.noConfusion

theorem decimalLiteral_signedText (hip : AllDigits ip) (hne : ip ≠ []) (hfs : AllDigits fs) :
    decimalLiteral (signedText neg ip fs) = toDouble (signedValue neg ip fs) := by
  simp only [decimalLiteral, splitSign_signedText hip hne,
    (not_infinity_of_pointText hip hne).1, if_false, unsignedDecimal_pointText hip hne hfs]
  cases neg <;> rfl

theorem stringToNumber_signedText (hip : AllDigits ip) (hne : ip ≠ []) (hfs : AllDigits fs) :
    stringToNumber (String.ofList (signedText neg ip fs)) = toDouble (signedValue neg ip fs) := by
  rw [stringToNumber, String.toList_ofList, trim_signedText hip hfs]
  obtain ⟨d, ds, hd, htext⟩ := exists_pointText_cons fs hip hne
  split
  · next hnil =>
    cases neg <;> simp [signedText, htext] at hnil
  · next c cs hcons =>
    -- the second character is a digit or a point, so no radix prefix is read
    have hc : c.isDigit = true ∨ c = '.' := by
      cases neg with
      | true => exact absurd (List.cons.inj hcons).1 (by decide)
      | false =>
        obtain ⟨e, ip', rfl⟩ := List.exists_cons_of_ne_nil hne
        cases ip' with
        | cons e' ip' =>
          have hsame : e' = c := (List.cons.inj (List.cons.inj hcons).2).1
          exact .inl (hsame ▸ hip e' (by simp))
        | nil =>
          by_cases hf : fs = []
          · simp [signedText, pointText, hf] at hcons
          · have hpoint : [e, '.'] ++ fs = '0' :: c :: cs := by
              simpa [signedText, pointText, hf] using hcons
            exact .inr (List.cons.inj (List.cons.inj hpoint).2).1.symm
    have hradix : ∀ x ∈ ['x', 'X', 'o', 'O', 'b', 'B'], c ≠ x := by
      rintro x hx rfl
      simp only [List.mem_cons, List.not_mem_nil, or_false] at hx
      rcases hx with rfl | rfl | rfl | rfl | rfl | rfl <;> exact absurd hc (by decide)
    simp only [List.forall_mem_cons] at hradix
    obtain ⟨hx, hX, ho, hO, hb, hB, -⟩ := hradix
    simp only [hx, hX, ho, hO, hb, hB, or_self, if_false]
    rw [← hcons, decimalLiteral_signedText hip hne hfs]
  · exact decimalLiteral_signedText hip hne hfs

theorem parseFloatText_signedText (hip : AllDigits ip) (hne : ip ≠ []) (hfs : AllDigits fs) :
    parseFloatText (String.ofList (signedText neg ip fs)) = toDouble (signedValue neg ip fs) := by
  have hdrop : (signedText neg ip fs).dropWhile isJsSpace = signedText neg ip fs := by
    obtain ⟨d, ds, hd, htext⟩ := exists_pointText_cons fs hip hne
    cases neg with
    | false => rw [signedText, if_neg Bool.false_ne_true, htext,
        List.dropWhile_cons_of_neg (by simp [isJsSpace_of_isDigit hd])]
    | true => rfl
  simp only [parseFloatText, String.toList_ofList, hdrop, splitSign_signedText hip hne,
    (not_infinity_of_pointText hip hne).2, Bool.false_eq_true, if_false,
    unsignedDecimal_pointText hip hne hfs, leadingExponent, zpow_zero, mul_one]
  cases neg <;> rfl

/-- The text spells the number: a plain decimal, or what the package writes. -/
def Spells (s : String) (q : ℚ) : Prop :=
  isNonNegativeDecimal s = true ∧ decimalText s = some q ∨ IsDecimal q ∧ s = toFixed q

variable {s : String} {q : ℚ}

theorem Spells.signed (h : Spells s q) : ∃ neg ip fs, AllDigits ip ∧ ip ≠ [] ∧ AllDigits fs ∧
    s = String.ofList (signedText neg ip fs) ∧ q = signedValue neg ip fs := by
  rcases h with ⟨hplain, hvalue⟩ | ⟨hdec, rfl⟩
  · obtain ⟨ip, fs, hip, hne, hfs, htext⟩ := isNonNegativeDecimal_iff.1 hplain
    have hs : s = String.ofList (pointText ip fs) := by rw [← htext, String.ofList_toList]
    refine ⟨false, ip, fs, hip, hne, hfs, hs, ?_⟩
    rw [hs, decimalText_pointText hip hne hfs] at hvalue
    exact (Option.some.inj hvalue).symm
  · by_cases hneg : q < 0
    · obtain ⟨ip, fs, hip, hne, hfs, htext, hval⟩ :=
        unsignedFixed_spec (q := -q) (by linarith) hdec.neg
      refine ⟨true, ip, fs, hip, hne, hfs, by rw [toFixed, if_pos hneg, htext]; rfl, ?_⟩
      rw [signedValue, if_pos rfl, hval, neg_neg]
    · obtain ⟨ip, fs, hip, hne, hfs, htext, hval⟩ := unsignedFixed_spec (not_lt.1 hneg) hdec
      refine ⟨false, ip, fs, hip, hne, hfs, by rw [toFixed, if_neg hneg, htext]; rfl, ?_⟩
      rw [signedValue, if_neg Bool.false_ne_true, hval]

theorem Spells.bignumber (M : MathJs) (h : Spells s q) : M.bignumber s = some (.fin q) := by
  rcases h with ⟨hplain, hvalue⟩ | ⟨hdec, rfl⟩
  · rw [M.bignumber_decimal s hplain, hvalue, Option.map_some]
  · exact M.bignumber_toFixed q hdec

theorem Spells.isNonNegativeDecimal (h : Spells s q) (h0 : 0 ≤ q) :
    isNonNegativeDecimal s = true := by
  rcases h with ⟨hplain, -⟩ | ⟨hdec, rfl⟩
  · exact hplain
  · exact isNonNegativeDecimal_toFixed h0 hdec

/-- What `bcnum` makes of a number: one that no double holds reads as zero. -/
def readable (q : ℚ) : ℚ := if (toDouble q).isFinite then q else 0

theorem isNumeric_signedText (hip : AllDigits ip) (hne : ip ≠ []) (hfs : AllDigits fs) :
    isNumeric (.str (String.ofList (signedText neg ip fs))) =
      (toDouble (signedValue neg ip fs)).isFinite := by
  simp [isNumeric, Js.toNumber, parseFloatText_signedText hip hne hfs,
    stringToNumber_signedText hip hne hfs, toDouble_ne_nan]

/-- A signed plain decimal that the package reads is read by `bcnum` as far as doubles go. -/
theorem bcnum_signedText {M : MathJs} (hip : AllDigits ip) (hne : ip ≠ []) (hfs : AllDigits fs)
    (hread : M.bignumber (String.ofList (signedText neg ip fs)) =
      some (.fin (signedValue neg ip fs))) :
    Utility.bcnum M (.str (String.ofList (signedText neg ip fs))) =
      some (.fin (readable (signedValue neg ip fs))) := by
  have hnumeric : isNumeric (.str (String.ofList (signedText neg ip fs))) =
      (toDouble (signedValue neg ip fs)).isFinite := isNumeric_signedText hip hne hfs
  generalize hs : String.ofList (signedText neg ip fs) = s at hread hnumeric ⊢
  have htrim : trim s = s := by
    rw [← hs, trim, String.toList_ofList, trim_signedText hip hfs]
  have hword : ¬ (s = "NaN" ∨ s = "Infinity" ∨ s = "-Infinity") := by
    obtain ⟨c, cs, hc, htext⟩ := exists_pointText_cons fs hip hne
    have hlist (w : String) (hw : (splitSign w.toList).2.head?.any Char.isDigit = false) :
        s ≠ w := by
      rintro rfl
      have hsplit : (splitSign s.toList).2 = c :: cs := by
        rw [← hs, String.toList_ofList, splitSign_signedText hip hne, htext]
      rw [hsplit, List.head?_cons, Option.any_some] at hw
      exact absurd hc (by simp [hw])
    rintro (hw | hw | hw)
    · exact hlist "NaN" (by decide) hw
    · exact hlist "Infinity" (by decide) hw
    · exact hlist "-Infinity" (by decide) hw
  simp only [not_or] at hword
  simp only [Utility.bcnum, Js.toText_str, htrim, hword, hnumeric, false_or, readable]
  cases (toDouble (signedValue neg ip fs)).isFinite
  · rfl
  · simpa using hread

theorem Spells.isNumeric (h : Spells s q) : isNumeric (.str s) = (toDouble q).isFinite := by
  obtain ⟨neg, ip, fs, hip, hne, hfs, rfl, rfl⟩ := h.signed
  exact isNumeric_signedText hip hne hfs

theorem Spells.bcnum (M : MathJs) (h : Spells s q) :
    Utility.bcnum M (.str s) = some (.fin (readable q)) := by
  have hread := h.bignumber M
  obtain ⟨neg, ip, fs, hip, hne, hfs, rfl, rfl⟩ := h.signed
  exact bcnum_signedText hip hne hfs hread

theorem readable_nonneg (h : 0 ≤ q) : 0 ≤ readable q := by
  unfold readable
  split
  · exact h
  · exact le_rfl

theorem readable_eq_or_zero (q : ℚ) : readable q = q ∨ readable q = 0 := by
  unfold readable
  split
  · exact .inl rfl
  · exact .inr rfl

theorem roundEven_le (q : ℚ) : (roundEven q : ℚ) ≤ q + 1 := by
  have hfloor : (⌊q⌋ : ℚ) ≤ q := Int.floor_le q
  have hle : (roundEven q : ℚ) ≤ ⌊q⌋ + 1 := by
    unfold roundEven
    dsimp only
    split_ifs <;> push_cast <;> linarith
  linarith

/-- A number of moderate size is held by a double, if only roughly. -/
theorem readable_of_abs_le (h : |q| ≤ 10 ^ 64) : readable q = q := by
  refine if_pos ?_
  unfold toDouble
  split
  · rfl
  next hint =>
  have habs : 0 < |q| := by
    refine abs_pos.2 ?_
    rintro rfl
    exact hint ⟨rfl, by decide⟩
  generalize he : max (Int.log 2 |q| - 52) (-1074) = e
  have hpos : (0 : ℚ) < 2 ^ e := zpow_pos (by norm_num) _
  have hunit : (2 : ℚ) ^ e ≤ |q| + 1 := by
    rcases max_choice (Int.log 2 |q| - 52) (-1074) with hmax | hmax <;> rw [← he, hmax]
    · have hlog : (2 : ℚ) ^ Int.log 2 |q| ≤ |q| := by
        exact_mod_cast Int.zpow_log_le_self (by decide : 1 < 2) habs
      have hle : (2 : ℚ) ^ (Int.log 2 |q| - 52) ≤ 2 ^ Int.log 2 |q| :=
        zpow_le_zpow_right₀ (by norm_num) (by omega)
      linarith
    · have hone : (2 : ℚ) ^ (-1074 : ℤ) ≤ 1 := zpow_le_one_of_nonpos₀ (by norm_num) (by norm_num)
      linarith
  have hround := mul_le_mul_of_nonneg_right (roundEven_le (|q| / 2 ^ e)) hpos.le
  rw [add_mul, div_mul_cancel₀ _ hpos.ne', one_mul] at hround
  have hlimit : (2 : ℚ) * 10 ^ 64 + 1 < 2 ^ 1024 := by
    have hten : (10 : ℚ) ^ 64 ≤ 16 ^ 64 := pow_le_pow_left₀ (by norm_num) (by norm_num) 64
    have hone : (1 : ℚ) ≤ 16 ^ 64 := one_le_pow₀ (by norm_num)
    have htwo := pow_mul (2 : ℚ) 4 256
    rw [show (2 : ℚ) ^ 4 = 16 by norm_num] at htwo
    calc (2 : ℚ) * 10 ^ 64 + 1 < 16 * 16 ^ 64 := by linarith
      _ = 16 ^ 65 := (pow_succ' 16 64).symm
      _ ≤ 16 ^ 256 := pow_le_pow_right₀ (by norm_num) (by norm_num)
      _ = 2 ^ 1024 := htwo.symm
  have hsmall : ¬ (2 : ℚ) ^ 1024 ≤ roundEven (|q| / 2 ^ e) * 2 ^ e := by
    have hle : |q| + 2 ^ e ≤ 2 * 10 ^ 64 + 1 := by linarith
    exact fun hbig => absurd (hbig.trans (hround.trans hle)) (not_le.2 hlimit)
  simp only [hsmall, if_false]
  rfl

theorem spells_zero : Spells "0" 0 := .inl ⟨by decide, by decide +kernel⟩

theorem spells_toFixed (h : IsDecimal q) : Spells (toFixed q) q := .inr ⟨h, rfl⟩

theorem spells_of_isNonNegativeDecimal (h : isNonNegativeDecimal s = true) :
    ∃ q, Spells s q ∧ 0 ≤ q := by
  obtain ⟨q, hq, hnonneg, -⟩ := decimalText_of_isNonNegativeDecimal h
  exact ⟨q, .inl ⟨h, hq⟩, hnonneg⟩

/-- What the package writes is read again. -/
theorem bcnum_toFixedText (M : MathJs) {x : JsNum} (h : ∀ q, x = .fin q → IsDecimal q) :
    ∃ y, Utility.bcnum M (.str x.toFixedText) = some y := by
  have hnan : trim "NaN" = "NaN" := by decide
  have hinf : trim "Infinity" = "Infinity" := by decide
  have hneg : trim "-Infinity" = "-Infinity" := by decide
  cases x with
  | nan => exact ⟨.fin 0, by simp [JsNum.toFixedText, Utility.bcnum, hnan]⟩
  | inf neg => cases neg <;> exact ⟨.fin 0, by simp [JsNum.toFixedText, Utility.bcnum, hinf, hneg]⟩
  | fin q => exact ⟨_, (spells_toFixed (h q rfl)).bcnum M⟩

theorem isDecimal_plus {x y : JsNum} {q : ℚ} (h : x.plus y = .fin q) : IsDecimal q := by
  cases x <;> cases y <;> simp only [JsNum.plus] at h
  all_goals first | cases h | skip
  · split at h <;> cases h
  · exact isDecimal_roundSig _ _

/-! ### Fixed decimals read back -/

theorem digitsValue_zeros (n : ℕ) : digitsValue (List.replicate n '0') = 0 := by
  induction n with
  | zero => rfl
  | succ n ih =>
    have hcons := digitsValue_cons_digitChar (d := 0) (by decide) (List.replicate n '0')
    rw [ih, zero_mul, zero_add] at hcons
    exact hcons

theorem allDigits_zeros (n : ℕ) : AllDigits (List.replicate n '0') := by
  intro c hc
  rw [List.eq_of_mem_replicate hc]
  decide

theorem AllDigits.append {ds es : List Char} (hds : AllDigits ds) (hes : AllDigits es) :
    AllDigits (ds ++ es) := by
  intro c hc
  rcases List.mem_append.1 hc with hc | hc
  · exact hds c hc
  · exact hes c hc

theorem lastDigits_spec (d n : ℕ) : AllDigits (lastDigits d n) ∧ (lastDigits d n).length = d ∧
    digitsValue (lastDigits d n) = n % 10 ^ d := by
  by_cases hd : d = 0
  · simp [lastDigits, hd, AllDigits, digitsValue, Nat.mod_one]
  · have hlen : (Nat.toDigits 10 (n % 10 ^ d)).length ≤ d :=
      (Nat.length_toDigits_le_iff (by decide) (Nat.pos_of_ne_zero hd)).2
        (Nat.mod_lt _ (by positivity))
    rw [lastDigits, if_neg hd]
    refine ⟨(allDigits_zeros _).append (allDigits_toDigits _), by simp; omega, ?_⟩
    rw [digitsValue_append, digitsValue_zeros, zero_mul, zero_add]
    exact Nat.ofDigitChars_ten_toDigits

/-- A number in fixed notation reads as its rounding to that many decimals. -/
theorem toFixedAt_spec (d : ℕ) {q : ℚ} (h0 : 0 ≤ q) :
    isNonNegativeDecimal (toFixedAt d (.fin q)) = true ∧
      decimalText (toFixedAt d (.fin q)) = some ((fixedUnits d q : ℚ) / 10 ^ d) := by
  obtain ⟨hfs, hlen, hval⟩ := lastDigits_spec d (fixedUnits d q)
  have hip := allDigits_toDigits (fixedUnits d q / 10 ^ d)
  have hne : Nat.toDigits 10 (fixedUnits d q / 10 ^ d) ≠ [] := Nat.toDigits_ne_nil
  have htext : toFixedAt d (.fin q) = String.ofList (pointText
      (Nat.toDigits 10 (fixedUnits d q / 10 ^ d)) (lastDigits d (fixedUnits d q))) := by
    simp only [toFixedAt, not_lt.2 h0, if_false]
  refine ⟨isNonNegativeDecimal_iff.2 ⟨_, _, hip, hne, hfs, by rw [htext, String.toList_ofList]⟩, ?_⟩
  have hint : digitsValue (Nat.toDigits 10 (fixedUnits d q / 10 ^ d)) = fixedUnits d q / 10 ^ d :=
    Nat.ofDigitChars_ten_toDigits
  rw [htext, decimalText_pointText hip hne hfs, digitsValue_append, hint, hlen, hval,
    Nat.div_add_mod']

end XChainSdk
