import XChainSdk.Js.Blanks
import XChainSdk.Js.NumberFormat

/-!
# The numbers that texts denote

`Number` rounds what a text says to a double; the big-decimal package keeps it.

* `exactNumber` : the number that a text denotes, exponents and radix literals included.
* `stringToNumber_of_exactNumber`, `exists_exactNumber` : `Number` is its nearest double.
* `literalValue_layoutDigits` : wherever the point of a printed number stands, its value is that of
  its digits, scaled.
* `exactNumber_numberToString` : what a finite number prints as denotes a number.
* `numeralMath` : a reader of all numerals.
-/

namespace XChainSdk

/-! ### Exact values -/

/-- The exact value of a decimal literal. -/
def literalValue (cs : List Char) : Option ℚ :=
  let (neg, us) := splitSign cs
  let sign (q : ℚ) : ℚ := if neg then -q else q
  match unsignedDecimal us with
  | none => none
  | some (q, []) => some (sign q)
  | some (q, c :: rest) =>
    if c = 'e' ∨ c = 'E' then (exponentPart rest).map fun e => sign (q * 10 ^ e) else none

/-- The exact value of a literal of base `b` after its prefix. -/
def radixExact (b : ℕ) (cs : List Char) : Option ℚ :=
  if cs ≠ [] ∧ cs.all (fun c => (digitIn b c).isSome) then some (radixValue b cs) else none

/-- The number that a text denotes. -/
def exactNumber (s : String) : Option ℚ :=
  match trimChars s.toList with
  | [] => none
  | '0' :: c :: cs =>
    if c = 'x' ∨ c = 'X' then radixExact 16 cs
    else if c = 'o' ∨ c = 'O' then radixExact 8 cs
    else if c = 'b' ∨ c = 'B' then radixExact 2 cs
    else literalValue ('0' :: c :: cs)
  | cs => literalValue cs

theorem decimalLiteral_of_literalValue {cs : List Char} {q : ℚ} (h : literalValue cs = some q) :
    decimalLiteral cs = toDouble q := by
  have hword : (splitSign cs).2 ≠ "Infinity".toList := by
    intro hw
    have hnone : unsignedDecimal "Infinity".toList = none := by decide
    simp only [literalValue, hw, hnone] at h
    cases h
  simp only [decimalLiteral, if_neg hword]
  simp only [literalValue] at h
  generalize unsignedDecimal (splitSign cs).2 = u at h ⊢
  rcases u with _ | ⟨q', _ | ⟨c, rest⟩⟩
  · cases h
  · rw [← Option.some.inj h]
  · by_cases hc : c = 'e' ∨ c = 'E'
    · simp only [hc, if_true] at h ⊢
      obtain ⟨e, he, rfl⟩ := Option.map_eq_some_iff.1 h
      simp only [he]
    · simp only [hc, if_false] at h
      cases h

theorem literalValue_of_isFinite {cs : List Char} (h : (decimalLiteral cs).isFinite = true) :
    ∃ q, literalValue cs = some q := by
  simp only [decimalLiteral] at h
  simp only [literalValue]
  split at h
  · cases h
  generalize unsignedDecimal (splitSign cs).2 = u at h ⊢
  rcases u with _ | ⟨q', _ | ⟨c, rest⟩⟩
  · cases h
  · exact ⟨_, rfl⟩
  · by_cases hc : c = 'e' ∨ c = 'E'
    · simp only [hc, if_true] at h ⊢
      cases he : exponentPart rest with
      | none => simp [he, JsNum.isFinite] at h
      | some e => exact ⟨_, rfl⟩
    · simp only [hc, if_false] at h
      cases h

theorem radixLiteral_of_radixExact {b : ℕ} {cs : List Char} {q : ℚ}
    (h : radixExact b cs = some q) : radixLiteral b cs = toDouble q := by
  unfold radixExact at h
  unfold radixLiteral
  split at h
  · next hall =>
    rw [if_pos hall, ← Option.some.inj h]
  · cases h

theorem radixExact_of_isFinite {b : ℕ} {cs : List Char}
    (h : (radixLiteral b cs).isFinite = true) : ∃ q, radixExact b cs = some q := by
  unfold radixLiteral at h
  unfold radixExact
  split at h
  · next hall => exact ⟨_, if_pos hall⟩
  · cases h

/-- Both readers look at the same prefix. -/
theorem exactNumber_cases (s : String) :
    (trimChars s.toList = [] ∧ exactNumber s = none) ∨
    (∃ b cs, exactNumber s = radixExact b cs ∧ stringToNumber s = radixLiteral b cs) ∨
    exactNumber s = literalValue (trimChars s.toList) ∧
      stringToNumber s = decimalLiteral (trimChars s.toList) := by
  unfold exactNumber stringToNumber
  generalize trimChars s.toList = cs
  cases cs with
  | nil => exact .inl ⟨rfl, rfl⟩
  | cons a cs =>
    cases cs with
    | nil => exact .inr (.inr ⟨by simp, by simp⟩)
    | cons c cs =>
      by_cases ha : a = '0'
      · subst ha
        simp only
        split
        · exact .inr (.inl ⟨_, _, rfl, rfl⟩)
        split
        · exact .inr (.inl ⟨_, _, rfl, rfl⟩)
        split
        · exact .inr (.inl ⟨_, _, rfl, rfl⟩)
        · exact .inr (.inr ⟨rfl, rfl⟩)
      · exact .inr (.inr ⟨by simp [ha], by simp [ha]⟩)

/-- `Number` of a text is the double nearest to what it denotes. -/
theorem stringToNumber_of_exactNumber {s : String} {q : ℚ} (h : exactNumber s = some q) :
    stringToNumber s = toDouble q := by
  rcases exactNumber_cases s with ⟨-, hnone⟩ | ⟨b, cs, hexact, hnumber⟩ | ⟨hexact, hnumber⟩
  · rw [hnone] at h
    cases h
  · rw [hnumber, radixLiteral_of_radixExact (hexact ▸ h)]
  · rw [hnumber, decimalLiteral_of_literalValue (hexact ▸ h)]

/-- A text that `Number` reads as a finite number denotes one, unless it is blank. -/
theorem exists_exactNumber {s : String} (hne : trimChars s.toList ≠ [])
    (h : (stringToNumber s).isFinite = true) : ∃ q, exactNumber s = some q := by
  rcases exactNumber_cases s with ⟨hnil, -⟩ | ⟨b, cs, hexact, hnumber⟩ | ⟨hexact, hnumber⟩
  · exact absurd hnil hne
  · rw [hexact]
    exact radixExact_of_isFinite (hnumber ▸ h)
  · rw [hexact]
    exact literalValue_of_isFinite (hnumber ▸ h)

/-! ### Printed numbers -/

/-- A decimal that an exponent follows. -/
theorem unsignedDecimal_pointText_exponent {ip fs : List Char} (hip : AllDigits ip) (hne : ip ≠ [])
    (hfs : AllDigits fs) (rest : List Char) : unsignedDecimal (pointText ip fs ++ 'e' :: rest) =
      some ((digitsValue (ip ++ fs) : ℚ) / 10 ^ fs.length, 'e' :: rest) := by
  by_cases h : fs = []
  · obtain ⟨htake, hdrop⟩ := hip.takeWhile_append (c := 'e') (by decide) rest
    simp [pointText, h, unsignedDecimal, htake, hdrop, hne]
  · obtain ⟨htake, hdrop⟩ := hip.takeWhile_append (c := '.') (by decide) (fs ++ 'e' :: rest)
    obtain ⟨hftake, hfdrop⟩ := hfs.takeWhile_append (c := 'e') (by decide) rest
    simp only [pointText, if_neg h, List.append_assoc, List.cons_append, unsignedDecimal, htake,
      hdrop, hftake, hfdrop, hne, false_and, if_false]

theorem exponentPart_printed (z : ℤ) :
    exponentPart ((if z < 0 then '-' else '+') :: Nat.toDigits 10 z.natAbs) = some z := by
  have hall : Nat.toDigits 10 z.natAbs ≠ [] ∧ (Nat.toDigits 10 z.natAbs).all Char.isDigit := by
    exact ⟨Nat.toDigits_ne_nil, List.all_eq_true.2 (allDigits_toDigits _)⟩
  have hvalue : digitsValue (Nat.toDigits 10 z.natAbs) = z.natAbs := Nat.ofDigitChars_ten_toDigits
  by_cases hz : z < 0
  · simp only [hz, if_true, exponentPart, splitSign, hall, hvalue]
    rw [if_pos ⟨hall.1, trivial⟩]
    congr 1
    omega
  · simp only [hz, if_false, exponentPart, splitSign, hall, hvalue]
    rw [if_pos ⟨hall.1, trivial⟩]
    simp only [Bool.false_eq_true, if_false]
    congr 1
    omega

/-- The value of a printed number before its sign. -/
def printedValue (ds : List Char) (n : ℤ) : ℚ := digitsValue ds * 10 ^ (n - ds.length)

/-- Where the point of a printed number may stand: among the digits, or before an exponent. -/
theorem layoutDigits_cases {ds : List Char} (hds : AllDigits ds) (hne : ds ≠ []) (n : ℤ) :
    ∃ ip fs, AllDigits ip ∧ ip ≠ [] ∧ AllDigits fs ∧
      (layoutDigits ds n = pointText ip fs ∧
        (digitsValue (ip ++ fs) : ℚ) / 10 ^ fs.length = printedValue ds n ∨
      ∃ z : ℤ, layoutDigits ds n =
          pointText ip fs ++ 'e' :: (if z < 0 then '-' else '+') :: Nat.toDigits 10 z.natAbs ∧
        (digitsValue (ip ++ fs) : ℚ) / 10 ^ fs.length * 10 ^ z = printedValue ds n) := by
  have hlen : 0 < ds.length := List.length_pos_of_ne_nil hne
  have htake (k : ℕ) : AllDigits (ds.take k) := fun c hc => hds c (List.mem_of_mem_take hc)
  have hdrop (k : ℕ) : AllDigits (ds.drop k) := fun c hc => hds c (List.mem_of_mem_drop hc)
  simp only [layoutDigits, printedValue]
  split
  · -- all digits before the point
    next h =>
    refine ⟨_, [], hds.append (allDigits_zeros (n - ds.length).toNat), by simp [hne],
      by simp [AllDigits], .inl ⟨by simp [pointText], ?_⟩⟩
    rw [List.append_nil, List.length_nil, pow_zero, div_one, digitsValue_append, digitsValue_zeros,
      add_zero, List.length_replicate]
    push_cast
    rw [← zpow_natCast, Int.toNat_of_nonneg (by omega)]
  split
  · next h1 h =>
    have hcut : n.toNat < ds.length := by omega
    refine ⟨ds.take n.toNat, ds.drop n.toNat, htake _, ?_, hdrop _, .inl ⟨?_, ?_⟩⟩
    · simp only [ne_eq, List.take_eq_nil_iff, not_or]
      exact ⟨by omega, hne⟩
    · rw [pointText, if_neg (by simpa using hcut)]
    · rw [List.take_append_drop, List.length_drop, div_eq_mul_inv, ← zpow_natCast, ← zpow_neg]
      congr 2
      omega
  split
  · next h1 h2 h =>
    refine ⟨['0'], List.replicate (-n).toNat '0' ++ ds, allDigits_zeros 1, by simp,
      (allDigits_zeros _).append hds, .inl ⟨by simp [pointText, hne], ?_⟩⟩
    have hzero : digitsValue ['0'] = 0 := digitsValue_zeros 1
    rw [digitsValue_append, digitsValue_append, hzero, digitsValue_zeros, zero_mul, zero_mul,
      zero_add, zero_add, List.length_append, List.length_replicate, div_eq_mul_inv,
      ← zpow_natCast, ← zpow_neg]
    congr 2
    push_cast
    rw [Int.toNat_of_nonneg (by omega)]
    ring
  · refine ⟨ds.take 1, ds.drop 1, htake 1, ?_, hdrop 1, .inr ⟨n - 1, ?_, ?_⟩⟩
    · simp [hne]
    · have hone : ds.drop 1 = [] ↔ ds.length = 1 := by
        rw [List.drop_eq_nil_iff]
        omega
      simp only [pointText, hone]
    · rw [List.take_append_drop, List.length_drop, div_eq_mul_inv, ← zpow_natCast, ← zpow_neg,
        mul_assoc, ← zpow_add₀ (by norm_num)]
      congr 2
      omega

/-- **The text of a printed number has the value of its digits, wherever its point stands.** -/
theorem literalValue_layoutDigits {ds : List Char} (hds : AllDigits ds) (hne : ds ≠ []) (n : ℤ) :
    literalValue (layoutDigits ds n) = some (printedValue ds n) ∧
      literalValue ('-' :: layoutDigits ds n) = some (-printedValue ds n) := by
  obtain ⟨ip, fs, hip, hipne, hfs, ⟨htext, hval⟩ | ⟨z, htext, hval⟩⟩ := layoutDigits_cases hds hne n
  · rw [htext]
    constructor
    · simp only [literalValue, splitSign_pointText hip hipne,
        unsignedDecimal_pointText hip hipne hfs, hval, Bool.false_eq_true, if_false]
    · simp only [literalValue, splitSign, unsignedDecimal_pointText hip hipne hfs, hval, if_true]
  · have hsplit : splitSign (layoutDigits ds n) = (false, layoutDigits ds n) := by
      obtain ⟨c, ip', rfl⟩ := List.exists_cons_of_ne_nil hipne
      rw [htext]
      exact splitSign_of_digits (hip c (by simp))
    have hunsigned := unsignedDecimal_pointText_exponent hip hipne hfs
      ((if z < 0 then '-' else '+') :: Nat.toDigits 10 z.natAbs)
    rw [← htext] at hunsigned
    constructor
    · simp only [literalValue, hsplit, hunsigned, true_or, if_true, exponentPart_printed,
        Option.map_some, hval, Bool.false_eq_true, if_false]
    · simp only [literalValue, splitSign, hunsigned, true_or, if_true, exponentPart_printed,
        Option.map_some, hval]

theorem isJsSpace_of_isNumericChar {c : Char} (h : isNumericChar c = true) :
    isJsSpace c = false := by
  simp only [isNumericChar, Bool.or_eq_true] at h
  rcases h with h | h
  · exact isJsSpace_of_isDigit h
  · have hall : "+-.eINafinty".toList.all (fun c => !isJsSpace c) = true := by decide
    simpa using List.all_eq_true.1 hall c (by simpa using h)

/-- No text of digits and signs has a radix prefix. -/
theorem exactNumber_of_isNumericChar {cs : List Char} (h : ∀ c ∈ cs, isNumericChar c = true)
    (hne : cs ≠ []) : exactNumber (String.ofList cs) = literalValue cs := by
  have htrim : trimChars cs = cs := trimChars_of_no_space fun c hc =>
    isJsSpace_of_isNumericChar (h c hc)
  unfold exactNumber
  rw [String.toList_ofList, htrim]
  split
  · exact absurd rfl hne
  · next c cs =>
    have hc := h c (by simp)
    have hradix : ∀ x ∈ ['x', 'X', 'o', 'O', 'b', 'B'], c ≠ x := by
      rintro x hx rfl
      have hall : ['x', 'X', 'o', 'O', 'b', 'B'].all (fun x => !isNumericChar x) = true := by decide
      have hnot := List.all_eq_true.1 hall _ hx
      simp [hc] at hnot
    simp only [List.forall_mem_cons] at hradix
    obtain ⟨hx, hX, ho, hO, hb, hB, -⟩ := hradix
    simp only [hx, hX, ho, hO, hb, hB, or_self, if_false]
  · rfl

/-- The text of an integer denotes the integer. -/
theorem exactNumber_intText (z : ℤ) : exactNumber (String.ofList (intText z)) = some (z : ℚ) := by
  have hchars : ∀ c ∈ intText z, isNumericChar c = true := fun c => isNumericChar_intText
  have hne : Nat.toDigits 10 z.natAbs ≠ [] := Nat.toDigits_ne_nil
  rw [exactNumber_of_isNumericChar hchars (by simp [intText, hne])]
  have htext : intText z = signedText (decide (z < 0)) (Nat.toDigits 10 z.natAbs) [] := by
    by_cases hz : z < 0 <;> simp [intText, signedText, pointText, hz]
  have hvalue : digitsValue (Nat.toDigits 10 z.natAbs) = z.natAbs := Nat.ofDigitChars_ten_toDigits
  simp only [htext, literalValue, splitSign_signedText (allDigits_toDigits _) hne,
    unsignedDecimal_pointText (allDigits_toDigits _) hne (by simp [AllDigits] : AllDigits []),
    List.append_nil, hvalue, List.length_nil, pow_zero, div_one, decide_eq_true_eq]
  congr 1
  rw [Nat.cast_natAbs]
  split_ifs with hz
  · rw [abs_of_neg hz]
    push_cast
    ring
  · rw [abs_of_nonneg (not_lt.1 hz)]

/-- What a finite number prints as denotes a number: the integer itself, up to `2 ^ 53`. -/
theorem exactNumber_numberToString (q : ℚ) :
    ∃ p, exactNumber (numberToString (.fin q)) = some p ∧
      (q.den = 1 → |q| ≤ 2 ^ 53 → p = q) := by
  have hpositive (x : ℚ) : ∃ p, literalValue (positiveText x) = some p ∧
      literalValue ('-' :: positiveText x) = some (-p) ∧ positiveText x ≠ [] := by
    unfold positiveText
    split
    · next s n _ =>
      have hdigits := allDigits_toDigits s
      obtain ⟨hplus, hminus⟩ := literalValue_layoutDigits hdigits Nat.toDigits_ne_nil n
      refine ⟨_, hplus, hminus, fun hnil => ?_⟩
      rw [hnil] at hplus
      cases hplus
    · exact ⟨0, by decide +kernel, by decide +kernel, by simp⟩
  by_cases hint : q.den = 1 ∧ q.num.natAbs ≤ 2 ^ 53
  · have hq : (q.num : ℚ) = q := Rat.coe_int_num_of_den_eq_one hint.1
    refine ⟨q, ?_, fun _ _ => rfl⟩
    rw [numberToString, finiteText, if_pos hint, exactNumber_intText, hq]
  · have hchars := isNumericChar_numberToString (.fin q)
    rw [numberToString, String.toList_ofList] at hchars
    have hnot : q.den = 1 → ¬ |q| ≤ 2 ^ 53 := by
      intro hden hle
      refine hint ⟨hden, ?_⟩
      have hq : (q.num : ℚ) = q := Rat.coe_int_num_of_den_eq_one hden
      have hnum : ((q.num.natAbs : ℕ) : ℚ) ≤ ((2 ^ 53 : ℕ) : ℚ) := by
        rw [Nat.cast_natAbs, Int.cast_abs, hq]
        push_cast
        exact hle
      exact_mod_cast hnum
    have hvacuous (p : ℚ) : q.den = 1 → |q| ≤ 2 ^ 53 → p = q := fun hden hle =>
      absurd hle (hnot hden)
    rw [finiteText, if_neg hint] at hchars
    rw [numberToString, finiteText, if_neg hint]
    split_ifs at hchars ⊢ with hneg
    · obtain ⟨p, -, hminus, -⟩ := hpositive (-q)
      exact ⟨-p, by rw [exactNumber_of_isNumericChar hchars (by simp), hminus], hvacuous _⟩
    · obtain ⟨p, hplus, -, hne⟩ := hpositive q
      exact ⟨p, by rw [exactNumber_of_isNumericChar hchars hne, hplus], hvacuous _⟩

/-! ### A reader of numerals -/

theorem exactNumber_signedText {neg : Bool} {ip fs : List Char} (hip : AllDigits ip)
    (hne : ip ≠ []) (hfs : AllDigits fs) :
    exactNumber (String.ofList (signedText neg ip fs)) = some (signedValue neg ip fs) := by
  have hpoint : ∀ c ∈ pointText ip fs, isNumericChar c = true := by
    intro c hc
    rcases List.mem_append.1 hc with hc | hc
    · simp [isNumericChar, hip c hc]
    · split at hc
      · cases hc
      · rcases List.mem_cons.1 hc with rfl | hc
        · decide
        · simp [isNumericChar, hfs c hc]
  have hchars : ∀ c ∈ signedText neg ip fs, isNumericChar c = true := by
    cases neg with
    | false => exact hpoint
    | true =>
      intro c hc
      rcases List.mem_cons.1 hc with rfl | hc
      · decide
      · exact hpoint c hc
  have hcons : signedText neg ip fs ≠ [] := by
    obtain ⟨c, cs, -, htext⟩ := exists_pointText_cons fs hip hne
    cases neg <;> simp [signedText, htext]
  rw [exactNumber_of_isNumericChar hchars hcons]
  simp only [literalValue, splitSign_signedText hip hne, unsignedDecimal_pointText hip hne hfs]
  cases neg <;> rfl

theorem Spells.exactNumber {s : String} {q : ℚ} (h : Spells s q) : exactNumber s = some q := by
  obtain ⟨neg, ip, fs, hip, hne, hfs, rfl, rfl⟩ := h.signed
  exact exactNumber_signedText hip hne hfs

theorem IsDecimal.mul_zpow {q : ℚ} (h : IsDecimal q) (e : ℤ) : IsDecimal (q * 10 ^ e) := by
  obtain ⟨k, z, hz⟩ := h
  have hq : q * 10 ^ e = z * 10 ^ (e - k) := by
    rw [← hz, zpow_sub₀ (by norm_num), zpow_natCast, mul_assoc, mul_div_cancel₀ _ (by positivity)]
  rw [hq]
  exact isDecimal_mul_zpow z _

theorem isDecimal_literalValue {cs : List Char} {q : ℚ} (h : literalValue cs = some q) :
    IsDecimal q := by
  have hsign {r : ℚ} (hr : IsDecimal r) (neg : Bool) : IsDecimal (if neg then -r else r) := by
    cases neg
    · exact hr
    · exact hr.neg
  simp only [literalValue] at h
  cases hu : unsignedDecimal (splitSign cs).2 with
  | none =>
    rw [hu] at h
    cases h
  | some u =>
    obtain ⟨r, rest⟩ := u
    rw [hu] at h
    have hr := unsignedDecimal_isDecimal hu
    cases rest with
    | nil =>
      cases h
      exact hsign hr _
    | cons c rest =>
      by_cases hc : c = 'e' ∨ c = 'E'
      · simp only [hc, if_true] at h
        obtain ⟨e, -, rfl⟩ := Option.map_eq_some_iff.1 h
        exact hsign (hr.mul_zpow e) _
      · simp only [hc, if_false] at h
        cases h

theorem isDecimal_exactNumber {s : String} {q : ℚ} (h : exactNumber s = some q) : IsDecimal q := by
  rcases exactNumber_cases s with ⟨-, hnone⟩ | ⟨b, cs, hexact, -⟩ | ⟨hexact, -⟩
  · rw [hnone] at h
    cases h
  · rw [hexact, radixExact] at h
    split at h
    · cases h
      exact isDecimal_intCast (radixValue b cs)
    · cases h
  · exact isDecimal_literalValue (hexact ▸ h)

/-- A reader that takes every numeral. -/
def numeralMath : MathJs where
  bignumber s := (exactNumber s).map .fin
  bignumber_decimal s h := by
    obtain ⟨p, hp, -, -⟩ := decimalText_of_isNonNegativeDecimal h
    have hspells : Spells s p := .inl ⟨h, hp⟩
    rw [hspells.exactNumber, hp]
  bignumber_toFixed q h := by rw [(spells_toFixed h).exactNumber, Option.map_some]
  isDecimal_bignumber s q h := by
    obtain ⟨p, hp, hq⟩ := Option.map_eq_some_iff.1 h
    cases hq
    exact isDecimal_exactNumber hp

theorem exactNumber_trim (s : String) : exactNumber (trim s) = exactNumber s := by
  unfold exactNumber
  rw [trim, String.toList_ofList, trimChars_trimChars]

end XChainSdk
