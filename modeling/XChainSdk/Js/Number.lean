import Mathlib.Data.Int.Log
import Mathlib.Data.Rat.Floor
import Mathlib.Algebra.Order.Field.Rat
import Mathlib.Data.List.Basic

/-!
# Numbers and their text

* `JsNum` : the numbers of the source's language, finite ones as exact rationals.
* `toDouble` : rounding of an exact value to the nearest double.
* `numberToString` : the shortest decimal text that reads back as the number.
* `stringToNumber`, `parseIntText` : the two readers of numeric text, which differ on signs,
  blanks, radix prefixes and trailing characters.
* `decimalText` : plain signed decimals, `[+-]?(\d+\.?\d*|\.\d+)`.
-/

namespace XChainSdk

/-- A number.  Negative zero is not told from zero. -/
inductive JsNum where
  | nan
  | inf (neg : Bool)
  | fin (q : ℚ)
  deriving DecidableEq

namespace JsNum

/-- `Number.isFinite(x)`. -/
def isFinite : JsNum → Bool
  | fin _ => true
  | _ => false

/-- The finite value, if there is one. -/
def toRat? : JsNum → Option ℚ
  | fin q => some q
  | _ => none

/-- `x < y`. -/
def lt : JsNum → JsNum → Bool
  | nan, _ | _, nan => false
  | inf a, inf b => a && !b
  | inf a, fin _ => a
  | fin _, inf b => !b
  | fin p, fin q => decide (p < q)

/-- `x <= y`. -/
def le : JsNum → JsNum → Bool
  | nan, _ | _, nan => false
  | inf a, inf b => a || !b
  | inf a, fin _ => a
  | fin _, inf b => !b
  | fin p, fin q => decide (p ≤ q)

theorem le_fin_trans {x : JsNum} {p q : ℚ} (h : x.le (.fin p) = true) (hpq : p ≤ q) :
    x.le (.fin q) = true := by
  cases x with
  | nan => cases h
  | inf neg => exact h
  | fin r =>
    have hr : r ≤ p := by simpa [JsNum.le] using h
    simpa [JsNum.le] using hr.trans hpq

theorem not_le_of_lt {x : JsNum} {p q : ℚ} (h : (JsNum.fin q).lt x = true) (hpq : p ≤ q) :
    x.le (.fin p) = false := by
  cases x with
  | nan => cases h
  | inf neg => simpa [JsNum.lt, JsNum.le] using h
  | fin r =>
    have hr : q < r := by simpa [JsNum.lt] using h
    simpa [JsNum.le] using hpq.trans_lt hr

/-- The natural number that a safe integer at or above zero is. -/
def safeNat? : JsNum → Option ℕ
  | fin q => if q.den = 1 ∧ 0 ≤ q.num ∧ q.num < 2 ^ 53 then some q.num.toNat else none
  | _ => none

theorem safeNat?_eq_some {x : JsNum} {n : ℕ} (h : x.safeNat? = some n) :
    x = fin n ∧ n < 2 ^ 53 := by
  cases x with
  | nan => cases h
  | inf neg => cases h
  | fin q =>
    simp only [safeNat?, Option.ite_none_right_eq_some, Option.some.injEq] at h
    obtain ⟨⟨hden, h0, hlt⟩, rfl⟩ := h
    have hq : ((q.num.toNat : ℕ) : ℚ) = q := by
      have hcast : ((q.num.toNat : ℕ) : ℚ) = ((q.num.toNat : ℤ) : ℚ) := by norm_cast
      rw [hcast, Int.toNat_of_nonneg h0]
      exact Rat.coe_int_num_of_den_eq_one hden
    exact ⟨by rw [hq], by omega⟩

theorem safeNat?_natCast {n : ℕ} (h : n < 2 ^ 53) : (JsNum.fin n).safeNat? = some n := by
  simp [JsNum.safeNat?]
  omega

end JsNum

/-- Rounds to the nearest integer, ties to even. -/
def roundEven (q : ℚ) : ℤ :=
  let f := ⌊q⌋
  if q - f < 1 / 2 then f
  else if 1 / 2 < q - f then f + 1
  else if f % 2 = 0 then f else f + 1

/-- The double nearest to an exact value.  Integers up to `2 ^ 53` are doubles already. -/
def toDouble (q : ℚ) : JsNum :=
  if q.den = 1 ∧ q.num.natAbs ≤ 2 ^ 53 then .fin q
  else
    let e := max (Int.log 2 |q| - 52) (-1074)
    let r : ℚ := roundEven (|q| / 2 ^ e) * 2 ^ e
    if 2 ^ 1024 ≤ r then .inf (decide (q < 0)) else .fin (if q < 0 then -r else r)

theorem toDouble_natCast {n : ℕ} (h : n ≤ 2 ^ 53) : toDouble n = .fin n := by
  have h' : (n : ℚ).den = 1 ∧ (n : ℚ).num.natAbs ≤ 2 ^ 53 := ⟨Rat.den_natCast n, by simpa using h⟩
  rw [toDouble, if_pos h']

theorem floor_le_roundEven (q : ℚ) : ⌊q⌋ ≤ roundEven q := by
  unfold roundEven
  dsimp only
  split_ifs <;> omega

/-- No positive integer rounds to zero. -/
theorem toDouble_pos {n : ℕ} (h : 0 < n) : (JsNum.fin 0).lt (toDouble n) = true := by
  by_cases hn : n ≤ 2 ^ 53
  · rw [toDouble_natCast hn]
    simpa [JsNum.lt] using h
  · have hq : (0 : ℚ) < n := by exact_mod_cast h
    have hden : ¬ ((n : ℚ).den = 1 ∧ (n : ℚ).num.natAbs ≤ 2 ^ 53) := by
      rintro ⟨-, hle⟩
      exact hn (by simpa using hle)
    have hneg : ¬ (n : ℚ) < 0 := not_lt.2 hq.le
    rw [toDouble, if_neg hden, abs_of_pos hq]
    dsimp only
    generalize he : max (Int.log 2 (n : ℚ) - 52) (-1074) = e
    -- the exponent is below that of `n`, so at least one unit is left
    have hlog : (2 : ℚ) ^ Int.log 2 (n : ℚ) ≤ n := by
      have := Int.zpow_log_le_self (b := 2) (r := (n : ℚ)) (by norm_num) hq
      exact_mod_cast this
    have hone' : (1 : ℚ) ≤ n := by exact_mod_cast h
    have hlog0 : 0 ≤ Int.log 2 (n : ℚ) := by
      rw [Int.log_of_one_le_right 2 hone']
      exact Int.natCast_nonneg _
    have hexp : e ≤ Int.log 2 (n : ℚ) := by omega
    have hpow : (2 : ℚ) ^ e ≤ n := (zpow_le_zpow_right₀ (by norm_num) hexp).trans hlog
    have hone : 1 ≤ roundEven (n / 2 ^ e) := by
      refine le_trans ?_ (floor_le_roundEven _)
      rw [Int.le_floor, Int.cast_one, le_div_iff₀ (zpow_pos (by norm_num) _), one_mul]
      exact hpow
    have hpos : (0 : ℚ) < roundEven (n / 2 ^ e) * 2 ^ e :=
      mul_pos (by exact_mod_cast hone) (zpow_pos (by norm_num) _)
    split_ifs with hinf
    · simp [JsNum.lt, hneg]
    · simpa [JsNum.lt] using hpos

/-! ### Text of a number -/

/-- Digits `s` and the position `n` of the decimal point, as `Number::toString` lays them out. -/
def layoutDigits (ds : List Char) (n : ℤ) : List Char :=
  let k := ds.length
  if (k : ℤ) ≤ n ∧ n ≤ 21 then ds ++ List.replicate (n - k).toNat '0'
  else if 0 < n ∧ n ≤ 21 then ds.take n.toNat ++ '.' :: ds.drop n.toNat
  else if -6 < n ∧ n ≤ 0 then '0' :: '.' :: (List.replicate (-n).toNat '0' ++ ds)
  else
    ds.take 1 ++ (if k = 1 then [] else '.' :: ds.drop 1) ++
      'e' :: (if n - 1 < 0 then '-' else '+') :: Nat.toDigits 10 (n - 1).natAbs

/-- The `k`-digit decimal nearest to `x > 0` among those that round to it, with the position of
its point. -/
def shortestAt (x : ℚ) (k : ℕ) : Option (ℕ × ℤ) :=
  let n := Int.log 10 x + 1
  let unit : ℚ := 10 ^ (n - k)
  let f := ⌊x / unit⌋.toNat
  let reads (s : ℕ) : Bool := toDouble (s * unit) == .fin x
  let pick := match reads f, reads (f + 1) with
    | true, true => if x - f * unit ≤ (f + 1) * unit - x then some f else some (f + 1)
    | true, false => some f
    | false, true => some (f + 1)
    | false, false => if k = 17 then some f else none
  pick.map fun s => if s = 10 ^ k then (1, n + 1) else (s, n)

/-- The text of a positive number. -/
def positiveText (x : ℚ) : List Char :=
  match ((List.range 17).map (· + 1)).findSome? (shortestAt x) with
  | some (s, n) => layoutDigits (Nat.toDigits 10 s) n
  | none => ['0']

/-- The decimal digits of an integer, with its sign. -/
def intText (z : ℤ) : List Char := (if z < 0 then ['-'] else []) ++ Nat.toDigits 10 z.natAbs

/-- The text of a finite number. -/
def finiteText (q : ℚ) : List Char :=
  if q.den = 1 ∧ q.num.natAbs ≤ 2 ^ 53 then intText q.num
  else if q < 0 then '-' :: positiveText (-q) else positiveText q

/-- `String(x)` of a number. -/
def numberToString : JsNum → String
  | .nan => "NaN"
  | .inf true => "-Infinity"
  | .inf false => "Infinity"
  | .fin q => String.ofList (finiteText q)

theorem numberToString_natCast {n : ℕ} (h : n ≤ 2 ^ 53) :
    numberToString (.fin n) = String.ofList (Nat.toDigits 10 n) := by
  have h' : (n : ℚ).den = 1 ∧ (n : ℚ).num.natAbs ≤ 2 ^ 53 := ⟨Rat.den_natCast n, by simpa using h⟩
  have h0 : ¬ (n : ℚ).num < 0 := by simp
  rw [numberToString, finiteText, if_pos h', intText, if_neg h0, List.nil_append, Rat.num_natCast,
    Int.natAbs_natCast]

theorem toDigits_inj {m n : ℕ} (h : Nat.toDigits 10 m = Nat.toDigits 10 n) : m = n := by
  have := congrArg (fun ds => Nat.ofDigitChars 10 ds 0) h
  simpa using this

/-- The text of a number has only digits and the letters and signs of numeric text. -/
def isNumericChar (c : Char) : Bool := c.isDigit || "+-.eINafinty".toList.contains c

theorem isNumericChar_toDigits {n : ℕ} {c : Char} (h : c ∈ Nat.toDigits 10 n) :
    isNumericChar c = true := by
  simp [isNumericChar, Nat.isDigit_of_mem_toDigits (by decide) (by decide) h]

theorem isNumericChar_intText {z : ℤ} {c : Char} (h : c ∈ intText z) : isNumericChar c = true := by
  rcases List.mem_append.1 h with h | h
  · split_ifs at h
    · rw [List.mem_singleton.1 h]; decide
    · cases h
  · exact isNumericChar_toDigits h

theorem isNumericChar_layoutDigits {ds : List Char} (hds : ∀ c ∈ ds, isNumericChar c = true)
    (n : ℤ) : ∀ c ∈ layoutDigits ds n, isNumericChar c = true := by
  have hzero : ∀ m : ℕ, ∀ c ∈ List.replicate m '0', isNumericChar c = true := fun m c hc => by
    rw [List.eq_of_mem_replicate hc]; decide
  have htake : ∀ m : ℕ, ∀ c ∈ ds.take m, isNumericChar c = true := fun m c hc =>
    hds c (List.mem_of_mem_take hc)
  have hdrop : ∀ m : ℕ, ∀ c ∈ ds.drop m, isNumericChar c = true := fun m c hc =>
    hds c (List.mem_of_mem_drop hc)
  intro c hc
  simp only [layoutDigits] at hc
  split_ifs at hc with h1 h2 h3 h4 h5 <;>
    simp only [List.mem_append, List.mem_cons, List.not_mem_nil, or_false] at hc
  · exact hc.elim (hds c) (hzero _ c)
  · rcases hc with hc | rfl | hc
    exacts [htake _ c hc, by decide, hdrop _ c hc]
  · rcases hc with rfl | rfl | hc | hc
    exacts [by decide, by decide, hzero _ c hc, hds c hc]
  · rcases hc with hc | rfl | rfl | hc
    exacts [htake _ c hc, by decide, by decide, isNumericChar_toDigits hc]
  · rcases hc with hc | rfl | rfl | hc
    exacts [htake _ c hc, by decide, by decide, isNumericChar_toDigits hc]
  · rcases hc with (hc | rfl | hc) | rfl | rfl | hc
    exacts [htake _ c hc, by decide, hdrop _ c hc, by decide, by decide, isNumericChar_toDigits hc]
  · rcases hc with (hc | rfl | hc) | rfl | rfl | hc
    exacts [htake _ c hc, by decide, hdrop _ c hc, by decide, by decide, isNumericChar_toDigits hc]

theorem isNumericChar_positiveText (x : ℚ) : ∀ c ∈ positiveText x, isNumericChar c = true := by
  intro c hc
  rw [positiveText] at hc
  split at hc
  · exact isNumericChar_layoutDigits (fun c => isNumericChar_toDigits) _ c hc
  · rw [List.mem_singleton.1 hc]; decide

theorem isNumericChar_numberToString (x : JsNum) :
    ∀ c ∈ (numberToString x).toList, isNumericChar c = true := by
  rcases x with _ | (_ | _) | q
  · exact List.all_eq_true.1 (show "NaN".toList.all isNumericChar = true by decide)
  · exact List.all_eq_true.1 (show "Infinity".toList.all isNumericChar = true by decide)
  · exact List.all_eq_true.1 (show "-Infinity".toList.all isNumericChar = true by decide)
  · intro c hc
    simp only [numberToString, String.toList_ofList, finiteText] at hc
    split_ifs at hc with h1 h2
    · exact isNumericChar_intText hc
    · rcases List.mem_cons.1 hc with rfl | hc
      · decide
      · exact isNumericChar_positiveText _ c hc
    · exact isNumericChar_positiveText _ c hc

/-! ### Numbers from text -/

/-- White space and line terminators, as `trim` strips them. -/
def isJsSpace (c : Char) : Bool :=
  let n := c.toNat
  (9 ≤ n && n ≤ 13) || n == 0x20 || n == 0xA0 || n == 0x1680 || (0x2000 ≤ n && n ≤ 0x200A) ||
    n == 0x2028 || n == 0x2029 || n == 0x202F || n == 0x205F || n == 0x3000 || n == 0xFEFF

/-- `trim` on the characters of a string. -/
def trimChars (cs : List Char) : List Char :=
  ((cs.dropWhile isJsSpace).reverse.dropWhile isJsSpace).reverse

/-- `s.trim()`. -/
def trim (s : String) : String := String.ofList (trimChars s.toList)

/-- The number that decimal digits spell. -/
def digitsValue (ds : List Char) : ℕ := Nat.ofDigitChars 10 ds 0

/-- An unsigned decimal `\d+\.?\d*` or `\.\d+` at the front: its value and what follows. -/
def unsignedDecimal (cs : List Char) : Option (ℚ × List Char) :=
  let ip := cs.takeWhile Char.isDigit
  let r1 := cs.dropWhile Char.isDigit
  let fp := match r1 with
    | '.' :: r => r.takeWhile Char.isDigit
    | _ => []
  let r2 := match r1 with
    | '.' :: r => r.dropWhile Char.isDigit
    | _ => r1
  if ip = [] ∧ fp = [] then none
  else some ((digitsValue (ip ++ fp) : ℚ) / 10 ^ fp.length, r2)

/-- Splits off a leading sign. -/
def splitSign : List Char → Bool × List Char
  | '-' :: cs => (true, cs)
  | '+' :: cs => (false, cs)
  | cs => (false, cs)

/-- The value of a text that matches `/^[+-]?(\d+\.?\d*|\.\d+)$/`. -/
def decimalText (s : String) : Option ℚ :=
  let (neg, cs) := splitSign s.toList
  match unsignedDecimal cs with
  | some (q, []) => some (if neg then -q else q)
  | _ => none

/-- An exponent part after its `e`. -/
def exponentPart (cs : List Char) : Option ℤ :=
  let (neg, ds) := splitSign cs
  if ds ≠ [] ∧ ds.all Char.isDigit then
    some (if neg then -(digitsValue ds : ℤ) else digitsValue ds)
  else none

/-- A signed decimal literal, `Infinity` and exponents included. -/
def decimalLiteral (cs : List Char) : JsNum :=
  let (neg, us) := splitSign cs
  let sign (q : ℚ) : ℚ := if neg then -q else q
  if us = "Infinity".toList then .inf neg
  else match unsignedDecimal us with
    | none => .nan
    | some (q, []) => toDouble (sign q)
    | some (q, c :: rest) =>
      if c = 'e' ∨ c = 'E' then
        match exponentPart rest with
        | some e => toDouble (sign (q * 10 ^ e))
        | none => .nan
      else .nan

/-- The value of a digit in bases up to 16. -/
def digitIn (b : ℕ) (c : Char) : Option ℕ :=
  let v := if '0' ≤ c ∧ c ≤ '9' then some (c.toNat - 48)
    else if 'a' ≤ c ∧ c ≤ 'f' then some (c.toNat - 87)
    else if 'A' ≤ c ∧ c ≤ 'F' then some (c.toNat - 55)
    else none
  v.filter (· < b)

/-- The number that digits of base `b` spell. -/
def radixValue (b : ℕ) (cs : List Char) : ℕ :=
  cs.foldl (fun acc c => b * acc + (digitIn b c).getD 0) 0

/-- A literal of base `b` after its prefix. -/
def radixLiteral (b : ℕ) (cs : List Char) : JsNum :=
  if cs ≠ [] ∧ cs.all (fun c => (digitIn b c).isSome) then toDouble (radixValue b cs) else .nan

/-- `Number(s)` of a string. -/
def stringToNumber (s : String) : JsNum :=
  match trimChars s.toList with
  | [] => .fin 0
  | '0' :: c :: cs =>
    if c = 'x' ∨ c = 'X' then radixLiteral 16 cs
    else if c = 'o' ∨ c = 'O' then radixLiteral 8 cs
    else if c = 'b' ∨ c = 'B' then radixLiteral 2 cs
    else decimalLiteral ('0' :: c :: cs)
  | cs => decimalLiteral cs

/-- The digits of base `b` at the front, read as `parseInt` reads them. -/
def parseDigits (b : ℕ) (neg : Bool) (cs : List Char) : JsNum :=
  let ds := cs.takeWhile fun c => (digitIn b c).isSome
  if ds = [] then .nan
  else toDouble (if neg then -(radixValue b ds : ℚ) else radixValue b ds)

/-- `parseInt(s)` of a string. -/
def parseIntText (s : String) : JsNum :=
  let (neg, cs) := splitSign (s.toList.dropWhile isJsSpace)
  match cs with
  | '0' :: 'x' :: rest | '0' :: 'X' :: rest => parseDigits 16 neg rest
  | _ => parseDigits 10 neg cs

/-- The exponent part at the front of a literal; an incomplete one is not read. -/
def leadingExponent : List Char → ℤ
  | [] => 0
  | c :: cs =>
    if c = 'e' ∨ c = 'E' then
      let (neg, ds) := splitSign cs
      let e : ℤ := digitsValue (ds.takeWhile Char.isDigit)
      if neg then -e else e
    else 0

/-- `parseFloat(s)` of a string. -/
def parseFloatText (s : String) : JsNum :=
  let (neg, cs) := splitSign (s.toList.dropWhile isJsSpace)
  if "Infinity".toList.isPrefixOf cs then .inf neg
  else match unsignedDecimal cs with
    | none => .nan
    | some (q, rest) =>
      let x : ℚ := q * 10 ^ leadingExponent rest
      toDouble (if neg then -x else x)

/-- `x === (x | 0)`: an integer of 32 bits. -/
def JsNum.isInt32 : JsNum → Bool
  | fin q => decide (q.den = 1 ∧ -2 ^ 31 ≤ q ∧ q < 2 ^ 31)
  | _ => false

/-- `isNumeric(s)` of a string. -/
def isNumericText (s : String) : Bool :=
  decide (parseFloatText s ≠ .nan) && (stringToNumber s).isFinite

/-- The decimal text of a natural number. -/
def natText (n : ℕ) : String := String.ofList (Nat.toDigits 10 n)

/-- `s.length`: an astral character counts twice. -/
def utf16Length (s : String) : ℕ :=
  (s.toList.map fun c => if c.toNat < 0x10000 then 1 else 2).sum

/-- The UTF-16 code units of a text, by which `<` compares strings. -/
def utf16Units (s : String) : List ℕ :=
  s.toList.flatMap fun c =>
    if c.toNat < 0x10000 then [c.toNat]
    else [0xD800 + (c.toNat - 0x10000) / 0x400, 0xDC00 + (c.toNat - 0x10000) % 0x400]

end XChainSdk
