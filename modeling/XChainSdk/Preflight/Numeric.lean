import XChainSdk.Js.NumberFormat

/-!
# Arithmetic of the checks

Comparisons are exact; a sum or a product is rounded to 64 significant digits.

* `gte`, `gt`, `isPositive`, `add`, `sub` : the operations; `none` is a thrown error.
* `mulFloor`, `exceedsUnsignedColumn` : the product of a distribution, and the bound of a column.
-/

namespace XChainSdk

/-! ### The operations -/

namespace Numeric

section

variable (M : MathJs)

/-- `gte` -/
def gte (a b : Js) : Option Bool := do
  let x ← Utility.bcnum M a
  let y ← Utility.bcnum M b
  return y.le x

/-- `gt` -/
def gt (a b : Js) : Option Bool := do
  let x ← Utility.bcnum M a
  let y ← Utility.bcnum M b
  return y.lt x

/-- `isPositive` -/
def isPositive (v : Js) : Option Bool := do
  let x ← Utility.bcnum M v
  return (JsNum.fin 0).lt x

/-- `add` -/
def add (a b : Js) : Option String := do
  let x ← Utility.bcnum M a
  let y ← Utility.bcnum M b
  return (x.plus y).toFixedText

/-- `sub` -/
def sub (a b : Js) : Option String := do
  let x ← Utility.bcnum M a
  let y ← Utility.bcnum M b
  return (x.minus y).toFixedText

/-- `bcnum` of a big decimal: its text reads back as itself. -/
def reread : JsNum → JsNum
  | .fin q => .fin (readable q)
  | _ => .fin 0

/-- `Number.isInteger(decimals) ? decimals : 0`. -/
def wholeDecimals : Js → ℤ
  | .num (.fin q) => if q.den = 1 then q.num else 0
  | _ => 0

/-- `mulFloor` -/
def mulFloor (a b decimals : Js) : Option String := do
  let x ← Utility.bcnum M a
  let y ← Utility.bcnum M b
  let scale := JsNum.fin (10 ^ wholeDecimals decimals)
  return (((reread (x.times y)).times scale).floor.dividedBy scale).toFixedText

/-- `EXPIRATION_MAX` -/
def EXPIRATION_MAX : ℕ := 18446744073709551615

/-- `exceedsUnsignedColumn`.  The source writes `max` as a digit string. -/
def exceedsUnsignedColumn (value : Js) (max : ℕ) : Bool :=
  if value.isNullish then false
  else
    let raw := trim value.toText
    -- the texts that match `/^[+-]?[0-9]+$/`, with their integer
    match exponentPart raw.toList with
    | some n => decide (n < 0 ∨ (max : ℤ) < n)
    | none =>
      let approx := stringToNumber raw
      approx.isFinite && match M.bignumber raw with
        | none => false
        | some exact => approx.lt (.fin 0) || (toDouble max).lt approx ||
            ((JsNum.fin max).plus (.fin (1 / 2))).le exact

end

variable {M : MathJs} {s t : String} {p q : ℚ}

theorem gte_of_spells (hs : Spells s p) (ht : Spells t q) :
    gte M (.str s) (.str t) = some (decide (readable q ≤ readable p)) := by
  simp [gte, hs.bcnum M, ht.bcnum M, JsNum.le]

theorem gt_of_spells (hs : Spells s p) (ht : Spells t q) :
    gt M (.str s) (.str t) = some (decide (readable q < readable p)) := by
  simp [gt, hs.bcnum M, ht.bcnum M, JsNum.lt]

theorem isPositive_of_spells (hs : Spells s p) :
    isPositive M (.str s) = some (decide (0 < readable p)) := by
  simp [isPositive, hs.bcnum M, JsNum.lt]

/-- A sum spells the rounding of what its terms read as. -/
theorem add_of_spells (hs : Spells s p) (ht : Spells t q) :
    ∃ u, add M (.str s) (.str t) = some u ∧
      Spells u (roundSig BIGNUMBER_PRECISION (readable p + readable q)) :=
  ⟨toFixed (roundSig BIGNUMBER_PRECISION (readable p + readable q)),
    by simp [add, hs.bcnum M, ht.bcnum M, JsNum.plus, JsNum.toFixedText],
    spells_toFixed (isDecimal_roundSig _ _)⟩

/-- A sum can be read. -/
theorem add_reads {a b : Js} {t : String} (h : add M a b = some t) :
    ∃ y, Utility.bcnum M (.str t) = some y := by
  obtain ⟨x, -, h⟩ := Option.bind_eq_some_iff.1 h
  obtain ⟨y, -, h⟩ := Option.bind_eq_some_iff.1 h
  cases h
  exact bcnum_toFixedText M fun q hq => isDecimal_plus hq

end Numeric

end XChainSdk
