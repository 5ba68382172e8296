import XChainSdk.Js.NumberFormat

/-!
# The projected payout of a bet

What a stake would pay at the pools as they stand.  The fee is floored first, then the payout
against what is left of the pools.  Every operation of the big decimals is rounded to 64 significant
digits.

* `floorAt` : the floor at a number of decimals.
* `projectPayout` : the projection; none of an empty winning pool.
-/

namespace XChainSdk

open Js

/-- What is thrown: a field with an invalid value, or a text that is no number. -/
inductive ProjectionError
  | invalidFieldValue (message field : String)
  | notANumber
  deriving DecidableEq

/-- What `projectPayout` returns. -/
structure Projection where
  payout : String
  profit : String
  impliedOdds : String
  total : String
  winningPool : String
  fee : String
  deriving DecidableEq

/-- The parameters of `projectPayout`; a missing one is undefined. -/
structure ProjectionArgs where
  pools : Js
  outcome : Js
  stake : Js
  feePct : Js := .undefined
  decimals : Js := .undefined

/-- The default of a parameter stands in for `undefined` only. -/
def ProjectionArgs.withDefault (value default : Js) : Js :=
  match value with
  | .undefined => default
  | value => value

/-- The number as an integer from 0 to below a bound. -/
def JsNum.natBelow (bound : ℕ) : JsNum → Option ℕ
  | .fin q => if q.den = 1 ∧ 0 ≤ q ∧ q < bound then some q.num.toNat else none
  | _ => none

/-- `floorAt`, where 10 to the `d` is the scale. -/
def floorAt (d : ℕ) (v : JsNum) : JsNum :=
  ((v.times (.fin (10 ^ d))).floor).dividedBy (.fin (10 ^ d))

section

variable (M : MathJs)

/-- `bn(String(v))` -/
def bigText (v : Js) : Except ProjectionError JsNum :=
  match M.bignumber v.toText with
  | some x => .ok x
  | none => .error .notANumber

/-- `bn(String(v == null ? 0 : v))` -/
def bigAmount (v : Js) : Except ProjectionError JsNum :=
  bigText M (if v.isNullish then .str "0" else v)

/-- The sum of the pools, from the first to the last. -/
def sumPools (pools : List Js) : Except ProjectionError JsNum :=
  pools.foldlM (fun sum p => do return sum.plus (← bigAmount M p)) (.fin 0)

/-- `projectPayout` -/
def projectPayout (args : ProjectionArgs) : Except ProjectionError (Option Projection) := do
  let .arr pools := args.pools |
    throw (.invalidFieldValue "betting.projectPayout: pools must be an array" "pools")
  let some index := args.outcome.toNumber.natBelow pools.length |
    throw (.invalidFieldValue
      "betting.projectPayout: outcome is out of range for the pools given" "outcome")
  let some d := (ProjectionArgs.withDefault args.decimals (.num (.fin 8))).toNumber.natBelow 19 |
    throw (.invalidFieldValue
      "betting.projectPayout: decimals must be an integer between 0 and 18" "decimals")
  let stake ← bigAmount M args.stake
  if !(JsNum.fin 0).lt stake then
    throw (.invalidFieldValue "betting.projectPayout: stake must be positive" "stake")
  let total ← sumPools M pools
  let totalIn := total.plus stake
  let winning := (← bigAmount M (pools.getD index .undefined)).plus stake
  if !(JsNum.fin 0).lt winning then return none
  let feePct ← bigText M (ProjectionArgs.withDefault args.feePct (.num (.fin 0)))
  let fee := floorAt d ((totalIn.times feePct).dividedBy (.fin 100))
  let pot := totalIn.minus fee
  let payout := floorAt d ((stake.times pot).dividedBy winning)
  return some {
    payout := toFixedAt d payout
    profit := toFixedAt d (payout.minus stake)
    impliedOdds := toFixedAt 8 (payout.dividedBy stake)
    total := toFixedAt d totalIn
    winningPool := toFixedAt d winning
    fee := toFixedAt d fee }

end

/-! ### The parameters as numbers -/

/-- A bet on one of some pools, as its parameters read. -/
structure PooledBet where
  pools : List ℚ
  index : ℕ
  stake : ℚ
  feePct : ℚ
  decimals : ℕ
  index_lt : index < pools.length
  pools_nonneg : ∀ p ∈ pools, 0 ≤ p
  stake_pos : 0 < stake
  feePct_nonneg : 0 ≤ feePct
  feePct_le : feePct ≤ 100
  decimals_le : decimals ≤ 18

/-- The parameters read as a bet. -/
structure ProjectionArgs.Reads (M : MathJs) (args : ProjectionArgs) (b : PooledBet) : Prop where
  pools : ∃ values, args.pools = .arr values ∧
    List.Forall₂ (fun v q => bigAmount M v = .ok (.fin q)) values b.pools
  outcome : args.outcome.toNumber = .fin b.index
  stake : bigAmount M args.stake = .ok (.fin b.stake)
  feePct : bigText M (withDefault args.feePct (.num (.fin 0))) = .ok (.fin b.feePct)
  decimals : (withDefault args.decimals (.num (.fin 8))).toNumber = .fin b.decimals

end XChainSdk
