import XChainSdk.Js.Decimal
import XChainSdk.Js.Value
import XChainSdk.Lib.Loop

/-!
# The output plan of a batch of coin payments

Inside a batch an obligation is settled by the first output that pays its payee, so a composer
combines what it owes to one payee in one output.

* `owedTotals` : the loop of both functions, a total for each payee in the order of appearance.
* `planCoinpayOutputs` : one output for each payee.
* `checkCoinpayOutputPlan` : the violations of a planned list of outputs; none is an accepted plan.
-/

namespace XChainSdk

open Js

/-- The amount text of an obligation or an output; an absent amount is 0. -/
def amountText (x : Js) : String :=
  if (x.field "amount").isNullish then "0" else (x.field "amount").toText

/-- An obligation without a payee is passed over. -/
def hasPayee (o : Js) : Bool := o.truthy && !(o.field "payee").isNullish

/-- The payee of an obligation. -/
def payeeText (o : Js) : String := (o.field "payee").toText

/-- Totals by payee, with the payees in the order of their first obligation. -/
structure OwedTotals where
  order : List String := []
  totals : List (String × JsNum) := []

namespace OwedTotals

/-- The total of a payee. -/
def total (s : OwedTotals) (payee : String) : JsNum := (s.totals.lookup payee).getD (.fin 0)

end OwedTotals

section Plan

variable (M : MathJs)

/-- One obligation; an amount that is no number throws. -/
def addObligation (s : OwedTotals) (o : Js) : Option OwedTotals :=
  if !hasPayee o then some s
  else do
    let payee := payeeText o
    let amount ← M.bignumber (amountText o)
    let order := if payee ∈ s.order then s.order else s.order ++ [payee]
    return ⟨order, Loop.setEntry s.totals payee ((s.total payee).plus amount)⟩

/-- The totals of a list of obligations. -/
def owedTotals (obligations : List Js) : Option OwedTotals := obligations.foldlM (addObligation M) {}

/-- An output of a plan. -/
structure PlannedOutput where
  payee : String
  amount : String
deriving DecidableEq

/-- `planCoinpayOutputs` -/
def planCoinpayOutputs (obligations : List Js) : Option (List PlannedOutput) := do
  let s ← owedTotals M obligations
  return s.order.map fun payee => ⟨payee, (s.total payee).toFixedText⟩

/-- The reasons of a violation. -/
inductive PlanReason
  | NO_OUTPUT
  | INSUFFICIENT
deriving DecidableEq

/-- A payee whose first output does not settle what it is owed. -/
structure PlanViolation where
  payee : String
  owed : String
  available : String
  reason : PlanReason
deriving DecidableEq

/-- The first output that pays a payee. -/
def firstPaying (outputs : List Js) (payee : String) : Option Js :=
  outputs.find? fun entry => entry.truthy && (entry.field "address").toText == payee

/-- The violation of one payee, if there is one. -/
def payeeViolation (outputs : List Js) (payee : String) (total : JsNum) :
    Option (Option PlanViolation) :=
  match firstPaying outputs payee with
  | none => some (some ⟨payee, total.toFixedText, "0", .NO_OUTPUT⟩)
  | some output => do
    let available ← M.bignumber (amountText output)
    return if available.lt total then
      some ⟨payee, total.toFixedText, available.toFixedText, .INSUFFICIENT⟩ else none

/-- `checkCoinpayOutputPlan`: its violations; an amount that is no number throws. -/
def checkCoinpayOutputPlan (obligations outputs : List Js) : Option (List PlanViolation) := do
  let s ← owedTotals M obligations
  let verdicts ← s.order.mapM fun payee => payeeViolation M outputs payee (s.total payee)
  return verdicts.reduceOption

/-- The output that a composer builds from an entry of the plan. -/
def PlannedOutput.toOutput (e : PlannedOutput) : Js :=
  .obj [("address", .str e.payee), ("amount", .str e.amount)]

end Plan

end XChainSdk
