import XChainSdk.Preflight.Findings
import XChainSdk.Preflight.Numeric
import XChainSdk.Protocol.BatchLimits

/-!
# The fees of a batch

What the client believes that the commands of a batch are charged, and what it says when the gas
balance does not cover it.

* `GasConfig`, `gasConfig` : the schedule of the coin that the client is set to.
* `projectCommandFee` : the fee of one command, where its class has a price.
* `checkFeeBudget` : the finding on the whole batch.
-/

namespace XChainSdk

/-! ### The schedule -/

/-- What the projection reads of a coin's configuration. -/
structure GasConfig where
  coin : String
  gasPrice : String
  ISSUE : Option ℕ
  ISSUE_SUBTOKEN : Option ℕ
  EXPIRATION_PER_DAY : Option ℕ
  VM_EXECUTE_BASE : Option ℕ
  freeDays : ℕ

/-- `FULL_NAME_TO_TICK` -/
def FULL_NAME_TO_TICK : List (String × String) :=
  [("bitcoin", "BTC"), ("litecoin", "LTC"), ("dogecoin", "DOGE")]

/-- The networks of a coin. -/
def COIN_NETWORKS : List String := ["mainnet", "testnet", "regtest"]

/-- `gasConfig`; all coins have one schedule. -/
def gasConfig (network : Js) : Option GasConfig := do
  let parts := ((network.or (.str "")).toText.toList.splitOn '-').map String.ofList
  let tick ← FULL_NAME_TO_TICK.lookup (parts.getD 0 "")
  guard (parts.getD 1 "" ∈ COIN_NETWORKS)
  return {
    coin := tick
    gasPrice := "0.00001"
    ISSUE := some 100000
    ISSUE_SUBTOKEN := some 50000
    EXPIRATION_PER_DAY := some 550
    VM_EXECUTE_BASE := some 1000
    freeDays := 90 }

/-! ### The fee of a command -/

/-- A quoted fee.  `bound` marks one that the chain never undercuts. -/
structure Fee where
  amount : String
  chargeable : Bool
  bound : Bool

/-- A command that was parsed. -/
structure BatchCommand where
  action : String
  version : Js
  params : List (String × Js)

/-- What the token lookup answers. -/
inductive TokenAnswer
  | unavailable
  | absent
  | present
  deriving DecidableEq

/-- The fee of a command: its class has no price, or a quote, which may be unknown. -/
inductive CommandPricing
  | unpriced
  | priced (fee : Option Fee)

/-- What the fee checks read of their context. -/
structure FeeContext where
  feeMode : Js
  source : Js
  /-- `ctx.balance(ctx.source, GAS_TICK)` -/
  balance : Option String
  localDeltas : List Js
  token : String → TokenAnswer
  nowSeconds : ℕ

/-- `DURATION_FEE_ACTIONS` -/
def DURATION_FEE_ACTIONS : List String := ["ORDER", "SWAP", "DISPENSER"]

/-- `xchainFeeDebit` -/
def xchainFeeDebit (feeMode : Js) (gas : Option GasConfig) : Bool :=
  if isText feeMode "native" then false
  else if isText feeMode "xchain" then true
  else gas.all (·.coin == "BTC")

section

variable (M : MathJs)

/-- `gasFee` -/
def gasFee (units gasPrice : String) : Option String := do
  let u ← M.bignumber units
  let p ← M.bignumber gasPrice
  Numeric.add M (.str (toFixedAt 8 (u.times p))) (.str "0")

/-- A fee of that many units. -/
def quoteFee (units gasPrice : String) (bound : Bool) : Option (Option Fee) := do
  let amount ← gasFee M units gasPrice
  let chargeable ← Numeric.isPositive M (.str amount)
  return some ⟨amount, chargeable, bound⟩

/-- A fee of zero. -/
def freeFee (bound : Bool) : Fee := ⟨"0", false, bound⟩

/-- `projectIssueFee` -/
def projectIssueFee (H : Host) (ctx : FeeContext) (cmd : BatchCommand) (gas : Option GasConfig) :
    Option (Option Fee) :=
  match gas with
  | none => some none
  | some gas =>
    let tick := Js.member cmd.params "TICK"
    match tick with
    | .arr _ => some none
    | _ =>
      if tick.truthy = false then some none
      else
        let name := trim tick.toText
        if name = "" ∨ name.toList.head? = some '^' then some none
        else if H.toUpperCase name = H.toUpperCase GAS_TICK then some (some (freeFee true))
        else match ctx.token name with
          | .unavailable => some none
          | .present => some (some (freeFee true))
          | .absent =>
            let units :=
              if classifyIssueTick (some name) = CHILD_ISSUE_KEY then gas.ISSUE_SUBTOKEN
              else gas.ISSUE
            match units with
            | none => some none
            | some units => quoteFee M (natText units) gas.gasPrice true

/-- The text of `EXPIRATION`; a list has none. -/
def expirationText (cmd : BatchCommand) : Option String :=
  match Js.member cmd.params "EXPIRATION" with
  | .arr _ => none
  | exp => some (if exp.isNullish then "" else trim exp.toText)

/-- `chargeableDays` -/
def chargeableDays (expiration : String) (nowSeconds freeDays : ℕ) : Option String := do
  let expires ← M.bignumber expiration
  let left ← M.bignumber (toFixedAt 0 (expires.minus (.fin nowSeconds)))
  let expireDays ← M.bignumber (toFixedAt 0 (left.dividedBy (.fin 86400)))
  return toFixedAt 0 (expireDays.minus (.fin freeDays))

/-- The fee of a duration of so many days. -/
def daysFee (days : String) (perDay : ℕ) (gasPrice : String) : Option (Option Fee) := do
  let positive ← Numeric.isPositive M (.str days)
  if positive then
    let x ← M.bignumber days
    quoteFee M (toFixedAt 0 (x.times (.fin perDay))) gasPrice false
  else return some (freeFee false)

/-- `projectDurationFee` -/
def projectDurationFee (ctx : FeeContext) (cmd : BatchCommand) (gas : Option GasConfig) :
    Option (Option Fee) :=
  match gas with
  | none => some none
  | some gas =>
    if cmd.version.toText ≠ "0" then some none
    else match gas.EXPIRATION_PER_DAY, expirationText cmd with
      | some perDay, some expiration =>
        if expiration = "" then some (some (freeFee true))
        else if isNumeric (.str expiration) = false then some none
        else do
          let days ← chargeableDays M expiration ctx.nowSeconds gas.freeDays
          daysFee M days perDay gas.gasPrice
      | _, _ => some none

/-- `projectExecuteFee` -/
def projectExecuteFee (ctx : FeeContext) (gas : Option GasConfig) : Option (Option Fee) :=
  match gas with
  | none => some none
  | some gas =>
    match gas.VM_EXECUTE_BASE, ctx.token GAS_TICK with
    | some base, .present => quoteFee M (natText base) gas.gasPrice true
    | _, _ => some none

/-- A quote of a class that has a price; it is zero where the fee is no debit. -/
def debitedFee (feeMode : Js) (gas : Option GasConfig) (project : Option (Option Fee)) :
    Option CommandPricing :=
  if xchainFeeDebit feeMode gas then project.map .priced
  else some (.priced (some (freeFee true)))

/-- `projectCommandFee` -/
def projectCommandFee (H : Host) (ctx : FeeContext) (cmd : BatchCommand) (gas : Option GasConfig) :
    Option CommandPricing :=
  if cmd.action = "ISSUE" then debitedFee ctx.feeMode gas (projectIssueFee M H ctx cmd gas)
  else if cmd.action ∈ DURATION_FEE_ACTIONS then
    debitedFee ctx.feeMode gas (projectDurationFee M ctx cmd gas)
  else if cmd.action = "EXECUTE" then debitedFee ctx.feeMode gas (projectExecuteFee M ctx gas)
  else some .unpriced

end

/-- The quote of a command. -/
def CommandPricing.fee : CommandPricing → Option Fee
  | unpriced => none
  | priced fee => fee

/-- `collapseGrade` -/
def CommandPricing.collapseGrade (p : CommandPricing) : Bool :=
  p.fee.any fun fee => fee.chargeable && fee.bound

/-! ### The budget -/

/-- What the loop of `checkBatch` hands on: the fees of the commands whose class has a price.  A
command that does not parse is `none`. -/
def budgetFees (pricings : List (Option CommandPricing)) : List (Option Fee) :=
  pricings.filterMap fun p => p.bind fun
    | .unpriced => none
    | .priced fee => some fee

/-- `allPriced` -/
def allPriced (pricings : List (Option CommandPricing)) : Bool :=
  pricings.all fun p => p.any CommandPricing.collapseGrade

/-- What the check of the budget says. -/
inductive BudgetOutcome
  | silent
  | unverified (reason : String)
  | covered
  | found (finding : Finding)

section

variable (M : MathJs)

/-- A fee that is charged is less than the cheapest one so far. -/
def isCheaper (fee : Fee) : Option String → Option Bool
  | none => some fee.chargeable
  | some c => if fee.chargeable then Numeric.gt M (.str c) (.str fee.amount) else some false

/-- The total of the known fees, and the cheapest that is charged. -/
def sumFees : String → Option String → List (Option Fee) → Option (String × Option String)
  | total, cheapest, [] => some (total, cheapest)
  | total, cheapest, none :: fees => sumFees total cheapest fees
  | total, cheapest, some fee :: fees => do
    let total ← Numeric.add M (.str total) (.str fee.amount)
    let cheaper ← isCheaper M fee cheapest
    sumFees total (if cheaper then some fee.amount else cheapest) fees

/-- How many leading fees the balance covers; an unknown one ends the count. -/
def affordableFees (balance : String) : String → List (Option Fee) → Option ℕ
  | _, [] => some 0
  | _, none :: _ => some 0
  | spent, some fee :: fees => do
    let next ← Numeric.add M (.str spent) (.str fee.amount)
    let fits ← Numeric.gte M (.str balance) (.str next)
    if fits then
      let rest ← affordableFees balance next fees
      return rest + 1
    else return 0

/-- The amount of a delta on the token: `d && d.tick === tick && d.amount !== undefined`. -/
def deltaAmount (tick : String) (d : Js) : Option Js :=
  if d.truthy && isText (d.field "tick") tick then
    match d.field "amount" with
    | .undefined => none
    | amount => some amount
  else none

/-- `deltaApplied` -/
def deltaApplied (tick : String) : String → List Js → Option String
  | sum, [] => some sum
  | sum, d :: deltas =>
    match deltaAmount tick d with
    | none => deltaApplied tick sum deltas
    | some amount => do
      let next ← Numeric.add M (.str sum) amount
      deltaApplied tick next deltas

/-- The finding on a batch that can pay nothing. -/
def collapseFinding (balance netting total cheapest : String) (fees : List (Option Fee))
    (reserved : List (String × Js)) : Finding where
  code := .BALANCE_INSUFFICIENT
  severity := .error
  message := "Balance of " ++ GAS_TICK ++ " (" ++ balance ++ netting ++
    ") does not cover even the cheapest protocol fee in this batch (" ++ cheapest ++
    "); the chain rejects the whole batch as one record. Total charged: " ++ total ++ "."
  data := [("tick", .str GAS_TICK), ("balance", .str balance), ("total", .str total),
    ("cheapest", .str cheapest), ("commandCount", .num (.fin fees.length)),
    ("wholeBatch", .bool true)] ++ reserved
  source := .client
  overridable := some true

/-- The finding on a batch that can pay for some of its commands. -/
def partialFinding (balance netting total : String) (cheapest : Option String)
    (fees : List (Option Fee)) (reserved : List (String × Js)) (affordable : ℕ) : Finding where
  code := .BALANCE_INSUFFICIENT
  severity := .warning
  message := "Balance of " ++ GAS_TICK ++ " (" ++ balance ++ netting ++ ") does not cover the " ++
    total ++ " of protocol fees this batch charges. Commands are billed in order, so about " ++
    natText affordable ++ " of " ++ natText fees.length ++
    " would be paid and the rest would fail individually (a batch is not atomic)."
  data := [("tick", .str GAS_TICK), ("balance", .str balance), ("total", .str total),
    ("cheapest", (cheapest.map Js.str).getD .null), ("affordable", .num (.fin affordable)),
    ("commandCount", .num (.fin fees.length))] ++ reserved
  source := .client

/-- `allPriced && cheapest !== null && !numeric.gte(balance, cheapest)` -/
def belowCheapest (balance : String) : Bool → Option String → Option Bool
  | true, some c => (Numeric.gte M (.str balance) (.str c)).map not
  | _, _ => some false

/-- The finding on a batch whose fees the balance does not cover. -/
def shortfall (balance total : String) (cheapest : Option String) (fees : List (Option Fee))
    (localDeltas : List Js) (allPriced : Bool) : Option Finding := do
  let inFlight ← deltaApplied M GAS_TICK "0" localDeltas
  let netted ← Numeric.isPositive M (.str inFlight)
  let netting :=
    if netted then " after " ++ inFlight ++ " already committed from this wallet" else ""
  let reserved := if netted then [("localDeltaApplied", Js.str inFlight)] else []
  let collapses ← belowCheapest M balance allPriced cheapest
  if collapses then
    return collapseFinding balance netting total (cheapest.getD "") fees reserved
  let affordable ← affordableFees M balance "0" fees
  return partialFinding balance netting total cheapest fees reserved affordable

/-- `checkFeeBudget` -/
def checkFeeBudget (ctx : FeeContext) (fees : List (Option Fee)) (gas : Option GasConfig)
    (allPriced : Bool) : Option BudgetOutcome :=
  if fees = [] then some .silent
  else if xchainFeeDebit ctx.feeMode gas = false then
    some (.unverified ("protocol fees are settled as a native-coin output on this chain; " ++
      "no balance to check them against"))
  else do
    let (total, cheapest) ← sumFees M "0" none fees
    let positive ← Numeric.isPositive M (.str total)
    if positive = false then return .silent
    if ctx.source.truthy = false then return .unverified "no source address supplied"
    match ctx.balance with
    | none => return .unverified ("balance lookup unavailable for " ++ GAS_TICK)
    | some balance =>
      let covers ← Numeric.gte M (.str balance) (.str total)
      if covers then return .covered
      let finding ← shortfall M balance total cheapest fees ctx.localDeltas allPriced
      return .found finding

/-- The end of `checkBatch`. -/
def checkBatchFees (ctx : FeeContext) (gas : Option GasConfig)
    (pricings : List (Option CommandPricing)) : Option BudgetOutcome :=
  checkFeeBudget M ctx (budgetFees pricings) gas (allPriced pricings)

end

end XChainSdk
