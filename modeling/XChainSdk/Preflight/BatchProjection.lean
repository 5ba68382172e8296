import XChainSdk.Lib.Dict
import XChainSdk.Preflight.FeeProjection

/-!
# Balances in the course of a batch

Each command of a batch is checked against the balances that the commands before it are expected to
leave.

* `ProjectionContext.balance` : a looked-up balance without the local deltas of its token.
* `perTickTotals`, `checkBalanceCovers` : the check of a `SEND` or a `DESTROY`.
* `projectDeltas` : what a command is expected to do; `none` where the client cannot tell.
* `checkBatch` : the findings on the balances of a batch.
-/

namespace XChainSdk

/-- An amount that is to be subtracted from a balance. -/
structure LocalDelta where
  tick : String
  amount : String

/-- `{ tick, amount, sign }` -/
structure ProjectedDelta where
  tick : String
  amount : String
  credits : Bool

/-- What the balance checks read of their context. -/
structure ProjectionContext where
  source : String
  feeMode : Js
  /-- `sdk.config.network` -/
  network : Js
  token : String → TokenAnswer
  /-- The amount that the lookups answer for the source; `none` is a failed one. -/
  chainBalance : String → Option String
  /-- The stored name under which the row of a token is listed; the native coin has none. -/
  resolvedName : String → Option String
  localDeltas : List LocalDelta

/-- `[].concat(v || [])` -/
def concatList (v : Js) : List Js :=
  match v.or (.arr []) with
  | .arr xs => xs
  | x => [x]

/-- The lists of `TICK`, `AMOUNT` and `DESTINATION`. -/
structure LegLists where
  ticks : List Js
  amounts : List Js
  dests : List Js

/-- The lists of the parameters. -/
def legLists (params : List (String × Js)) : LegLists where
  ticks := concatList (Js.member params "TICK")
  amounts := concatList (Js.member params "AMOUNT")
  dests := concatList (Js.member params "DESTINATION")

namespace LegLists

variable (l : LegLists)

/-- The number of legs. -/
def count : ℕ := max l.ticks.length l.amounts.length

/-- The token of a leg; the last one stands for the legs after it. -/
def tick (i : ℕ) : String :=
  ((l.ticks.getD (min i (l.ticks.length - 1)) .undefined).or (.str "")).toText

/-- The amount of a leg. -/
def amount (i : ℕ) : String :=
  match l.amounts.getD i .undefined with
  | .undefined => ""
  | x => x.toText

/-- The destination of a leg. -/
def dest (i : ℕ) : Option String :=
  match l.dests.getD i .undefined with
  | .undefined => none
  | x => some x.toText

/-- The legs that have a token and an amount. -/
def legs : List ℕ :=
  (List.range l.count).filter fun i => l.tick i != "" && l.amount i != ""

end LegLists

section

variable (M : MathJs) (ctx : ProjectionContext)

/-! ### Balances -/

/-- A delta under this name counts for the token: the name is its spelling, or its stored name. -/
def ProjectionContext.names (tick name : String) : Bool :=
  name == tick || ctx.resolvedName tick == some name

/-- The deltas, subtracted one after the other. -/
def subtractDeltas : String → List LocalDelta → Option String
  | amount, [] => some amount
  | amount, d :: deltas => do
    let next ← Numeric.sub M (.str amount) (.str d.amount)
    subtractDeltas next deltas

/-- `balance` of the source; `some none` is a failed lookup. -/
def ProjectionContext.balance (localDeltas : List LocalDelta) (tick : String) :
    Option (Option String) :=
  match ctx.chainBalance tick with
  | none => some none
  | some amount =>
    (subtractDeltas M amount (localDeltas.filter fun d => ctx.names tick d.tick)).map some

/-- `deltaApplied` -/
def sumDeltas (localDeltas : List LocalDelta) (tick : String) : Option String :=
  deltaApplied M tick "0"
    (localDeltas.map fun d => .obj [("tick", .str d.tick), ("amount", .str d.amount)])

/-- `perTickTotals` -/
def perTickTotals (l : LegLists) : Option (Dict String String) :=
  l.legs.foldlM (fun totals i => do
    let total ← Numeric.add M (.str ((totals.get? (l.tick i)).getD "0")) (.str (l.amount i))
    return totals.set (l.tick i) total) Dict.empty

/-- The warning on a total that is not positive. -/
def notPositiveFinding (verb tick total : String) (i : ℕ) : Finding where
  code := .AMOUNT_NOT_POSITIVE
  severity := .warning
  message := verb ++ " amount for " ++ tick ++ " is not positive."
  data := [("tick", .str tick), ("total", .str total), ("commandIndex", .num (.fin i))]
  source := .client

/-- The error on a balance that does not cover a total. -/
def insufficientFinding (lowerVerb tick balance total inFlight : String) (netted : Bool) (i : ℕ) :
    Finding where
  code := .BALANCE_INSUFFICIENT
  severity := .error
  message :=
    if netted then "Balance of " ++ tick ++ " (" ++ balance ++ " after " ++ inFlight ++
      " already committed from this wallet) does not cover the " ++ lowerVerb ++ " total (" ++
      total ++ ")."
    else "Balance of " ++ tick ++ " (" ++ balance ++ ") does not cover the " ++ lowerVerb ++
      " total (" ++ total ++ ")."
  data := [("tick", .str tick), ("balance", .str balance), ("total", .str total)] ++
    (if netted then [("localDeltaApplied", .str inFlight)] else []) ++
    [("commandIndex", .num (.fin i))]
  source := .client
  overridable := some true

/-- One total of `checkBalanceCovers`. -/
def checkTotal (verb lowerVerb : String) (localDeltas : List LocalDelta) (i : ℕ)
    (tick total : String) : Option (Option Finding) := do
  let positive ← Numeric.isPositive M (.str total)
  if positive = false then return some (notPositiveFinding verb tick total i)
  match ← ctx.balance M localDeltas tick with
  | none => return none
  | some balance =>
    let covers ← Numeric.gte M (.str balance) (.str total)
    if covers then return none
    let inFlight ← sumDeltas M localDeltas tick
    let netted ← Numeric.isPositive M (.str inFlight)
    return some (insufficientFinding lowerVerb tick balance total inFlight netted i)

/-- `checkBalanceCovers` -/
def checkBalanceCovers (verb lowerVerb : String) (localDeltas : List LocalDelta) (i : ℕ)
    (cmd : BatchCommand) : Option (List Finding) :=
  if ctx.source = "" then some []
  else do
    let totals ← perTickTotals M (legLists cmd.params)
    let found ← totals.entries.mapM fun e =>
      checkTotal M ctx verb lowerVerb localDeltas i e.1 e.2
    return found.filterMap id

/-- The findings of `runActionChecks` on balances: `MINT` and `ISSUE` have none. -/
def balanceFindings (localDeltas : List LocalDelta) (i : ℕ) (cmd : BatchCommand) :
    Option (List Finding) :=
  if cmd.action = "SEND" then checkBalanceCovers M ctx "Send" "send" localDeltas i cmd
  else if cmd.action = "DESTROY" then checkBalanceCovers M ctx "Destroy" "destroy" localDeltas i cmd
  else some []

/-- What `runCommandChecks` makes of a finding behind a command whose effect is not known. -/
def downgrade (f : Finding) : Finding :=
  if f.severity = .error ∧ f.code = .BALANCE_INSUFFICIENT then
    { f with
      severity := .warning
      overridable := none
      message := f.message ++ " (an earlier batch command's effect could not be projected; treat" ++
        " as advisory)" }
  else f

/-- `runCommandChecks` -/
def runCommandChecks (cmd : BatchCommand) (i : ℕ) (projected : List LocalDelta)
    (unprojectable : Bool) : Option (List Finding) := do
  let found ← balanceFindings M ctx (ctx.localDeltas ++ projected) i cmd
  return if unprojectable then found.map downgrade else found

/-! ### The projection -/

/-- `!v`, or the text of `v`. -/
def textOr (v : Js) (fallback : String) : String := if v.truthy then v.toText else fallback

/-- `supply !== undefined && supply !== null && supply !== '' && !Array.isArray(supply)`. -/
def isScalarSupply : Js → Bool
  | .undefined | .null | .arr _ => false
  | .str s => s != ""
  | _ => true

/-- The parameter is a positive supply. -/
def mintsSupply (supply : Js) : Option Bool :=
  if isScalarSupply supply then Numeric.isPositive M (.str supply.toText) else some false

/-- `projectIssueDeltas` -/
def projectIssueDeltas (p : List (String × Js)) (issueFee : Option Fee) :
    Option (Option (List ProjectedDelta)) :=
  match issueFee with
  | none => some none
  | some fee => do
    let charged ← Numeric.isPositive M (.str fee.amount)
    let supply := Js.member p "MINT_SUPPLY"
    let minted ← mintsSupply M supply
    let toSource := textOr (Js.member p "TRANSFER_SUPPLY") ctx.source = ctx.source
    let debits := if charged then [⟨GAS_TICK, fee.amount, false⟩] else []
    let credits := match (legLists p).ticks.head? with
      | some tick => if minted ∧ toSource then [⟨tick.toText, supply.toText, true⟩] else []
      | none => []
    return some (debits ++ credits)

/-- `projectSendDeltas` -/
def projectSendDeltas (l : LegLists) : List ProjectedDelta :=
  l.legs.flatMap fun i =>
    ⟨l.tick i, l.amount i, false⟩ ::
      if l.dest i = some ctx.source then [⟨l.tick i, l.amount i, true⟩] else []

/-- `projectDestroyDeltas` -/
def projectDestroyDeltas (l : LegLists) : List ProjectedDelta :=
  l.legs.map fun i => ⟨l.tick i, l.amount i, false⟩

/-- The branch of `projectDeltas` on `MINT`. -/
def projectMintDeltas (p : List (String × Js)) : List ProjectedDelta :=
  if textOr (Js.member p "DESTINATION") ctx.source ≠ ctx.source then []
  else
    match (legLists p).ticks.head?, (legLists p).amounts.head? with
    | some tick, some amount => [⟨tick.toText, amount.toText, true⟩]
    | _, _ => []

/-- `projectDeltas` -/
def projectDeltas (cmd : BatchCommand) (issueFee : Option Fee) :
    Option (Option (List ProjectedDelta)) :=
  if cmd.action = "MINT" then some (some (projectMintDeltas ctx cmd.params))
  else if cmd.action = "ISSUE" then projectIssueDeltas M ctx cmd.params issueFee
  else if cmd.action = "SEND" then some (some (projectSendDeltas ctx (legLists cmd.params)))
  else if cmd.action = "DESTROY" then some (some (projectDestroyDeltas (legLists cmd.params)))
  else some none

/-- A projected delta as an amount to subtract. -/
def ProjectedDelta.toLocal (d : ProjectedDelta) : Option LocalDelta :=
  if d.credits then do
    let amount ← Numeric.sub M (.str "0") (.str d.amount)
    return ⟨d.tick, amount⟩
  else some ⟨d.tick, d.amount⟩

/-- `projectRunningDeltas` -/
def projectRunningDeltas (cmd : BatchCommand) (issueFee : Option Fee) :
    Option (Option (List LocalDelta)) := do
  match ← projectDeltas M ctx cmd issueFee with
  | none => return none
  | some deltas => (deltas.mapM (ProjectedDelta.toLocal M)).map some

/-! ### The batch -/

/-- What the fee projection reads of the context. -/
def ProjectionContext.fees : FeeContext where
  feeMode := ctx.feeMode
  source := .str ctx.source
  balance := none
  localDeltas := []
  token := ctx.token
  nowSeconds := 0

/-- `pricing.issueFee` -/
def issueFee (H : Host) (cmd : BatchCommand) : Option (Option Fee) :=
  if cmd.action = "ISSUE" then
    (projectCommandFee M H ctx.fees cmd (gasConfig ctx.network)).map CommandPricing.fee
  else some none

/-- The loop of `checkBatch` from command `i` on, with the deltas projected so far.  A command that
does not parse is `none`: it has a finding of its own, and projects nothing. -/
def checkCommands (H : Host) : ℕ → List LocalDelta → Bool → List (Option BatchCommand) →
    Option (List Finding)
  | _, _, _, [] => some []
  | i, projected, unprojectable, none :: cmds =>
    checkCommands H (i + 1) projected unprojectable cmds
  | i, projected, unprojectable, some cmd :: cmds => do
    let found ← runCommandChecks M ctx cmd i projected unprojectable
    let fee ← issueFee M ctx H cmd
    let deltas ← projectRunningDeltas M ctx cmd fee
    let rest ← checkCommands H (i + 1) (projected ++ deltas.getD [])
      (unprojectable || deltas.isNone) cmds
    return found ++ rest

/-- The findings of `checkBatch` on the balances of its commands. -/
def checkBatch (H : Host) (cmds : List (Option BatchCommand)) : Option (List Finding) :=
  checkCommands M ctx H 0 [] false cmds

end

end XChainSdk
