import XChainSdk.Cosigner.ValueDerivability
import XChainSdk.Js.Decimal
import XChainSdk.Lib.Dict
import XChainSdk.Protocol.Formats

/-!
# The policy evaluator

A pure verdict on one action against a spending policy and a snapshot of the window, shared by the
co-signer and by the agent's own session.

* `Policy`, `WindowUsage` : the operator's limits and what the window already holds.
* `resolveValue`, `capFor`, `windowUsedFor` : the amount and token that the limits bind, the limit
  of a token, and what it has spent under every spelling.
* `evaluatePolicy` : the verdict; `Refusal` tells a denial from a thrown error.
-/

namespace XChainSdk

/-- `{ TICK | '*' : cap }`. -/
abbrev CapTable := Dict String Js

/-- Limits of the rolling window. -/
structure WindowRule where
  hours : ℚ
  maxActions : Option JsNum := none
  perTick : Option CapTable := none

/-- A spending policy. -/
structure Policy where
  allowedActions : List String
  allowedDestinations : Option (List String) := none
  maxPerAction : Option (Dict String CapTable) := none
  maxPerWindow : Option WindowRule := none
  confirmAbove : Option (Option CapTable) := none
  tickIds : Option (Dict String Js) := none

/-- A snapshot of the window: the running totals are decimal texts. -/
structure WindowUsage where
  count : ℕ
  perTick : Dict String String

/-- The window before anything is recorded. -/
def WindowUsage.none : WindowUsage := ⟨0, Dict.empty⟩

/-- The action that is judged. -/
structure ActionData where
  action : Js
  version : Js
  params : Params

/-- What a verdict reports. -/
structure Evaluation where
  action : String
  tick : Js
  amount : Js
  destinations : List Js
  needsConfirmation : Bool := false

/-- Why there is no approval. -/
inductive Refusal where
  | denied (code : String) (evaluation : Evaluation)
  | thrown

/-- A thrown error. -/
def orThrow {α : Type} : Option α → Except Refusal α
  | some a => .ok a
  | none => .error .thrown

/-! ### Value resolution -/

def AMOUNT_KEYS : List String := ["amount", "AMOUNT"]
def TICK_KEYS : List String := ["tick", "TICK"]
def DESTINATION_KEYS : List String := ["destination", "DESTINATION", "destinations", "DESTINATIONS"]

/-- Where the amount of an action is read: one field, or several escrowed legs. -/
inductive AmountSource where
  | pick (keys : List String)
  | sum (legs : List (List String))

/-- Where its token is read. -/
inductive TickSource where
  | pick (keys : List String) (tickDefault : Option String)
  | fixed (tick : String)

/-- Actions whose outflow is not the generic amount and tick. -/
def ACTION_VALUE_FIELDS : List (String × AmountSource × TickSource) := [
  ("DEPOSIT", .pick ["quantity", "QUANTITY"], .pick TICK_KEYS none),
  ("WITHDRAW", .pick ["quantity", "QUANTITY"], .pick TICK_KEYS none),
  ("ORDER", .pick ["giveAmount", "GIVE_AMOUNT"], .pick ["giveTick", "GIVE_TICK"] none),
  ("SWAP", .pick ["giveAmount", "GIVE_AMOUNT"], .pick ["giveTick", "GIVE_TICK"] none),
  ("DISPENSER", .pick ["giveEscrow", "GIVE_ESCROW"], .pick ["giveTick", "GIVE_TICK"] none),
  ("STAKE", .pick AMOUNT_KEYS, .pick TICK_KEYS (some GAS_TICK)),
  ("VOTE", .sum [["deposit", "DEPOSIT"], ["gasEscrow", "GAS_ESCROW"]], .fixed GAS_TICK),
  ("XBRIDGE", .pick AMOUNT_KEYS, .pick TICK_KEYS (some GAS_TICK))]

/-- Actions whose outflow the params alone never bound. -/
def UNBOUNDED_VALUE_ACTIONS : List String := ["SWEEP", "AIRDROP", "DIVIDEND"]

/-- The first present param among some keys. -/
def pick (params : Params) (keys : List String) : Js :=
  ((keys.map (Js.member params)).find? isPresent).getD .undefined

/-- The loop over the escrowed legs. -/
structure LegSum where
  seen : Bool
  total : String
  invalid : Option Js

/-- One leg: a bad one is carried out raw, for the gate on amounts to refuse. -/
def addLeg (M : MathJs) (params : Params) (s : LegSum) (keys : List String) : Option LegSum :=
  match pick params keys with
  | .undefined => some s
  | v =>
    if s.invalid.isSome then some { s with seen := true }
    else if isNonNegativeDecimal v.toText then
      (M.addDecimal s.total v.toText).map fun total => { s with seen := true, total }
    else some { s with seen := true, invalid := some v }

/-- The amount of an action. -/
def resolveAmount (M : MathJs) (params : Params) : AmountSource → Option Js
  | .pick keys => some (pick params keys)
  | .sum legs => do
    let s ← legs.foldlM (addLeg M params) ⟨false, "0", none⟩
    return match s.invalid with
      | some v => v
      | none => if s.seen then .str s.total else .undefined

/-- The token of an action. -/
def resolveTick (params : Params) : TickSource → Js
  | .fixed tick => .str tick
  | .pick keys tickDefault =>
    match pick params keys with
    | .undefined => (tickDefault.map Js.str).getD .undefined
    | tick => tick

/-- The amount and token that the caps bind. -/
def resolveValue (M : MathJs) (action : String) (params : Params) : Option (Js × Js) :=
  match ACTION_VALUE_FIELDS.lookup action with
  | some (amount, tick) =>
    (resolveAmount M params amount).map fun a => (a, resolveTick params tick)
  | none => some (pick params AMOUNT_KEYS, pick params TICK_KEYS)

/-- Membership of a list of strings. -/
def inCollection (collection : List String) (value : Js) : Bool :=
  match value with
  | .str s => collection.contains s
  | _ => false

/-- Folds `a` to `z`, as consensus compares tokens. -/
def foldTick (tick : String) : String := asciiUpper tick

/-- The text under which a token is looked up: only a string or a number has one. -/
def tickKey : Js → Option String
  | .str s => some s
  | .num x => some (numberToString x)
  | _ => none

/-- Own value of a table at a token. -/
def ownLookup (table : CapTable) (tick : Js) : Js :=
  ((tickKey tick).bind table.get?).getD .undefined

/-- `x === undefined`. -/
def isUndefined : Js → Bool
  | .undefined => true
  | _ => false

/-- The named keys that consensus reads as the same token. -/
def tickKeysFor (keys : List String) (tick : Js) : List String :=
  match tickKey tick with
  | none => []
  | some s => keys.filter fun key => key != "*" && foldTick key == foldTick s

/-- The first value that is defined. -/
def firstDefined (vs : List Js) (fallback : Js) : Js :=
  (vs.find? fun v => !isUndefined v).getD fallback

/-- The caps of the named keys of a token. -/
def namedCaps (t : CapTable) (tick : Js) : List Js :=
  (tickKeysFor t.keys tick).map fun key => (t.get? key).getD .undefined

/-- The cap of a token: its own name, its name in another case, or the wildcard. -/
def capFor (table : Option CapTable) (tick : Js) : Js :=
  match table with
  | none => .undefined
  | some t =>
    firstDefined (if isUndefined tick then [] else ownLookup t tick :: namedCaps t tick)
      ((t.get? "*").getD .undefined)

/-- The bucket of entries whose token never resolved. -/
def UNRESOLVED_TICK_BUCKET : String := "|unresolved|"

/-- What a token has spent, over every spelling it was recorded under. -/
def windowUsedFor (M : MathJs) (perTick : Dict String String) (tick : Js) : Option String :=
  (tickKeysFor perTick.keys tick).foldlM (fun used key =>
    if key == UNRESOLVED_TICK_BUCKET then some used
    else match perTick.get? key with
      | some amount => M.addDecimal used amount
      | none => some used) "0"

/-- The name that a `^id` reference stands for. -/
def resolveTickRef (tickIds : Option (Dict String Js)) (tick : String) : Option String :=
  tickIds.bind fun ids =>
    (ids.entries.find? fun e => e.2.toText == String.ofList (tick.toList.drop 1)).map Prod.fst

/-- Some key is not the wildcard. -/
def hasNamedKey (table : Option CapTable) : Bool :=
  match table with
  | none => false
  | some t => t.keys.any (· != "*")

/-- The format has a `DESTINATION` slot. -/
def formatCarriesDestination (action : String) (version : ℕ) : Bool :=
  match getFormatFields action version with
  | none => false
  | some fields => fields.contains (.field "DESTINATION") || fields.contains (.field "DESTINATIONS")

/-! ### The checks -/

section Checks

variable (H : Host) (M : MathJs) (policy : Policy)

/-- The action's values, resolved once. -/
structure EvalState where
  action : String
  params : Params
  version : Option ℕ
  evaluation : Evaluation

/-- `Number.isInteger(version) && version >= 0`. -/
def versionOf : Js → Option ℕ
  | .num (.fin q) => if q.den = 1 ∧ 0 ≤ q then some q.num.toNat else none
  | _ => none

/-- The cap table of an action. -/
def maxPerActionFor (action : String) : Option CapTable :=
  policy.maxPerAction.bind fun t => t.get? action

/-- The window caps. -/
def windowPerTick : Option CapTable := policy.maxPerWindow.bind WindowRule.perTick

/-- Some limit depends on which token it is. -/
def identitySensitive (action : String) : Bool :=
  hasNamedKey (maxPerActionFor policy action) || (windowPerTick policy).isSome ||
    (policy.confirmAbove.map hasNamedKey).getD false

/-- A `^id` reference by its name; without one, it is refused under limits that name tokens. -/
def resolveReference (e : Evaluation) : Except Refusal Js :=
  match e.tick with
  | .str s =>
    if s.toList.head? = some '^' then
      match resolveTickRef policy.tickIds s with
      | some name => .ok (.str name)
      | none =>
        if identitySensitive policy e.action then .error (.denied "POLICY_UNRESOLVED_TICK" e)
        else .ok e.tick
    else .ok e.tick
  | tick => .ok tick

/-- Tables in which a token may be named. -/
def tickTables (action : String) : List (Option CapTable) :=
  [maxPerActionFor policy action, windowPerTick policy, policy.confirmAbove.bind id]

/-- A table names the token under several spellings. -/
def ambiguous (tick : Js) (table : Option CapTable) : Bool :=
  match table with
  | none => false
  | some t => decide (1 < (tickKeysFor t.keys tick).length)

/-- The destinations that an action names. -/
def destinationsOf (params : Params) : List Js :=
  match pick params DESTINATION_KEYS with
  | .undefined => []
  | .arr xs => xs
  | x => (x.toText.toList.splitOn ';').map fun cs => .str (String.ofList cs)

/-- Resolves the action data once. -/
def prepareEvaluation (data : ActionData) : Except Refusal EvalState := do
  let action := H.toUpperCase (data.action.or (.str "")).toText
  let (amount, tick) ← orThrow (resolveValue M action data.params)
  let raw : Evaluation := ⟨action, tick, amount, destinationsOf data.params, false⟩
  let tick ← resolveReference policy raw
  let evaluation := { raw with tick }
  if (tickTables policy action).any (ambiguous tick) then
    .error (.denied "POLICY_TICK_CASE_COLLISION" evaluation)
  else .ok ⟨action, data.params, versionOf data.version, evaluation⟩

/-- Refuses a destination that is not listed. -/
def checkDestination (allowed : List String) (e : Evaluation) (d : Js) : Except Refusal Unit :=
  if inCollection allowed d then .ok ()
  else if d.toText.toList.head? = some '^' then
    .error (.denied "POLICY_UNRESOLVED_DESTINATION" e)
  else .error (.denied "POLICY_DESTINATION_DENIED" e)

/-- Amount, action and destination. -/
def checkBasics (s : EvalState) : Except Refusal Unit :=
  let e := s.evaluation
  if !isUndefined e.amount && !isNonNegativeDecimal e.amount.toText then
    .error (.denied "POLICY_AMOUNT_INVALID" e)
  else if !policy.allowedActions.contains s.action then
    .error (.denied "POLICY_ACTION_DENIED" e)
  else match policy.allowedDestinations with
    | none => .ok ()
    | some allowed =>
      if (s.version.map fun v => !formatCarriesDestination s.action v).getD false then
        .error (.denied "POLICY_DESTINATION_UNENFORCEABLE" e)
      else e.destinations.forM (checkDestination allowed e)

/-- Some amount is limited. -/
def hasAmountLimit : Bool :=
  policy.maxPerAction.isSome || (windowPerTick policy).isSome || policy.confirmAbove.isSome

/-- Refuses formats whose value no amount limit can bind. -/
def checkDerivability (s : EvalState) : Except Refusal Unit :=
  if UNBOUNDED_VALUE_ACTIONS.contains s.action && hasAmountLimit policy then
    .error (.denied "POLICY_UNBOUNDED_ACTION" s.evaluation)
  else if hasAmountLimit policy &&
      (s.version.map fun v => decide ((classify s.action v s.params).kind = .unbounded)).getD false then
    .error (.denied "POLICY_UNBOUNDED_ACTION" s.evaluation)
  else .ok ()

/-- The cap of one action. -/
def checkActionCap (s : EvalState) : Except Refusal Unit :=
  let e := s.evaluation
  let cap := capFor (maxPerActionFor policy s.action) e.tick
  if policy.maxPerAction.isSome && !isUndefined e.amount && !isUndefined cap then do
    if ← orThrow (M.gtDecimal e.amount.toText cap.toText) then
      .error (.denied "POLICY_AMOUNT_EXCEEDED" e)
    else .ok ()
  else .ok ()

/-- What the token of an action has spent. -/
def usedFor (usage : WindowUsage) (tick : Js) : Option String :=
  if isUndefined tick then some ((usage.perTick.get? UNRESOLVED_TICK_BUCKET).getD "0")
  else windowUsedFor M usage.perTick tick

/-- The projected total of the window. -/
def checkWindowAmount (win : WindowRule) (usage : WindowUsage) (e : Evaluation) :
    Except Refusal Unit :=
  let cap := capFor win.perTick e.tick
  if win.perTick.isSome && !isUndefined e.amount && !isUndefined cap then do
    let used ← orThrow (usedFor M usage e.tick)
    let projected ← orThrow (M.addDecimal used e.amount.toText)
    if ← orThrow (M.gtDecimal projected cap.toText) then
      .error (.denied "POLICY_WINDOW_AMOUNT_EXCEEDED" e)
    else .ok ()
  else .ok ()

/-- The counters of the window, with this action added. -/
def checkWindow (s : EvalState) (windowUsage : Option WindowUsage) : Except Refusal Unit :=
  match policy.maxPerWindow with
  | none => .ok ()
  | some win =>
    let usage := windowUsage.getD WindowUsage.none
    if (win.maxActions.map fun n => n.lt (.fin ((usage.count + 1 : ℕ) : ℚ))).getD false then
      .error (.denied "POLICY_WINDOW_COUNT_EXCEEDED" s.evaluation)
    else checkWindowAmount M win usage s.evaluation

/-- Marks an action that a person has to confirm. -/
def setConfirmation (s : EvalState) : Except Refusal Evaluation :=
  let e := s.evaluation
  let threshold := capFor (policy.confirmAbove.bind id) e.tick
  if policy.confirmAbove.isSome && !isUndefined e.amount && !isUndefined threshold then do
    let above ← orThrow (M.gtDecimal e.amount.toText threshold.toText)
    return { e with needsConfirmation := above }
  else .ok e

/-- The verdict on an action. -/
def evaluatePolicy (data : ActionData) (windowUsage : Option WindowUsage) :
    Except Refusal Evaluation := do
  let s ← prepareEvaluation H M policy data
  checkBasics policy s
  checkDerivability policy s
  checkActionCap M policy s
  checkWindow M policy s windowUsage
  setConfirmation M policy s

end Checks

end XChainSdk
