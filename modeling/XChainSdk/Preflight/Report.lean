import XChainSdk.Preflight.Tier1

/-!
# The report of a pre-flight

* `PreflightMode`, `resolveMode` : the modes of a call.
* `PreflightInput` : what the producer of a report closes over.
* `PreflightWorld` : what explorer and checks answer to an input.
* `produceReport` : the report of both tiers.
-/

namespace XChainSdk

/-- The modes; `skip` is `false`. -/
inductive PreflightMode
  | enforce
  | report
  | localOnly
  | skip
  deriving DecidableEq

/-- `resolveMode` -/
def resolveMode (optMode : Js) (sdkDefault : PreflightMode) : PreflightMode :=
  match optMode with
  | .bool false => .skip
  | .str "report" => .report
  | .str "local" => .localOnly
  | .undefined => sdkDefault
  | _ => .enforce

/-- A parsed action; `fields` is all else that the checks read of it. -/
structure NormalizedAction where
  action : String
  actionString : String
  fields : Js

/-- What the producer closes over, the caller's signal apart. -/
structure PreflightInput where
  parsed : NormalizedAction
  source : Js
  feeMode : Js
  encoding : Js
  localDeltas : Js
  timeoutMs : Js
  /-- `mode === 'local'` -/
  isLocal : Bool

/-- What the checks of the client leave behind. -/
structure CheckOutcome where
  findings : List Finding
  unverified : List (String × String)
  checksRun : List String

/-- The answers to a pre-flight.  A signal that fires while the report is produced cuts off what was
not answered yet, so the answers depend on the await point at which it does. -/
structure PreflightWorld where
  dryRun : PreflightInput → Option ℕ → DryRun
  /-- `runUniversal` and `runActionChecks`; an error is thrown -/
  checks : PreflightInput → Option ℕ → Option ℚ → Except String CheckOutcome

/-- The report. -/
structure PreflightReport where
  verdict : ReportVerdict
  findings : List Finding
  unverified : List (String × String)
  checksRun : List String
  quote : Js
  stateHeight : Option JsNum

/-- `Number.isSafeInteger(x)`, with the integer. -/
def safeInteger? : Js → Option ℚ
  | .num (.fin q) => if q.den = 1 ∧ q.num.natAbs < 2 ^ 53 then some q else none
  | _ => none

/-- `tier1.blockIndex` -/
def Tier1.blockIndex : Tier1 → Js
  | .verdict _ _ _ blockIndex _ _ _ => blockIndex
  | _ => .undefined

/-- `tier1.quote || null` -/
def Tier1.quote : Tier1 → Js
  | .verdict _ _ _ _ quote _ _ => quote
  | .noVerdict _ _ (some quote) => quote
  | _ => .null

/-- The height at which the network evaluated the action. -/
def targetHeight (tier1 : Tier1) : Option ℚ :=
  match safeInteger? tier1.blockIndex with
  | some height => some height
  | none => safeInteger? (tier1.quote.getIf "blockIndex")

/-- `produceReport`; the producer's signal fires at the await point `abortedAt`, if at all. -/
def produceReport (W : PreflightWorld) (input : PreflightInput) (abortedAt : Option ℕ) :
    Except String PreflightReport :=
  let tier1 := if input.isLocal then .noVerdict "local-only mode" none none
    else runTier1 input.parsed.action (W.dryRun input abortedAt)
  match W.checks input abortedAt (targetHeight tier1) with
  | .error e => .error e
  | .ok outcome =>
    let findings := applyTier1 outcome.findings tier1
    .ok {
      verdict := computeVerdict findings
      findings := findings
      unverified := outcome.unverified
      checksRun := outcome.checksRun
      quote := tier1.quote
      stateHeight := match tier1.blockIndex with
        | .num x => some x
        | _ => none }

end XChainSdk
