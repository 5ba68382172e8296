import Mathlib.Data.List.Infix
import XChainSdk.Preflight.Findings

/-!
# The network's dry run

* `runTier1` : what the explorer answers for an action, told apart into a verdict, no verdict, and
  no answer.
* `applyTier1` : how the answer bears on the findings of the client's own checks.
-/

namespace XChainSdk

/-! ### Reading the answer -/

/-- The verdict on one command of a batch. -/
structure SubCommand where
  position : ℚ
  action : Option String
  status : Option String
  refused : Option String
  deriving DecidableEq

/-- What the dry run comes to. -/
inductive Tier1 where
  | verdict (valid : Bool) (status error blockIndex quote : Js)
      (subCommands : Option (List SubCommand)) (oracleFeesOwed : Option (List (String × Js)))
  | noVerdict (reason : String) (deniedSubAction : Option String) (quote : Option Js)
  | unavailable (reason : String)

/-- `TIER1_DENYLIST` -/
def TIER1_DENYLIST : List String := ["DEPLOY", "EXECUTE", "XEXEC", "BATCH"]

/-- `TIER1_SUBCOMMAND_PREFLIGHT` -/
def TIER1_SUBCOMMAND_PREFLIGHT : List String := ["BATCH"]

/-- `s.slice(0, n)` on characters; half a surrogate pair is U+FFFD. -/
def sliceUnits : ℕ → List Char → List Char
  | 0, _ => []
  | _, [] => []
  | n + 1, c :: cs =>
    if c.toNat < 0x10000 then c :: sliceUnits n cs
    else match n with
      | 0 => ['\uFFFD']
      | n + 1 => c :: sliceUnits n cs

/-- `String(x || '').includes('FEE_QUOTE_CONTROLLER_UNSUPPORTED')` -/
def saysUnsupportedController (x : Js) : Bool :=
  decide ("FEE_QUOTE_CONTROLLER_UNSUPPORTED".toList <:+: (x.or (.str "")).toText.toList)

/-- `x === b` for a truth value. -/
def isBool (b : Bool) : Js → Bool
  | .bool c => b == c
  | _ => false

/-- `classifyNonVerdict` of an object. -/
def classifyNonVerdict (quote : Js) : Option Tier1 :=
  if isBool true (quote.field "busy") || isBool true (quote.field "retryable") then
    some (.unavailable "dry-run queue full")
  else if isBool true (quote.field "denied") then
    let sub := match quote.field "deniedSubAction" with
      | .str s => String.ofList (sliceUnits 32 (trim s).toList)
      | _ => ""
    if sub ≠ "" then
      some (.noVerdict ("denylisted sub-action " ++ sub) (some sub) (some quote))
    else some (.noVerdict "denylisted" none (some quote))
  else if isBool true (quote.field "feeExempt") then
    some (.noVerdict "feeExempt" none (some quote))
  else if isBool true (quote.field "guardInert") || saysUnsupportedController (quote.field "status")
      || saysUnsupportedController (quote.field "error") then
    some (.noVerdict "guardInert" none (some quote))
  else if isBool false (quote.field "supported") then
    some (.noVerdict "unsupported" none (some quote))
  else none

/-- `Number.isInteger(x) ? x : i` -/
def positionOr (i : ℕ) : Js → ℚ
  | .num (.fin q) => if q.den = 1 then q else i
  | _ => i

/-- One entry of `subCommands`; what is no object has no members. -/
def normalizeSubCommand (entry : Js) (i : ℕ) : SubCommand :=
  let e := match entry with
    | .obj fields => Js.obj fields
    | _ => Js.obj []
  { position := positionOr i (e.field "position")
    action := (e.field "action").str?
    status := (e.field "status").str?
    refused := (e.field "refused").str? }

/-- `normalizeSubCommands` -/
def normalizeSubCommands : Js → Option (List SubCommand)
  | .arr (x :: xs) => some ((x :: xs).zipIdx.map fun e => normalizeSubCommand e.1 e.2)
  | _ => none

/-- `classifyQuote` -/
def classifyQuote (quote : Js) : Tier1 :=
  match quote with
  | .obj _ | .arr _ =>
    match classifyNonVerdict quote with
    | some outcome => outcome
    | none =>
      match quote.field "valid" with
      | .bool valid =>
        .verdict valid ((quote.field "status").or .null) ((quote.field "error").or .null)
          (match quote.field "blockIndex" with
            | .undefined => .null
            | height => height)
          quote (normalizeSubCommands (quote.field "subCommands"))
          (match quote.field "oracleFeesOwed" with
            | .obj fees => some fees
            | _ => none)
      | _ => .unavailable "no verdict field in response"
  | _ => .unavailable "malformed dry-run response"

/-! ### Asking the explorer -/

/-- An error of an endpoint. -/
structure EndpointError where
  code : Option String
  message : String

/-- What an explorer client answers: `getPreflight` where it has the method, and `getFeeQuote`. -/
structure DryRunClient where
  getPreflight : Option (Except EndpointError Js)
  getFeeQuote : Except EndpointError Js

/-- A dry run: the client, and the reason for which the race against signal and clock was lost. -/
structure DryRun where
  explorer : Option DryRunClient
  interrupted : Option String

/-- `callEndpoint` -/
def callEndpoint (client : DryRunClient) (subCommandPreflight : Bool) : Except EndpointError Js :=
  let fallback : Except EndpointError Js :=
    if subCommandPreflight then
      .ok (.obj [("supported", .bool false), ("denied", .bool true), ("valid", .null)])
    else client.getFeeQuote
  match client.getPreflight with
  | none => fallback
  | some (.ok quote) => .ok quote
  | some (.error e) =>
    if e.code = some "EXPLORER_HTTP_404" ∨ e.code = some "EXPLORER_HTTP_501" then fallback
    else .error e

/-- `runTier1` -/
def runTier1 (action : String) (run : DryRun) : Tier1 :=
  let subCommandPreflight := decide (action ∈ TIER1_SUBCOMMAND_PREFLIGHT)
  if action ∈ TIER1_DENYLIST ∧ subCommandPreflight = false then .noVerdict "denylisted" none none
  else match run.explorer with
    | none => .unavailable "no explorer client"
    | some client =>
      match run.interrupted with
      | some reason => .unavailable reason
      | none =>
        match callEndpoint client subCommandPreflight with
        | .error e => .unavailable e.message
        | .ok quote => classifyQuote quote

/-! ### The answer and the findings -/

/-- What the verdict on a command comes to. -/
inductive SubOutcome
  | valid
  | invalid
  | unjudged
  deriving DecidableEq

/-- The three outcomes of `classifySubCommands`. -/
def SubCommand.outcome (s : SubCommand) : SubOutcome :=
  match s.status with
  | none => .unjudged
  | some status => if status = "valid" then .valid else if status = "" then .unjudged else .invalid

/-- `cls.valid`: the positions that are called valid. -/
def acceptedPositions (subs : List SubCommand) : List ℚ :=
  ((subs.filter (·.outcome == .valid)).map SubCommand.position).dedup

/-- `cls.allValid` -/
def allAccepted (subs : List SubCommand) : Bool := subs.all (·.outcome == .valid)

/-- A text, or `null`. -/
def textOrNull (s : Option String) : Js := (s.map Js.str).getD .null

/-- ` (ACTION)`, where the verdict names one. -/
def actionNote (s : SubCommand) : String :=
  match s.action with
  | some action => if action = "" then "" else " (" ++ action ++ ")"
  | none => ""

/-- `s.position + 1` -/
def commandNumber (s : SubCommand) : String := numberToString (toDouble (s.position + 1))

/-- The finding on a command that the network rejects. -/
def invalidFinding (s : SubCommand) : Finding where
  code := .DRYRUN_SUBCOMMAND_INVALID
  severity := .error
  source := .dryrun
  overridable := some true
  message := "The network reports batch command " ++ commandNumber s ++ actionNote s ++
    " will fail: " ++ s.status.getD "null" ++
    ". A batch is not atomic, so the other commands still apply."
  data := [("commandIndex", .num (.fin s.position)), ("action", textOrNull s.action),
    ("status", textOrNull s.status)]

/-- The disclosure on a command that the network did not judge. -/
def unjudgedFinding (s : SubCommand) : Finding where
  code := .DRYRUN_SUBCOMMAND_UNJUDGED
  severity := .info
  source := .dryrun
  message := "The network did not judge batch command " ++ commandNumber s ++ actionNote s ++ " (" ++
    (match s.refused with
      | some refused =>
        if refused = "" then "the read-only pre-flight cannot evaluate this command" else refused
      | none => "the read-only pre-flight cannot evaluate this command") ++
    "); relying on client checks for it."
  data := [("commandIndex", .num (.fin s.position)), ("action", textOrNull s.action),
    ("refused", textOrNull s.refused)]

/-- What `pushSubCommandFindings` adds. -/
def subCommandFindings (subs : List SubCommand) : List Finding :=
  (subs.filter (·.outcome == .invalid)).map invalidFinding ++
    (subs.filter (·.outcome == .unjudged)).map unjudgedFinding

/-- The disclosure of the network's approval. -/
def approvalFinding (subCommands : Option (List SubCommand)) : Finding where
  code := .DRYRUN_VALID
  severity := .info
  source := .dryrun
  message := match subCommands with
    | none => "The network dry-run accepted this action."
    | some subs =>
      if allAccepted subs then
        "The network dry-run accepted this batch and all " ++ natText subs.length ++
          " of its commands."
      else
        "The network dry-run accepted this batch transaction, but NOT every command in it (" ++
          natText (acceptedPositions subs).length ++ " of " ++ natText subs.length ++
          " accepted); see the per-command findings."
  data := match subCommands with
    | none => []
    | some subs => [("subCommandCount", .num (.fin subs.length)),
        ("accepted", .num (.fin (acceptedPositions subs).length))]

/-- The disclosure of the oracle fees. -/
def oracleFeesFinding (fees : List (String × Js)) : Finding where
  code := .DRYRUN_ORACLE_FEES_OWED
  severity := .info
  source := .dryrun
  message := "This batch owes oracle usage fees the pre-flight discloses rather than checks: " ++
    ", ".intercalate (fees.map fun e => e.2.toText ++ " to " ++ e.1) ++
    ". Size those outputs yourself; the dry-run has no outputs to check them against."
  data := [("oracleFeesOwed", .obj fees)]

/-- The network's approval covers what a finding is about. -/
def outranked (subCommands : Option (List SubCommand)) (f : Finding) : Bool :=
  match subCommands with
  | none => true
  | some subs =>
    match f.commandIndex with
    | some ci => decide (ci ∈ acceptedPositions subs)
    | none => allAccepted subs

/-- What an approval makes of one finding. -/
def demote (subCommands : Option (List SubCommand)) (f : Finding) : Finding :=
  if f.severity == .error && f.source == .client && outranked subCommands f then
    if f.localOnly then
      -- a warning carries no override flag
      { f with severity := .warning, downgradedBy := some .dryrunValidLocalDelta,
               overridable := none }
    else { f with severity := .info, downgradedBy := some .dryrunValid }
  else f

/-- `applyValidVerdict` -/
def applyValidVerdict (findings : List Finding) (subCommands : Option (List SubCommand))
    (oracleFeesOwed : Option (List (String × Js))) : List Finding :=
  let pushed := ((subCommands.map subCommandFindings).getD []) ++ [approvalFinding subCommands] ++
    (oracleFeesOwed.map oracleFeesFinding).toList
  (findings ++ pushed).map (demote subCommands)

/-- `applyInvalidVerdict` -/
def applyInvalidVerdict (findings : List Finding) (status error : Js)
    (subCommands : Option (List SubCommand)) : List Finding :=
  findings ++ (subCommands.map subCommandFindings).getD [] ++ [{
    code := .DRYRUN_INVALID
    severity := .error
    source := .dryrun
    overridable := some true
    message := "The network reports this will fail: " ++
      ((status.or error).or (.str "rejected")).toText
    data := [("status", status), ("error", error)] }]

/-- The disclosure that there is no network verdict. -/
def unavailableFinding (message : String) (data : List (String × Js)) : Finding where
  code := .DRYRUN_UNAVAILABLE
  severity := .info
  source := .dryrun
  message := message
  data := data

/-- `pushNoVerdictFinding` -/
def noVerdictFinding (reason : String) (deniedSubAction : Option String) : Finding :=
  unavailableFinding
    ((if reason ≠ "local-only mode" then "The network declined to judge this action ("
      else "The network was not consulted (") ++ reason ++ "); relying on client checks.")
    (match deniedSubAction with
      | some sub => [("deniedSubAction", .str sub)]
      | none => [])

/-- `applyTier1` -/
def applyTier1 (findings : List Finding) : Tier1 → List Finding
  | .verdict true _ _ _ _ subCommands oracleFeesOwed =>
    applyValidVerdict findings subCommands oracleFeesOwed
  | .verdict false status error _ _ subCommands _ =>
    applyInvalidVerdict findings status error subCommands
  | .unavailable reason => findings ++ [unavailableFinding
      ("The network dry-run was unavailable (" ++ reason ++ "); relying on client checks.") []]
  | .noVerdict reason deniedSubAction _ => findings ++ [noVerdictFinding reason deniedSubAction]

end XChainSdk
