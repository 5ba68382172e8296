import XChainSdk.Js.Value

/-!
# Findings of a pre-flight

* `FindingCode`, `Severity`, `Finding` : what a check reports.
* `TIER2_ERROR_CAPABLE` : the codes that a client check may report as an error.
* `computeVerdict` : the verdict of a report.
-/

namespace XChainSdk

/-- `FINDING_CODES` -/
inductive FindingCode
  | DRYRUN_VALID
  | DRYRUN_INVALID
  | DRYRUN_UNAVAILABLE
  | DRYRUN_SUBCOMMAND_INVALID
  | DRYRUN_SUBCOMMAND_UNJUDGED
  | DRYRUN_ORACLE_FEES_OWED
  | PARSE_INVALID
  | VALIDATOR_SEMANTICS
  | DEST_ADDRESS_INVALID
  | ENCODING_TOO_LARGE
  | AMOUNT_FORMAT_INVALID
  | BALANCE_INSUFFICIENT
  | TOKEN_NOT_FOUND
  | NOT_OWNER
  | SUPPLY_EXCEEDED
  | MINT_OVER_MAX
  | LIST_NOT_FOUND
  | DISPENSER_NOT_FOUND
  | DISPENSER_NOT_OPEN
  | DISPENSER_TERMS_MISMATCH
  | DISPENSER_EMPTY
  | NATIVE_FEE_FORFEIT
  | STALE_STATE
  | BATCH_NOT_ATOMIC
  | BATCH_LIMIT_EXCEEDED
  | TICK_FORMAT
  | AMOUNT_NOT_POSITIVE
  | EMPTY_NO_OP
  | METHOD_NOT_IN_MANIFEST
  | EXPIRY_IN_PAST
  | DISPENSER_LIFECYCLE
  | DISPENSER_NOT_OWNER
  | GIVE_NOT_BALANCE_MODE
  | DISPENSER_MAX_REFILLS
  | DISPENSER_OWNERSHIP_ESCROW
  | CARET_REF_UNRESOLVABLE
  | DISPENSER_ORACLE_FEE
  deriving DecidableEq

inductive Severity
  | error
  | warning
  | info
  deriving DecidableEq

/-- Where a finding comes from: a check of the client, or the network's dry run. -/
inductive FindingSource
  | client
  | dryrun
  deriving DecidableEq

/-- Why an error was demoted. -/
inductive Downgrade
  | dryrunValid
  | dryrunValidLocalDelta
  deriving DecidableEq

/-- A finding. -/
structure Finding where
  code : FindingCode
  severity : Severity
  message : String
  data : List (String × Js)
  source : FindingSource
  overridable : Option Bool := none
  downgradedBy : Option Downgrade := none

/-- Whether an error of a client check is provable locally or comes from the network's state. -/
inductive ErrorClass
  | isLocal
  | isNetwork
  deriving DecidableEq

/-- `TIER2_ERROR_CAPABLE[code]` -/
def TIER2_ERROR_CAPABLE : FindingCode → Option ErrorClass
  | .PARSE_INVALID | .VALIDATOR_SEMANTICS | .DEST_ADDRESS_INVALID | .ENCODING_TOO_LARGE
  | .AMOUNT_FORMAT_INVALID => some .isLocal
  | .BALANCE_INSUFFICIENT | .TOKEN_NOT_FOUND | .NOT_OWNER | .SUPPLY_EXCEEDED | .MINT_OVER_MAX
  | .LIST_NOT_FOUND | .DISPENSER_NOT_FOUND | .DISPENSER_NOT_OPEN | .DISPENSER_TERMS_MISMATCH
  | .DISPENSER_EMPTY => some .isNetwork
  | _ => none

/-- The verdict of a report. -/
inductive ReportVerdict
  | pass
  | warn
  | fail
  deriving DecidableEq

/-- `computeVerdict` -/
def computeVerdict (findings : List Finding) : ReportVerdict :=
  if findings.any (·.severity == .error) then .fail
  else if findings.any (·.severity == .warning) then .warn
  else .pass

theorem computeVerdict_eq_fail_iff {findings : List Finding} :
    computeVerdict findings = .fail ↔ ∃ f ∈ findings, f.severity = .error := by
  have hany : findings.any (·.severity == .error) = true ↔ ∃ f ∈ findings, f.severity = .error := by
    simp
  rw [computeVerdict, ← hany]
  cases findings.any (·.severity == .error) with
  | true => simp
  | false => cases findings.any (·.severity == .warning) <;> simp

namespace Finding

variable (f : Finding)

/-- An error that a client check raised. -/
def IsClientError : Prop := f.severity = .error ∧ f.source = .client

instance : Decidable f.IsClientError := inferInstanceAs (Decidable (_ ∧ _))

/-- The command that the finding is tagged with: an integer `data.commandIndex`. -/
def commandIndex : Option ℚ :=
  match Js.member f.data "commandIndex" with
  | .num (.fin q) => if q.den = 1 then some q else none
  | _ => none

/-- `!!data.localDeltaApplied`: the finding depends on the caller's own unconfirmed spends. -/
def localOnly : Bool := (Js.member f.data "localDeltaApplied").truthy

end Finding

end XChainSdk
