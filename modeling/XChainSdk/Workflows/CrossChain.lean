import XChainSdk.Carrier.Submission

/-!
# Calls on several chains at once

* `SubmitResult.entry`, `settledMessage` : what stays of a result and of an error.
* `resolveSettled` : the results of all legs, or one error with what became of each.
* `parallel`, `waitForAll` : the legs that are begun, and how the call ends.
-/

namespace XChainSdk

open Js

/-! ### Results as objects -/

def SignedTx.entry (s : SignedTx) : Js := .obj [("txHex", str s.txHex), ("txid", str s.txid)]

/-- The object that a result is. -/
def SubmitResult.entry (r : SubmitResult) : Js :=
  .obj [("txid", str r.txid), ("actionString", r.actionString), ("action", r.action),
    ("version", r.version), ("encoding", r.encoding), ("signed", r.signed.entry),
    ("spentInputs", .arr (r.spentInputs.map Outpoint.entry)),
    ("changeOutputs", .arr (r.changeOutputs.map Utxo.entry)), ("indexed", r.indexed),
    ("contractState", r.contractState), ("contractBalance", r.contractBalance)]

/-! ### What settled -/

/-- `s.reason && s.reason.message ? s.reason.message : String(s.reason)` -/
def settledMessage (reason : Js) : Js :=
  if (reason.getIf "message").truthy then reason.field "message" else str reason.toText

/-- What became of one leg. -/
def settledEntry (chain : Js) : Except Js Js → Js
  | .ok result => .obj [("chain", chain), ("ok", .bool true), ("result", result),
      ("error", .undefined)]
  | .error reason => .obj [("chain", chain), ("ok", .bool false), ("result", .undefined),
      ("error", settledMessage reason)]

/-- The message of a call some of whose legs failed. -/
def partialFailureMessage (failures items : ℕ) (noun : String) : String :=
  natText failures ++ " of " ++ natText items ++ " cross-chain " ++ noun ++ " failed; " ++
    "see error.details.results for per-chain outcomes " ++
    "(successful legs may already be broadcast on-chain)"

/-- `new SDKActionError(code, message, details)` -/
def actionError (code message : String) (details : List (String × Js)) : Js :=
  .obj [("name", str "SDKActionError"), ("message", str message), ("code", str code),
    ("details", .obj details)]

/-- `resolveSettled` -/
def resolveSettled (settled : List (Js × Except Js Js)) (code noun : String) :
    Except Js (List Js) :=
  let failures := settled.filter fun s => !s.2.isOk
  if failures = [] then .ok (settled.filterMap fun s => s.2.toOption)
  else .error (actionError code (partialFailureMessage failures.length settled.length noun)
    [("results", .arr (settled.map fun s => settledEntry s.1 s.2))])

/-! ### The calls -/

/-- One leg of `parallel`. -/
structure CrossLeg where
  chain : Js
  /-- `requireSDK` -/
  sdk : Except Js Unit
  /-- `sdk.session` -/
  session : Except Js Unit
  /-- `session.submit` -/
  submit : Submit SubmitResult

/-- The outcome of a leg, as `allSettled` has it. -/
def CrossLeg.settled (leg : CrossLeg) : Js × Except Js Js :=
  (leg.chain, leg.submit.outcome.map SubmitResult.entry)

/-- How a call ends, and the legs that it has begun; legs that are begun run to their end. -/
structure CrossRun where
  outcome : Except Js (List Js)
  begun : List CrossLeg

/-- The first error of a list of checks. -/
def firstError (checks : List (Except Js Unit)) : Option Js :=
  checks.findSome? fun
    | .error e => some e
    | .ok () => none

/-- `parallel`: a session that cannot be made ends the call, behind the legs that are begun. -/
def parallel (legs : List CrossLeg) : CrossRun :=
  match firstError (legs.map CrossLeg.sdk) with
  | some e => ⟨.error e, []⟩
  | none =>
    match firstError (legs.map CrossLeg.session) with
    | some e => ⟨.error e, legs.takeWhile fun leg => leg.session.isOk⟩
    | none => ⟨resolveSettled (legs.map CrossLeg.settled) "CROSS_CHAIN_PARTIAL_FAILURE" "actions",
        legs⟩

/-- One leg of `waitForAll`. -/
structure CrossWait where
  chain : Js
  sdk : Except Js Unit
  /-- `sdk.waitForAction` -/
  wait : Except Js Js

/-- `waitForAll` -/
def waitForAll (waits : List CrossWait) : Except Js (List Js) :=
  match firstError (waits.map CrossWait.sdk) with
  | some e => .error e
  | none => resolveSettled (waits.map fun w => (w.chain, w.wait))
      "CROSS_CHAIN_WAIT_PARTIAL_FAILURE" "waits"

end XChainSdk
