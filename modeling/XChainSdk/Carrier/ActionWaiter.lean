import XChainSdk.Js.Value

/-!
# Waiting for the indexer

After a broadcast the program polls an explorer until the transaction is indexed, or until a
contract holds what the caller waits for.  A timer ends every wait.

* `sdkError` : the errors of the program, by code and details.
* `waitForTxid` : the wait for a transaction, from the answers of the polls.
* `pollUntil`, `waitForContract` : the waits for a contract.
* `CarriesTxid` : an error names a transaction.
-/

namespace XChainSdk

open Js

/-- An error of the program. -/
def sdkError (name code : String) (details : List (String × Js)) : Js :=
  .obj [("name", str name), ("code", str code), ("details", .obj details)]

/-- `Object.assign(x, fields)` of an object. -/
def Js.assign (fields : List (String × Js)) : Js → Js
  | .obj fs => .obj (fields ++ fs)
  | x => x

/-- `x === s` for a text. -/
def Js.isStr (x : Js) (s : String) : Bool := x.str? == some s

/-- An error names a transaction, by itself or in its details. -/
def CarriesTxid (e : Js) (txid : String) : Prop :=
  e.field "txid" = str txid ∨ (e.field "details").field "txid" = str txid ∨
    (e.field "details").field "commitTxid" = str txid

/-! ### One transaction -/

/-- `readStatus`: an explicit status. -/
def readStatus (action : Js) : Option String :=
  match action.getIf "status" with
  | str s => if trim s = "" then none else some (trim s)
  | _ => none

/-- `/^invalid/i`. -/
def isInvalidStatus (status : String) : Bool :=
  (asciiLower status).toList.take 7 == "invalid".toList

/-- What the actions of a transaction say. -/
structure TransactionResult where
  /-- the answer, with its status -/
  result : Js
  invalid : Option Js
  unknown : List Js

/-- `classifyTransactionResult` of all actions; nothing when there are none, or one is no object. -/
def classifyTransactionResult (result : Js) : Option TransactionResult :=
  let actions := (result.field "actions").elems
  if actions.isEmpty || actions.any isNullish then none
  else
    let invalid := actions.find? fun a => (readStatus a).any isInvalidStatus
    let nonValid := actions.find? fun a => (readStatus a).any fun s => s != "valid"
    let unknown := (actions.filter fun a => (readStatus a).isNone).map fun a =>
      a.field "action_index"
    some {
      result := result.assign [
        ("status", (nonValid.map fun a => a.field "status").getD (str "valid")),
        ("statusKnown", .bool unknown.isEmpty),
        ("statusSource", str (if unknown.isEmpty then "indexer" else "assumed")),
        ("statusUnknownActions", .arr unknown)]
      invalid
      unknown }

def unknownStatusError (txid : String) (result : Js) : Js :=
  sdkError "SDKActionError" "ACTION_STATUS_UNKNOWN" [("txid", str txid), ("action", result),
    ("actions", result.field "statusUnknownActions")]

def confirmationTimeoutError (txid : String) (timeout : Js) : Js :=
  sdkError "SDKActionError" "CONFIRMATION_TIMEOUT" [("txid", str txid), ("timeout", timeout)]

def actionRejectedError (txid : String) (action reason : Js) : Js :=
  sdkError "SDKActionError" "ACTION_REJECTED" [("txid", str txid), ("action", action),
    ("reason", reason)]

/-- `buildWaitOptions`, without the explorer. -/
structure WaitOptions where
  timeout : Js
  requireValid : Bool
  strictStatus : Bool

/-- One answer to a poll: the wait goes on, with what is known of the status, or it ends. -/
def resolvePolledTransaction (txid : String) (opts : WaitOptions) (unknownResult : Option Js)
    (answer : Except Js Js) : Option Js ⊕ Except Js Js :=
  match answer with
  -- a missing transaction or a network error leaves polling active
  | .error _ => .inl unknownResult
  | .ok result =>
    if !(result.truthy && (result.field "tx_hash").truthy) then .inl unknownResult
    else
      match classifyTransactionResult result with
      | none => .inl unknownResult
      | some classified =>
        match opts.requireValid, classified.invalid with
        | true, some invalid =>
          .inr (.error (actionRejectedError txid classified.result
            (str ((readStatus invalid).getD ""))))
        | _, _ =>
          if classified.unknown.isEmpty then .inr (.ok classified.result)
          else if opts.requireValid && opts.strictStatus then .inl (some classified.result)
          else .inr (.ok classified.result)

/-- The wait for a transaction: the answers to the polls, and then the timer. -/
def waitForTxid (txid : String) (opts : WaitOptions) :
    List (Except Js Js) → Option Js → Except Js Js
  | [], unknownResult =>
    match unknownResult with
    | some result =>
      if opts.strictStatus && opts.requireValid then .error (unknownStatusError txid result)
      else .error (confirmationTimeoutError txid opts.timeout)
    | none => .error (confirmationTimeoutError txid opts.timeout)
  | answer :: answers, unknownResult =>
    match resolvePolledTransaction txid opts unknownResult answer with
    | .inl unknownResult => waitForTxid txid opts answers unknownResult
    | .inr outcome => outcome

theorem carriesTxid_sdkError {name code txid : String} {details : List (String × Js)} :
    CarriesTxid (sdkError name code (("txid", str txid) :: details)) txid := by
  refine .inr (.inl ?_)
  rfl

theorem resolvePolledTransaction_error {txid : String} {opts : WaitOptions}
    {unknownResult : Option Js} {answer : Except Js Js} {e : Js}
    (h : resolvePolledTransaction txid opts unknownResult answer = .inr (.error e)) :
    CarriesTxid e txid := by
  unfold resolvePolledTransaction at h
  cases answer with
  | error _ => cases h
  | ok result =>
    by_cases hseen : (!(result.truthy && (result.field "tx_hash").truthy)) = true
    · simp [hseen] at h
    · simp only [hseen] at h
      cases hc : classifyTransactionResult result with
      | none => simp [hc] at h
      | some classified =>
        simp only [hc] at h
        cases hvalid : opts.requireValid <;> cases hinvalid : classified.invalid <;>
          simp only [hvalid, hinvalid] at h
        case true.some =>
          cases h
          exact carriesTxid_sdkError
        all_goals
          split_ifs at h
          all_goals cases h

/-- Every wait for a transaction that fails names the transaction. -/
theorem waitForTxid_error {txid : String} {opts : WaitOptions} {answers : List (Except Js Js)}
    {unknownResult : Option Js} {e : Js}
    (h : waitForTxid txid opts answers unknownResult = .error e) : CarriesTxid e txid := by
  induction answers generalizing unknownResult with
  | nil =>
    unfold waitForTxid at h
    split at h
    · split_ifs at h
      all_goals
        cases h
        exact carriesTxid_sdkError
    · cases h
      exact carriesTxid_sdkError
  | cons answer answers ih =>
    rw [waitForTxid] at h
    split at h
    · exact ih h
    · next outcome heq =>
      rw [h] at heq
      exact resolvePolledTransaction_error heq

/-- `markConfirmationTimeout`: a timeout is a broadcast that is not indexed yet. -/
def markConfirmationTimeout (finalTxid : String) (error : Js) : Js :=
  if (error.getIf "code").isStr "CONFIRMATION_TIMEOUT" then
    let details := error.field "details"
    error.assign ([("broadcast", .bool true), ("txid", str finalTxid)] ++
      match details with
      | .obj _ => [("details", details.assign [("broadcast", .bool true)])]
      | _ => [])
  else error

/-- Only an object has a code. -/
theorem exists_obj_of_code {e : Js} {code : String} (hcode : code ≠ "")
    (h : (e.getIf "code").isStr code = true) : ∃ fs, e = .obj fs := by
  by_cases he : e.truthy = true
  · rw [getIf_of_truthy he] at h
    cases e with
    | obj fs => exact ⟨fs, rfl⟩
    | _ => simp [field, Js.get, Js.isStr, Js.str?] at h
  · rw [getIf, if_neg he] at h
    cases e with
    | str s =>
      -- the one falsy text is the empty one
      obtain rfl : s = code := by simpa [Js.isStr, Js.str?] using h
      simp [truthy, hcode] at he
    | _ => simp [Js.isStr, Js.str?] at h

/-- A mark leaves the transaction of an error where it is. -/
theorem markConfirmationTimeout_carries {txid : String} {e : Js} (h : CarriesTxid e txid) :
    CarriesTxid (markConfirmationTimeout txid e) txid := by
  unfold markConfirmationTimeout
  split
  · next hcode =>
    obtain ⟨fs, rfl⟩ := exists_obj_of_code (by decide) hcode
    exact .inl rfl
  · exact h

/-! ### Contracts -/

/-- One read of a contract. -/
structure ContractRead where
  satisfied : Bool
  result : Js
  observed : Js

/-- `pollUntil`: reads until one satisfies, or the window expires. -/
def pollUntil (timeoutError : Js → Js → Js) : List (Except Js ContractRead) → Js → Js → Except Js Js
  | [], observed, lastError => .error (timeoutError observed lastError)
  | .error e :: reads, observed, _ => pollUntil timeoutError reads observed e
  | .ok attempt :: reads, observed, _ =>
    if attempt.satisfied then .ok attempt.result
    else
      pollUntil timeoutError reads
        (match attempt.observed with
        | .undefined => observed
        | seen => seen) .null

/-- The gate of a contract wait, with the reads that its two waits make. -/
structure ContractGate where
  fields : Js
  /-- `typeof gate.match === 'function'` -/
  hasMatch : Bool
  stateReads : List (Except Js ContractRead)
  balanceReads : List (Except Js ContractRead)

/-- `x === undefined`. -/
def Js.isUndef : Js → Bool
  | .undefined => true
  | _ => false

/-- A contract index is absent: `undefined`, `null` or `''`. -/
def isAbsentIndex (x : Js) : Bool := x.isNullish || x.isStr ""

/-- `contractIndexOf`: the contract that an action targets. -/
def contractIndexOf (actionData : Js) : Js :=
  let params := (actionData.getIf "params").or (.obj [])
  if !(params.field "contractActionIndex").isUndef then params.field "contractActionIndex"
  else if !(params.field "CONTRACT_ACTION_INDEX").isUndef then
    params.field "CONTRACT_ACTION_INDEX"
  else params.field "contract_action_index"

/-- The contract of a gate. -/
def ContractGate.index (gate : ContractGate) (actionData : Js) : Js :=
  if (gate.fields.field "contractActionIndex").isNullish then contractIndexOf actionData
  else gate.fields.field "contractActionIndex"

def missingContractIndex : Js := sdkError "SDKConfigError" "MISSING_CONTRACT_INDEX" []

/-- `validateStateArgs`, when the contract is known. -/
def validateStateArgs (gate : ContractGate) : Except Js Unit :=
  let key := gate.fields.field "key"
  if !(gate.fields.field "equals").isUndef && key.isUndef then
    .error (sdkError "SDKConfigError" "MISSING_CONTRACT_STATE_KEY" [])
  else if key.isUndef && !gate.hasMatch then
    .error (sdkError "SDKConfigError" "MISSING_CONTRACT_STATE_CONDITION" [])
  else .ok ()

/-- `waitForContractState`; `explorer` is whether an explorer can be had. -/
def waitForContractState (gate : ContractGate) (index timeout : Js) (explorer : Except Js Unit) :
    Except Js Js := do
  validateStateArgs gate
  explorer
  pollUntil (fun observed lastError => sdkError "SDKActionError" "CONTRACT_STATE_TIMEOUT"
    [("contractActionIndex", index), ("key", gate.fields.field "key"),
      ("expected", gate.fields.field "equals"), ("state", observed), ("timeout", timeout),
      ("cause", lastError.or .undefined)]) gate.stateReads .null .null

/-- `waitForContractBalance`, when the contract and the tick are known. -/
def waitForContractBalance (gate : ContractGate) (index timeout : Js)
    (explorer : Except Js Unit) : Except Js Js := do
  explorer
  pollUntil (fun observed lastError => sdkError "SDKActionError" "CONTRACT_BALANCE_TIMEOUT"
    [("contractActionIndex", index), ("tick", gate.fields.field "tick"),
      ("minQuantity", gate.fields.field "minQuantity"), ("quantity", observed),
      ("timeout", timeout), ("cause", lastError.or .undefined)]) gate.balanceReads .null .null

/-- The timeout of a contract wait is marked like the other one. -/
def markContractTimeout (finalTxid : String) (error : Js) : Js :=
  let code := error.getIf "code"
  if code.isStr "CONTRACT_STATE_TIMEOUT" || code.isStr "CONTRACT_BALANCE_TIMEOUT" then
    let details := error.field "details"
    error.assign ([("broadcast", .bool true), ("txid", str finalTxid)] ++
      match details with
      | .obj _ =>
        [("details", details.assign [("broadcast", .bool true), ("txid", str finalTxid)])]
      | _ => [])
  else error

/-- The timeout of a contract wait. -/
def IsContractTimeout (e : Js) : Prop :=
  ∃ code ∈ ["CONTRACT_STATE_TIMEOUT", "CONTRACT_BALANCE_TIMEOUT"], ∃ details,
    e = sdkError "SDKActionError" code details

theorem pollUntil_error {timeoutError : Js → Js → Js} {reads : List (Except Js ContractRead)}
    {observed lastError e : Js} (h : pollUntil timeoutError reads observed lastError = .error e) :
    ∃ observed lastError, e = timeoutError observed lastError := by
  induction reads generalizing observed lastError with
  | nil => exact ⟨observed, lastError, (Except.error.inj h).symm⟩
  | cons read reads ih =>
    cases read with
    | error _ => exact ih h
    | ok read =>
      rw [pollUntil] at h
      split at h
      · cases h
      · exact ih h

theorem waitForContractState_error {gate : ContractGate} {index timeout e : Js}
    {explorer : Except Js Unit} (h : waitForContractState gate index timeout explorer = .error e) :
    validateStateArgs gate = .error e ∨
      (validateStateArgs gate = .ok () ∧ explorer = .error e) ∨ IsContractTimeout e := by
  unfold waitForContractState at h
  cases hargs : validateStateArgs gate with
  | error e' =>
    rw [hargs] at h
    obtain rfl := Except.error.inj (show (Except.error e' : Except Js Js) = .error e from h)
    exact .inl rfl
  | ok u =>
    rw [hargs] at h
    cases explorer with
    | error e' =>
      obtain rfl := Except.error.inj (show (Except.error e' : Except Js Js) = .error e from h)
      exact .inr (.inl ⟨rfl, rfl⟩)
    | ok u =>
      obtain ⟨observed, lastError, rfl⟩ := pollUntil_error h
      exact .inr (.inr ⟨_, by simp, _, rfl⟩)

theorem waitForContractBalance_error {gate : ContractGate} {index timeout e : Js}
    {explorer : Except Js Unit}
    (h : waitForContractBalance gate index timeout explorer = .error e) :
    explorer = .error e ∨ IsContractTimeout e := by
  cases explorer with
  | error e' =>
    obtain rfl := Except.error.inj (show (Except.error e' : Except Js Js) = .error e from h)
    exact .inl rfl
  | ok u =>
    obtain ⟨observed, lastError, rfl⟩ := pollUntil_error h
    exact .inr ⟨_, by simp, _, rfl⟩

theorem markContractTimeout_carries {txid : String} {e : Js} (h : IsContractTimeout e) :
    CarriesTxid (markContractTimeout txid e) txid := by
  obtain ⟨code, hcode, details, rfl⟩ := h
  have hmark : markContractTimeout txid (sdkError "SDKActionError" code details) =
      (sdkError "SDKActionError" code details).assign
        ([("broadcast", .bool true), ("txid", str txid)] ++ [("details", (Js.obj details).assign
          [("broadcast", .bool true), ("txid", str txid)])]) := by
    simp only [List.mem_cons, List.not_mem_nil, or_false] at hcode
    rcases hcode with rfl | rfl <;> rfl
  rw [hmark]
  exact .inl rfl

end XChainSdk
