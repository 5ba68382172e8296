import XChainSdk.X402.Amounts

/-!
# Payments of an invoice

What an explorer answers is searched for the payment of an invoice: the rows of the index first, the
decoded strings of the mempool where an invoice allows it.

* `Invoice`, `SendScheme` : an invoice, and the scheme that it is issued under.
* `outputMatches` : does an output pay an invoice?
* `findConfirmedSend`, `findMempoolSend` : the row that pays it; `none` is a thrown error.
* `verifyPayerSignature` : does the payer sign the nonce?
-/

namespace XChainSdk

/-- The states of an invoice. -/
inductive InvoiceStatus where
  | pending
  | used
  | confirmed
  | provisional0conf
  | failed0conf
  deriving DecidableEq

/-- An invoice.  The fields after the status are set when it is claimed. -/
structure Invoice where
  nonce : String
  tick : String
  amount : String
  payTo : String
  minConfirmations : JsNum
  expiresAt : ℚ
  status : InvoiceStatus
  payer : Option String := none
  txid : Js := .undefined
  blockIndex : Js := .undefined
  usedAt : Option ℚ := none
  grantedAt : Option ℚ := none

/-- The pay-per-call scheme of a gateway, and its windows. -/
structure SendScheme where
  tick : String
  amount : String
  payTo : String
  minConfirmations : JsNum := .fin 1
  ttlMs : ℚ := 5 * 60 * 1000
  confirmWindowMs : ℚ := 10 * 60 * 1000
  expiryGraceMs : ℚ := 10 * 1000
  requireSignature : Bool := true
  /-- `verifyOwnership(address, message, signature)`, of a gateway with a network; `none` throws -/
  auth : Option (String → String → String → Option Bool)

/-- The index ids that an invoice's address and tick are known by. -/
structure WireIds where
  payToId : Option String
  tickId : Option String

/-- `/^[1-9][0-9]*$/`. -/
def isCaretId (s : String) : Bool :=
  match s.toList with
  | [] => false
  | c :: cs => c.isDigit && c != '0' && cs.all Char.isDigit

section Search

variable (H : TextHost) (M : MathJs)

/-- The compacted form `^<id>` of a value whose id is known. -/
def isCompacted (id : Option String) (text : String) : Bool :=
  match id with
  | some id => isCaretId id && decide (text = "^" ++ id)
  | none => false

/-- Destination, tick, amount and memo of the output are the invoice's. -/
def outputMatches (invoice : Invoice) (out : SendOutput) (ids : WireIds) : Option Bool :=
  let dest := out.destination.elemText
  let tick := H.toUpperCase out.tick.toText
  if (decide (dest = invoice.payTo) || isCompacted ids.payToId dest)
      && (decide (tick = invoice.tick) || isCompacted ids.tickId tick)
      && isPosNum M out.amount.toText then
    (gte M out.amount.toText invoice.amount).map fun enough =>
      enough && decide (trim out.memo.elemText = invoice.nonce)
  else some false

/-- `rows = (res && res.data) || []`, listed; a value that is not iterable throws. -/
def rowsOf (res : Js) : Option (List Js) := ((res.getIf "data").or (.arr [])).iter

/-- The first row that meets the test. -/
def firstMatching (test : Js → Option Bool) : List Js → Option (Option Js)
  | [] => some none
  | row :: rows => do
    if ← test row then return some row
    firstMatching test rows

/-- `row.source === payer`; a nullish row throws. -/
def hasSource (payer : Option String) (row : Js) : Option Bool :=
  (row.get "source").map fun source =>
    match payer, source with
    | some payer, .str source => decide (source = payer)
    | none, .undefined => true
    | _, _ => false

/-- `!row.status || String(row.status).toLowerCase() === 'valid'`. -/
def isValidRow (H : Host) (row : Js) : Bool :=
  !(row.field "status").truthy || decide (H.toLowerCase (row.field "status").toText = "valid")

/-- Does an indexed row pay the invoice? -/
def confirmedRow (invoice : Invoice) (payer : Option String) (row : Js) : Option Bool := do
  if ← hasSource payer row then
    if isValidRow H.toHost row then
      outputMatches H M invoice ⟨row.field "tick", row.field "amount",
        (row.field "destination").or (.str invoice.payTo), row.field "memo"⟩ ⟨none, none⟩
    else return false
  else return false

/-- The indexed row that pays the invoice. -/
def findConfirmedSend (invoice : Invoice) (payer : Option String) (res : Js) :
    Option (Option Js) := do
  firstMatching (confirmedRow H M invoice payer) (← rowsOf res)

/-- Does one of the outputs match? -/
def anyOutput (test : SendOutput → Option Bool) : List SendOutput → Option Bool
  | [] => some false
  | out :: outs => do
    if ← test out then return true
    anyOutput test outs

/-- Does a row of the mempool pay the invoice? -/
def mempoolRow (invoice : Invoice) (payer : Option String) (ids : WireIds) (row : Js) :
    Option Bool := do
  if ← hasSource payer row then
    match parseActionString H M (row.field "data") with
    | none => return false
    | some parsed =>
      if parsed.action ≠ "SEND" then return false
      anyOutput (fun out => outputMatches H M invoice out ids) parsed.outputs
  else return false

/-- The row of the mempool that pays the invoice. -/
def findMempoolSend (invoice : Invoice) (payer : Option String) (ids : WireIds) (rows : List Js) :
    Option (Option Js) := firstMatching (mempoolRow H M invoice payer ids) rows

/-- `res && (Array.isArray(res) ? (res[0] || {}).info : res.info)`. -/
def infoOf : Js → Js
  | .arr (x :: _) => if x.truthy then x.field "info" else .undefined
  | .arr [] => .undefined
  | res => res.getIf "info"

/-- The id that an explorer's answer names under a key; an answer that fails names none. -/
def answeredId (key : String) (answer : Option Js) : Option String :=
  match answer.map infoOf with
  | some info =>
    let id := info.field key
    if info.truthy && !id.isNullish && isCaretId id.toText then some id.toText else none
  | none => none

end Search

/-- What a request offers as its proof of payment. -/
structure SendProof where
  invoice : Js
  payer : Js
  payerSignature : Js

/-- Why the payer is not shown to control its address. -/
def verifyPayerSignature (auth : Option (String → String → String → Option Bool))
    (payer message : String) (signature : Js) : Except String Unit :=
  match auth, signature with
  | none, _ => .error "X402_CONFIG"
  | some verifyOwnership, .str signature =>
    if signature = "" then .error "X402_SIGNATURE_REQUIRED"
    else
      match verifyOwnership payer message signature with
      | some true => .ok ()
      | _ => .error "X402_BAD_SIGNATURE"
  | some _, _ => .error "X402_SIGNATURE_REQUIRED"

end XChainSdk
