import XChainSdk.X402.Payments

/-!
# A gateway that sells calls for invoices

Requests verify payments and a sweeper settles provisional grants, all on one store of invoices. An
`update` of the store runs whole under the mutex of its nonce, so it is one event; everything else
happens between two await points.

* `SendGateway` : the store, where each call of `verifySend` and each sweep stands, and the results.
* `gatewayStep` : one event: a new invoice, the next await point of a call or a sweep, a pruning.
* `gatewayRun` : a run from an empty store.
-/

namespace XChainSdk

/-- What a call that found its payment writes into the invoice. -/
inductive Claim where
  | confirmed (row : Js)
  | provisional (row : Js)

/-- The await point that a call of `verifySend` is at. -/
inductive VerifyPoint where
  | idle
  /-- `getSends` was asked -/
  | sends (invoice : Invoice) (payer : String)
  /-- `getMempool` was asked -/
  | mempool (invoice : Invoice) (payer : String)
  /-- `getAddress` was asked -/
  | address (invoice : Invoice) (payer : String) (rows : List Js)
  /-- `getToken` was asked -/
  | token (invoice : Invoice) (payer : String) (rows : List Js) (payToId : Option String)
  /-- the invoice is to be claimed -/
  | claiming (nonce payer : String) (claim : Claim)

/-- The await point that a sweep is at, with the invoices it has still to settle. -/
inductive SweepPoint where
  | idle
  /-- `getSends` was asked -/
  | sends (inv : Invoice) (rest : List Invoice)
  /-- the invoice is to be promoted -/
  | promoting (inv : Invoice) (row : Js) (rest : List Invoice)
  /-- the invoice is to be marked as failed -/
  | failing (inv : Invoice) (rest : List Invoice)

/-- How a call of `verifySend` ends. -/
inductive VerifyResult where
  | ok (status : InvoiceStatus) (txid blockIndex : Js)
  | refused (code : String)
  | thrown

/-- Is access granted? -/
def VerifyResult.isOk : VerifyResult → Bool
  | ok _ _ _ => true
  | _ => false

/-- A gateway.  `issued` and `results` are the history of its nonces and of the calls. -/
structure SendGateway where
  store : String → Option Invoice
  addressIds : String → Option String
  tickIds : String → Option String
  calls : ℕ → VerifyPoint
  sweeps : ℕ → SweepPoint
  issued : List String
  results : List (String × VerifyResult)

/-- A gateway with an empty store. -/
def SendGateway.empty : SendGateway where
  store _ := none
  addressIds _ := none
  tickIds _ := none
  calls _ := .idle
  sweeps _ := .idle
  issued := []
  results := []

/-- The states in which an invoice is claimed already. -/
def CLAIMED : List InvoiceStatus := [.used, .confirmed, .provisional0conf]

/-- The invoice as a claim writes it. -/
def Claim.write (payer : String) (now : ℚ) (inv : Invoice) : Claim → Invoice
  | confirmed row => { inv with
      status := .confirmed, payer := some payer, txid := row.field "tx_hash",
      blockIndex := row.field "block_index", usedAt := some now }
  | provisional row => { inv with
      status := .provisional0conf, payer := some payer, txid := row.field "tx_hash",
      grantedAt := some now }

/-- What the call returns once its claim is written. -/
def Claim.result : Claim → VerifyResult
  | confirmed row => .ok .confirmed (row.field "tx_hash") (row.field "block_index")
  | provisional row => .ok .provisional0conf (row.field "tx_hash") .undefined

/-- The invoice as the sweeper promotes it. -/
def promote (row : Js) (inv : Invoice) : Invoice :=
  { inv with status := .confirmed, blockIndex := row.field "block_index", usedAt := inv.grantedAt }

/-- The invoice as the sweeper revokes it. -/
def markFailed (inv : Invoice) : Invoice := { inv with status := .failed0conf }

namespace SendGateway

/-- Writes an invoice under its nonce. -/
def put (s : SendGateway) (nonce : String) (inv : Invoice) : SendGateway :=
  { s with store := Function.update s.store nonce (some inv) }

/-- Moves a call to its next await point. -/
def atPoint (s : SendGateway) (call : ℕ) (p : VerifyPoint) : SendGateway :=
  { s with calls := Function.update s.calls call p }

/-- Ends a call. -/
def finish (s : SendGateway) (call : ℕ) (nonce : String) (r : VerifyResult) : SendGateway :=
  { s.atPoint call .idle with results := s.results ++ [(nonce, r)] }

/-- Moves a sweep to its next await point. -/
def sweepAt (s : SendGateway) (sweep : ℕ) (p : SweepPoint) : SendGateway :=
  { s with sweeps := Function.update s.sweeps sweep p }

/-- The nonces of the calls that returned ok. -/
def granted (s : SendGateway) : List String :=
  (s.results.filter fun r => r.2.isOk).map Prod.fst

end SendGateway

/-- The sweep goes on to the next invoice of its list. -/
def nextInvoice : List Invoice → SweepPoint
  | [] => .idle
  | inv :: rest => .sends inv rest

/-- One event of a gateway. -/
inductive GatewayOp where
  /-- a challenge creates an invoice -/
  | issue (nonce : String) (written : Bool)
  /-- a call of `verifySend` starts -/
  | verifySend (call : ℕ) (proof : SendProof)
  /-- the explorer answers what the call awaits; `none` is a rejection -/
  | answer (call : ℕ) (res : Option Js)
  /-- the claim of the call runs; its write may fail -/
  | claim (call : ℕ) (written : Bool)
  /-- a sweep starts, and reads the invoices as the directories list them -/
  | sweep (sweep : ℕ) (listing : List String)
  /-- the explorer answers the sweep -/
  | sweepAnswer (sweep : ℕ) (res : Option Js)
  /-- the update of the sweep runs -/
  | sweepUpdate (sweep : ℕ) (written : Bool)
  /-- old directories are dropped, with their invoices -/
  | prune (gone : List String)

section Step

variable (H : TextHost) (M : MathJs) (cfg : SendScheme)

/-- `/^[0-9a-f]{32}$/`. -/
def isNonce (s : String) : Bool :=
  s.length == 32 && s.toList.all fun c => c.isDigit || ('a' ≤ c && c ≤ 'f')

/-- The invoice that a challenge creates. -/
def newInvoice (nonce : String) (now : ℚ) : Invoice where
  nonce
  tick := cfg.tick
  amount := cfg.amount
  payTo := cfg.payTo
  minConfirmations := cfg.minConfirmations
  expiresAt := now + cfg.ttlMs
  status := .pending

/-- The checks of `verifySend` before it asks the explorer. -/
def claimable (s : SendGateway) (now : ℚ) (nonce payer : String) (signature : Js) :
    Except String Invoice := do
  if isNonce nonce = false then throw "X402_BAD_INVOICE"
  if payer = "" then throw "X402_NO_PAYER"
  if cfg.requireSignature then verifyPayerSignature cfg.auth payer nonce signature
  match s.store nonce with
  | none => throw "X402_UNKNOWN_INVOICE"
  | some invoice =>
    if invoice.status ∈ CLAIMED then throw "X402_INVOICE_ALREADY_USED"
    if invoice.expiresAt + cfg.expiryGraceMs < now then throw "X402_INVOICE_EXPIRED"
    return invoice

/-- The mempool rows are searched with the ids that are known. -/
def searchMempool (s : SendGateway) (call : ℕ) (invoice : Invoice) (payer : String)
    (rows : List Js) (ids : WireIds) : SendGateway :=
  match findMempoolSend H M invoice (some payer) ids rows with
  | none => s.finish call invoice.nonce .thrown
  | some none => s.finish call invoice.nonce (.refused "X402_PAYMENT_NOT_FOUND")
  | some (some row) => s.atPoint call (.claiming invoice.nonce payer (.provisional row))

/-- The id of the tick is looked up, unless it was before. -/
def resolveTickId (s : SendGateway) (call : ℕ) (invoice : Invoice) (payer : String)
    (rows : List Js) (payToId : Option String) : SendGateway :=
  match s.tickIds invoice.tick with
  | some id => searchMempool H M s call invoice payer rows ⟨payToId, some id⟩
  | none => s.atPoint call (.token invoice payer rows payToId)

/-- A call goes on with what the explorer answered. -/
def verifyAnswer (s : SendGateway) (call : ℕ) (res : Option Js) : SendGateway :=
  match s.calls call with
  | .sends invoice payer =>
    match res.bind (findConfirmedSend H M invoice (some payer)) with
    | none => s.finish call invoice.nonce .thrown
    | some (some row) => s.atPoint call (.claiming invoice.nonce payer (.confirmed row))
    | some none =>
      if invoice.minConfirmations = .fin 0 then s.atPoint call (.mempool invoice payer)
      else s.finish call invoice.nonce (.refused "X402_PAYMENT_NOT_FOUND")
  | .mempool invoice payer =>
    match res.bind rowsOf with
    | none => s.finish call invoice.nonce .thrown
    | some rows =>
      match s.addressIds invoice.payTo with
      | some id => resolveTickId H M s call invoice payer rows (some id)
      | none => s.atPoint call (.address invoice payer rows)
  | .address invoice payer rows =>
    match answeredId "address_id" res with
    | some id => resolveTickId H M
        { s with addressIds := Function.update s.addressIds invoice.payTo (some id) }
        call invoice payer rows (some id)
    | none => resolveTickId H M s call invoice payer rows none
  | .token invoice payer rows payToId =>
    match answeredId "tick_id" res with
    | some id => searchMempool H M
        { s with tickIds := Function.update s.tickIds invoice.tick (some id) }
        call invoice payer rows ⟨payToId, some id⟩
    | none => searchMempool H M s call invoice payer rows ⟨payToId, none⟩
  | _ => s

/-- The claim of a call runs under the mutex of its nonce. -/
def claimInvoice (s : SendGateway) (now : ℚ) (call : ℕ) (written : Bool) : SendGateway :=
  match s.calls call with
  | .claiming nonce payer claim =>
    match s.store nonce with
    | none => s.finish call nonce (.refused "X402_INVOICE_ALREADY_USED")
    | some inv =>
      if inv.status ∈ CLAIMED then s.finish call nonce (.refused "X402_INVOICE_ALREADY_USED")
      else if written then (s.put nonce (claim.write payer now inv)).finish call nonce claim.result
      else s.finish call nonce .thrown
  | _ => s

/-- The invoices of the listing that are provisional. -/
def listProvisional (s : SendGateway) (listing : List String) : List Invoice :=
  (listing.filterMap s.store).filter fun inv => inv.status = .provisional0conf

/-- Has the window of a provisional grant closed? -/
def windowClosed (now : ℚ) (inv : Invoice) : Bool :=
  match inv.grantedAt with
  | some t => decide (cfg.confirmWindowMs < now - t)
  | none => false

/-- A sweep goes on with what the explorer answered; a thrown error ends with the invoice. -/
def sweepAnswer (s : SendGateway) (now : ℚ) (sweep : ℕ) (res : Option Js) : SendGateway :=
  match s.sweeps sweep with
  | .sends inv rest =>
    match res.bind (findConfirmedSend H M { inv with status := .pending } inv.payer) with
    | some (some row) => s.sweepAt sweep (.promoting inv row rest)
    | some none =>
      if windowClosed cfg now inv then s.sweepAt sweep (.failing inv rest)
      else s.sweepAt sweep (nextInvoice rest)
    | none => s.sweepAt sweep (nextInvoice rest)
  | _ => s

/-- The sweeper's updates look at nothing but whether the invoice is there. -/
def sweepUpdate (s : SendGateway) (sweep : ℕ) (written : Bool) : SendGateway :=
  match s.sweeps sweep with
  | .promoting inv row rest =>
    match s.store inv.nonce, written with
    | some cur, true => (s.put inv.nonce (promote row cur)).sweepAt sweep (nextInvoice rest)
    | _, _ => s.sweepAt sweep (nextInvoice rest)
  | .failing inv rest =>
    match s.store inv.nonce, written with
    | some cur, true => (s.put inv.nonce (markFailed cur)).sweepAt sweep (nextInvoice rest)
    | _, _ => s.sweepAt sweep (nextInvoice rest)
  | _ => s

/-- The first part of `verifySend`. -/
def startVerify (s : SendGateway) (now : ℚ) (call : ℕ) (proof : SendProof) : SendGateway :=
  let nonce := (proof.invoice.or (.str "")).toText
  let payer := (proof.payer.or (.str "")).toText
  match claimable cfg s now nonce payer proof.payerSignature with
  | .ok invoice => s.atPoint call (.sends invoice payer)
  | .error code => s.finish call nonce (.refused code)

/-- One event.  A call or a sweep takes a number that none in progress has. -/
def gatewayStep (s : SendGateway) (event : ℚ × GatewayOp) : SendGateway :=
  match event.2 with
  | .issue nonce written =>
    { if written then s.put nonce (newInvoice cfg nonce event.1) else s with
      issued := s.issued ++ [nonce] }
  | .verifySend call proof =>
    match s.calls call with
    | .idle => startVerify cfg s event.1 call proof
    | _ => s
  | .answer call res => verifyAnswer H M s call res
  | .claim call written => claimInvoice s event.1 call written
  | .sweep sweep listing =>
    match s.sweeps sweep with
    | .idle => s.sweepAt sweep (nextInvoice (listProvisional s listing))
    | _ => s
  | .sweepAnswer sweep res => sweepAnswer H M cfg s event.1 sweep res
  | .sweepUpdate sweep written => sweepUpdate s sweep written
  | .prune gone => { s with store := fun nonce => if nonce ∈ gone then none else s.store nonce }

/-- A run from an empty store. -/
def gatewayRun (events : List (ℚ × GatewayOp)) : SendGateway :=
  events.foldl (gatewayStep H M cfg) .empty

end Step

end XChainSdk
