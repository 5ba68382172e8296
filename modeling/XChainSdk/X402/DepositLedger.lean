import XChainSdk.X402.Payments

/-!
# A gateway that draws on deposits

Confirmed deposits fund the calls of a payer; a file for each payer records what was spent. The
calls of a payer are served one after the other, and from the last page of an explorer's answer to
the renamed file a call runs without an await. A challenge token is accepted once, as long as the
process remembers it.

* `DepositScheme`, `DepositGateway` : the scheme, and a process with its ledgers.
* `checkChallenge`, `consumeChallenge` : the checks of a token, and the map of the used ones.
* `debit` : the rest of a call once every page of the deposits is there.
* `depositStep` : one event: a request, a page, or the start of another process.
-/

namespace XChainSdk

/-- A decimal package that prints its numbers, so that they read back. -/
structure BignumberJs extends MathJs where
  /-- `x.toString()` of a finite number. -/
  digits : ℚ → String
  bignumber_digits : ∀ q, IsDecimal q → bignumber (digits q) = some (.fin q)

/-- A package that prints without exponents. -/
def plainBignumber : BignumberJs := { plainMath with
  digits := toFixed
  bignumber_digits := plainMath.bignumber_toFixed }

/-- `x.toString()`. -/
def BignumberJs.text (B : BignumberJs) : JsNum → String
  | .fin q => B.digits q
  | x => x.toFixedText

/-- The deposit scheme of a gateway, whose price was checked when it was configured. -/
structure DepositScheme (B : BignumberJs) where
  coin : String
  tick : String
  depositAddress : String
  pricePerCall : String
  positive : isPosNum B.toMathJs pricePerCall = true
  /-- `path.join(ledgerDir, payer + '.json')` -/
  ledgerFile : String → String
  requireSignature : Bool := true
  /-- `verifyOwnership(address, message, signature)`, of a gateway with a network; `none` throws -/
  auth : Option (String → String → String → Option Bool)
  /-- the hex HMAC-SHA256 of a text under a secret -/
  hmac : String → String → String
  /-- `JSON.parse(Buffer.from(payload, 'base64url').toString('utf8'))`; `none` throws -/
  decodePayload : String → Option Js

/-- A recorded debit, named by its number. -/
structure LedgerEntry where
  debit : ℕ
  t : ℚ
  amount : String
  resource : Js

/-- The ledger of a payer. -/
structure DepositLedger where
  payer : String
  spent : String
  entries : List LedgerEntry

/-- What is at the path of a ledger. -/
inductive LedgerFile where
  | absent
  | unreadable
  | ledger (l : DepositLedger)

/-- A call that waits for its payer's lock, or holds it. -/
structure DepositCall where
  call : ℕ
  resource : Js

/-- What a call has read of the deposits. -/
structure Fetch where
  page : ℕ
  rows : List Js

/-- A debit that reached the file: what the call saw of the deposits, the spend that it recorded,
and whether the call returned ok. -/
structure DebitRecord where
  call : ℕ
  payer : String
  rows : List Js
  spent : String
  ok : Bool

/-- A process and its ledgers.  `clock`, `debits`, `accepted` and `denied` are its history; a call
that is denied without a code ended with a thrown error. -/
structure DepositGateway where
  files : String → LedgerFile
  queues : String → List DepositCall
  fetched : String → Fetch
  secret : String
  usedChallenges : List (Js × JsNum)
  clock : ℚ
  debits : List DebitRecord
  accepted : List String
  denied : List (ℕ × Option String)

/-- A process without ledgers. -/
def DepositGateway.empty (secret : String) : DepositGateway where
  files _ := .absent
  queues _ := []
  fetched _ := ⟨1, []⟩
  secret
  usedChallenges := []
  clock := 0
  debits := []
  accepted := []
  denied := []

/-! ### Challenges -/

/-- What a challenge that passes its checks says. -/
structure CheckedChallenge where
  nonce : Js
  exp : JsNum

section Challenges

variable {B : BignumberJs} (cfg : DepositScheme B)

/-- The text before the last `.`, and the text after it. -/
def splitToken (token : String) : Option (String × String) :=
  match token.toList.reverse.span (· ≠ '.') with
  | (_, []) => none
  | (mac, _ :: payload) => some (String.ofList payload.reverse, String.ofList mac.reverse)

/-- A refusal with a code, or a thrown error. -/
abbrev Refused (α : Type) : Type := Except (Option String) α

/-- Refuses with a code. -/
def refused {α : Type} (code : String) : Refused α := .error (some code)

/-- Goes on with a value that may be missing because an error was thrown. -/
def orThrown {α : Type} : Option α → Refused α
  | some a => .ok a
  | none => .error none

/-- The body of a token whose MAC is right. -/
def authenticBody (secret token : String) : Refused Js :=
  match splitToken token with
  | none => refused "X402_CHALLENGE_MISSING"
  | some (payload, mac) =>
    if mac = "" ∨ mac ≠ cfg.hmac secret payload then refused "X402_BAD_CHALLENGE"
    else
      match cfg.decodePayload payload with
      | none => refused "X402_BAD_CHALLENGE"
      | some body => .ok body

/-- `x == null ? null : String(x)`. -/
def resourceText (x : Js) : Option String := if x.isNullish then none else some x.toText

/-- What the body of a token is bound to, and its expiry. -/
def checkBody (now : ℚ) (scheme : String) (resource body : Js) : Refused CheckedChallenge :=
  if body.isNullish then .error none
  else if isText (body.field "s") scheme = false ∨ isText (body.field "c") cfg.coin = false then
    refused "X402_BAD_CHALLENGE"
  else if resourceText (body.field "r") ≠ resourceText resource then
    refused "X402_CHALLENGE_RESOURCE_MISMATCH"
  else if (JsNum.fin now).lt (body.field "exp").toNumber = false then
    refused "X402_CHALLENGE_EXPIRED"
  else .ok ⟨body.field "n", (body.field "exp").toNumber⟩

/-- The checks of a token. -/
def checkChallenge (secret : String) (now : ℚ) (scheme : String) (resource token : Js) :
    Refused CheckedChallenge :=
  match token with
  | .str token => (authenticBody cfg secret token).bind (checkBody cfg now scheme resource)
  | _ => refused "X402_CHALLENGE_MISSING"

/-- Are two keys of a `Map` the same?  An object that was just parsed is no key yet. -/
def sameKey : Js → Js → Bool
  | .undefined, .undefined | .null, .null => true
  | .bool a, .bool b => a == b
  | .num a, .num b => decide (a = b)
  | .bigint a, .bigint b => a == b
  | .str a, .str b => a == b
  | _, _ => false

/-- Takes note of a challenge that was not used; entries that expired are dropped first. -/
def consumeChallenge (used : List (Js × JsNum)) (now : ℚ) (c : CheckedChallenge) :
    Option (List (Js × JsNum)) :=
  let live := used.filter fun e => !e.2.le (.fin now)
  if live.any fun e => sameKey e.1 c.nonce then none else some (live ++ [(c.nonce, c.exp)])

end Challenges

/-- What a request offers. -/
structure DepositProof where
  payer : Js
  challenge : Js
  payerSignature : Js

/-! ### Debits -/

section Debits

variable (H : Host) {B : BignumberJs} (cfg : DepositScheme B)

/-- Is the row a confirmed deposit of the payer?  A nullish row throws. -/
def isDeposit (payer : String) (row : Js) : Option Bool :=
  (hasSource (some payer) row).map fun own =>
    own && decide (H.toUpperCase (row.field "tick").toText = cfg.tick) && isValidRow H row
      && isPosNum B.toMathJs (row.field "amount").toText

/-- Adds a row to the deposits. -/
def addDeposit (payer : String) (total : JsNum) (row : Js) : Option JsNum := do
  if ← isDeposit H cfg payer row then
    return total.plus (← B.bignumber (row.field "amount").toText)
  else return total

/-- `readLedger`: a file that cannot be read throws. -/
def readLedger (payer : String) : LedgerFile → Option DepositLedger
  | .absent => some ⟨payer, "0", []⟩
  | .unreadable => none
  | .ledger l => some l

/-- How a write ends.  A crash ends the process, before or after the renaming; the next one starts
with a secret. -/
inductive LedgerWrite where
  | written
  | failed
  | crashed (renamed : Bool) (secret : String)

/-- What a debit writes, and what remains of the deposits. -/
structure Debited where
  ledger : DepositLedger
  remaining : String

/-- The ledger with one more debit, if the deposits reach. -/
def debitLedger (now : ℚ) (number : ℕ) (payer : String) (resource : Js) (rows : List Js)
    (l : DepositLedger) : Refused Debited := do
  let deposited ← orThrown (rows.foldlM (addDeposit H cfg payer) (.fin 0))
  let spent ← orThrown (B.bignumber l.spent)
  let available := deposited.minus spent
  let price ← orThrown (B.bignumber cfg.pricePerCall)
  if ← orThrown (gte B.toMathJs (B.text available) cfg.pricePerCall) then
    return ⟨{ l with
      spent := B.text (spent.plus price)
      entries := l.entries ++ [⟨number, now, cfg.pricePerCall, resource.or .null⟩] },
      B.text (available.minus price)⟩
  else refused "X402_DEPOSIT_EXHAUSTED"

namespace DepositGateway

/-- Another process takes over: nothing is left but the files. -/
def restart (s : DepositGateway) (secret : String) : DepositGateway :=
  { s with queues := fun _ => [], fetched := fun _ => ⟨1, []⟩, usedChallenges := [], secret }

/-- The call that holds the lock of the payer ends. -/
def release (s : DepositGateway) (payer : String) (waiting : List DepositCall) : DepositGateway :=
  { s with
    queues := Function.update s.queues payer waiting
    fetched := Function.update s.fetched payer ⟨1, []⟩ }

/-- A call ends without access. -/
def deny (s : DepositGateway) (call : ℕ) (code : Option String) : DepositGateway :=
  { s with denied := s.denied ++ [(call, code)] }

/-- A debit that is in the file, with the result of its call. -/
def record (s : DepositGateway) (call : ℕ) (payer : String) (rows : List Js) (l : DepositLedger)
    (ok : Bool) : DepositGateway :=
  { s with debits := s.debits ++ [⟨call, payer, rows, l.spent, ok⟩] }

/-- Writes a ledger. -/
def writeLedger (s : DepositGateway) (payer : String) (l : DepositLedger) : DepositGateway :=
  { s with files := Function.update s.files (cfg.ledgerFile payer) (.ledger l) }

end DepositGateway

/-- The rest of a call once every page is there. -/
def debit (s : DepositGateway) (now : ℚ) (payer : String) (c : DepositCall)
    (waiting : List DepositCall) (rows : List Js) (outcome : LedgerWrite) : DepositGateway :=
  match (orThrown (readLedger payer (s.files (cfg.ledgerFile payer)))).bind
      (debitLedger H cfg now s.debits.length payer c.resource rows) with
  | .error code => (s.release payer waiting).deny c.call code
  | .ok d =>
    match outcome with
    | .written => ((s.writeLedger cfg payer d.ledger).record c.call payer rows d.ledger true).release
        payer waiting
    | .failed => (s.release payer waiting).deny c.call none
    | .crashed true secret =>
      ((s.writeLedger cfg payer d.ledger).record c.call payer rows d.ledger false).restart secret
    | .crashed false secret => s.restart secret

/-- The pages that are read of the explorer's list, and their length. -/
def MAX_LOOKUP_PAGES : ℕ := 50
def PAGE_LIMIT : ℕ := 100

/-- Is the page the last one?  A short page is, and one that reaches the reported total. -/
def isLastPage (res : Js) (page : ℕ) (batch rows : List Js) : Bool :=
  batch.length < PAGE_LIMIT || page == MAX_LOOKUP_PAGES ||
    match (res.getIf "total").toNumber with
    | .fin total => decide (total ≤ rows.length)
    | _ => false

/-- A page of the deposits arrives for the call that holds the lock of the payer. -/
def depositPage (s : DepositGateway) (now : ℚ) (payer : String) (res : Option Js)
    (outcome : LedgerWrite) : DepositGateway :=
  match s.queues payer, res with
  | [], _ => s
  | c :: waiting, none => (s.release payer waiting).deny c.call none
  | c :: waiting, some res =>
    let batch := (res.getIf "data").elems
    let rows := (s.fetched payer).rows ++ batch
    if isLastPage res (s.fetched payer).page batch rows then
      debit H cfg s now payer c waiting rows outcome
    else { s with
      fetched := Function.update s.fetched payer ⟨(s.fetched payer).page + 1, rows⟩ }

/-- The proof that the requester controls the payer; the token is noted as used. -/
def acceptChallenge (s : DepositGateway) (now later : ℚ) (scheme : String) (payer : String)
    (proof : DepositProof) (resource : Js) : Refused DepositGateway := do
  let c ← checkChallenge cfg s.secret now scheme resource proof.challenge
  (verifyPayerSignature cfg.auth payer proof.challenge.toText proof.payerSignature).mapError some
  match consumeChallenge s.usedChallenges later c with
  | none => refused "X402_CHALLENGE_REPLAYED"
  | some used => return { s with
      usedChallenges := used, accepted := s.accepted ++ [proof.challenge.toText] }

/-- A request under a scheme that needs a challenge. -/
def admitProof (s : DepositGateway) (now later : ℚ) (scheme : String) (proof : DepositProof)
    (resource : Js) : Refused DepositGateway :=
  let payer := (proof.payer.or (.str "")).toText
  if payer = "" then refused "X402_NO_PAYER"
  else if cfg.requireSignature then acceptChallenge cfg s now later scheme payer proof resource
  else .ok s

/-- The end of a payer's queue. -/
def enqueue (s : DepositGateway) (payer : String) (c : DepositCall) : DepositGateway :=
  { s with queues := Function.update s.queues payer (s.queues payer ++ [c]) }

/-- `verifyDeposit` up to the lock of its payer. -/
def verifyDeposit (s : DepositGateway) (now later : ℚ) (call : ℕ) (proof : DepositProof)
    (resource : Js) : DepositGateway :=
  match admitProof cfg s now later "xchain-deposit" proof resource with
  | .error code => s.deny call code
  | .ok s' => enqueue s' (proof.payer.or (.str "")).toText ⟨call, resource⟩

/-- `verifyDispenser` up to its first await; it uses up challenges as well. -/
def verifyDispenser (s : DepositGateway) (now later : ℚ) (call : ℕ) (proof : DepositProof)
    (resource : Js) : DepositGateway :=
  match admitProof cfg s now later "xchain-dispenser" proof resource with
  | .error code => s.deny call code
  | .ok s' => s'

/-- One event of a gateway. -/
inductive DepositOp where
  /-- a call of `verifyDeposit`; the clock is read again when its challenge is consumed -/
  | verifyDeposit (call : ℕ) (proof : DepositProof) (resource : Js) (later : ℚ)
  | verifyDispenser (call : ℕ) (proof : DepositProof) (resource : Js) (later : ℚ)
  /-- a page for the call that holds the lock of the payer; `none` is a rejection -/
  | page (payer : String) (res : Option Js) (outcome : LedgerWrite)
  | restart (secret : String)

/-- The last time that an event reads off the clock. -/
def DepositOp.until (now : ℚ) : DepositOp → ℚ
  | verifyDeposit _ _ _ later | verifyDispenser _ _ _ later => later
  | _ => now

/-- One event, without the clock. -/
def depositOp (s : DepositGateway) (now : ℚ) : DepositOp → DepositGateway
  | .verifyDeposit call proof resource later => verifyDeposit cfg s now later call proof resource
  | .verifyDispenser call proof resource later =>
    verifyDispenser cfg s now later call proof resource
  | .page payer res outcome => depositPage H cfg s now payer res outcome
  | .restart secret => s.restart secret

/-- One event. -/
def depositStep (s : DepositGateway) (event : ℚ × DepositOp) : DepositGateway :=
  { depositOp H cfg s event.1 event.2 with clock := event.2.until event.1 }

/-- A run from a process without ledgers. -/
def depositRun (secret : String) (events : List (ℚ × DepositOp)) : DepositGateway :=
  events.foldl (depositStep H cfg) (.empty secret)

end Debits

end XChainSdk
