import XChainSdk.Lib.Checks
import XChainSdk.Lib.Dict
import XChainSdk.X402.Amounts

/-!
# The paying side

A server answers 402 and names an amount, a token and a payee; the client pays within the ceiling
that its caller set, and presents the payment until the server accepts it.

* `parseCeiling`, `checkOffer` : what may be paid.
* `PayerWorld` : everything around the client: the server, the session that pays, the signer.
* `fetchUrl` : one call, with the payments that it broadcast.
* `Settled` : the call ends with an answer, or with an error that names the payment and can be
  resumed.
* `fetchUrl_settled_iff` : **the calls that pay at most once and lose no payment** are those whose
  failures after the payment name it.
-/

namespace XChainSdk

open Js

/-! ### The ceiling -/

/-- What the client throws itself, and what it passes on. -/
inductive X402Failure where
  | x402 (code message : String) (details : Js)
  | foreign (err : Js)

/-- The spend ceiling; no ceiling at all is `none`. -/
inductive Ceiling where
  /-- a ceiling for each token, by its upper-case name -/
  | perTick (amounts : Dict String String)
  /-- one ceiling for whatever token is named -/
  | any (amount : String)

section Ceiling

variable (H : Host) (M : MathJs)

/-- One entry of a ceiling per token. -/
def addCeiling (amounts : Dict String String) (e : String × Js) :
    Except X402Failure (Dict String String) :=
  if isPosNum M e.2.toText then .ok (amounts.set (H.toUpperCase e.1) e.2.toText)
  else .error (.x402 "X402_CONFIG" ("maxAmount for " ++ e.1 ++ " must be a positive decimal amount")
    (obj [("tick", str e.1), ("amount", e.2)]))

/-- `options.allowUnbounded === true || m === 'unbounded' || m === Infinity`. -/
def isUnbounded (options : Js) : Bool :=
  match options.field "allowUnbounded", options.field "maxAmount" with
  | .bool true, _ => true
  | _, str "unbounded" => true
  | _, num (.inf false) => true
  | _, _ => false

/-- `parseCeiling` -/
def parseCeiling (options : Js) : Except X402Failure (Option Ceiling) :=
  if isUnbounded options then .ok none
  else
    match options.field "maxAmount" with
    | undefined | null => .ok (some (.perTick Dict.empty))
    | obj entries => (entries.foldlM (addCeiling H M) Dict.empty).map fun d => some (.perTick d)
    | m =>
      if isPosNum M m.toText then .ok (some (.any m.toText))
      else .error (.x402 "X402_CONFIG"
        "maxAmount must be a per-tick map, a positive decimal amount or 'unbounded'"
        (obj [("maxAmount", m)]))

/-- The ceiling for a token. -/
def Ceiling.forTick : Ceiling → String → Option String
  | .perTick amounts, tick => amounts.get? (H.toUpperCase tick)
  | .any amount, _ => some amount

/-- The last entry whose upper-case name is this one. -/
def lastEntry (entries : List (String × Js)) (name : String) : Option (String × Js) :=
  entries.reverse.find? fun e => H.toUpperCase e.1 = name

/-- The ceiling that the options set for a token: the last entry under its name, whatever the case,
or the one amount for every token. -/
def SetFor (options : Js) (tick max : String) : Prop :=
  match options.field "maxAmount" with
  | obj entries => (lastEntry H entries (H.toUpperCase tick)).map (fun e => e.2.toText) = some max
  | m => m.toText = max

/-- The entries that a ceiling per token was read from. -/
theorem addCeiling_spec {entries : List (String × Js)} {amounts : Dict String String}
    (h : entries.foldlM (addCeiling H M) Dict.empty = .ok amounts) (name : String) :
    amounts.get? name = (lastEntry H entries name).map fun e => e.2.toText := by
  revert name
  refine Checks.foldlM_inv (fun pre d => ∀ name, Dict.get? d name =
    (lastEntry H pre name).map fun e => e.2.toText) (fun _ => rfl) ?_ h
  intro pre e d d' hd hstep name
  unfold addCeiling at hstep
  split_ifs at hstep
  cases hstep
  rw [Dict.get?_set, hd name, lastEntry, lastEntry, List.reverse_append, List.reverse_singleton,
    List.singleton_append, List.find?_cons]
  by_cases hname : name = H.toUpperCase e.1
  · simp [hname]
  · simp [hname, Ne.symm hname]

/-- What a ceiling was read from. -/
theorem parseCeiling_spec {options : Js} {ceiling : Option Ceiling}
    (h : parseCeiling H M options = .ok ceiling) :
    (ceiling = none ∧ isUnbounded options = true) ∨ ∃ c, ceiling = some c ∧
      ∀ tick max, c.forTick H tick = some max → SetFor H options tick max := by
  unfold parseCeiling at h
  by_cases hunbounded : isUnbounded options = true
  · rw [if_pos hunbounded, Except.ok.injEq] at h
    exact .inl ⟨h.symm, hunbounded⟩
  · rw [if_neg hunbounded] at h
    refine .inr ?_
    cases hm : options.field "maxAmount" with
    | undefined =>
      simp only [hm, Except.ok.injEq] at h
      exact ⟨_, h.symm, fun _ _ hget => nomatch hget⟩
    | null =>
      simp only [hm, Except.ok.injEq] at h
      exact ⟨_, h.symm, fun _ _ hget => nomatch hget⟩
    | obj entries =>
      simp only [hm] at h
      cases hfold : entries.foldlM (addCeiling H M) Dict.empty with
      | error e => simp [hfold, Except.map] at h
      | ok amounts =>
        rw [hfold] at h
        cases h
        refine ⟨_, rfl, fun tick max hget => ?_⟩
        rw [SetFor, hm]
        exact (addCeiling_spec H M hfold _).symm.trans hget
    | _ =>
      simp only [hm] at h
      split_ifs at h
      cases h
      refine ⟨_, rfl, fun tick max hget => ?_⟩
      rw [SetFor, hm]
      exact Option.some.inj hget

/-! ### Offers -/

/-- `typeof x === 'string' && x`. -/
def isNonemptyText (x : Js) : Bool :=
  match x with
  | str s => decide (s ≠ "")
  | _ => false

/-- `checkOffer`: the offer is well formed and within the ceiling for its token. -/
def checkOffer (ceiling : Option Ceiling) (offer : Js) : Except X402Failure Unit :=
  let amount := (offer.field "amount").toText
  let tick := (offer.field "tick").toText
  if !isPosNum M amount || !isNonemptyText (offer.field "tick") || !isNonemptyText (offer.field "payTo") then
    .error (.x402 "X402_BAD_OFFER" "malformed xchain-send offer (amount, tick or payTo)"
      (obj [("offer", offer)]))
  else
    match ceiling with
    | none => .ok ()
    | some c =>
      match c.forTick H tick with
      | none => .error (.x402 "X402_TICK_NOT_ALLOWED" ("offer names " ++ tick ++
          ", which has no maxAmount ceiling; pass maxAmount: \x7b " ++ tick ++
          ": '<amount>' \x7d to pay in it") (obj [("offer", offer)]))
      | some max =>
        match gte M max amount with
        | none => .error (.foreign (obj [("name", str "DecimalError")]))
        | some true => .ok ()
        | some false => .error (.x402 "X402_PRICE_TOO_HIGH" ("offer " ++ amount ++ " " ++ tick ++
            " exceeds maxAmount " ++ max) (obj [("offer", offer)]))

/-- `accepts.find((a) => a.scheme === 'xchain-send') || null`; a nullish element throws. -/
def findScheme : List Js → Option Js
  | [] => some null
  | a :: rest =>
    match a.get "scheme" with
    | none => none
    | some (str "xchain-send") => some a
    | some _ => findScheme rest

/-- `pickScheme` of `(challenge && challenge.accepts) || []`; what is no array throws. -/
def pickScheme (challenge : Js) : Option Js :=
  match (challenge.getIf "accepts").or (arr []) with
  | arr accepts => findScheme accepts
  | _ => none

end Ceiling

/-! ### A call -/

/-- An HTTP answer. -/
structure Reply where
  status : JsNum
  /-- `res.json()` -/
  json : Except Js Js

/-- What a session is asked to pay. -/
structure SendRequest where
  tick : Js
  amount : Js
  destination : Js
  memo : Js
  waitForIndexer : Bool

/-- How a session's `send` ends. -/
inductive SendRun where
  /-- the payment was broadcast, and its txid is the result's -/
  | returned (txid : String)
  /-- it throws, before the payment was broadcast or after -/
  | threw (broadcast : Option String) (err : Js)

/-- Everything around the client. -/
structure PayerWorld where
  /-- the answer to the first request -/
  first : Except Js Reply
  /-- the answers to the requests that carry a proof -/
  retried : ℕ → Except Js Reply
  send : SendRequest → SendRun
  /-- `signForAddress` with the session's key -/
  sign : Js → Except Js Js

/-- A client, with the ceiling that its options set. -/
structure PayerClient (H : Host) (M : MathJs) where
  options : Js
  ceiling : Option Ceiling
  parsed : parseCeiling H M options = .ok ceiling
  maxRetries : ℕ := 40

/-- A payment that is presented to the gateway, which is also what a call resumes from. -/
structure Presented where
  coin : Js
  invoice : Js
  txid : Js
  requireSignature : Js

/-- The descriptor of an ambiguous error. -/
def Presented.resume (p : Presented) : Js :=
  obj [("invoice", p.invoice), ("txid", p.txid), ("coin", p.coin),
    ("requireSignature", .bool p.requireSignature.truthy)]

/-- `ambiguous(url, resumeDesc, cause)` -/
def ambiguousOutcome (url : String) (p : Presented) (cause : Js) : X402Failure :=
  let named := cause.truthy &&
    ((cause.field "code").truthy || (cause.field "message").truthy)
  let because := if cause.truthy && (cause.field "code").truthy then
    " (" ++ (cause.field "code").toText ++ ")" else ""
  .x402 "X402_PAYMENT_AMBIGUOUS"
    ("payment " ++ p.txid.toText ++ " was broadcast but its gateway outcome is unconfirmed" ++
      because ++ "; retry with \x7b resume \x7d to adopt it instead of paying again")
    (obj ([("txid", p.txid), ("paid", .bool true), ("resource", str url), ("resume", p.resume)] ++
      if named then [("cause", (cause.field "code").or (cause.field "message"))] else []))

variable (url : String) {H : Host} {M : MathJs}

/-- The requests that carry the proof, until one is not answered 402. -/
def presentLoop (W : PayerWorld) (p : Presented) : ℕ → ℕ → Except X402Failure Reply
  | 0, _ => .error (ambiguousOutcome url p undefined)
  | n + 1, attempt =>
    match W.retried attempt with
    | .error err => .error (.foreign err)
    | .ok res => if res.status ≠ .fin 402 then .ok res else presentLoop W p n (attempt + 1)

/-- The requests of a presentation, with the headers of `init`, which throw when it is `null`. -/
def presentHeaders (C : PayerClient H M) (W : PayerWorld) (init : Js) (p : Presented) :
    Except X402Failure Reply :=
  match init.get "headers" with
  | none => .error (.foreign (obj [("name", str "TypeError")]))
  | some _ => presentLoop url W p C.maxRetries 0

/-- `presentPayment` -/
def presentPayment (C : PayerClient H M) (W : PayerWorld) (init : Js) (p : Presented) :
    Except X402Failure Reply :=
  if p.requireSignature.truthy then
    match W.sign p.invoice with
    | .error err => .error (.foreign err)
    | .ok _ => presentHeaders url C W init p
  else presentHeaders url C W init p

/-- A payment that a call broadcast. -/
structure BroadcastPayment where
  request : SendRequest
  txid : String

/-- A call that ended, with the payments that it broadcast. -/
structure CallEnd where
  paid : List BroadcastPayment
  result : Except X402Failure Reply

/-- The offer of the first answer that the client may pay; `error` is a call that ends without
paying. -/
def acceptedOffer (C : PayerClient H M) (W : PayerWorld) :
    Except (Except X402Failure Reply) Js :=
  match W.first with
  | .error err => .error (.error (.foreign err))
  | .ok res =>
    if res.status ≠ .fin 402 then .error (.ok res)
    else
      match res.json with
      | .error err => .error (.error (.foreign err))
      | .ok challenge =>
        match pickScheme challenge with
        | none => .error (.error (.foreign (obj [("name", str "TypeError")])))
        | some offer =>
          if !offer.truthy then
            .error (.error (.x402 "X402_NO_USABLE_SCHEME" "no xchain-send offer in challenge"
              (obj [("accepts", (challenge.getIf "accepts").or (arr []))])))
          else
            match checkOffer H M C.ceiling offer with
            | .error e => .error (.error e)
            | .ok () => .ok offer

/-- What the session is asked to pay for an offer. -/
def sendRequest (offer : Js) : SendRequest where
  tick := offer.field "tick"
  amount := offer.field "amount"
  destination := offer.field "payTo"
  memo := offer.field "invoice"
  waitForIndexer := !decide ((offer.field "minConfirmations").toNumber = .fin 0)

/-- The payment of an offer, as it is presented. -/
def offerPayment (offer txid : Js) : Presented :=
  ⟨offer.field "coin", offer.field "invoice", txid, offer.field "requireSignature"⟩

/-- `err && err.details && err.details.txid` -/
def namedTxid (err : Js) : Js := (err.getIf "details").getIf "txid"

/-- The part of `fetchUrl` that pays. -/
def payOffer (C : PayerClient H M) (W : PayerWorld) (init offer : Js) : CallEnd :=
  let request := sendRequest offer
  match W.send request with
  | .threw broadcast err =>
    ⟨(broadcast.map fun txid => ⟨request, txid⟩).toList,
      .error (if (namedTxid err).truthy then
        ambiguousOutcome url (offerPayment offer (namedTxid err)) err else .foreign err)⟩
  | .returned txid => ⟨[⟨request, txid⟩], presentPayment url C W init (offerPayment offer (str txid))⟩

/-- `init = {}` of a call without one. -/
def defaultInit : Js → Js
  | undefined => obj []
  | init => init

/-- `fetchUrl` -/
def fetchUrl (C : PayerClient H M) (W : PayerWorld) (init resume : Js) : CallEnd :=
  if resume.truthy then
    if !(resume.field "invoice").truthy || !(resume.field "txid").truthy then
      ⟨[], .error (.x402 "X402_CONFIG" "resume requires \x7b invoice, txid \x7d" (obj []))⟩
    else
      -- no fresh challenge and no payment
      ⟨[], presentPayment url C W (defaultInit init) ⟨resume.field "coin",
        resume.field "invoice", resume.field "txid",
        .bool (resume.field "requireSignature").truthy⟩⟩
  else
    match acceptedOffer C W with
    | .error result => ⟨[], result⟩
    | .ok offer => payOffer url C W (defaultInit init) offer

/-! ### No payment is lost -/

section Settled

variable (C : PayerClient H M) (W : PayerWorld) (init : Js)

/-- A payment within the ceiling that the caller set for its token. -/
def Allows (request : SendRequest) : Prop :=
  isUnbounded C.options = true ∨ ∃ max, SetFor H C.options request.tick.toText max ∧
    gte M max request.amount.toText = some true

/-- A descriptor that a call adopts the payment from. -/
def Resumes (resume : Js) (txid : String) : Prop :=
  resume.truthy = true ∧ (resume.field "invoice").truthy = true ∧ resume.field "txid" = str txid ∧
    txid ≠ ""

/-- An ambiguous outcome that names the payment and can be resumed. -/
def Recoverable (txid : String) : X402Failure → Prop
  | .x402 code _ details => code = "X402_PAYMENT_AMBIGUOUS" ∧ details.field "txid" = str txid ∧
      Resumes (details.field "resume") txid
  | .foreign _ => False

/-- At most one payment, within its ceiling, that ends with an answer or can be resumed. -/
structure Settled (e : CallEnd) : Prop where
  once : e.paid.length ≤ 1
  allowed : ∀ p ∈ e.paid, Allows C p.request
  ended : ∀ p ∈ e.paid, (∃ res, e.result = .ok res ∧ res.status ≠ .fin 402) ∨
    ∃ f, e.result = .error f ∧ Recoverable p.txid f

/-- The request with this number is answered 402 again. -/
def RetryRefused (k : ℕ) : Prop := ∃ res, W.retried k = .ok res ∧ res.status = .fin 402

/-- The presentation of a payment fails in no other way than by running out of attempts, and then
the payment has an invoice to resume with. -/
structure Presents (invoice txid requireSignature : Js) : Prop where
  signs : requireSignature.truthy = true → ∃ s, W.sign invoice = .ok s
  headers : init ≠ null
  answered : ∀ k < C.maxRetries, (∀ j < k, RetryRefused W j) → ∃ res, W.retried k = .ok res
  resumes : (∀ k < C.maxRetries, RetryRefused W k) → invoice.truthy = true ∧ txid.truthy = true

/-- What goes wrong after a payment was broadcast still names it. -/
def QuoteCovered (offer : Js) : SendRun → Prop
  | .returned txid =>
    Presents C W init (offer.field "invoice") (str txid) (offer.field "requireSignature")
  | .threw none _ => True
  | .threw (some txid) err => namedTxid err = str txid ∧ txid ≠ "" ∧
      (offer.field "invoice").truthy = true

variable {C W init} {url : String}

/-- A resumed call never pays. -/
theorem paid_of_resume (url : String) (C : PayerClient H M) (W : PayerWorld) (init : Js)
    {resume : Js} (h : resume.truthy = true) : (fetchUrl url C W init resume).paid = [] := by
  rw [fetchUrl, if_pos h]
  split <;> rfl

/-- The error of a payment that has an invoice can be recovered from. -/
theorem recoverable_ambiguous {p : Presented} {cause : Js} {txid : String} :
    Recoverable txid (ambiguousOutcome url p cause) ↔
      p.txid = str txid ∧ txid ≠ "" ∧ p.invoice.truthy = true := by
  constructor
  · rintro ⟨-, htxid, -, hinvoice, -, hne⟩
    exact ⟨htxid, hne, hinvoice⟩
  · rintro ⟨htxid, hne, hinvoice⟩
    exact ⟨rfl, htxid, rfl, hinvoice, htxid, hne⟩

/-- How the loop ends. -/
theorem presentLoop_cases (url : String) (W : PayerWorld) (p : Presented) (n attempt : ℕ) :
    (∃ res, presentLoop url W p n attempt = .ok res ∧ res.status ≠ .fin 402 ∧
      ∃ k < n, W.retried (attempt + k) = .ok res ∧ ∀ j < k, RetryRefused W (attempt + j)) ∨
    (presentLoop url W p n attempt = .error (ambiguousOutcome url p undefined) ∧
      ∀ k < n, RetryRefused W (attempt + k)) ∨
    ∃ err, presentLoop url W p n attempt = .error (.foreign err) ∧
      ∃ k < n, W.retried (attempt + k) = .error err ∧ ∀ j < k, RetryRefused W (attempt + j) := by
  induction n generalizing attempt with
  | zero => exact .inr (.inl ⟨rfl, fun k hk => absurd hk (Nat.not_lt_zero k)⟩)
  | succ n ih =>
    cases hreply : W.retried attempt with
    | error err =>
      refine .inr (.inr ⟨err, ?_, 0, Nat.succ_pos n, hreply, fun j hj => absurd hj (Nat.not_lt_zero j)⟩)
      rw [presentLoop, hreply]
    | ok res =>
      by_cases hstatus : res.status = .fin 402
      · -- refused: the rest of the loop decides
        have hloop : presentLoop url W p (n + 1) attempt = presentLoop url W p n (attempt + 1) := by
          rw [presentLoop, hreply]
          exact if_neg (not_not.2 hstatus)
        have hrefused : ∀ k, (∀ j < k, RetryRefused W (attempt + 1 + j)) →
            ∀ j < k + 1, RetryRefused W (attempt + j) := by
          intro k hk j hj
          cases j with
          | zero => exact ⟨res, hreply, hstatus⟩
          | succ j =>
            have := hk j (by omega)
            rwa [Nat.add_right_comm] at this
        rw [hloop]
        rcases ih (attempt + 1) with ⟨r, hr, hne, k, hk, hget, hall⟩ | ⟨hr, hall⟩ |
          ⟨err, hr, k, hk, hget, hall⟩
        · refine .inl ⟨r, hr, hne, k + 1, by omega, ?_, hrefused k hall⟩
          rw [← hget, Nat.add_right_comm, Nat.add_assoc]
        · exact .inr (.inl ⟨hr, hrefused n hall⟩)
        · refine .inr (.inr ⟨err, hr, k + 1, by omega, ?_, hrefused k hall⟩)
          rw [← hget, Nat.add_right_comm, Nat.add_assoc]
      · refine .inl ⟨res, ?_, hstatus, 0, Nat.succ_pos n, hreply,
          fun j hj => absurd hj (Nat.not_lt_zero j)⟩
        rw [presentLoop, hreply]
        exact if_pos hstatus

/-- A presentation ends well exactly when its failures are covered. -/
theorem presentPayment_iff {p : Presented} {txid : String} (htxid : p.txid = str txid) :
    ((∃ res, presentPayment url C W (defaultInit init) p = .ok res ∧ res.status ≠ .fin 402) ∨
      ∃ f, presentPayment url C W (defaultInit init) p = .error f ∧ Recoverable txid f) ↔
      Presents C W init p.invoice p.txid p.requireSignature := by
  have hnever : ∀ k < C.maxRetries, ∀ res, W.retried k = .ok res → res.status ≠ .fin 402 →
      ¬ ∀ k < C.maxRetries, RetryRefused W k := by
    intro k hk res hres hne hall
    obtain ⟨res', hres', h402⟩ := hall k hk
    cases hres.symm.trans hres'
    exact hne h402
  -- The loop ends on an answer, on retries that were all refused, or on a fetch that throws.
  have hloop : ((∃ res, presentLoop url W p C.maxRetries 0 = .ok res ∧ res.status ≠ .fin 402) ∨
      ∃ f, presentLoop url W p C.maxRetries 0 = .error f ∧ Recoverable txid f) ↔
      (∀ k < C.maxRetries, (∀ j < k, RetryRefused W j) → ∃ res, W.retried k = .ok res) ∧
        ((∀ k < C.maxRetries, RetryRefused W k) → p.invoice.truthy = true ∧ p.txid.truthy = true) := by
    rcases presentLoop_cases url W p C.maxRetries 0 with
      ⟨res, hres, hne, k, hk, hget, hall⟩ | ⟨hres, hall⟩ | ⟨err, hres, k, hk, hget, hall⟩
    · simp only [Nat.zero_add] at hget hall
      refine ⟨fun _ => ⟨?_, fun h => absurd h (hnever k hk res hget hne)⟩,
        fun _ => .inl ⟨res, hres, hne⟩⟩
      intro j hj hbefore
      -- Rounds before the answered one were refused, and it is the last one made.
      rcases lt_trichotomy j k with hlt | rfl | hgt
      · obtain ⟨r, hr, -⟩ := hall j hlt
        exact ⟨r, hr⟩
      · exact ⟨res, hget⟩
      · obtain ⟨r, hr, h402⟩ := hbefore k hgt
        cases hget.symm.trans hr
        exact absurd h402 hne
    · simp only [Nat.zero_add] at hall
      rw [hres]
      simp only [reduceCtorEq, false_and, exists_false, false_or, Except.error.injEq,
        exists_eq_left', recoverable_ambiguous]
      constructor
      · rintro ⟨-, hne, hinvoice⟩
        refine ⟨fun k hk _ => ?_, fun _ => ⟨hinvoice, ?_⟩⟩
        · obtain ⟨r, hr, -⟩ := hall k hk
          exact ⟨r, hr⟩
        · rw [htxid]
          simpa [truthy] using hne
      · rintro ⟨-, h⟩
        obtain ⟨hinvoice, htruthy⟩ := h hall
        refine ⟨htxid, ?_, hinvoice⟩
        rw [htxid] at htruthy
        simpa [truthy] using htruthy
    · simp only [Nat.zero_add] at hget hall
      rw [hres]
      refine ⟨?_, fun h => ?_⟩
      · rintro (⟨res, h, -⟩ | ⟨f, h, hf⟩)
        · cases h
        · cases h
          cases hf
      · obtain ⟨res, hok⟩ := h.1 k hk hall
        cases hget.symm.trans hok
  -- A foreign error carries no txid, so nothing resumes after it.
  have hthrows : ∀ err : Js, ¬((∃ res, (.error (.foreign err) : Except X402Failure Reply) = .ok res ∧
      res.status ≠ .fin 402) ∨ ∃ f, (.error (.foreign err) : Except X402Failure Reply) = .error f ∧
        Recoverable txid f) := by
    rintro err (⟨res, h, -⟩ | ⟨f, h, hf⟩)
    · cases h
    · cases h
      cases hf
  -- `init.headers` is read before any retry: a null `init` throws there.
  have hheaders : ((∃ res, presentHeaders url C W (defaultInit init) p = .ok res ∧
      res.status ≠ .fin 402) ∨ ∃ f, presentHeaders url C W (defaultInit init) p = .error f ∧
        Recoverable txid f) ↔ init ≠ null ∧
      (∀ k < C.maxRetries, (∀ j < k, RetryRefused W j) → ∃ res, W.retried k = .ok res) ∧
        ((∀ k < C.maxRetries, RetryRefused W k) → p.invoice.truthy = true ∧ p.txid.truthy = true) := by
    rw [presentHeaders]
    by_cases hinit : init = null
    · rw [hinit]
      exact ⟨fun h => absurd h (hthrows _), fun h => absurd rfl h.1⟩
    · have hget : ∃ headers, (defaultInit init).get "headers" = some headers := by
        cases init with
        | null => exact absurd rfl hinit
        | _ => exact ⟨_, rfl⟩
      obtain ⟨headers, hget⟩ := hget
      rw [hget, hloop]
      exact (and_iff_right hinit).symm
  rw [presentPayment]
  -- The signature is asked for outside every catch.
  by_cases hsign : p.requireSignature.truthy = true
  · rw [if_pos hsign]
    cases hs : W.sign p.invoice with
    | error err =>
      refine ⟨fun h => absurd h (hthrows err), fun h => ?_⟩
      obtain ⟨s, hok⟩ := h.signs hsign
      cases hs.symm.trans hok
    | ok s =>
      exact hheaders.trans ⟨fun h => ⟨fun _ => ⟨s, hs⟩, h.1, h.2.1, h.2.2⟩,
        fun h => ⟨h.headers, h.answered, h.resumes⟩⟩
  · rw [if_neg hsign]
    exact hheaders.trans ⟨fun h => ⟨fun h' => absurd h' hsign, h.1, h.2.1, h.2.2⟩,
      fun h => ⟨h.headers, h.answered, h.resumes⟩⟩

/-- An offer that is accepted is within the ceiling. -/
theorem allows_of_accepted {offer : Js} (h : acceptedOffer C W = .ok offer) :
    Allows C (sendRequest offer) := by
  unfold acceptedOffer at h
  cases hfirst : W.first with
  | error err => simp [hfirst] at h
  | ok res =>
    simp only [hfirst] at h
    obtain ⟨-, h⟩ := Checks.ite_error_eq_ok.1 h
    cases hjson : res.json with
    | error err => simp [hjson] at h
    | ok challenge =>
      simp only [hjson] at h
      cases hpick : pickScheme challenge with
      | none => simp [hpick] at h
      | some picked =>
        simp only [hpick] at h
        obtain ⟨-, h⟩ := Checks.ite_error_eq_ok.1 h
        cases hcheck : checkOffer H M C.ceiling picked with
        | error e => simp [hcheck] at h
        | ok u =>
          simp only [hcheck, Except.ok.injEq] at h
          subst h
          unfold checkOffer at hcheck
          obtain ⟨-, hcheck⟩ := Checks.ite_error_eq_ok.1 hcheck
          rcases parseCeiling_spec H M C.parsed with ⟨-, hunbounded⟩ | ⟨ceiling, hceiling, hset⟩
          · exact .inl hunbounded
          · simp only [hceiling] at hcheck
            cases hmax : ceiling.forTick H (picked.field "tick").toText with
            | none => simp [hmax] at hcheck
            | some max =>
              refine .inr ⟨max, hset _ _ hmax, ?_⟩
              simp only [hmax] at hcheck
              split at hcheck
              · cases hcheck
              · assumption
              · cases hcheck

/-- A payment ends well exactly when the failures after it name it. -/
theorem settled_payOffer_iff (url : String) (W : PayerWorld) (init : Js) {offer : Js}
    (hallowed : Allows C (sendRequest offer)) :
    Settled C (payOffer url C W (defaultInit init) offer) ↔
      QuoteCovered C W init offer (W.send (sendRequest offer)) := by
  -- what is left of `Settled` once the only payment is within its ceiling
  have hone : ∀ (txid : String) (result : Except X402Failure Reply),
      Settled C ⟨[⟨sendRequest offer, txid⟩], result⟩ ↔
        (∃ res, result = .ok res ∧ res.status ≠ .fin 402) ∨
          ∃ f, result = .error f ∧ Recoverable txid f := by
    intro txid result
    refine ⟨fun h => h.ended _ (.head _), fun h => ⟨le_rfl, ?_, ?_⟩⟩
    · intro p hp
      rw [List.mem_singleton.1 hp]
      exact hallowed
    · intro p hp
      rw [List.mem_singleton.1 hp]
      exact h
  rw [payOffer]
  cases hsend : W.send (sendRequest offer) with
  | returned txid => exact (hone txid _).trans (presentPayment_iff rfl)
  | threw broadcast err =>
    cases broadcast with
    | none => exact ⟨fun _ => trivial, fun _ => ⟨by simp, by simp, by simp⟩⟩
    | some txid =>
      refine (hone txid _).trans ?_
      simp only [reduceCtorEq, false_and, exists_false, false_or, Except.error.injEq,
        exists_eq_left']
      by_cases hnamed : (namedTxid err).truthy = true
      · rw [if_pos hnamed, recoverable_ambiguous]
        rfl
      · rw [if_neg hnamed]
        refine ⟨fun h => h.elim, ?_⟩
        rintro ⟨htxid, hne, -⟩
        rw [htxid] at hnamed
        exact absurd (by simpa [truthy] using hne) hnamed

/-- **Which calls lose no payment.**  A call pays at most once, within the ceiling for the token
that it pays, and not at all when it resumes; and the payment it broadcast ends with an answer or
with an error to resume from exactly when each failure after the payment names it. -/
theorem fetchUrl_settled_iff (url : String) (H : Host) (M : MathJs) (C : PayerClient H M)
    (W : PayerWorld) (init resume : Js) :
    (Settled C (fetchUrl url C W init resume) ∧
      (resume.truthy = true → (fetchUrl url C W init resume).paid = [])) ↔
    (resume.truthy = false → ∀ offer, acceptedOffer C W = .ok offer →
      QuoteCovered C W init offer (W.send (sendRequest offer))) := by
  have hunpaid : ∀ result, Settled C ⟨[], result⟩ := fun result => ⟨by simp, by simp, by simp⟩
  by_cases hresume : resume.truthy = true
  · have hpaid := paid_of_resume url C W init hresume
    have hend : Settled C (fetchUrl url C W init resume) := by
      have := hunpaid (fetchUrl url C W init resume).result
      rwa [← hpaid] at this
    exact ⟨fun _ h => absurd hresume (by simp [h]), fun _ => ⟨hend, fun _ => hpaid⟩⟩
  · rw [fetchUrl, if_neg hresume]
    have hfalse : resume.truthy = false := by simpa using hresume
    cases haccepted : acceptedOffer C W with
    | error result =>
      exact ⟨fun _ _ offer h => (nomatch h), fun _ => ⟨hunpaid result, fun h => absurd h hresume⟩⟩
    | ok offer =>
      have hiff := settled_payOffer_iff url W init (allows_of_accepted haccepted)
      constructor
      · rintro ⟨h, -⟩ - _ heq
        cases heq
        exact hiff.1 h
      · intro h
        exact ⟨hiff.2 (h hfalse offer rfl), fun h => absurd h hresume⟩

/-! ### A lost answer -/

/-- An offer of 5 of a token, without a signature. -/
def sampleOffer : Js :=
  obj [("scheme", str "xchain-send"), ("amount", str "5"), ("tick", str "TOK"),
    ("payTo", str "payee"), ("invoice", str "nonce"), ("coin", str "BTC"),
    ("minConfirmations", num (.fin 0))]

/-- The payment is broadcast, and the connection is reset when it is presented. -/
def lostAnswer : PayerWorld where
  first := .ok ⟨.fin 402, .ok (obj [("accepts", arr [sampleOffer])])⟩
  retried _ := .error (obj [("name", str "TypeError"), ("message", str "fetch failed")])
  send _ := .returned "txid-1"
  sign _ := .ok (str "signature")

/-- Up to 10 of the token. -/
def tokenClient : PayerClient plainHost plainMath where
  options := obj [("maxAmount", obj [("TOK", str "10")])]
  ceiling := some (.perTick (Dict.empty.set "TOK" "10"))
  parsed := by
    have hten : isPosNum plainMath "10" = true := by decide +kernel
    have hadd : addCeiling plainHost plainMath Dict.empty ("TOK", str "10") =
        .ok (Dict.empty.set "TOK" "10") := by
      rw [addCeiling, if_pos (by simpa using hten)]
      rfl
    have hfold : [("TOK", str "10")].foldlM (addCeiling plainHost plainMath) Dict.empty =
        .ok (Dict.empty.set "TOK" "10") := by
      rw [List.foldlM_cons, hadd]
      rfl
    rw [parseCeiling, if_neg (by decide)]
    change ([("TOK", str "10")].foldlM (addCeiling plainHost plainMath) Dict.empty).map _ = _
    rw [hfold]
    rfl

/-- **A payment whose presentation meets a reset connection is lost**: the error that ends the call
does not name it. -/
theorem lostAnswer_not_settled :
    ¬ Settled tokenClient
      (fetchUrl "http://x/r" tokenClient lostAnswer undefined undefined) := by
  have hcheck : checkOffer plainHost plainMath tokenClient.ceiling sampleOffer = .ok () := by
    have hok : (checkOffer plainHost plainMath tokenClient.ceiling sampleOffer).isOk = true := by
      decide +kernel
    cases h : checkOffer plainHost plainMath tokenClient.ceiling sampleOffer with
    | ok u => rfl
    | error e => rw [h] at hok; cases hok
  have hpick : pickScheme (obj [("accepts", arr [sampleOffer])]) = some sampleOffer := rfl
  have haccepted : acceptedOffer tokenClient lostAnswer = .ok sampleOffer := by
    simp only [acceptedOffer, lostAnswer, hpick, hcheck]
    rfl
  have hrun : fetchUrl "http://x/r" tokenClient lostAnswer undefined undefined =
      ⟨[⟨sendRequest sampleOffer, "txid-1"⟩], .error (.foreign
        (obj [("name", str "TypeError"), ("message", str "fetch failed")]))⟩ := by
    rw [fetchUrl, if_neg (by simp [truthy]), haccepted]
    rfl
  rw [hrun]
  intro h
  rcases h.ended _ (.head _) with ⟨res, hres, -⟩ | ⟨f, hf, hrec⟩
  · cases hres
  · cases hf
    exact hrec

end Settled

end XChainSdk
