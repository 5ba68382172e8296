import Mathlib
import XChainSdk.Lib.Checks
import XChainSdk.Lib.Runs
import XChainSdk.X402.DepositLedger

/-!
# Debits are exact and challenges are used once

In every run whose clock does not go back, the recorded spend of a ledger is the exact sum of its
entries, no debit takes it above the confirmed deposits that the call saw, every call that returned
ok has one entry, and no challenge token is accepted twice, if four things hold: the sums have at
most as many digits as the decimal package keeps, the pages of a lookup show no deposit twice, a
challenge that was used before is not consumed at or after its expiry, and a process that starts
anew rejects the challenges that were used before it.

* `ConfirmedDeposit`, `CoveredBy` : a deposit of a payer, and a spend within distinct deposits.
* `LedgerInv` : the invariant of the files.
* `ChallengeInv` : a used challenge is remembered as long as it passes the checks.
* `debitLedger_spec` : what a debit writes.
* `depositsSafe_of_meets` : the safety of a run.
-/

namespace XChainSdk

/-! ### Confirmed deposits -/

/-- A plain decimal of digits, with digits after its point if it has one, and its value. -/
def PlainDecimal (s : String) (q : ℚ) : Prop :=
  ∃ ip fs, AllDigits ip ∧ ip ≠ [] ∧ AllDigits fs ∧ s.toList = pointText ip fs ∧
    q = (digitsValue (ip ++ fs) : ℚ) / 10 ^ fs.length

theorem PlainDecimal.decimalText {s : String} {q : ℚ} (h : PlainDecimal s q) :
    decimalText s = some q := by
  obtain ⟨ip, fs, hip, hne, hfs, hs, rfl⟩ := h
  rw [← String.ofList_toList (s := s), hs, decimalText_pointText hip hne hfs]

theorem exists_plainDecimal {s : String} (h : isNonNegativeDecimal s = true) :
    ∃ q, PlainDecimal s q := by
  obtain ⟨ip, fs, hip, hne, hfs, hs⟩ := isNonNegativeDecimal_iff.1 h
  exact ⟨_, ip, fs, hip, hne, hfs, hs, rfl⟩

section Deposits

variable (H : Host) {B : BignumberJs} (cfg : DepositScheme B)

/-- A row of the sends to the deposit address shows a confirmed deposit of a payer: it names the
payer as its source and the token of the scheme, in letters of any case, it is not said to be other
than valid, and its amount is a plain decimal above zero. -/
structure ConfirmedDeposit (payer : String) (row : Js) (q : ℚ) : Prop where
  source : row.field "source" = .str payer
  tick : H.toUpperCase (row.field "tick").toText = cfg.tick
  status : (row.field "status").truthy = true → H.toLowerCase (row.field "status").toText = "valid"
  amount : PlainDecimal (row.field "amount").toText q
  pos : 0 < q

/-- No two of the rows show one deposit of the payer; `sendOf` tells which send a row shows. -/
def ShownOnce {ι : Type} (sendOf : Js → ι) (payer : String) (rows : List Js) : Prop :=
  rows.Pairwise fun a b => ∀ p q, ConfirmedDeposit H cfg payer a p →
    ConfirmedDeposit H cfg payer b q → sendOf a ≠ sendOf b

/-- A spend is at most the sum of distinct confirmed deposits of the payer among the rows. -/
def CoveredBy {ι : Type} (sendOf : Js → ι) (payer : String) (rows : List Js) (v : ℚ) : Prop :=
  ∃ deposits : List (ι × ℚ), (deposits.map Prod.fst).Nodup ∧
    (∀ d ∈ deposits, ∃ row ∈ rows, sendOf row = d.1 ∧ ConfirmedDeposit H cfg payer row d.2) ∧
    v ≤ (deposits.map Prod.snd).sum

end Deposits

section Sums

variable (H : Host) {B : BignumberJs} (cfg : DepositScheme B)

/-- What a row adds to the deposits of the payer. -/
def depositOf (payer : String) (row : Js) : ℚ :=
  if isDeposit H cfg payer row = some true then (B.value (row.field "amount").toText).getD 0
  else 0

/-- The exact sum of the payer's confirmed deposits among some rows. -/
def depositsSeen (payer : String) (rows : List Js) : ℚ := (rows.map (depositOf H cfg payer)).sum

/-- The exact sum of the entries of a ledger. -/
def entriesTotal (l : DepositLedger) : ℚ :=
  (l.entries.map fun e => (B.value e.amount).getD 0).sum

/-- The numbers that a debit computes have at most as many digits as the package keeps. -/
structure SumsFit (payer : String) (rows : List Js) (spent : ℚ) : Prop where
  deposits : ∀ n, FitsSig BIGNUMBER_PRECISION (depositsSeen H cfg payer (rows.take n))
  available : FitsSig BIGNUMBER_PRECISION (depositsSeen H cfg payer rows - spent)
  spent : ∀ price, B.value cfg.pricePerCall = some price →
    FitsSig BIGNUMBER_PRECISION (spent + price)

variable {H cfg}

theorem isPosNum_eq_true {M : MathJs} {v : String} (h : isPosNum M v = true) :
    ∃ q, M.value v = some q ∧ 0 < q := by
  simp only [isPosNum, Bool.and_eq_true] at h
  obtain ⟨-, h⟩ := h
  split at h
  · next q hq => exact ⟨q, M.value_eq_some.2 hq, by simpa using h⟩
  · cases h

theorem BignumberJs.value_text {q : ℚ} (h : IsDecimal q) : B.value (B.text (.fin q)) = some q :=
  B.value_eq_some.2 (B.bignumber_digits q h)

theorem hasSource_eq_true {payer : String} {row : Js}
    (h : hasSource (some payer) row = some true) : row.field "source" = .str payer := by
  obtain ⟨source, hget, hown⟩ := Option.map_eq_some_iff.1 h
  rw [Js.field, hget, Option.getD_some]
  cases source with
  | str t => simpa using hown
  | _ => simp at hown

/-- A row that is credited shows a confirmed deposit, and is credited its amount. -/
theorem confirmedDeposit_of_isDeposit {payer : String} {row : Js}
    (h : isDeposit H cfg payer row = some true) :
    ConfirmedDeposit H cfg payer row (depositOf H cfg payer row) := by
  obtain ⟨own, hsource, hown⟩ := Option.map_eq_some_iff.1 h
  simp only [Bool.and_eq_true, decide_eq_true_eq] at hown
  obtain ⟨⟨⟨rfl, htick⟩, hvalid⟩, hpos⟩ := hown
  obtain ⟨p, hp, hp0⟩ := isPosNum_eq_true hpos
  have hdec : isNonNegativeDecimal (row.field "amount").toText = true := by
    simp only [isPosNum, Bool.and_eq_true] at hpos
    exact hpos.1
  obtain ⟨q, hq⟩ := exists_plainDecimal hdec
  have hqp : q = p := by
    rw [B.value_decimal hdec, hq.decimalText] at hp
    exact Option.some.inj hp
  have hvalue : depositOf H cfg payer row = q := by
    rw [depositOf, if_pos h, hp, Option.getD_some, hqp]
  refine hvalue ▸ ⟨hasSource_eq_true hsource, htick, fun htruthy => ?_, hq, hqp ▸ hp0⟩
  simpa [isValidRow, htruthy] using hvalid

/-- What is credited is the sum of distinct confirmed deposits, if no deposit is shown twice. -/
theorem coveredBy_depositsSeen {ι : Type} {sendOf : Js → ι} {payer : String} {rows : List Js}
    (h : ShownOnce H cfg sendOf payer rows) :
    CoveredBy H cfg sendOf payer rows (depositsSeen H cfg payer rows) := by
  let credited := rows.filter fun row => isDeposit H cfg payer row == some true
  have hcredited {row : Js} (hrow : row ∈ credited) :
      row ∈ rows ∧ ConfirmedDeposit H cfg payer row (depositOf H cfg payer row) := by
    obtain ⟨hmem, hdep⟩ := List.mem_filter.1 hrow
    exact ⟨hmem, confirmedDeposit_of_isDeposit (by simpa using hdep)⟩
  have hsum : ∀ rows : List Js, depositsSeen H cfg payer rows
      = ((rows.filter fun row => isDeposit H cfg payer row == some true).map
          (depositOf H cfg payer)).sum := by
    intro rows
    induction rows with
    | nil => rfl
    | cons row rows ih =>
      rw [depositsSeen, List.map_cons, List.sum_cons, ← depositsSeen, ih, List.filter_cons]
      by_cases hdep : isDeposit H cfg payer row = some true
      · rw [if_pos (by simp [hdep]), List.map_cons, List.sum_cons]
      · rw [if_neg (by simpa using hdep), depositOf, if_neg hdep, zero_add]
  refine ⟨credited.map fun row => (sendOf row, depositOf H cfg payer row), ?_, fun d hd => ?_, ?_⟩
  · rw [List.map_map, List.Nodup, List.pairwise_map]
    refine ((List.Pairwise.filter _ h).imp_of_mem fun ha hb hab => ?_)
    exact hab _ _ (hcredited ha).2 (hcredited hb).2
  · obtain ⟨row, hrow, rfl⟩ := List.mem_map.1 hd
    exact ⟨row, (hcredited hrow).1, rfl, (hcredited hrow).2⟩
  · rw [List.map_map, hsum rows]
    rfl

/-- Adding a row to the deposits, as long as the sum fits. -/
theorem addDeposit_eq {payer : String} {a : ℚ} {row : Js} {x : JsNum}
    (h : addDeposit H cfg payer (.fin a) row = some x)
    (hfit : FitsSig BIGNUMBER_PRECISION (a + depositOf H cfg payer row)) :
    x = .fin (a + depositOf H cfg payer row) := by
  unfold addDeposit at h
  cases hd : isDeposit H cfg payer row with
  | none => simp [hd] at h
  | some own =>
    cases own with
    | false =>
      rw [hd] at h
      cases h
      simp [depositOf, hd]
    | true =>
      have hpos : isPosNum B.toMathJs (row.field "amount").toText = true := by
        obtain ⟨own, -, hown⟩ := Option.map_eq_some_iff.1 hd
        simp only [Bool.and_eq_true] at hown
        exact hown.2
      obtain ⟨q, hq, -⟩ := isPosNum_eq_true hpos
      have hvalue : depositOf H cfg payer row = q := by
        rw [depositOf, if_pos hd, hq, Option.getD_some]
      rw [hvalue] at hfit ⊢
      simp only [hd, B.value_eq_some.1 hq, Option.bind_eq_bind, Option.bind_some, if_pos, Option.pure_def,
        Option.some.injEq] at h
      rw [← h, JsNum.plus, roundSig_of_fits hfit]

/-- The sum of the deposits is exact when every partial sum fits. -/
theorem foldlM_addDeposit {payer : String} {rows : List Js} {a : ℚ} {x : JsNum}
    (h : rows.foldlM (addDeposit H cfg payer) (.fin a) = some x)
    (hfit : ∀ n, FitsSig BIGNUMBER_PRECISION (a + depositsSeen H cfg payer (rows.take n))) :
    x = .fin (a + depositsSeen H cfg payer rows) := by
  induction rows generalizing a with
  | nil =>
    cases h
    simp [depositsSeen]
  | cons row rows ih =>
    rw [List.foldlM_cons] at h
    obtain ⟨y, hy, hrest⟩ := Option.bind_eq_some_iff.1 h
    have hhead := hfit 1
    simp only [depositsSeen, List.take_succ_cons, List.take_zero, List.map_cons, List.map_nil,
      List.sum_cons, List.sum_nil, add_zero] at hhead
    rw [addDeposit_eq hy hhead] at hrest
    have hx := ih hrest fun n => by
      have := hfit (n + 1)
      simpa only [depositsSeen, List.take_succ_cons, List.map_cons, List.sum_cons, ← add_assoc]
        using this
    rw [hx]
    simp [depositsSeen, add_assoc]

/-- A debit adds one entry at the price of a call, records the exact spend, and stays within the
deposits that it saw. -/
theorem debitLedger_spec {now : ℚ} {number : ℕ} {payer : String} {resource : Js} {rows : List Js}
    {l : DepositLedger} {d : Debited} {v : ℚ}
    (h : debitLedger H cfg now number payer resource rows l = .ok d)
    (hspent : B.value l.spent = some v) (hfit : SumsFit H cfg payer rows v) :
    ∃ price, B.value cfg.pricePerCall = some price ∧
      d.ledger.entries = l.entries ++ [⟨number, now, cfg.pricePerCall, resource.or .null⟩] ∧
      B.value d.ledger.spent = some (v + price) ∧ v + price ≤ depositsSeen H cfg payer rows := by
  have horThrown {α : Type} {o : Option α} {a : α} : orThrown o = .ok a ↔ o = some a := by
    cases o <;> simp [orThrown]
  obtain ⟨price, hprice, -⟩ := isPosNum_eq_true cfg.positive
  simp only [debitLedger, Checks.bind_eq_ok, horThrown, B.value_eq_some.1 hspent,
    B.value_eq_some.1 hprice, Option.some.injEq, exists_eq_left'] at h
  obtain ⟨deposited, hdep, enough, hgte, hrest⟩ := h
  have hdeposited := foldlM_addDeposit hdep (by simpa using hfit.deposits)
  rw [zero_add] at hdeposited
  have havail : deposited.minus (.fin v) = .fin (depositsSeen H cfg payer rows - v) := by
    rw [hdeposited, JsNum.minus, JsNum.plus, ← sub_eq_add_neg, roundSig_of_fits hfit.available]
  have hdec : IsDecimal (depositsSeen H cfg payer rows - v) := by
    rw [← roundSig_of_fits hfit.available]
    exact isDecimal_roundSig _ _
  rw [havail] at hgte
  simp only [gte, BignumberJs.text, B.bignumber_digits _ hdec, B.value_eq_some.1 hprice,
    Option.bind_eq_bind, Option.bind_some, Option.pure_def, Option.some.injEq] at hgte
  cases enough with
  | false => simp [refused] at hrest
  | true =>
    cases hrest
    have hsum := hfit.spent price hprice
    refine ⟨price, hprice, rfl, ?_, ?_⟩
    · rw [JsNum.plus, roundSig_of_fits hsum]
      refine BignumberJs.value_text ?_
      rw [← roundSig_of_fits hsum]
      exact isDecimal_roundSig _ _
    · have hle : price ≤ depositsSeen H cfg payer rows - v := by simpa [JsNum.le] using hgte
      linarith

end Sums

section Safety

variable (H : Host) {B : BignumberJs} (cfg : DepositScheme B) {ι : Type} (sendOf : Js → ι)

/-- The rows that the call at the head of the payer's queue debits on, if this page is its last. -/
def rowsAtDebit (s : DepositGateway) (payer : String) (res : Option Js) : Option (List Js) :=
  match s.queues payer, res with
  | _ :: _, some res =>
    let batch := (res.getIf "data").elems
    let rows := (s.fetched payer).rows ++ batch
    if isLastPage res (s.fetched payer).page batch rows then some rows else none
  | _, _ => none

/-- The numbers of the debit that a page leads to fit. -/
def DebitFits (s : DepositGateway) (payer : String) (res : Option Js) : Prop :=
  ∀ rows l v, rowsAtDebit s payer res = some rows →
    readLedger payer (s.files (cfg.ledgerFile payer)) = some l → B.value l.spent = some v →
    SumsFit H cfg payer rows v

/-- The pages that a debit is made on show no deposit of the payer twice. -/
def ReadOnce (s : DepositGateway) (payer : String) (res : Option Js) : Prop :=
  ∀ rows, rowsAtDebit s payer res = some rows → ShownOnce H cfg sendOf payer rows

/-- A challenge that passes its checks carries a text as its nonce, as those that are issued do,
and if it was accepted before it is not consumed at or after its expiry. -/
def ConsumedInTime (s : DepositGateway) (now later : ℚ) (scheme : String) (proof : DepositProof)
    (resource : Js) : Prop :=
  cfg.requireSignature = true → ∀ c,
    checkChallenge cfg s.secret now scheme resource proof.challenge = .ok c →
    (∃ n, c.nonce = .str n) ∧
      (proof.challenge.toText ∈ s.accepted → (JsNum.fin later).lt c.exp = true)

/-- Every challenge accepted so far has expired, or has no right MAC under the secret. -/
def RejectsUsed (s : DepositGateway) (now : ℚ) (secret : String) : Prop :=
  ∀ token ∈ s.accepted, ∀ body, authenticBody cfg secret token = .ok body →
    (body.field "exp").toNumber.le (.fin now) = true

/-- The condition on one event: the clock does not go back, sums fit, no deposit is read twice, used
challenges are not consumed late, and are rejected by the next process. -/
def DepositMeets (s : DepositGateway) (event : ℚ × DepositOp) : Prop :=
  s.clock ≤ event.1 ∧ event.1 ≤ event.2.until event.1 ∧
    match event.2 with
    | .verifyDeposit _ proof resource later =>
      ConsumedInTime cfg s event.1 later "xchain-deposit" proof resource
    | .verifyDispenser _ proof resource later =>
      ConsumedInTime cfg s event.1 later "xchain-dispenser" proof resource
    | .page payer res outcome => DebitFits H cfg s payer res ∧ ReadOnce H cfg sendOf s payer res ∧
      ∀ renamed secret, outcome = .crashed renamed secret → RejectsUsed cfg s event.1 secret
    | .restart secret => RejectsUsed cfg s event.1 secret

/-- What holds of the ledgers in every run. -/
structure LedgerInv (s : DepositGateway) : Prop where
  exact : ∀ path l, s.files path = .ledger l → B.value l.spent = some (entriesTotal (B := B) l)
  owned : ∀ path l, s.files path = .ledger l → ∀ e ∈ l.entries,
    ∃ r, s.debits[e.debit]? = some r ∧ cfg.ledgerFile r.payer = path
  covered : ∀ r ∈ s.debits, ∃ v, B.value r.spent = some v ∧
    CoveredBy H cfg sendOf r.payer r.rows v
  recorded : ∀ i r, s.debits[i]? = some r → ∃ l, s.files (cfg.ledgerFile r.payer) = .ledger l ∧
    (l.entries.filter fun e => e.debit = i).map LedgerEntry.amount = [cfg.pricePerCall]

/-- A page leaves the ledgers as they are, or leads to the debit of the call that it is for. -/
inductive LedgerEffect (s : DepositGateway) (now : ℚ) (payer : String) (res : Option Js)
    (outcome : LedgerWrite) (s' : DepositGateway) : Prop
  | quiet (hfiles : s'.files = s.files) (hdebits : s'.debits = s.debits)
  | debited {rows : List Js} {l : DepositLedger} {d : Debited} {c : DepositCall} {ok : Bool}
      (hrows : rowsAtDebit s payer res = some rows)
      (hread : readLedger payer (s.files (cfg.ledgerFile payer)) = some l)
      (hdebit : debitLedger H cfg now s.debits.length payer c.resource rows l = .ok d)
      (hfiles : s'.files = Function.update s.files (cfg.ledgerFile payer) (.ledger d.ledger))
      (hdebits : s'.debits = s.debits ++ [⟨c.call, payer, rows, d.ledger.spent, ok⟩])
      (hok : ok = true → outcome = .written) (hwrite : outcome ≠ .failed)

variable {H cfg sendOf} {s s' : DepositGateway}

theorem CoveredBy.mono {payer : String} {rows : List Js} {v w : ℚ}
    (h : CoveredBy H cfg sendOf payer rows w) (hvw : v ≤ w) :
    CoveredBy H cfg sendOf payer rows v := by
  obtain ⟨deposits, hnodup, hrows, hsum⟩ := h
  exact ⟨deposits, hnodup, hrows, hvw.trans hsum⟩

theorem debit_effect {now : ℚ} {payer : String} {res : Option Js} {c : DepositCall}
    {waiting : List DepositCall} {rows : List Js} {outcome : LedgerWrite}
    (hrows : rowsAtDebit s payer res = some rows) :
    LedgerEffect H cfg s now payer res outcome
      (debit H cfg s now payer c waiting rows outcome) := by
  unfold debit
  split
  · exact .quiet rfl rfl
  · next d hd =>
    cases hread : readLedger payer (s.files (cfg.ledgerFile payer)) with
    | none => simp [hread, orThrown, Except.bind] at hd
    | some l =>
      have hdebit : debitLedger H cfg now s.debits.length payer c.resource rows l = .ok d := by
        simpa [hread, orThrown, Except.bind] using hd
      cases outcome with
      | written => exact .debited hrows hread hdebit rfl rfl (fun _ => rfl) (by simp)
      | failed => exact .quiet rfl rfl
      | crashed renamed secret =>
        cases renamed with
        | true =>
          exact .debited hrows hread hdebit rfl rfl (fun h => nomatch h) (by simp)
        | false => exact .quiet rfl rfl

theorem depositPage_effect (now : ℚ) (payer : String) (res : Option Js) (outcome : LedgerWrite) :
    LedgerEffect H cfg s now payer res outcome (depositPage H cfg s now payer res outcome) := by
  unfold depositPage
  split
  · exact .quiet rfl rfl
  · exact .quiet rfl rfl
  · next c waiting res hq =>
    dsimp only
    split_ifs with hlast
    · exact debit_effect (by simp [rowsAtDebit, hq, hlast])
    · exact .quiet rfl rfl

namespace LedgerInv

theorem empty (secret : String) : LedgerInv H cfg sendOf (.empty secret) where
  exact _ _ h := nomatch h
  owned _ _ h := nomatch h
  covered _ h := nomatch h
  recorded i r h := by simp [DepositGateway.empty] at h

theorem quiet (h : LedgerInv H cfg sendOf s) (hfiles : s'.files = s.files)
    (hdebits : s'.debits = s.debits) : LedgerInv H cfg sendOf s' where
  exact path l hl := h.exact path l (hfiles ▸ hl)
  owned path l hl := hdebits ▸ h.owned path l (hfiles ▸ hl)
  covered := hdebits ▸ h.covered
  recorded := hdebits ▸ hfiles ▸ h.recorded

/-- The ledger that a call reads is exact, a new one included. -/
theorem value_read (h : LedgerInv H cfg sendOf s) {payer : String} {l : DepositLedger}
    (hread : readLedger payer (s.files (cfg.ledgerFile payer)) = some l) :
    B.value l.spent = some (entriesTotal (B := B) l) ∧
      ∀ e ∈ l.entries, ∃ r, s.debits[e.debit]? = some r ∧
        cfg.ledgerFile r.payer = cfg.ledgerFile payer := by
  cases hf : s.files (cfg.ledgerFile payer) with
  | absent =>
    rw [hf] at hread
    cases hread
    exact ⟨B.value_zero, fun e he => nomatch he⟩
  | unreadable => simp [hf, readLedger] at hread
  | ledger l' =>
    rw [hf] at hread
    cases hread
    exact ⟨h.exact _ _ hf, h.owned _ _ hf⟩

/-- One debit keeps the ledgers. -/
theorem effect {now : ℚ} {payer : String} {res : Option Js} {outcome : LedgerWrite}
    (h : LedgerInv H cfg sendOf s) (he : LedgerEffect H cfg s now payer res outcome s')
    (hfits : DebitFits H cfg s payer res) (hread : ReadOnce H cfg sendOf s payer res) :
    LedgerInv H cfg sendOf s' := by
  cases he with
  | quiet hfiles hdebits => exact h.quiet hfiles hdebits
  | @debited rows l d c ok hrows hread' hdebit hfiles hdebits hok hwrite =>
    obtain ⟨hvalue, howned⟩ := h.value_read hread'
    obtain ⟨price, hprice, hentries, hspent, hle⟩ :=
      debitLedger_spec hdebit hvalue (hfits rows l _ hrows hread' hvalue)
    have hnew : ∀ e ∈ l.entries, e.debit ≠ s.debits.length := fun e he => by
      obtain ⟨r, hr, -⟩ := howned e he
      exact (List.getElem?_eq_some_iff.1 hr).1.ne
    have hkept {i : ℕ} {r : DebitRecord} (hr : s.debits[i]? = some r) : s'.debits[i]? = some r := by
      rw [hdebits, List.getElem?_append_left (List.getElem?_eq_some_iff.1 hr).1, hr]
    refine ⟨fun path m hm => ?_, fun path m hm e he => ?_, fun r hr => ?_, fun i r hr => ?_⟩
    · rw [hfiles, Function.update_apply] at hm
      split_ifs at hm with hpath
      · cases hm
        rw [hspent]
        simp [entriesTotal, hentries, hprice]
      · exact h.exact path m hm
    · rw [hfiles, Function.update_apply] at hm
      split_ifs at hm with hpath
      · cases hm
        rw [hentries, List.mem_append, List.mem_singleton] at he
        rcases he with he | rfl
        · obtain ⟨r, hr, hfile⟩ := howned e he
          exact ⟨r, hkept hr, hfile.trans hpath.symm⟩
        · exact ⟨⟨c.call, payer, rows, d.ledger.spent, ok⟩, by simp [hdebits], hpath.symm⟩
      · obtain ⟨r, hr, hfile⟩ := h.owned path m hm e he
        exact ⟨r, hkept hr, hfile⟩
    · rw [hdebits, List.mem_append, List.mem_singleton] at hr
      rcases hr with hr | rfl
      · exact h.covered r hr
      · exact ⟨_, hspent, (coveredBy_depositsSeen (hread rows hrows)).mono hle⟩
    · rw [hdebits] at hr
      rcases Nat.lt_or_ge i s.debits.length with hi | hi
      · -- the debits before keep their entries, also those of the same file
        rw [List.getElem?_append_left hi] at hr
        obtain ⟨m, hm, hentry⟩ := h.recorded i r hr
        by_cases hpath : cfg.ledgerFile r.payer = cfg.ledgerFile payer
        · have hml : m = l := by
            rw [← hpath, hm] at hread'
            exact Option.some.inj hread'
          refine ⟨d.ledger, by rw [hfiles, hpath, Function.update_self], ?_⟩
          rw [hentries, List.filter_append, List.map_append, ← hml, hentry]
          simp [hi.ne']
        · exact ⟨m, by rw [hfiles, Function.update_of_ne hpath, hm], hentry⟩
      · rw [List.getElem?_append_right hi, List.getElem?_singleton] at hr
        split_ifs at hr with hzero
        have hi' : i = s.debits.length := by omega
        cases hr
        refine ⟨d.ledger, by rw [hfiles, Function.update_self], ?_⟩
        have hnone : (l.entries.filter fun e => e.debit = i) = [] := by
          rw [List.filter_eq_nil_iff]
          intro e he
          simpa [hi'] using hnew e he
        rw [hentries, List.filter_append, hnone]
        simp [hi']

end LedgerInv

/-- A challenge that was accepted has expired, has no right MAC any more, or is remembered. -/
structure ChallengeInv (cfg : DepositScheme B) (s : DepositGateway) : Prop where
  once : s.accepted.Nodup
  remembered : ∀ token ∈ s.accepted, ∀ body, authenticBody cfg s.secret token = .ok body →
    (body.field "exp").toNumber.le (.fin s.clock) = true ∨
      ∃ n, body.field "n" = .str n ∧ (.str n, (body.field "exp").toNumber) ∈ s.usedChallenges

/-- A challenge that passes its checks says what its body says, and has not expired. -/
theorem checkChallenge_eq_ok {secret scheme : String} {now : ℚ} {resource token : Js}
    {c : CheckedChallenge} (h : checkChallenge cfg secret now scheme resource token = .ok c) :
    ∃ text body, token = .str text ∧ authenticBody cfg secret text = .ok body ∧
      c = ⟨body.field "n", (body.field "exp").toNumber⟩ ∧ (JsNum.fin now).lt c.exp = true := by
  unfold checkChallenge at h
  split at h
  · next text =>
    obtain ⟨body, hbody, hcheck⟩ := Checks.bind_eq_ok.1 h
    simp only [checkBody] at hcheck
    split_ifs at hcheck with h1 h2 h3 h4
    all_goals cases hcheck
    exact ⟨text, body, rfl, hbody, rfl, by simpa using h4⟩
  · cases h

/-- A challenge that is consumed was not remembered, and the others stay until they expire. -/
theorem consumeChallenge_eq_some {used used' : List (Js × JsNum)} {later : ℚ}
    {c : CheckedChallenge} (h : consumeChallenge used later c = some used') :
    (∀ e ∈ used, e.2.le (.fin later) = false → sameKey e.1 c.nonce = false ∧ e ∈ used') ∧
      (c.nonce, c.exp) ∈ used' := by
  simp only [consumeChallenge] at h
  split_ifs at h with hany
  cases h
  refine ⟨fun e he hlive => ?_, by simp⟩
  have hmem : e ∈ used.filter fun e => !e.2.le (.fin later) := by simp [he, hlive]
  refine ⟨?_, List.mem_append_left _ hmem⟩
  simp only [Bool.not_eq_true, List.any_eq_false] at hany
  exact hany e hmem

/-- What a request does to the challenges: nothing, or its own is consumed. -/
theorem admitProof_cases {now later : ℚ} {scheme : String} {proof : DepositProof} {resource : Js}
    (h : admitProof cfg s now later scheme proof resource = .ok s') :
    s' = s ∨ ∃ c used, cfg.requireSignature = true ∧
      checkChallenge cfg s.secret now scheme resource proof.challenge = .ok c ∧
      consumeChallenge s.usedChallenges later c = some used ∧
      s' = { s with usedChallenges := used, accepted := s.accepted ++ [proof.challenge.toText] } := by
  simp only [admitProof] at h
  split_ifs at h with hpayer hsig
  · cases h
  · simp only [acceptChallenge, Checks.bind_eq_ok] at h
    obtain ⟨c, hc, _, -, hrest⟩ := h
    split at hrest
    · cases hrest
    · next used hused =>
      cases hrest
      exact .inr ⟨c, used, hsig, hc, hused, rfl⟩
  · cases h
    exact .inl rfl

namespace ChallengeInv

theorem empty (secret : String) : ChallengeInv cfg (.empty secret) :=
  ⟨List.nodup_nil, fun _ h => nomatch h⟩

/-- Time goes on, and nothing happens to the challenges. -/
theorem quiet (h : ChallengeInv cfg s) (haccepted : s'.accepted = s.accepted)
    (hsecret : s'.secret = s.secret) (hused : s'.usedChallenges = s.usedChallenges)
    (hclock : s.clock ≤ s'.clock) : ChallengeInv cfg s' := by
  refine ⟨haccepted ▸ h.once, fun token htoken body hbody => ?_⟩
  rw [haccepted] at htoken
  rw [hsecret] at hbody
  rcases h.remembered token htoken body hbody with hexp | hmem
  · exact .inl (JsNum.le_fin_trans hexp hclock)
  · exact .inr (hused ▸ hmem)

/-- The next process rejects what this one accepted. -/
theorem restart (h : ChallengeInv cfg s) {now : ℚ} {secret : String}
    (haccepted : s'.accepted = s.accepted) (hsecret : s'.secret = secret) (hclock : s'.clock = now)
    (hrejects : RejectsUsed cfg s now secret) : ChallengeInv cfg s' := by
  refine ⟨haccepted ▸ h.once, fun token htoken body hbody => .inl ?_⟩
  rw [hclock]
  exact hrejects token (haccepted ▸ htoken) body (hsecret ▸ hbody)

/-- A request keeps the challenges: one that was accepted before is still remembered when it is
consumed again. -/
theorem admits (h : ChallengeInv cfg s) {now later : ℚ} {scheme : String} {proof : DepositProof}
    {resource : Js} (hclock : s.clock ≤ now) (hlater : now ≤ later)
    (htime : ConsumedInTime cfg s now later scheme proof resource)
    (hadm : admitProof cfg s now later scheme proof resource = .ok s') :
    ChallengeInv cfg { s' with clock := later } := by
  rcases admitProof_cases hadm with rfl | ⟨c, used, hsig, hc, hused, rfl⟩
  · exact h.quiet rfl rfl rfl (hclock.trans hlater)
  obtain ⟨text, body, htext, hbody, hce, hlive⟩ := checkChallenge_eq_ok hc
  obtain ⟨⟨n, hn⟩, hintime⟩ := htime hsig c hc
  obtain ⟨hkept, hnew⟩ := consumeChallenge_eq_some hused
  have hproof : proof.challenge.toText = text := by rw [htext]; rfl
  have hbn : body.field "n" = .str n := by rw [← hn, hce]
  have hexp : (body.field "exp").toNumber = c.exp := by rw [hce]
  rw [hproof] at hintime ⊢
  have hfresh : text ∉ s.accepted := by
    intro hmem
    rcases h.remembered text hmem body hbody with hpast | ⟨m, hm, hin⟩
    · rw [hexp, JsNum.not_le_of_lt hlive hclock] at hpast
      cases hpast
    · rw [hexp] at hin
      have hsame := (hkept _ hin (JsNum.not_le_of_lt (hintime hmem) le_rfl)).1
      rw [hm] at hbn
      cases hbn
      simp [hn, sameKey] at hsame
  refine ⟨h.once.append (List.nodup_singleton text) (by simpa using hfresh), ?_⟩
  intro token htoken body' hbody'
  rcases List.mem_append.1 htoken with hold | hself
  · rcases h.remembered token hold body' hbody' with hpast | ⟨m, hm, hin⟩
    · exact .inl (JsNum.le_fin_trans hpast (hclock.trans hlater))
    · cases hlate : (body'.field "exp").toNumber.le (.fin later) with
      | true => exact .inl rfl
      | false => exact .inr ⟨m, hm, (hkept _ hin hlate).2⟩
  · rw [List.mem_singleton.1 hself, hbody] at hbody'
    cases hbody'
    rw [hn] at hnew
    exact .inr ⟨n, hbn, hexp ▸ hnew⟩

end ChallengeInv

/-- A page touches the challenges only when the process crashes at it. -/
theorem depositPage_challenges (H : Host) (cfg : DepositScheme B) (s : DepositGateway) (now : ℚ)
    (payer : String) (res : Option Js) (outcome : LedgerWrite) :
    (depositPage H cfg s now payer res outcome).accepted = s.accepted ∧
      (((depositPage H cfg s now payer res outcome).secret = s.secret ∧
        (depositPage H cfg s now payer res outcome).usedChallenges = s.usedChallenges) ∨
        ∃ renamed secret, outcome = .crashed renamed secret ∧
          (depositPage H cfg s now payer res outcome).secret = secret) := by
  unfold depositPage
  split
  · exact ⟨rfl, .inl ⟨rfl, rfl⟩⟩
  · exact ⟨rfl, .inl ⟨rfl, rfl⟩⟩
  · dsimp only
    split_ifs
    · unfold debit
      split
      · exact ⟨rfl, .inl ⟨rfl, rfl⟩⟩
      · cases outcome with
        | written => exact ⟨rfl, .inl ⟨rfl, rfl⟩⟩
        | failed => exact ⟨rfl, .inl ⟨rfl, rfl⟩⟩
        | crashed renamed secret =>
          cases renamed <;> exact ⟨rfl, .inr ⟨_, secret, rfl, rfl⟩⟩
    · exact ⟨rfl, .inl ⟨rfl, rfl⟩⟩

/-- A request touches no ledger. -/
theorem admitProof_ledgers {now later : ℚ} {scheme : String} {proof : DepositProof} {resource : Js}
    (h : admitProof cfg s now later scheme proof resource = .ok s') :
    s'.files = s.files ∧ s'.debits = s.debits := by
  rcases admitProof_cases h with rfl | ⟨c, used, -, -, -, rfl⟩
  · exact ⟨rfl, rfl⟩
  · exact ⟨rfl, rfl⟩

/-- One event keeps the ledgers. -/
theorem ledgerInv_step (event : ℚ × DepositOp) (h : LedgerInv H cfg sendOf s)
    (hmeets : DepositMeets H cfg sendOf s event) : LedgerInv H cfg sendOf (depositStep H cfg s event) := by
  obtain ⟨now, op⟩ := event
  obtain ⟨-, -, hop⟩ := hmeets
  cases op with
  | verifyDeposit call proof resource later =>
    simp only [depositStep, depositOp, verifyDeposit]
    split
    · exact h.quiet rfl rfl
    · next s' hs' =>
      obtain ⟨hfiles, hdebits⟩ := admitProof_ledgers hs'
      exact h.quiet hfiles hdebits
  | verifyDispenser call proof resource later =>
    simp only [depositStep, depositOp, verifyDispenser]
    split
    · exact h.quiet rfl rfl
    · next s' hs' =>
      obtain ⟨hfiles, hdebits⟩ := admitProof_ledgers hs'
      exact h.quiet hfiles hdebits
  | page payer res outcome =>
    exact (h.effect (depositPage_effect now payer res outcome) hop.1 hop.2.1).quiet rfl rfl
  | restart secret => exact h.quiet rfl rfl

/-- One event keeps the challenges. -/
theorem challengeInv_step (event : ℚ × DepositOp) (h : ChallengeInv cfg s)
    (hmeets : DepositMeets H cfg sendOf s event) : ChallengeInv cfg (depositStep H cfg s event) := by
  obtain ⟨now, op⟩ := event
  obtain ⟨hclock, huntil, hop⟩ := hmeets
  cases op with
  | verifyDeposit call proof resource later =>
    simp only [depositStep, depositOp, verifyDeposit]
    split
    · exact h.quiet rfl rfl rfl (hclock.trans huntil)
    · next s' hs' => exact (h.admits hclock huntil hop hs').quiet rfl rfl rfl le_rfl
  | verifyDispenser call proof resource later =>
    simp only [depositStep, depositOp, verifyDispenser]
    split
    · exact h.quiet rfl rfl rfl (hclock.trans huntil)
    · next s' hs' => exact h.admits hclock huntil hop hs'
  | page payer res outcome =>
    obtain ⟨haccepted, ⟨hsecret, hused⟩ | ⟨renamed, secret, hcrash, hsecret⟩⟩ :=
      depositPage_challenges H cfg s now payer res outcome
    · exact h.quiet haccepted hsecret hused hclock
    · exact h.restart haccepted hsecret rfl (hop.2.2 renamed secret hcrash)
  | restart secret => exact h.restart rfl rfl rfl hop

theorem depositRun_inv {secret : String} {events : List (ℚ × DepositOp)}
    (hmeets : Runs.Along (depositStep H cfg) (DepositMeets H cfg sendOf) (.empty secret) events) :
    LedgerInv H cfg sendOf (depositRun H cfg secret events) ∧
      ChallengeInv cfg (depositRun H cfg secret events) :=
  hmeets.inv (I := fun s => LedgerInv H cfg sendOf s ∧ ChallengeInv cfg s)
    (fun _ e h hp => ⟨ledgerInv_step e h.1 hp, challengeInv_step e h.2 hp⟩)
    ⟨LedgerInv.empty secret, ChallengeInv.empty secret⟩

/-- The debits whose calls returned ok. -/
def DepositGateway.granted (s : DepositGateway) : List DebitRecord := s.debits.filter DebitRecord.ok

/-- A page whose debit is not written grants nothing, and writes nothing if the process goes on. -/
theorem depositStep_not_written {now : ℚ} {payer : String} {res : Option Js}
    {outcome : LedgerWrite} (hout : outcome ≠ .written) :
    (depositStep H cfg s (now, .page payer res outcome)).granted = s.granted ∧
      (outcome = .failed → (depositStep H cfg s (now, .page payer res outcome)).files = s.files) := by
  have he : LedgerEffect H cfg s now payer res outcome
      (depositPage H cfg s now payer res outcome) := depositPage_effect now payer res outcome
  have hgranted : (depositStep H cfg s (now, .page payer res outcome)).granted
      = (depositPage H cfg s now payer res outcome).granted := rfl
  have hfile : (depositStep H cfg s (now, .page payer res outcome)).files
      = (depositPage H cfg s now payer res outcome).files := rfl
  rw [hgranted, hfile]
  cases he with
  | quiet hfiles hdebits => exact ⟨by rw [DepositGateway.granted, hdebits, DepositGateway.granted], fun _ => hfiles⟩
  | @debited rows l d c ok hrows hread hdebit hfiles hdebits hok hwrite =>
    have hfalse : ok = false := by
      cases ok with
      | false => rfl
      | true => exact absurd (hok rfl) hout
    refine ⟨?_, fun h => absurd h hwrite⟩
    rw [DepositGateway.granted, hdebits, hfalse, List.filter_append, DepositGateway.granted]
    simp

/-- Spends are exact and within the confirmed deposits, every call that returned ok has one entry, no challenge is
accepted twice, and a debit that is not written grants nothing. -/
structure DepositsSafe (H : Host) {B : BignumberJs} (cfg : DepositScheme B) {ι : Type}
    (sendOf : Js → ι) (secret : String) (events : List (ℚ × DepositOp)) : Prop where
  exact : ∀ payer l, (depositRun H cfg secret events).files (cfg.ledgerFile payer) = .ledger l →
    B.value l.spent = some (entriesTotal (B := B) l)
  covered : ∀ r ∈ (depositRun H cfg secret events).debits,
    ∃ v, B.value r.spent = some v ∧ CoveredBy H cfg sendOf r.payer r.rows v
  recorded : ∀ i r, (depositRun H cfg secret events).debits[i]? = some r → r.ok = true →
    ∃ l, (depositRun H cfg secret events).files (cfg.ledgerFile r.payer) = .ledger l ∧
      (l.entries.filter fun e => e.debit = i).map LedgerEntry.amount = [cfg.pricePerCall]
  owned : ∀ path l, (depositRun H cfg secret events).files path = .ledger l → ∀ e ∈ l.entries,
    ∃ r, (depositRun H cfg secret events).debits[e.debit]? = some r ∧
      cfg.ledgerFile r.payer = path
  once : (depositRun H cfg secret events).accepted.Nodup
  notWritten : ∀ before now payer res outcome later,
    events = before ++ [(now, .page payer res outcome)] ++ later → outcome ≠ .written →
      (depositRun H cfg secret (before ++ [(now, .page payer res outcome)])).granted
        = (depositRun H cfg secret before).granted ∧
      (outcome = .failed →
        (depositRun H cfg secret (before ++ [(now, .page payer res outcome)])).files
          = (depositRun H cfg secret before).files)

/-- **Deposits are safe in every run whose events meet the condition.** -/
theorem depositsSafe_of_meets (secret : String) (events : List (ℚ × DepositOp))
    (hmeets : Runs.Along (depositStep H cfg) (DepositMeets H cfg sendOf) (.empty secret) events) :
    DepositsSafe H cfg sendOf secret events := by
  obtain ⟨hledger, hchallenge⟩ := depositRun_inv hmeets
  refine ⟨fun payer l hl => hledger.exact _ l hl, hledger.covered,
    fun i r hr _ => hledger.recorded i r hr, hledger.owned, hchallenge.once, ?_⟩
  intro before now payer res outcome later _ hout
  have hstep : depositRun H cfg secret (before ++ [(now, .page payer res outcome)])
      = depositStep H cfg (depositRun H cfg secret before) (now, .page payer res outcome) := by
    simp [depositRun]
  rw [hstep]
  exact depositStep_not_written hout

end Safety

/-! ### A secret that outlives the process -/

/-- The payload of a challenge, as it is issued. -/
def samplePayload : String :=
  "eyJuIjoiMDAxMTIyMzM0NDU1NjY3Nzg4OTlhYWJiY2NkZGVlZmYiLCJleHAiOjMwMDAwMCwicyI6Inhj" ++
  "aGFpbi1kZXBvc2l0IiwiYyI6IkJUQyIsInIiOm51bGx9"

/-- Its MAC under `gateway-secret`. -/
def sampleMac : String := "74bfb0bf75160f14b766c2633e24bf68129b6f0ab2d55feea931838e7ba0bc61"

/-- A gateway with a configured secret, at two tokens a call. -/
def sampleDeposits : DepositScheme plainBignumber where
  coin := "BTC"
  tick := "XCHAIN"
  depositAddress := "vault"
  pricePerCall := "2"
  positive := by decide +kernel
  ledgerFile payer := ".x402/deposits/BTC/" ++ payer ++ ".json"
  auth := some fun address _ signature => some (decide (signature = "signed by " ++ address))
  hmac secret payload :=
    if secret = "gateway-secret" ∧ payload = samplePayload then sampleMac else ""
  decodePayload payload :=
    if payload = samplePayload then
      some (.obj [("n", .str "00112233445566778899aabbccddeeff"), ("exp", .num (.fin 300000)),
        ("s", .str "xchain-deposit"), ("c", .str "BTC"), ("r", .null)])
    else none

/-- A request of alice with the challenge. -/
def aliceDraws : DepositProof :=
  ⟨.str "alice", .str (samplePayload ++ "." ++ sampleMac), .str "signed by alice"⟩

/-- A row of the explorer's list. -/
def sendRow (source amount txHash : String) : Js := .obj [("source", .str source),
  ("tick", .str "XCHAIN"), ("amount", .str amount), ("status", .str "valid"),
  ("tx_hash", .str txHash)]

/-- The transaction of a row. -/
def sentIn (row : Js) : String := (row.field "tx_hash").toText

/-- The deposits of alice. -/
def aliceDeposits : Option Js := some (.obj [("data", .arr [sendRow "alice" "5.5" "d1"])])

/-- A call is served, another process starts with the configured secret, and the same request is
served again. -/
def drawnTwice : List (ℚ × DepositOp) := [
  (1000, .verifyDeposit 0 aliceDraws .null 1000),
  (1010, .page "alice" aliceDeposits .written),
  (2000, .restart "gateway-secret"),
  (3000, .verifyDeposit 1 aliceDraws .null 3000),
  (3010, .page "alice" aliceDeposits .written)]

/-- One challenge token is accepted twice, and alice pays twice for what she signed once. -/
theorem drawnTwice_not_safe :
    ¬ DepositsSafe plainHost sampleDeposits sentIn "gateway-secret" drawnTwice ∧
      (depositRun plainHost sampleDeposits "gateway-secret" drawnTwice).accepted =
        [samplePayload ++ "." ++ sampleMac, samplePayload ++ "." ++ sampleMac] ∧
      (depositRun plainHost sampleDeposits "gateway-secret" drawnTwice).granted.length = 2 := by
  have hrun : (depositRun plainHost sampleDeposits "gateway-secret" drawnTwice).accepted =
        [samplePayload ++ "." ++ sampleMac, samplePayload ++ "." ++ sampleMac] ∧
      (depositRun plainHost sampleDeposits "gateway-secret" drawnTwice).granted.length = 2 := by
    decide +kernel
  refine ⟨fun h => ?_, hrun⟩
  have honce := h.once
  rw [hrun.1] at honce
  simp at honce

/-- Alice sent one token to the deposit address.  Another send to it is indexed between the two pages
of a lookup, so that her row ends the first page and opens the second one. -/
def readTwice : List (ℚ × DepositOp) :=
  let alice := sendRow "alice" "1" "d1"
  let bob := (List.range 99).map fun n => sendRow "bob" "3" ("b" ++ n.repr)
  [(1000, .verifyDeposit 0 aliceDraws .null 1000),
    (1010, .page "alice" (some (.obj [("data", .arr (bob ++ [alice]))])) .written),
    (1020, .page "alice" (some (.obj [("data", .arr [alice])])) .written)]

/-- Alice draws two tokens on a deposit of one. -/
theorem readTwice_not_safe :
    ¬ DepositsSafe plainHost sampleDeposits sentIn "gateway-secret" readTwice := by
  intro h
  have hrun : ∃ r ∈ (depositRun plainHost sampleDeposits "gateway-secret" readTwice).debits,
      r.payer = "alice" ∧ plainBignumber.value r.spent = some 2 ∧
      ∀ row ∈ r.rows, (row.field "source").str? ≠ some "alice" ∨
        decimalText (row.field "amount").toText = some 1 ∧ sentIn row = "d1" := by decide +kernel
  obtain ⟨r, hr, hpayer, hspent, hrows⟩ := hrun
  obtain ⟨v, hv, deposits, hnodup, hdeposits, hsum⟩ := h.covered r hr
  rw [hspent] at hv
  cases hv
  -- every confirmed deposit of alice among the rows is the one of the transaction d1
  have hone : ∀ d ∈ deposits, d = ("d1", 1) := by
    intro d hd
    obtain ⟨row, hrow, hsend, hconf⟩ := hdeposits d hd
    rcases hrows row hrow with hother | ⟨hamount, htx⟩
    · rw [hconf.source, hpayer] at hother
      exact absurd rfl hother
    · rw [hconf.amount.decimalText, Option.some.injEq] at hamount
      exact Prod.ext (hsend.symm.trans htx) hamount
  rw [List.eq_replicate_of_mem hone] at hnodup hsum
  rw [List.map_replicate, List.nodup_replicate] at hnodup
  rw [List.map_replicate, List.sum_replicate, nsmul_eq_mul, mul_one] at hsum
  have hle : (deposits.length : ℚ) ≤ 1 := by exact_mod_cast hnodup
  linarith

/-- The process after the first request. -/
def aliceWaits : DepositGateway := depositStep plainHost sampleDeposits (.empty "gateway-secret")
  (1000, .verifyDeposit 0 aliceDraws .null 1000)

theorem aliceDraws_inTime : ConsumedInTime sampleDeposits (.empty "gateway-secret") 1000 1000
    "xchain-deposit" aliceDraws .null := by
  intro _ c hc
  have hnonce : (checkChallenge sampleDeposits "gateway-secret" 1000 "xchain-deposit" .null
      aliceDraws.challenge).toOption.bind (fun c => c.nonce.str?) =
        some "00112233445566778899aabbccddeeff" := by decide +kernel
  change checkChallenge sampleDeposits "gateway-secret" 1000 "xchain-deposit" .null
    aliceDraws.challenge = .ok c at hc
  rw [hc] at hnonce
  have hstr : c.nonce.str? = some "00112233445566778899aabbccddeeff" := hnonce
  refine ⟨⟨"00112233445566778899aabbccddeeff", ?_⟩, fun h => nomatch h⟩
  cases hn : c.nonce <;> simp_all [Js.str?]

theorem aliceWaits_fits : DebitFits plainHost sampleDeposits aliceWaits "alice" aliceDeposits := by
  intro rows l v hrows hread hv
  obtain ⟨hlength, hseen, hspent⟩ :
      (rowsAtDebit aliceWaits "alice" aliceDeposits).map List.length = some 1 ∧
      (rowsAtDebit aliceWaits "alice" aliceDeposits).map
        (depositsSeen plainHost sampleDeposits "alice") = some (11 / 2) ∧
      (readLedger "alice" (aliceWaits.files (sampleDeposits.ledgerFile "alice"))).bind
        (fun l => plainBignumber.value l.spent) = some 0 := by decide +kernel
  rw [hrows, Option.map_some, Option.some.injEq] at hlength hseen
  rw [hread, Option.bind_some, hv, Option.some.injEq] at hspent
  subst hspent
  refine ⟨fun n => ?_, ?_, fun price hprice => ?_⟩
  · cases n with
    | zero =>
      rw [List.take_zero]
      decide +kernel
    | succ n =>
      rw [List.take_of_length_le (by omega), hseen]
      decide +kernel
  · rw [hseen]
    decide +kernel
  · have hp : plainBignumber.value sampleDeposits.pricePerCall = some 2 := by decide +kernel
    rw [hp] at hprice
    cases hprice
    decide +kernel

theorem aliceWaits_readOnce :
    ReadOnce plainHost sampleDeposits sentIn aliceWaits "alice" aliceDeposits := by
  intro rows hrows
  have hlength : (rowsAtDebit aliceWaits "alice" aliceDeposits).map List.length = some 1 := by
    decide +kernel
  rw [hrows, Option.map_some, Option.some.injEq] at hlength
  obtain ⟨row, rfl⟩ := List.length_eq_one_iff.1 hlength
  exact List.pairwise_singleton _ _

/-- A call that is served by the first process meets the condition. -/
theorem depositsSafe_sample :
    DepositsSafe plainHost sampleDeposits sentIn "gateway-secret" (drawnTwice.take 2) :=
  depositsSafe_of_meets "gateway-secret" (drawnTwice.take 2)
    ⟨⟨by decide, by decide, aliceDraws_inTime⟩,
      ⟨by decide, by decide, aliceWaits_fits, aliceWaits_readOnce,
        fun _ _ h => nomatch h⟩, trivial⟩

end XChainSdk
