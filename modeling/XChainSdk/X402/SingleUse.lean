import XChainSdk.Lib.Runs
import XChainSdk.X402.Gateway

/-!
# An invoice pays for one call

Over a run with fresh nonces, no nonce yields two results that are ok and no confirmed invoice
changes its status, exactly if no claim lands on an invoice that the sweeper revoked and the sweeper
revokes no invoice that was confirmed meanwhile.  The claims check the status that they find, but
`failed_0conf` is not among the states they refuse; the sweeper's updates check nothing.

* `GatewayInv` : a stored invoice is pending exactly as long as its nonce was not granted.
* `GatewayQuiet` : the steps that touch neither the store nor the grants.
* `singleUse_iff` : the runs in which invoices are single-use.
-/

namespace XChainSdk

/-- The invoices that a sweep holds. -/
def SweepPoint.invoices : SweepPoint → List Invoice
  | .idle => []
  | .sends inv rest | .promoting inv _ rest | .failing inv rest => inv :: rest

@[simp] theorem invoices_nextInvoice (invs : List Invoice) : (nextInvoice invs).invoices = invs := by
  cases invs <;> rfl

namespace SendGateway

variable (s : SendGateway)

/-- The status of an invoice, if it is stored. -/
def statusOf (nonce : String) : Option InvoiceStatus := (s.store nonce).map Invoice.status

@[simp] theorem put_granted (n : String) (inv : Invoice) : (s.put n inv).granted = s.granted := rfl

@[simp] theorem atPoint_store (call : ℕ) (p : VerifyPoint) : (s.atPoint call p).store = s.store :=
  rfl

@[simp] theorem finish_store (call : ℕ) (n : String) (r : VerifyResult) :
    (s.finish call n r).store = s.store := rfl

@[simp] theorem sweepAt_store (k : ℕ) (p : SweepPoint) : (s.sweepAt k p).store = s.store := rfl

@[simp] theorem sweepAt_granted (k : ℕ) (p : SweepPoint) :
    (s.sweepAt k p).granted = s.granted := rfl

theorem finish_granted (call : ℕ) (n : String) (r : VerifyResult) :
    (s.finish call n r).granted = s.granted ++ if r.isOk then [n] else [] := by
  cases h : r.isOk <;> simp [finish, atPoint, granted, List.filter_append, h]

theorem put_store (n : String) (inv : Invoice) (m : String) :
    (s.put n inv).store m = if m = n then some inv else s.store m := by
  simp [put, Function.update_apply]

theorem sweepAt_sweeps (k : ℕ) (p : SweepPoint) (j : ℕ) :
    (s.sweepAt k p).sweeps j = if j = k then p else s.sweeps j := by
  simp [sweepAt, Function.update_apply]

end SendGateway

open SendGateway

/-- The step leaves the store, the nonces and the grants, and no sweep learns of an invoice. -/
structure GatewayQuiet (s s' : SendGateway) : Prop where
  store : s'.store = s.store
  issued : s'.issued = s.issued
  granted : s'.granted = s.granted
  sweeps : ∀ k, ∀ inv ∈ (s'.sweeps k).invoices, ∃ j, inv ∈ (s.sweeps j).invoices

namespace GatewayQuiet

variable {s s' : SendGateway}

theorem rfl' : GatewayQuiet s s := ⟨rfl, rfl, rfl, fun k _ h => ⟨k, h⟩⟩

theorem atPoint (call : ℕ) (p : VerifyPoint) : GatewayQuiet s (s.atPoint call p) :=
  ⟨rfl, rfl, rfl, fun k _ h => ⟨k, h⟩⟩

theorem finish (call : ℕ) (n : String) {r : VerifyResult} (hr : r.isOk = false) :
    GatewayQuiet s (s.finish call n r) :=
  ⟨rfl, rfl, by simp [finish_granted, hr], fun k _ h => ⟨k, h⟩⟩

/-- A sweep goes on with invoices that it held. -/
theorem sweepAt {k : ℕ} {p : SweepPoint} (h : ∀ inv ∈ p.invoices, inv ∈ (s.sweeps k).invoices) :
    GatewayQuiet s (s.sweepAt k p) := by
  refine ⟨rfl, rfl, rfl, fun j inv hinv => ?_⟩
  rw [sweepAt_sweeps] at hinv
  split_ifs at hinv with hj
  · exact ⟨k, h inv hinv⟩
  · exact ⟨j, hinv⟩

end GatewayQuiet

section Steps

variable {H : TextHost} {M : MathJs} {cfg : SendScheme} {s : SendGateway}

theorem startVerify_quiet (now : ℚ) (call : ℕ) (proof : SendProof) :
    GatewayQuiet s (startVerify cfg s now call proof) := by
  simp only [startVerify]
  split
  · exact GatewayQuiet.atPoint _ _
  · exact GatewayQuiet.finish _ _ rfl

theorem searchMempool_quiet (call : ℕ) (invoice : Invoice) (payer : String) (rows : List Js)
    (ids : WireIds) : GatewayQuiet s (searchMempool H M s call invoice payer rows ids) := by
  simp only [searchMempool]
  split
  · exact GatewayQuiet.finish _ _ rfl
  · exact GatewayQuiet.finish _ _ rfl
  · exact GatewayQuiet.atPoint _ _

theorem resolveTickId_quiet (call : ℕ) (invoice : Invoice) (payer : String) (rows : List Js)
    (payToId : Option String) : GatewayQuiet s (resolveTickId H M s call invoice payer rows payToId) := by
  simp only [resolveTickId]
  split
  · exact searchMempool_quiet _ _ _ _ _
  · exact GatewayQuiet.atPoint _ _

theorem verifyAnswer_quiet (call : ℕ) (res : Option Js) :
    GatewayQuiet s (verifyAnswer H M s call res) := by
  simp only [verifyAnswer]
  cases s.calls call with
  | idle => exact GatewayQuiet.rfl'
  | claiming => exact GatewayQuiet.rfl'
  | sends invoice payer =>
    dsimp only
    split
    · exact GatewayQuiet.finish _ _ rfl
    · exact GatewayQuiet.atPoint _ _
    · split_ifs
      · exact GatewayQuiet.atPoint _ _
      · exact GatewayQuiet.finish _ _ rfl
  | mempool invoice payer =>
    dsimp only
    split
    · exact GatewayQuiet.finish _ _ rfl
    · split
      · exact resolveTickId_quiet _ _ _ _ _
      · exact GatewayQuiet.atPoint _ _
  | address invoice payer rows =>
    -- the cache of ids is none of what a quiet step keeps
    dsimp only
    split
    · next id _ =>
      obtain ⟨h1, h2, h3, h4⟩ := resolveTickId_quiet (H := H) (M := M)
        (s := { s with addressIds := Function.update s.addressIds invoice.payTo (some id) })
        call invoice payer rows (some id)
      exact ⟨h1, h2, h3, h4⟩
    · exact resolveTickId_quiet _ _ _ _ _
  | token invoice payer rows payToId =>
    dsimp only
    split
    · next id _ =>
      obtain ⟨h1, h2, h3, h4⟩ := searchMempool_quiet (H := H) (M := M)
        (s := { s with tickIds := Function.update s.tickIds invoice.tick (some id) })
        call invoice payer rows ⟨payToId, some id⟩
      exact ⟨h1, h2, h3, h4⟩
    · exact searchMempool_quiet _ _ _ _ _

theorem sweepAnswer_quiet (now : ℚ) (k : ℕ) (res : Option Js) :
    GatewayQuiet s (sweepAnswer H M cfg s now k res) := by
  simp only [sweepAnswer]
  cases hk : s.sweeps k with
  | idle => exact GatewayQuiet.rfl'
  | promoting => exact GatewayQuiet.rfl'
  | failing => exact GatewayQuiet.rfl'
  | sends inv rest =>
    have hnext : GatewayQuiet s (s.sweepAt k (nextInvoice rest)) := by
      refine GatewayQuiet.sweepAt fun i hi => ?_
      rw [invoices_nextInvoice] at hi
      simp [hk, SweepPoint.invoices, hi]
    dsimp only
    split
    · exact GatewayQuiet.sweepAt fun i hi => by simpa [hk, SweepPoint.invoices] using hi
    · split_ifs
      · exact GatewayQuiet.sweepAt fun i hi => by simpa [hk, SweepPoint.invoices] using hi
      · exact hnext
    · exact hnext

/-- A claim is quiet, or finds an invoice that is pending or revoked and writes it. -/
theorem claimInvoice_cases (now : ℚ) (call : ℕ) (written : Bool) :
    GatewayQuiet s (claimInvoice s now call written) ∨
      ∃ nonce payer claim inv, s.calls call = .claiming nonce payer claim ∧
        s.store nonce = some inv ∧ inv.status ∉ CLAIMED ∧ written = true ∧
        claimInvoice s now call written =
          (s.put nonce (claim.write payer now inv)).finish call nonce claim.result := by
  simp only [claimInvoice]
  cases hcall : s.calls call with
  | claiming nonce payer claim =>
    dsimp only
    cases hinv : s.store nonce with
    | none => exact .inl (GatewayQuiet.finish _ _ rfl)
    | some inv =>
      dsimp only
      by_cases hstatus : inv.status ∈ CLAIMED
      · rw [if_pos hstatus]
        exact .inl (GatewayQuiet.finish _ _ rfl)
      · rw [if_neg hstatus]
        cases written with
        | false => exact .inl (GatewayQuiet.finish _ _ rfl)
        | true => exact .inr ⟨nonce, payer, claim, inv, rfl, hinv, hstatus, rfl, rfl⟩
  | _ => exact .inl GatewayQuiet.rfl'

/-- What an update of the sweeper writes, and the invoice that the sweep held for it. -/
inductive Settles (s : SendGateway) (k : ℕ) : Invoice → Invoice → List Invoice → Prop
  | promoting {inv cur : Invoice} {row : Js} {rest : List Invoice}
      (hk : s.sweeps k = .promoting inv row rest) (hcur : s.store inv.nonce = some cur) :
      Settles s k inv (promote row cur) rest
  | failing {inv cur : Invoice} {rest : List Invoice} (hk : s.sweeps k = .failing inv rest)
      (hcur : s.store inv.nonce = some cur) : Settles s k inv (markFailed cur) rest

/-- An update of the sweeper is quiet, or writes the invoice that it was for. -/
theorem sweepUpdate_cases (k : ℕ) (written : Bool) :
    GatewayQuiet s (sweepUpdate s k written) ∨
      ∃ inv new rest, Settles s k inv new rest ∧ written = true ∧
        sweepUpdate s k written = (s.put inv.nonce new).sweepAt k (nextInvoice rest) := by
  have hnext {inv : Invoice} {rest : List Invoice} (h : (s.sweeps k).invoices = inv :: rest) :
      GatewayQuiet s (s.sweepAt k (nextInvoice rest)) := by
    refine GatewayQuiet.sweepAt fun i hi => ?_
    rw [invoices_nextInvoice] at hi
    simp [h, hi]
  simp only [sweepUpdate]
  cases hk : s.sweeps k with
  | idle => exact .inl GatewayQuiet.rfl'
  | sends => exact .inl GatewayQuiet.rfl'
  | promoting inv row rest =>
    dsimp only
    split
    · next cur hcur => exact .inr ⟨inv, _, rest, .promoting hk hcur, rfl, rfl⟩
    · exact .inl (hnext (by rw [hk]; rfl))
  | failing inv rest =>
    dsimp only
    split
    · next cur hcur => exact .inr ⟨inv, _, rest, .failing hk hcur, rfl, rfl⟩
    · exact .inl (hnext (by rw [hk]; rfl))

end Steps

/-- What holds of a gateway in every run with fresh nonces. -/
structure GatewayInv (s : SendGateway) : Prop where
  nonce : ∀ n inv, s.store n = some inv → inv.nonce = n
  issued : ∀ n inv, s.store n = some inv → n ∈ s.issued
  /-- an invoice is pending as long as it was not granted -/
  pending : ∀ n inv, s.store n = some inv → (inv.status = .pending ↔ n ∉ s.granted)
  granted : ∀ n ∈ s.granted, n ∈ s.issued
  /-- a sweep holds invoices that were granted -/
  held : ∀ k, ∀ inv ∈ (s.sweeps k).invoices, inv.nonce ∈ s.granted

namespace GatewayInv

variable {s s' : SendGateway}

theorem empty : GatewayInv .empty where
  nonce _ _ h := nomatch h
  issued _ _ h := nomatch h
  pending _ _ h := nomatch h
  granted _ h := nomatch h
  held _ _ h := nomatch h

theorem quiet (h : GatewayInv s) (hq : GatewayQuiet s s') : GatewayInv s' where
  nonce n inv hn := h.nonce n inv (hq.store ▸ hn)
  issued n inv hn := hq.issued ▸ h.issued n inv (hq.store ▸ hn)
  pending n inv hn := hq.granted ▸ h.pending n inv (hq.store ▸ hn)
  granted n hn := hq.issued ▸ h.granted n (hq.granted ▸ hn)
  held k inv hinv := by
    obtain ⟨j, hj⟩ := hq.sweeps k inv hinv
    rw [hq.granted]
    exact h.held j inv hj

/-- A nonce that was never issued is new to the store and to the grants. -/
theorem issue (h : GatewayInv s) {cfg : SendScheme} {n : String} {now : ℚ} {written : Bool}
    (hn : n ∉ s.issued) : GatewayInv
      { if written then s.put n (newInvoice cfg n now) else s with issued := s.issued ++ [n] } := by
  have hgranted : n ∉ s.granted := fun hg => hn (h.granted n hg)
  cases written with
  | false =>
    exact ⟨h.nonce, fun m inv hm => List.mem_append_left _ (h.issued m inv hm), h.pending,
      fun m hm => List.mem_append_left _ (h.granted m hm), h.held⟩
  | true =>
    refine ⟨fun m inv hm => ?_, fun m inv hm => ?_, fun m inv hm => ?_,
      fun m hm => List.mem_append_left _ (h.granted m hm), h.held⟩
    all_goals
      simp only [if_pos, put_store] at hm
      split_ifs at hm with he
    · cases hm; exact he.symm
    · exact h.nonce m inv hm
    · simp [he]
    · exact List.mem_append_left _ (h.issued m inv hm)
    · cases hm
      rw [he]
      exact iff_of_true rfl hgranted
    · exact h.pending m inv hm

/-- A claim grants the nonce whose invoice it writes. -/
theorem claim (h : GatewayInv s) {n payer : String} {now : ℚ} {call : ℕ} {c : Claim}
    {inv : Invoice} (hn : s.store n = some inv) :
    GatewayInv ((s.put n (c.write payer now inv)).finish call n c.result) := by
  have hok : c.result.isOk = true := by cases c <;> rfl
  have hwrite : (c.write payer now inv).nonce = inv.nonce := by cases c <;> rfl
  have hclaimed : (c.write payer now inv).status ≠ .pending := by cases c <;> simp [Claim.write]
  have hgrants : ((s.put n (c.write payer now inv)).finish call n c.result).granted
      = s.granted ++ [n] := by simp [finish_granted, hok]
  refine ⟨fun m i hm => ?_, fun m i hm => ?_, fun m i hm => ?_, fun m hm => ?_,
    fun k i hi => ?_⟩
  · rw [finish_store, put_store] at hm
    split_ifs at hm with he
    · cases hm
      rw [hwrite, he]
      exact h.nonce n inv hn
    · exact h.nonce m i hm
  · rw [finish_store, put_store] at hm
    split_ifs at hm with he
    · exact he ▸ h.issued n inv hn
    · exact h.issued m i hm
  · rw [finish_store, put_store] at hm
    rw [hgrants]
    split_ifs at hm with he
    · cases hm
      simp [he, hclaimed]
    · simpa [he] using h.pending m i hm
  · rw [hgrants, List.mem_append, List.mem_singleton] at hm
    rcases hm with hm | rfl
    · exact h.granted m hm
    · exact h.issued m inv hn
  · rw [hgrants]
    exact List.mem_append_left _ (h.held k i hi)

/-- An update of the sweeper is about an invoice that was granted, and leaves it claimed. -/
theorem settle (h : GatewayInv s) {k : ℕ} {inv new : Invoice} {rest : List Invoice}
    (hs : Settles s k inv new rest) :
    GatewayInv ((s.put inv.nonce new).sweepAt k (nextInvoice rest)) := by
  have hheld : (s.sweeps k).invoices = inv :: rest := by
    cases hs with
    | promoting hk _ => rw [hk]; rfl
    | failing hk _ => rw [hk]; rfl
  have hgranted : inv.nonce ∈ s.granted := h.held k inv (by simp [hheld])
  have hnonce : new.nonce = inv.nonce := by
    cases hs with
    | promoting _ hcur => have hn := h.nonce _ _ hcur; exact hn
    | failing _ hcur => have hn := h.nonce _ _ hcur; exact hn
  have hstatus : new.status ≠ .pending := by cases hs <;> simp [promote, markFailed]
  refine ⟨fun m i hm => ?_, fun m i hm => ?_, fun m i hm => ?_, h.granted, fun j i hi => ?_⟩
  · rw [sweepAt_store, put_store] at hm
    split_ifs at hm with he
    · cases hm
      rw [hnonce, he]
    · exact h.nonce m i hm
  · rw [sweepAt_store, put_store] at hm
    split_ifs at hm with he
    · rw [he]
      exact h.granted _ hgranted
    · exact h.issued m i hm
  · rw [sweepAt_store, put_store] at hm
    rw [sweepAt_granted, put_granted]
    split_ifs at hm with he
    · cases hm
      simp [he, hstatus, hgranted]
    · exact h.pending m i hm
  · rw [sweepAt_sweeps] at hi
    rw [sweepAt_granted, put_granted]
    split_ifs at hi with hj
    · rw [invoices_nextInvoice] at hi
      exact h.held k i (by simp [hheld, hi])
    · exact h.held j i hi

/-- A sweep starts with invoices that are provisional, hence granted. -/
theorem startSweep (h : GatewayInv s) (k : ℕ) (listing : List String) :
    GatewayInv (s.sweepAt k (nextInvoice (listProvisional s listing))) := by
  refine ⟨h.nonce, h.issued, h.pending, h.granted, fun j inv hinv => ?_⟩
  rw [sweepAt_sweeps] at hinv
  split_ifs at hinv with hj
  · rw [invoices_nextInvoice, listProvisional, List.mem_filter, List.mem_filterMap] at hinv
    obtain ⟨⟨n, -, hn⟩, hstatus⟩ := hinv
    rw [h.nonce n inv hn]
    by_contra hg
    simp [(h.pending n inv hn).2 hg] at hstatus
  · exact h.held j inv hinv

theorem prune (h : GatewayInv s) (gone : List String) :
    GatewayInv { s with store := fun n => if n ∈ gone then none else s.store n } := by
  refine ⟨fun n inv hn => ?_, fun n inv hn => ?_, fun n inv hn => ?_, h.granted, h.held⟩
  all_goals
    dsimp only at hn
    split_ifs at hn
  · exact h.nonce n inv hn
  · exact h.issued n inv hn
  · exact h.pending n inv hn

end GatewayInv

/-- The nonce of a new invoice was drawn for the first time. -/
def FreshNonce (s : SendGateway) (event : ℚ × GatewayOp) : Prop :=
  match event.2 with
  | .issue nonce _ => nonce ∉ s.issued
  | _ => True

/-- What one event does. -/
inductive GatewayEffect (cfg : SendScheme) (s : SendGateway) :
    ℚ × GatewayOp → SendGateway → Prop
  | quiet {event : ℚ × GatewayOp} {s' : SendGateway} (hq : GatewayQuiet s s') :
      GatewayEffect cfg s event s'
  | issue (now : ℚ) (n : String) (written : Bool) : GatewayEffect cfg s (now, .issue n written)
      { if written then s.put n (newInvoice cfg n now) else s with issued := s.issued ++ [n] }
  | claim {now : ℚ} {call : ℕ} {n payer : String} {c : Claim} {inv : Invoice}
      (hcall : s.calls call = .claiming n payer c) (hn : s.store n = some inv)
      (hc : inv.status ∉ CLAIMED) : GatewayEffect cfg s (now, .claim call true)
        ((s.put n (c.write payer now inv)).finish call n c.result)
  | sweep (now : ℚ) (k : ℕ) (listing : List String) : GatewayEffect cfg s (now, .sweep k listing)
      (s.sweepAt k (nextInvoice (listProvisional s listing)))
  | settle {now : ℚ} {k : ℕ} {inv new : Invoice} {rest : List Invoice}
      (hs : Settles s k inv new rest) : GatewayEffect cfg s (now, .sweepUpdate k true)
        ((s.put inv.nonce new).sweepAt k (nextInvoice rest))
  | prune (now : ℚ) (gone : List String) : GatewayEffect cfg s (now, .prune gone)
      { s with store := fun n => if n ∈ gone then none else s.store n }

theorem gatewayStep_effect (H : TextHost) (M : MathJs) (cfg : SendScheme) (s : SendGateway)
    (event : ℚ × GatewayOp) : GatewayEffect cfg s event (gatewayStep H M cfg s event) := by
  obtain ⟨now, op⟩ := event
  cases op with
  | issue nonce written => exact .issue now nonce written
  | verifySend call proof =>
    simp only [gatewayStep]
    split
    · exact .quiet (startVerify_quiet _ _ _)
    · exact .quiet GatewayQuiet.rfl'
  | answer call res => exact .quiet (verifyAnswer_quiet _ _)
  | claim call written =>
    change GatewayEffect cfg s _ (claimInvoice s now call written)
    rcases claimInvoice_cases now call written with hq | ⟨n, p, c, inv, hcall, hn, hc, rfl, he⟩
    · exact .quiet hq
    · rw [he]
      exact .claim hcall hn hc
  | sweep k listing =>
    simp only [gatewayStep]
    split
    · exact .sweep now k listing
    · exact .quiet GatewayQuiet.rfl'
  | sweepAnswer k res => exact .quiet (sweepAnswer_quiet _ _ _)
  | sweepUpdate k written =>
    change GatewayEffect cfg s _ (sweepUpdate s k written)
    rcases sweepUpdate_cases k written with hq | ⟨inv, new, rest, hs, rfl, he⟩
    · exact .quiet hq
    · rw [he]
      exact .settle hs
  | prune gone => exact .prune now gone

/-- No claim is written over a revoked invoice, and no revocation over a confirmed one. -/
def KeepsSingleUse (s : SendGateway) (event : ℚ × GatewayOp) : Prop :=
  match event.2 with
  | .claim call true =>
    match s.calls call with
    | .claiming nonce _ _ => s.statusOf nonce ≠ some .failed0conf
    | _ => True
  | .sweepUpdate k true =>
    match s.sweeps k with
    | .failing inv _ => s.statusOf inv.nonce ≠ some .confirmed
    | _ => True
  | _ => True

namespace GatewayEffect

variable {cfg : SendScheme} {s s' : SendGateway} {event : ℚ × GatewayOp}

theorem inv (he : GatewayEffect cfg s event s') (h : GatewayInv s) (hfresh : FreshNonce s event) :
    GatewayInv s' := by
  cases he with
  | quiet hq => exact h.quiet hq
  | issue now n written => exact h.issue hfresh
  | claim hcall hn hc => exact h.claim hn
  | sweep now k listing => exact h.startSweep k listing
  | settle hs => exact h.settle hs
  | prune now gone => exact h.prune gone

/-- The grants only grow. -/
theorem granted_mono (he : GatewayEffect cfg s event s') : s.granted <+: s'.granted := by
  cases he with
  | quiet hq => exact hq.granted ▸ List.prefix_rfl
  | issue now n written => cases written <;> exact List.prefix_rfl
  | claim hcall hn hc =>
    rw [finish_granted]
    exact List.prefix_append _ _
  | sweep now k listing => exact List.prefix_rfl
  | settle hs => exact List.prefix_rfl
  | prune now gone => exact List.prefix_rfl

/-- A claim that is not over a revoked invoice is over a pending one, which was not granted. -/
theorem nodup_granted (he : GatewayEffect cfg s event s') (h : GatewayInv s)
    (hnodup : s.granted.Nodup) (hkeeps : KeepsSingleUse s event) : s'.granted.Nodup := by
  cases he with
  | quiet hq => rwa [hq.granted]
  | issue now n written => cases written <;> exact hnodup
  | @claim now call n payer c inv hcall hn hc =>
    have hfailed : inv.status ≠ .failed0conf := by
      simpa [KeepsSingleUse, hcall, statusOf, hn] using hkeeps
    have hpending : inv.status = .pending := by
      cases hst : inv.status <;> simp_all [CLAIMED]
    have hnew : n ∉ s.granted := (h.pending n inv hn).1 hpending
    rw [finish_granted, put_granted]
    split_ifs
    · exact hnodup.append (List.nodup_singleton n) (by simpa using hnew)
    · simpa using hnodup
  | sweep now k listing => exact hnodup
  | settle hs => exact hnodup
  | prune now gone => exact hnodup

end GatewayEffect

/-- The invoice was confirmed: it is issued, and as long as it is stored it is confirmed. -/
structure StaysConfirmed (n : String) (s : SendGateway) : Prop where
  issued : n ∈ s.issued
  status : ∀ status, s.statusOf n = some status → status = .confirmed

/-- Only a revocation takes the status `confirmed` away. -/
theorem GatewayEffect.staysConfirmed {cfg : SendScheme} {s s' : SendGateway}
    {event : ℚ × GatewayOp} {n : String} (he : GatewayEffect cfg s event s')
    (hn : StaysConfirmed n s) (hfresh : FreshNonce s event) (hkeeps : KeepsSingleUse s event) :
    StaysConfirmed n s' := by
  cases he with
  | quiet hq =>
    exact ⟨hq.issued ▸ hn.issued, fun st hst => hn.status st (by simpa [statusOf, hq.store] using hst)⟩
  | issue now m written =>
    have hne : n ≠ m := fun h => hfresh (h ▸ hn.issued)
    refine ⟨List.mem_append_left _ hn.issued, fun st hst => hn.status st ?_⟩
    cases written with
    | false => exact hst
    | true => simpa [statusOf, put_store, hne] using hst
  | @claim now call m payer c inv hcall hm hc =>
    refine ⟨hn.issued, fun st hst => hn.status st ?_⟩
    have hne : n ≠ m := by
      rintro rfl
      exact hc (by simp [hn.status inv.status (by simp [statusOf, hm]), CLAIMED])
    simpa [statusOf, put_store, hne] using hst
  | sweep now k listing => exact ⟨hn.issued, hn.status⟩
  | @settle now k inv new rest hs =>
    refine ⟨hn.issued, fun st hst => ?_⟩
    by_cases hne : n = inv.nonce
    · cases hs with
      | promoting hk hcur =>
        simpa [statusOf, put_store, hne, promote] using hst.symm
      | failing hk hcur =>
        rename_i cur
        have hcur' : s.statusOf inv.nonce = some cur.status := by simp [statusOf, hcur]
        have hconf := hn.status cur.status (hne ▸ hcur')
        have hrevoked : s.statusOf inv.nonce ≠ some .confirmed := by
          simpa [KeepsSingleUse, hk] using hkeeps
        exact absurd (hconf ▸ hcur') hrevoked
    · exact hn.status st (by simpa [statusOf, put_store, hne] using hst)
  | prune now gone =>
    refine ⟨hn.issued, fun st hst => hn.status st ?_⟩
    simp only [statusOf] at hst ⊢
    split_ifs at hst with hg
    · simp at hst
    · exact hst

section Runs

variable {H : TextHost} {M : MathJs} {cfg : SendScheme} {s : SendGateway}
  {events : List (ℚ × GatewayOp)}

/-- Every nonce yields at most one result that is ok, and an invoice that is confirmed at some
point of the run has no other status later. -/
def SingleUse (H : TextHost) (M : MathJs) (cfg : SendScheme) (events : List (ℚ × GatewayOp)) :
    Prop :=
  (∀ nonce, (gatewayRun H M cfg events).granted.count nonce ≤ 1) ∧
    ∀ before during later nonce, events = before ++ during ++ later →
      (gatewayRun H M cfg before).statusOf nonce = some .confirmed →
      ∀ status, (gatewayRun H M cfg (before ++ during)).statusOf nonce = some status →
        status = .confirmed

/-- Every nonce of the run is drawn once. -/
def FreshNonces (H : TextHost) (M : MathJs) (cfg : SendScheme) (events : List (ℚ × GatewayOp)) :
    Prop := Runs.Along (gatewayStep H M cfg) FreshNonce .empty events

theorem gatewayInv_run (h : GatewayInv s)
    (hfresh : Runs.Along (gatewayStep H M cfg) FreshNonce s events) :
    GatewayInv (events.foldl (gatewayStep H M cfg) s) :=
  hfresh.inv (fun s e hs hf => (gatewayStep_effect H M cfg s e).inv hs hf) h

theorem granted_run : s.granted <+: (events.foldl (gatewayStep H M cfg) s).granted := by
  induction events generalizing s with
  | nil => exact List.prefix_rfl
  | cons e es ih => exact (gatewayStep_effect H M cfg s e).granted_mono.trans ih

/-- The step that breaks the condition breaks the property. -/
theorem keeps_of_singleUse {e : ℚ × GatewayOp} (h : GatewayInv s)
    (hnodup : (gatewayStep H M cfg s e).granted.Nodup)
    (hconf : ∀ n status, s.statusOf n = some .confirmed →
      (gatewayStep H M cfg s e).statusOf n = some status → status = .confirmed) :
    KeepsSingleUse s e := by
  obtain ⟨now, op⟩ := e
  cases op with
  | claim call written =>
    cases written with
    | false => trivial
    | true =>
      cases hcall : s.calls call with
      | claiming nonce payer claim =>
        simp only [KeepsSingleUse, hcall]
        intro hfailed
        obtain ⟨inv, hinv, hstatus⟩ := Option.map_eq_some_iff.1 hfailed
        -- a revoked invoice was granted, and the claim would grant it again
        have hgranted : nonce ∈ s.granted := by
          by_contra hg
          simp [(h.pending nonce inv hinv).2 hg] at hstatus
        have hstep : gatewayStep H M cfg s (now, .claim call true)
            = (s.put nonce (claim.write payer now inv)).finish call nonce claim.result := by
          simp [gatewayStep, claimInvoice, hcall, hinv, hstatus, CLAIMED]
        have hok : claim.result.isOk = true := by cases claim <;> rfl
        rw [hstep, finish_granted, hok, if_pos rfl, put_granted] at hnodup
        exact (List.nodup_append.1 hnodup).2.2 nonce hgranted nonce (by simp) rfl
      | _ => simp [KeepsSingleUse, hcall]
  | sweepUpdate k written =>
    cases written with
    | false => trivial
    | true =>
      cases hk : s.sweeps k with
      | failing inv rest =>
        simp only [KeepsSingleUse, hk]
        intro hconfirmed
        obtain ⟨cur, hcur, -⟩ := Option.map_eq_some_iff.1 hconfirmed
        have hstep : gatewayStep H M cfg s (now, .sweepUpdate k true)
            = (s.put inv.nonce (markFailed cur)).sweepAt k (nextInvoice rest) := by
          simp [gatewayStep, sweepUpdate, hk, hcur]
        have hfailed := hconf inv.nonce .failed0conf hconfirmed
          (by rw [hstep]; simp [statusOf, put_store, markFailed])
        cases hfailed
      | _ => simp [KeepsSingleUse, hk]
  | _ => trivial

theorem nodup_granted_run (h : GatewayInv s) (hnodup : s.granted.Nodup)
    (hfresh : Runs.Along (gatewayStep H M cfg) FreshNonce s events)
    (hkeeps : Runs.Along (gatewayStep H M cfg) KeepsSingleUse s events) :
    (events.foldl (gatewayStep H M cfg) s).granted.Nodup := by
  have hboth : GatewayInv (events.foldl (gatewayStep H M cfg) s)
      ∧ (events.foldl (gatewayStep H M cfg) s).granted.Nodup :=
    (hfresh.and hkeeps).inv (I := fun s => GatewayInv s ∧ s.granted.Nodup)
      (fun s e hs hp => ⟨(gatewayStep_effect H M cfg s e).inv hs.1 hp.1,
        (gatewayStep_effect H M cfg s e).nodup_granted hs.1 hs.2 hp.2⟩) ⟨h, hnodup⟩
  exact hboth.2

theorem staysConfirmed_run {n : String} (hn : StaysConfirmed n s)
    (hfresh : Runs.Along (gatewayStep H M cfg) FreshNonce s events)
    (hkeeps : Runs.Along (gatewayStep H M cfg) KeepsSingleUse s events) :
    StaysConfirmed n (events.foldl (gatewayStep H M cfg) s) :=
  (hfresh.and hkeeps).inv (fun s e hs hp =>
    (gatewayStep_effect H M cfg s e).staysConfirmed hs hp.1 hp.2) hn

/-- **Invoices are single-use exactly in the runs in which no claim is written over a revoked
invoice and no revocation over a confirmed one.** -/
theorem singleUse_iff (events : List (ℚ × GatewayOp)) (hfresh : FreshNonces H M cfg events) :
    SingleUse H M cfg events ↔
      Runs.Along (gatewayStep H M cfg) KeepsSingleUse .empty events := by
  constructor
  · rintro ⟨honce, hconf⟩
    refine Runs.along_of_prefix fun before e later he => ?_
    have hbefore : Runs.Along (gatewayStep H M cfg) FreshNonce .empty before := by
      rw [FreshNonces, he, List.append_assoc] at hfresh
      exact hfresh.of_append
    have hstep : gatewayStep H M cfg (gatewayRun H M cfg before) e
        = gatewayRun H M cfg (before ++ [e]) := by simp [gatewayRun]
    have hnodup : (gatewayStep H M cfg (gatewayRun H M cfg before) e).granted.Nodup := by
      have hprefix : (gatewayRun H M cfg (before ++ [e])).granted
          <+: (gatewayRun H M cfg events).granted := by
        rw [he, gatewayRun, gatewayRun, List.foldl_append (l := before ++ [e])]
        exact granted_run
      rw [hstep]
      exact (List.nodup_iff_count_le_one.2 honce).sublist hprefix.sublist
    refine keeps_of_singleUse (gatewayInv_run GatewayInv.empty hbefore) hnodup ?_
    intro n status hn hst
    change (gatewayStep H M cfg (gatewayRun H M cfg before) e).statusOf n = some status at hst
    rw [hstep] at hst
    exact hconf before [e] later n he hn status hst
  · intro hkeeps
    refine ⟨fun nonce => List.nodup_iff_count_le_one.1
      (nodup_granted_run GatewayInv.empty List.nodup_nil hfresh hkeeps) nonce, ?_⟩
    rintro before during later n rfl hn status hst
    rw [FreshNonces, List.append_assoc, Runs.along_append, Runs.along_append] at hfresh
    rw [List.append_assoc, Runs.along_append, Runs.along_append] at hkeeps
    have hinv := gatewayInv_run GatewayInv.empty hfresh.1
    obtain ⟨inv, hstored, hstatus⟩ := Option.map_eq_some_iff.1 hn
    have hconfirmed : StaysConfirmed n (gatewayRun H M cfg before) :=
      ⟨hinv.issued n inv hstored, fun st h => by rw [hn] at h; cases h; rfl⟩
    have hlater := staysConfirmed_run hconfirmed hfresh.2.1 hkeeps.2.1
    exact hlater.status status (by simpa [gatewayRun] using hst)

end Runs

/-! ### Two sweeps overlap -/

/-- A scheme whose invoices outlive the window of a provisional grant. -/
def longInvoices : SendScheme where
  tick := "XCHAIN"
  amount := "5"
  payTo := "shop"
  minConfirmations := .fin 0
  ttlMs := 30 * 60 * 1000
  requireSignature := false
  auth := none

/-- A nonce. -/
def sampleNonce : String := "0123456789abcdef0123456789abcdef"

/-- A request by the payer. -/
def samplePayer : SendProof := ⟨.str sampleNonce, .str "alice", .undefined⟩

/-- An answer that lists some rows. -/
def listing (rows : List Js) : Option Js := some (.obj [("data", .arr rows)])

/-- The payment as the mempool shows it. -/
def mempoolPayment : Js := .obj [("source", .str "alice"), ("tx_hash", .str "f00d"),
  ("data", .str ("SEND|0|XCHAIN|5|shop|" ++ sampleNonce))]

/-- The payment as the index shows it. -/
def indexedPayment : Js := .obj [("source", .str "alice"), ("tx_hash", .str "f00d"),
  ("tick", .str "XCHAIN"), ("amount", .str "5"), ("destination", .str "shop"),
  ("memo", .str sampleNonce), ("block_index", .num (.fin 100)), ("status", .str "valid")]

/-- A provisional grant, two sweeps of which the first closes the window and the second sees the
payment, and another request. -/
def overlappingSweeps : List (ℚ × GatewayOp) := [
  (0, .issue sampleNonce true),
  (1, .verifySend 0 samplePayer),
  (2, .answer 0 (listing [])),
  (3, .answer 0 (listing [mempoolPayment])),
  (4, .answer 0 none),
  (5, .answer 0 none),
  (6, .claim 0 true),
  (600010, .sweep 0 [sampleNonce]),
  (600011, .sweep 1 [sampleNonce]),
  (600012, .sweepAnswer 0 (listing [])),
  (600013, .sweepAnswer 1 (listing [indexedPayment])),
  (600014, .sweepUpdate 1 true),
  (600015, .sweepUpdate 0 true),
  (600016, .verifySend 1 samplePayer),
  (600017, .answer 1 (listing [indexedPayment])),
  (600018, .claim 1 true)]

/-- The first sweep revokes the invoice that the second one confirmed, and the request is granted
once more. -/
theorem overlappingSweeps_not_singleUse :
    FreshNonces plainTextHost plainMath longInvoices overlappingSweeps ∧
      ¬ SingleUse plainTextHost plainMath longInvoices overlappingSweeps ∧
      (gatewayRun plainTextHost plainMath longInvoices overlappingSweeps).granted.count
        sampleNonce = 2 ∧
      (gatewayRun plainTextHost plainMath longInvoices (overlappingSweeps.take 12)).statusOf
        sampleNonce = some .confirmed ∧
      (gatewayRun plainTextHost plainMath longInvoices (overlappingSweeps.take 13)).statusOf
        sampleNonce = some .failed0conf := by
  have hcount : (gatewayRun plainTextHost plainMath longInvoices overlappingSweeps).granted.count
      sampleNonce = 2 := by decide +kernel
  refine ⟨?_, fun h => ?_, hcount, by decide +kernel, by decide +kernel⟩
  · simp [FreshNonces, overlappingSweeps, Runs.Along, FreshNonce, SendGateway.empty]
  · have honce := h.1 sampleNonce
    rw [hcount] at honce
    omega

/-- One call of a run in which nothing overlaps. -/
theorem singleUse_iff_sample :
    SingleUse plainTextHost plainMath longInvoices (overlappingSweeps.take 7) ↔
      Runs.Along (gatewayStep plainTextHost plainMath longInvoices) KeepsSingleUse .empty
        (overlappingSweeps.take 7) :=
  singleUse_iff _ (by
    simp [FreshNonces, overlappingSweeps, Runs.Along, FreshNonce, SendGateway.empty])

end XChainSdk
