import Mathlib
import XChainSdk.Cosigner.DaemonRun

/-!
# The window over whole runs

* `attributeTo_repeats` : a reveal is close to the commit that pays for it.
* `SafeInv`, `safeInv_run` : the invariant of a run.
* `window_safe` : the limits hold for the distinct actions of every interval, a commit and its
  reveals counting as one.
-/

namespace XChainSdk

open Hash
open SlidingWindow (inWindow within recent active Repeats)

variable {H : Host} {M : MathJs} {B : Bitcoin} {D : Decoder} {self : CoSigner B} {hours now : ℚ}
  {policy : Policy} {e : Evaluation} {l : List Published}

/-! ### Rows of a charge -/

theorem jsOfOption_str? {v : Js} (h : IsText v) : jsOfOption v.str? = v := by
  rcases h with rfl | ⟨s, rfl⟩ <;> rfl

/-- The row of a charge holds the token and the amount that were judged. -/
theorem chargeOf_entry (htick : IsText e.tick) (hamount : IsText e.amount) (psbt : Psbt) (now : ℚ) :
    ((chargeOf (B := B) psbt e).entry now).tick = e.tick ∧
      ((chargeOf (B := B) psbt e).entry now).amount = e.amount :=
  ⟨jsOfOption_str? htick, jsOfOption_str? hamount⟩

/-- What the actions of an interval spend of a token. -/
def spentWithin (M : MathJs) (f : Option String) (l : List Published) : ℚ :=
  spending M f (l.map Published.entry)

/-! ### Reveals -/

theorem attributeTo_isSome {own : Charge} (h : RevealMeets hours now l own) :
    ∃ l', attributeTo hours own now l = some l' := by
  obtain ⟨b, hb, hpays⟩ := h
  induction l with
  | nil => cases hb
  | cons a l ih =>
    unfold attributeTo
    split_ifs with ha
    · exact ⟨_, rfl⟩
    · rcases List.mem_cons.1 hb with rfl | hb
      · exact absurd hpays ha
      · obtain ⟨l', hl'⟩ := ih hb
        exact ⟨a :: l', by rw [hl', Option.map_some]⟩

/-- A reveal is added to one action, which pays for it. -/
theorem attributeTo_some {own : Charge} {l' : List Published}
    (h : attributeTo hours own now l = some l') :
    ∃ pre a post, l = pre ++ a :: post ∧ a.paysFor hours now own = true ∧
      l' = pre ++ { a with revealed := a.revealed ++ [now] } :: post := by
  induction l generalizing l' with
  | nil => cases h
  | cons a l ih =>
    unfold attributeTo at h
    split_ifs at h with ha
    · exact ⟨[], a, l, rfl, ha, (Option.some.inj h).symm⟩
    · obtain ⟨r, hr, rfl⟩ := Option.map_eq_some_iff.1 h
      obtain ⟨pre, b, post, rfl, hb, rfl⟩ := ih hr
      exact ⟨a :: pre, b, post, rfl, hb, rfl⟩

theorem within_entries (x : ℚ) (l : List Published) :
    (within Published.t (windowMs hours) x l).map Published.entry =
      within WindowEntry.t (windowMs hours) x (l.map Published.entry) := by
  rw [within, within, List.filter_map]
  rfl

/-- A reveal that its commit pays for keeps the rows. -/
theorem attributeTo_repeats (h : Repeats Published.t Published.revealed (windowMs hours) l)
    (hdated : ∀ b ∈ l, b.t ≤ now) {own : Charge} {l' : List Published}
    (hl : attributeTo hours own now l = some l') :
    Repeats Published.t Published.revealed (windowMs hours) l' ∧
      l'.map Published.entry = l.map Published.entry := by
  obtain ⟨pre, a, post, rfl, hpays, rfl⟩ := attributeTo_some hl
  have hlive : now - windowMs hours ≤ a.t := by
    simp only [Published.paysFor, Bool.and_eq_true, decide_eq_true_eq] at hpays
    exact hpays.2
  exact ⟨h.repeat_now rfl rfl hdated hlive, by simp [Published.entry]⟩

/-! ### The invariant of a run -/

/-- The store accounts for the charges, and the published actions are the charges that returned and
are within the limits. -/
structure SafeInv (M : MathJs) (policy : Policy) (hours now : ℚ) (r : DaemonRun) : Prop where
  store : StoreInv M hours now r.log r.store
  rows : ∀ a ∈ r.log, TextRow M a.entry
  charged : r.published.map Published.entry =
    (r.log.filter Attempt.returned).map Attempt.entry
  dated : ∀ b ∈ r.published, b.t ≤ now
  limits : Limits M policy hours (r.published.map Published.entry)
  repeats : Repeats Published.t Published.revealed (windowMs hours) r.published

variable {r : DaemonRun} {req : Request} {owned : Bool} {outcome : WriteOutcome}

theorem SafeInv.mono {t : ℚ} (ht : t ≤ now) (h : SafeInv M policy hours t r) :
    SafeInv M policy hours now r :=
  ⟨h.store.mono ht, h.rows, h.charged, fun b hb => (h.dated b hb).trans ht, h.limits,
    h.repeats⟩

theorem SafeInv.textRows (h : SafeInv M policy hours now r) :
    ∀ b ∈ r.published, TextRow M b.entry := by
  intro b hb
  have hmem : b.entry ∈ (r.log.filter Attempt.returned).map Attempt.entry :=
    h.charged ▸ List.mem_map_of_mem hb
  obtain ⟨a, ha, hae⟩ := List.mem_map.1 hmem
  rw [← hae]
  exact h.rows a (List.mem_of_mem_filter ha)

/-- The rows that a request is judged on hold the recent actions. -/
theorem SafeInv.judged (h : SafeInv M policy hours now r) {entries : List WindowEntry}
    (hm : r.store.memory = some entries) :
    Judged M hours now (r.published.map Published.entry) (pruned hours now entries) := by
  obtain ⟨kept, hkept, hpruned⟩ := (h.store.memory entries hm).accounted
  refine ⟨?_, ?_, List.forall_mem_map.2 fun b hb => (h.textRows b hb).text,
    List.forall_mem_map.2 h.dated⟩
  · have hsub : ((r.log.filter Attempt.returned).map Attempt.entry).Sublist
        (kept.map Attempt.entry) := by
      rw [← hkept.returned]
      exact List.filter_sublist.map _
    rw [hpruned, pruned_eq_recent, h.charged]
    exact hsub.filter _
  · intro e he
    rw [hpruned] at he
    obtain ⟨a, ha, rfl⟩ := List.mem_map.1 (List.mem_of_mem_filter he)
    exact h.rows a (hkept.sub.subset ha)

theorem fateOf_returned {result : Result} :
    fateOf outcome result = .returned ↔ result = .returned := by
  cases result <;> cases outcome <;> simp [fateOf]

/-- A charge that returned is a row of the log. -/
theorem attemptedCharge_returned {s : Store} {charge : Charge}
    (h : (recordBudget M now owned outcome charge s).2 = .returned) :
    (attemptedCharge M now owned outcome s (some charge)).filter Attempt.returned =
      [⟨charge.entry now, .returned⟩] := by
  cases owned with
  | false => simp [recordBudget] at h
  | true => simp [attemptedCharge, Attempt.returned, fateOf, h]

theorem attemptedCharge_threw {s : Store} {charge : Charge}
    (h : (recordBudget M now owned outcome charge s).2 ≠ .returned) :
    (attemptedCharge M now owned outcome s (some charge)).filter Attempt.returned = [] := by
  cases owned with
  | false => simp [attemptedCharge]
  | true =>
    have hfate : fateOf outcome (recordBudget M now true outcome charge s).2 ≠ .returned :=
      fun hr => h (fateOf_returned.1 hr)
    simp [attemptedCharge, Attempt.returned, hfate]

theorem mem_attemptedCharge {s : Store} {charge : Charge} {a : Attempt}
    (h : a ∈ attemptedCharge M now owned outcome s (some charge)) : a.entry = charge.entry now := by
  cases owned with
  | false => simp [attemptedCharge] at h
  | true =>
    simp only [attemptedCharge, if_true, List.mem_singleton] at h
    rw [h]

/-- What a request's charge passed, from the answer. -/
theorem SafeInv.chargeJudged {self : CoSigner B} (h : SafeInv M self.policy hours now r)
    {approval : Approval} {p : PreparedRequest} {s : Store}
    (hj : judge H M D self hours now req r.store = (.ok (approval, p, some e), s))
    (hrole : hasRole p.env .reveal = false)
    (hm : ChargeMeets M hours now (s.memory.getD []) r.published e) :
    Judged M hours now (r.published.map Published.entry) (s.memory.getD []) ∧
      ChargeJudged M self.policy (totals M (s.memory.getD [])) e ∧ IsText e.amount ∧
      hasRole p.env .cancel = false := by
  obtain ⟨entries, hmem, hprep, hauth, rfl⟩ := judge_ok hj
  have hjudged := h.judged hmem
  obtain ⟨heval, -, -⟩ := authorize_ok hauth
  obtain ⟨hcancel, hpolicy⟩ := evaluateRequest_ok heval
  rw [windowUsageOf_eq hrole] at hpolicy
  simp only [Option.getD_some] at hm ⊢
  obtain ⟨htick, hamount⟩ := evaluatePolicy_isText (prepareRequest_texts hprep) hpolicy
  exact ⟨hjudged, evaluatePolicy_judged htick hjudged.rows hm.toChargeFits hpolicy, hamount, hcancel⟩

/-- A charge, when it returns and when it throws. -/
theorem SafeInv.charge {self : CoSigner B} (h : SafeInv M self.policy hours now r)
    {p : PreparedRequest} {s : Store}
    (hstore : StoreInv M hours now r.log s) {entries : List WindowEntry}
    (hmem : s.memory = some entries)
    (hjudged : Judged M hours now (r.published.map Published.entry) entries)
    (he : ChargeJudged M self.policy (totals M entries) e) (ha : IsText e.amount)
    (hm : ChargeMeets M hours now entries r.published e) (published : List Published)
    (hpub : (recordBudget M now owned outcome (chargeOf (B := B) p.psbt e) s).2 = .returned ∧
        published = r.published ++ [⟨now, chargeOf (B := B) p.psbt e, true, []⟩] ∨
      (recordBudget M now owned outcome (chargeOf (B := B) p.psbt e) s).2 ≠ .returned ∧
        published = r.published) :
    SafeInv M self.policy hours now
      ⟨(recordBudget M now owned outcome (chargeOf (B := B) p.psbt e) s).1,
        r.log ++ attemptedCharge M now owned outcome s (some (chargeOf (B := B) p.psbt e)),
        published⟩ := by
  obtain ⟨htick, hamount⟩ := chargeOf_entry (B := B) he.tick ha p.psbt now
  refine ⟨recordBudget_inv hstore hmem owned outcome _, ?_, ?_, ?_, ?_, ?_⟩
  · intro a ha
    rcases List.mem_append.1 ha with ha | ha
    · exact h.rows a ha
    · rw [mem_attemptedCharge ha]
      exact he.textRow hm.nameable htick hamount
  · rw [List.filter_append, List.map_append]
    rcases hpub with ⟨hr, rfl⟩ | ⟨hr, rfl⟩
    · rw [attemptedCharge_returned hr, List.map_append, h.charged]
      rfl
    · rw [attemptedCharge_threw hr, h.charged, List.map_nil, List.append_nil]
  · rcases hpub with ⟨-, rfl⟩ | ⟨-, rfl⟩
    · intro b hb
      rcases List.mem_append.1 hb with hb | hb
      · exact h.dated b hb
      · rw [List.mem_singleton.1 hb]
    · exact h.dated
  · rcases hpub with ⟨-, rfl⟩ | ⟨-, rfl⟩
    · rw [List.map_append]
      exact h.limits.charge hjudged he hm.toChargeFits htick hamount
    · exact h.limits
  · rcases hpub with ⟨-, rfl⟩ | ⟨-, rfl⟩
    · exact h.repeats.snoc rfl hm.reveals
    · exact h.repeats

/-- A request keeps the invariant when its step meets the condition. -/
theorem request_inv {self : CoSigner B} (h : SafeInv M self.policy hours now r)
    (hm : StepMeets H M D self hours r (now, .request req owned outcome)) :
    SafeInv M self.policy hours now
      (daemonStep H M D self hours r (now, .request req owned outcome)) := by
  have hstore : StoreInv M hours now r.log (judge H M D self hours now req r.store).2 :=
    judge_inv h.store
  unfold daemonStep
  dsimp only
  cases hj : judge H M D self hours now req r.store with
  | mk x s =>
    rw [hj] at hstore
    cases x with
    | error d =>
      rw [process_of_error hj]
      exact ⟨hstore, h.rows, h.charged, h.dated, h.limits, h.repeats⟩
    | ok x =>
      obtain ⟨approval, p, evaluation⟩ := x
      cases evaluation with
      | none =>
        -- a cancel is answered and changes nothing
        have hc : chargeFor (B := B) p none = none := by simp [chargeFor]
        rw [process_of_uncharged hj hc]
        simp only [hc, attemptedCharge, List.append_nil, publish, ite_self]
        exact ⟨hstore, h.rows, h.charged, h.dated, h.limits, h.repeats⟩
      | some e =>
        have hmeets := hm approval p e s hj
        cases hrole : hasRole p.env .reveal with
        | true =>
          rw [if_pos hrole] at hmeets
          obtain ⟨l', hl'⟩ := attributeTo_isSome hmeets
          obtain ⟨hrepeats, hentries⟩ := attributeTo_repeats h.repeats h.dated hl'
          have hc : chargeFor (B := B) p (some e) = none := chargeFor_reveal hrole
          rw [process_of_uncharged hj hc]
          have hpublish : publish hours B now p (some e) r.published = l' := by
            simp [publish, hrole, hl']
          simp only [hc, attemptedCharge, List.append_nil, Except.isOk, Except.toBool, if_true,
            hpublish]
          refine ⟨hstore, h.rows, hentries.trans h.charged, ?_, hentries ▸ h.limits, hrepeats⟩
          intro b hb
          have hmem : b.entry ∈ r.published.map Published.entry :=
            hentries ▸ List.mem_map_of_mem hb
          obtain ⟨b', hb', hbe⟩ := List.mem_map.1 hmem
          have ht : b'.t = b.t := congrArg WindowEntry.t hbe
          exact ht ▸ h.dated b' hb'
        | false =>
          rw [if_neg (by simp [hrole])] at hmeets
          obtain ⟨hjudged, hcharge, hamount, hcancel⟩ := h.chargeJudged hj hrole hmeets
          obtain ⟨entries, hmem, -, -, rfl⟩ := judge_ok hj
          have hc : chargeFor (B := B) p (some e) = some (chargeOf (B := B) p.psbt e) :=
            chargeFor_some hrole hcancel
          obtain ⟨hsnd, hok⟩ := process_of_charged owned outcome hj hc
          rw [hsnd]
          dsimp only
          rw [hc]
          refine h.charge hstore rfl hjudged hcharge hamount hmeets _ ?_
          by_cases hr : (recordBudget M now owned outcome (chargeOf (B := B) p.psbt e)
              { r.store with memory := some (pruned hours now entries) }).2 = .returned
          · exact .inl ⟨hr, by rw [if_pos (hok.2 hr)]; simp [publish, hrole]⟩
          · exact .inr ⟨hr, by rw [if_neg fun h => hr (hok.1 h)]⟩

/-- One step keeps the invariant when it meets the condition. -/
theorem daemonStep_inv {self : CoSigner B} (h : SafeInv M self.policy hours now r) {op : DaemonOp}
    (hm : StepMeets H M D self hours r (now, op)) :
    SafeInv M self.policy hours now (daemonStep H M D self hours r (now, op)) := by
  cases op with
  | request req owned outcome => exact request_inv h hm
  | restart init outcome =>
    exact ⟨start_inv h.store.file init outcome, h.rows, h.charged, h.dated, h.limits, h.repeats⟩

theorem safeInv_empty : SafeInv M policy hours now ⟨⟨.absent, none⟩, [], []⟩ := by
  have hrows : Rows M hours now [] [] := ⟨by simp, by simp, [], Kept.nil, rfl⟩
  exact ⟨⟨⟨[], .inr ⟨rfl, rfl⟩, hrows⟩, fun _ he => nomatch he⟩, by simp, rfl, by simp, Limits.nil,
    ⟨by simp, by simp⟩⟩

theorem AllMeet.nil {self : CoSigner B} : AllMeet H M D self hours [] := by
  intro pre step post h
  simp at h

theorem AllMeet.snoc {self : CoSigner B} {ops : List (ℚ × DaemonOp)} {step : ℚ × DaemonOp}
    (h : AllMeet H M D self hours ops)
    (hs : StepMeets H M D self hours (daemonRun H M D self hours ops) step) :
    AllMeet H M D self hours (ops ++ [step]) := by
  intro pre s post heq
  rcases post.eq_nil_or_concat with rfl | ⟨post', last, rfl⟩
  · obtain ⟨rfl, hlast⟩ := List.append_inj' heq rfl
    cases hlast
    exact hs
  · rw [List.concat_eq_append, ← List.cons_append, ← List.append_assoc] at heq
    exact h pre s post' (List.append_inj' heq rfl).1

theorem stepMeets_restart {self : CoSigner B} {init : Bool} :
    StepMeets H M D self hours r (now, .restart init outcome) := trivial

theorem AllMeet.prefix {self : CoSigner B} {ops : List (ℚ × DaemonOp)} {step : ℚ × DaemonOp}
    (h : AllMeet H M D self hours (ops ++ [step])) : AllMeet H M D self hours ops := by
  intro pre s post heq
  exact h pre s (post ++ [step]) (by simp [heq])

/-- The induction is on the steps, the last one first; the invariant is kept at its time. -/
theorem safeInv_run {self : CoSigner B} {ops : List (ℚ × DaemonOp)}
    (hsorted : (ops.map Prod.fst).Pairwise (· ≤ ·)) (hle : ∀ s ∈ ops, s.1 ≤ now)
    (hm : AllMeet H M D self hours ops) :
    SafeInv M self.policy hours now (daemonRun H M D self hours ops) := by
  induction ops using List.reverseRecOn generalizing now with
  | nil => exact safeInv_empty
  | append_singleton ops step ih =>
    rw [List.map_append, List.pairwise_append] at hsorted
    have hbefore : SafeInv M self.policy hours step.1 (daemonRun H M D self hours ops) :=
      ih hsorted.1 (fun x hx => hsorted.2.2 x.1 (List.mem_map_of_mem hx) step.1 (by simp))
        hm.prefix
    have hrun : daemonRun H M D self hours (ops ++ [step]) =
        daemonStep H M D self hours (daemonRun H M D self hours ops) step := by
      rw [daemonRun, List.foldl_append]
      rfl
    rw [hrun]
    exact (daemonStep_inv hbefore (hm ops step [] rfl)).mono (hle step (by simp))

/-! ### The limits of every interval -/

/-- The actions of the interval that starts at `x`, at their own time or at a reveal. -/
def activeIn (hours x : ℚ) (l : List Published) : List Published :=
  l.filter (active Published.t Published.revealed (windowMs hours) x)

theorem spentWithin_mono {l' : List Published} (f : Option String)
    (hrows : ∀ b ∈ l', TextRow M b.entry) (h : l.Sublist l') :
    spentWithin M f l ≤ spentWithin M f l' := by
  refine spending_mono ?_ (h.map _)
  intro e he
  obtain ⟨b, hb, rfl⟩ := List.mem_map.1 he
  exact hrows b hb

/-- **Window safety over whole runs.**  In every interval of the window's length the actions that
were authorized, a commit and its reveals counting as one, are no more than the policy allows, and
of each token they spend no more than its cap. -/
theorem window_safe (H : Host) (M : MathJs) (D : Decoder) (self : CoSigner B) (hours : ℚ)
    (ops : List (ℚ × DaemonOp)) (hclock : (ops.map Prod.fst).Pairwise (· ≤ ·))
    (hmeet : AllMeet H M D self hours ops) (x : ℚ) :
    (∀ win q, self.policy.maxPerWindow = some win → win.maxActions = some (.fin q) → 0 ≤ q →
      ((activeIn hours x (daemonRun H M D self hours ops).published).length : ℚ) ≤ q) ∧
    ∀ b ∈ activeIn hours x (daemonRun H M D self hours ops).published,
      isUndefined b.entry.amount = false →
      ∀ c, windowCap M self.policy b.entry.tick = some c →
        spentWithin M (tickFold b.entry.tick)
          (activeIn hours x (daemonRun H M D self hours ops).published) ≤ c := by
  obtain ⟨now, hnow⟩ : ∃ now, ∀ s ∈ ops, s.1 ≤ now := by
    rcases ops.eq_nil_or_concat with rfl | ⟨pre, last, rfl⟩
    · exact ⟨0, by simp⟩
    · refine ⟨last.1, fun s hs => ?_⟩
      rw [List.concat_eq_append, List.map_append, List.pairwise_append] at hclock
      rw [List.concat_eq_append] at hs
      rcases List.mem_append.1 hs with hs | hs
      · exact hclock.2.2 s.1 (List.mem_map_of_mem hs) last.1 (by simp)
      · rw [List.mem_singleton.1 hs]
  have hinv := safeInv_run hclock hnow hmeet
  obtain ⟨y, hsub, hmem⟩ := hinv.repeats.active_sublist x
  refine ⟨fun win q hwin hmax h0 => ?_, fun b hb hdef c hc => ?_⟩
  · have hlen : ((activeIn hours x (daemonRun H M D self hours ops).published).length : ℚ) ≤
        (within Published.t (windowMs hours) y
          (daemonRun H M D self hours ops).published).length := by
      exact_mod_cast hsub.length_le
    have hcount := hinv.limits.count win q hwin hmax h0 y
    rw [← within_entries, List.length_map] at hcount
    exact hlen.trans hcount
  · have hle := spentWithin_mono (M := M) (tickFold b.entry.tick)
      (fun b' hb' => hinv.textRows b' (List.mem_of_mem_filter hb')) hsub
    have hspend := hinv.limits.spend y b.entry
    rw [← within_entries] at hspend
    exact hle.trans (hspend (List.mem_map_of_mem (hsub.subset hb)) hdef c hc)

/-! ### Reveals of foreign commits -/

/-- The script of the only commit output. -/
def sampleCommit : Bytes := 0x51 :: 0x20 :: List.replicate 32 8

/-- The same library, with one commit output; a transaction is named by its first input. -/
def revealBitcoin : Bitcoin :=
  { sampleBitcoin with
    getId := fun psbt => psbt.txInputs.head?.map fun inp => toHex inp.hash
    p2tr := fun _ _ => some ⟨sampleCommit, []⟩ }

/-- A co-signer of one transfer a day. -/
def dailyCoSigner : CoSigner revealBitcoin where
  policy := {
    allowedActions := ["SEND"]
    maxPerWindow := some { hours := 24, maxActions := some (.fin 1) } }
  allowConfirmable := false
  allowedOutputs := []
  maxFeeSats := some 500
  maxCosignInputs := 32
  accountScript := sampleAccount
  internalXOnly := List.replicate 32 7
  tweaks := []
  recoveryLeaves := none

/-- A leaf script with a payload of two bytes. -/
def sampleEnvelope : Bytes :=
  [0x00, 0x63, 0x04] ++ ENVELOPE_MAGIC ++ [0x01, 0x00, 0x02, 0x41, 0x42, 0x68, 0x20] ++
    List.replicate 32 7 ++ [0xac]

/-- Every transaction and every envelope carries ten units of a token. -/
def tenDecoder : Decoder where
  decodeActionFromPsbt _ := .ok (sendTen "TOK")
  decodeEnvelopeAction _ := .ok (sendTen "TOK")
  texts := sendTen_texts "TOK"
  envelopeTexts := sendTen_texts "TOK"

/-- The request to sign a transaction with one input. -/
def requestOf (input : PsbtInput) (outputs : List TxOut) : Request where
  psbt := .psbt { version := 2, locktime := 0, txInputs := [input], txOutputs := outputs }
  inputs := .arr [.obj [("index", .num (.fin 0)), ("agentPublicNonce", .str "02")]]
  envelope := some (.bytes sampleEnvelope)

/-- Funds a commit from the account. -/
def commitRequest : Request :=
  requestOf ⟨List.replicate 32 9, 0, 0xffffffff, some ⟨sampleAccount, 10000⟩, []⟩
    [⟨sampleCommit, 400⟩, ⟨sampleAccount, 9500⟩]

/-- Reveals the commit of this transaction. -/
def revealRequest (commit : UInt8) : Request :=
  requestOf ⟨List.replicate 32 commit, 0, 0xffffffff, some ⟨sampleCommit, 10000⟩,
    [⟨0xc0, sampleEnvelope⟩]⟩ [⟨sampleAccount, 9600⟩]

/-- A daemon starts, funds a commit and reveals it. -/
def commitAndReveal : List (ℚ × DaemonOp) :=
  [(0, .restart true .written), (1, .request commitRequest true .written),
    (2, .request (revealRequest 9) true .written)]

/-- A daemon starts and reveals two commits that it never charged. -/
def foreignReveals : List (ℚ × DaemonOp) :=
  [(0, .restart true .written), (1, .request (revealRequest 1) true .written),
    (2, .request (revealRequest 2) true .written)]


/-- An approved reveal is paid for. -/
def revealPaid (r : DaemonRun) (now : ℚ) (req : Request) : Bool :=
  match judge plainHost plainMath tenDecoder dailyCoSigner 24 now req r.store with
  | (.ok (_, p, some e), _) => hasRole p.env .reveal && r.published.any
      (Published.paysFor 24 now (commitChargeOf (B := revealBitcoin) p e))
  | _ => false

/-- An approved charge of ten units on an empty window. -/
def chargesTen (r : DaemonRun) (now : ℚ) (req : Request) : Bool :=
  match judge plainHost plainMath tenDecoder dailyCoSigner 24 now req r.store with
  | (.ok (_, p, some e), s) => !hasRole p.env .reveal && e.tick.str? == some "TOK" &&
      e.amount.toText == "10" && (s.memory.getD []).isEmpty && r.published.isEmpty
  | _ => false

theorem stepMeets_reveal {r : DaemonRun} {now : ℚ} {req : Request} {owned : Bool}
    {outcome : WriteOutcome} (h : revealPaid r now req = true) :
    StepMeets plainHost plainMath tenDecoder dailyCoSigner 24 r
      (now, .request req owned outcome) := by
  intro approval p e s hj
  unfold revealPaid at h
  rw [hj] at h
  obtain ⟨hrole, hpaid⟩ := Bool.and_eq_true_iff.1 h
  rw [if_pos hrole]
  exact List.any_eq_true.1 hpaid

theorem stepMeets_charge {r : DaemonRun} {now : ℚ} {req : Request} {owned : Bool}
    {outcome : WriteOutcome} (h : chargesTen r now req = true) :
    StepMeets plainHost plainMath tenDecoder dailyCoSigner 24 r
      (now, .request req owned outcome) := by
  intro approval p e s hj
  unfold chargesTen at h
  rw [hj] at h
  simp only [Bool.and_eq_true, Bool.not_eq_true', beq_iff_eq, List.isEmpty_iff] at h
  obtain ⟨⟨⟨⟨hrole, htick⟩, hamount⟩, hrows⟩, hpub⟩ := h
  have ht : e.tick = .str "TOK" := by
    cases hc : e.tick <;> simp_all [Js.str?]
  rw [if_neg (by simp [hrole]), hrows, hpub]
  exact ⟨chargeFits_ten ht hamount, by simp⟩

theorem commitAndReveal_meets :
    AllMeet plainHost plainMath tenDecoder dailyCoSigner 24 commitAndReveal :=
  ((AllMeet.nil.snoc stepMeets_restart).snoc (stepMeets_charge (by decide))).snoc
    (stepMeets_reveal (by decide +kernel))

theorem window_safe_commitAndReveal :
    ((activeIn 24 0 (daemonRun plainHost plainMath tenDecoder dailyCoSigner 24
      commitAndReveal).published).length : ℚ) ≤ 1 :=
  (window_safe plainHost plainMath tenDecoder dailyCoSigner 24 commitAndReveal
    (by decide) commitAndReveal_meets 0).1 _ 1 rfl rfl (by norm_num)

/-- Two reveals a day are approved where one action is allowed. -/
theorem foreign_reveals_uncounted :
    ¬ ∀ (H : Host) (M : MathJs) (B : Bitcoin) (D : Decoder) (self : CoSigner B) (hours : ℚ)
      (ops : List (ℚ × DaemonOp)) (x : ℚ), (ops.map Prod.fst).Pairwise (· ≤ ·) →
      ∀ win q, self.policy.maxPerWindow = some win → win.maxActions = some (.fin q) → 0 ≤ q →
        ((activeIn hours x (daemonRun H M D self hours ops).published).length : ℚ) ≤ q := by
  intro hall
  have hle := hall plainHost plainMath revealBitcoin tenDecoder dailyCoSigner 24 foreignReveals 0
    (by decide) _ 1 rfl rfl (by norm_num)
  have hlen : (activeIn 24 0 (daemonRun plainHost plainMath tenDecoder dailyCoSigner 24
      foreignReveals).published).length = 2 := by decide +kernel
  rw [hlen] at hle
  norm_num at hle

end XChainSdk
