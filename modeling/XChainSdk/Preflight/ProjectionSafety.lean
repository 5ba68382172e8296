import XChainSdk.Js.Blanks
import XChainSdk.Js.Precision
import XChainSdk.Preflight.BatchProjection
import XChainSdk.Preflight.FeeBudget
import XChainSdk.Preflight.SourceLedger

/-!
# When the projection of a batch is safe

* `OnGrid`, `Small` : amounts on which the arithmetic of the checks is exact.
* `ChainView`, `ChainView.read` : the command of the ledger that a command of the batch is.
* `Fair` : **what a step must not do**: fail, issue a token for the second time, or credit a token
  or an address under a name that the later lookups do not follow.
* `checkBatch_neverFalseBlocks` : **in a run of fair steps every reported shortfall is one**.
-/

namespace XChainSdk

/-! ### Amounts without rounding -/

/-- Multiples of the last of `k` decimals. -/
def OnGrid (k : ℕ) (q : ℚ) : Prop := ∃ z : ℤ, q = z / 10 ^ k

/-- With `k` decimals, no more than 64 digits. -/
def Small (k : ℕ) (q : ℚ) : Prop := q * 10 ^ k ≤ 10 ^ 64

section Grid

variable {k : ℕ} {p q : ℚ}

theorem onGrid_zero (k : ℕ) : OnGrid k 0 := ⟨0, by simp⟩

theorem OnGrid.add (hp : OnGrid k p) (hq : OnGrid k q) : OnGrid k (p + q) := by
  obtain ⟨y, rfl⟩ := hp
  obtain ⟨z, rfl⟩ := hq
  exact ⟨y + z, by push_cast; ring⟩

theorem OnGrid.neg (hq : OnGrid k q) : OnGrid k (-q) := by
  obtain ⟨z, rfl⟩ := hq
  exact ⟨-z, by push_cast; ring⟩

theorem Small.mono (hq : Small k q) (h : p ≤ q) : Small k p :=
  (mul_le_mul_of_nonneg_right h (by positivity)).trans hq

/-- Such a number is neither rounded nor unreadable. -/
theorem exact_of_small (hq : OnGrid k q) (hsmall : Small k |q|) :
    roundSig BIGNUMBER_PRECISION q = q ∧ readable q = q := by
  have hpow : (1 : ℚ) ≤ 10 ^ k := one_le_pow₀ (by norm_num)
  constructor
  · refine roundSig_of_fits ((fitsSig_iff (by decide)).2 ?_)
    obtain ⟨z, rfl⟩ := hq
    refine ⟨z, -k, ?_, by rw [zpow_neg, zpow_natCast]; rfl⟩
    have hz : (|z| : ℚ) ≤ 10 ^ 64 := by
      rw [Small, abs_div, abs_of_pos (by positivity : (0 : ℚ) < 10 ^ k),
        div_mul_cancel₀ _ (by positivity)] at hsmall
      exact hsmall
    exact_mod_cast hz
  · refine readable_of_abs_le ?_
    have hle : |q| * 1 ≤ |q| * 10 ^ k := mul_le_mul_of_nonneg_left hpow (abs_nonneg q)
    rw [mul_one] at hle
    exact hle.trans hsmall

end Grid

section Exact

variable {M : MathJs} {k : ℕ} {s t u : String} {p q : ℚ}

theorem sub_exact (hs : Spells s p) (ht : Spells t q) (hp : OnGrid k p) (hq : OnGrid k q)
    (hsmall : Small k (|p| + |q|)) (h : Numeric.sub M (.str s) (.str t) = some u) :
    Spells u (p - q) := by
  have hp' := exact_of_small hp (hsmall.mono (le_add_of_nonneg_right (abs_nonneg q)))
  have hq' := exact_of_small hq (hsmall.mono (le_add_of_nonneg_left (abs_nonneg p)))
  have hround := (exact_of_small (hp.add hq.neg) (hsmall.mono (by
    rw [← abs_neg q]
    exact abs_add_le p (-q)))).1
  have hu : some (toFixed (p - q)) = some u := by
    rw [← h]
    simp [Numeric.sub, hs.bcnum M, ht.bcnum M, hp'.2, hq'.2, JsNum.minus, JsNum.plus,
      JsNum.toFixedText, sub_eq_add_neg, hround]
  cases hu
  refine spells_toFixed ?_
  rw [sub_eq_add_neg, ← hround]
  exact isDecimal_roundSig _ _

theorem add_exact (hs : Spells s p) (ht : Spells t q) (hp : OnGrid k p) (hq : OnGrid k q)
    (hsmall : Small k (|p| + |q|)) (h : Numeric.add M (.str s) (.str t) = some u) :
    Spells u (p + q) := by
  have hp' := exact_of_small hp (hsmall.mono (le_add_of_nonneg_right (abs_nonneg q)))
  have hq' := exact_of_small hq (hsmall.mono (le_add_of_nonneg_left (abs_nonneg p)))
  have hround := (exact_of_small (hp.add hq) (hsmall.mono (abs_add_le p q))).1
  obtain ⟨v, hv, hspells⟩ := Numeric.add_of_spells (M := M) hs ht
  obtain rfl := Option.some.inj (hv.symm.trans h)
  rw [hp'.2, hq'.2, hround] at hspells
  exact hspells

end Exact

/-! ### The ledger's view of a command -/

/-- The number that an amount spells. -/
def plainValue (s : String) : ℚ := (decimalText s).getD 0

theorem spells_plainValue {s : String} (h : isNonNegativeDecimal s = true) :
    Spells s (plainValue s) ∧ 0 ≤ plainValue s := by
  obtain ⟨q, hq, h0, -⟩ := decimalText_of_isNonNegativeDecimal h
  rw [plainValue, hq]
  exact ⟨.inl ⟨h, hq⟩, h0⟩

/-- How the chain reads names, addresses and issuances. -/
structure ChainView (T : Type) where
  /-- The token that a spelling names. -/
  token : String → T
  /-- The spelling names the source. -/
  isSource : String → Bool
  /-- What a first issuance under a name takes from the balance. -/
  fee : String → ℚ

namespace ChainView

variable {T : Type} (V : ChainView T)

/-- The gas token. -/
def gas : T := V.token GAS_TICK

/-- The parameter names the source, or is left out. -/
def defaultsToSource (v : Js) : Bool := !v.truthy || V.isSource v.toText

/-- One leg. -/
def leg (l : LegLists) (i : ℕ) : SpendLeg T :=
  ⟨V.token (l.tick i), plainValue (l.amount i), (l.dest i).any V.isSource⟩

/-- Every leg has a token and an amount. -/
def wellFormedLegs (l : LegLists) : Bool :=
  (List.range l.count).all fun i => l.tick i != "" && isNonNegativeDecimal (l.amount i)

/-- The legs of a command; a `DESTROY` keeps none of them. -/
def readLegs (l : LegLists) (keeps : Bool) : LedgerCommand T :=
  if wellFormedLegs l then
    .spend ((List.range l.count).map fun i =>
      { V.leg l i with toSource := keeps && (V.leg l i).toSource })
  else .invalid

/-- `MINT` -/
def readMint (p : List (String × Js)) : LedgerCommand T :=
  match (legLists p).ticks.head?, (legLists p).amounts.head? with
  | some tick, some amount =>
    if isNonNegativeDecimal amount.toText then
      .mint (V.token tick.toText) (plainValue amount.toText)
        (V.defaultsToSource (Js.member p "DESTINATION"))
    else .invalid
  | _, _ => .invalid

/-- `ISSUE` -/
def readIssue (p : List (String × Js)) : LedgerCommand T :=
  let supply := Js.member p "MINT_SUPPLY"
  match (legLists p).ticks.head? with
  | none => .invalid
  | some tick =>
    if isScalarSupply supply ∧ isNonNegativeDecimal supply.toText = false then .invalid
    else .issue (V.token tick.toText) (V.fee (trim tick.toText))
      (if isScalarSupply supply then plainValue supply.toText else 0)
      (V.defaultsToSource (Js.member p "TRANSFER_SUPPLY"))

/-- What the ledger makes of a command; one that does not parse does nothing. -/
def read : Option BatchCommand → LedgerCommand T
  | none => .invalid
  | some cmd =>
    if cmd.action = "MINT" then V.readMint cmd.params
    else if cmd.action = "ISSUE" then V.readIssue cmd.params
    else if cmd.action = "SEND" then V.readLegs (legLists cmd.params) true
    else if cmd.action = "DESTROY" then V.readLegs (legLists cmd.params) false
    else .invalid

end ChainView

/-- The amounts of a command have no more than `k` decimals. -/
def LedgerCommand.OnGrid {T : Type} (k : ℕ) : LedgerCommand T → Prop
  | invalid => True
  | mint _ amount _ => XChainSdk.OnGrid k amount
  | issue _ fee supply _ => XChainSdk.OnGrid k fee ∧ XChainSdk.OnGrid k supply
  | spend legs => ∀ l ∈ legs, XChainSdk.OnGrid k l.amount

/-- The schedule price of an issuance. -/
def scheduleFee (gas : GasConfig) (name : String) : ℚ :=
  ((if classifyIssueTick (some name) = CHILD_ISSUE_KEY then gas.ISSUE_SUBTOKEN else gas.ISSUE).getD
    0 : ℕ) * plainValue gas.gasPrice

section Model

variable {T : Type} [DecidableEq T] (H : Host) (M : MathJs) (ctx : ProjectionContext)
  (V : ChainView T) (start : SourceLedger T)

/-- The lookups answer what the chain holds. -/
structure Mirrors : Prop where
  /-- The context's balance before the batch. -/
  balance : ∀ tick amount, ctx.balance M ctx.localDeltas tick = some (some amount) →
    Spells amount (start.balance (V.token tick))
  resolved : ∀ tick name, ctx.resolvedName tick = some name → V.token name = V.token tick
  trimmed : ∀ name, V.token (trim name) = V.token name
  absent : ∀ name, ctx.token name = .absent → start.issued (V.token name) = false
  fee_nonneg : ∀ name, 0 ≤ V.fee name
  /-- Issuances cost the price of the schedule, but for that of the gas token. -/
  fee : ∀ gas, gasConfig ctx.network = some gas →
    xchainFeeDebit ctx.feeMode (gasConfig ctx.network) = true → ∀ name,
    H.toUpperCase name ≠ H.toUpperCase GAS_TICK → V.fee name = scheduleFee gas name

/-- The spellings under which a command is checked for a balance. -/
def checkedTicks : Option BatchCommand → List String
  | none => []
  | some cmd =>
    if cmd.action = "SEND" ∨ cmd.action = "DESTROY" then
      (legLists cmd.params).legs.map (legLists cmd.params).tick
    else []

/-- What a step, in a state of the ledger, must be for a later check under that spelling. -/
structure Fair (s : SourceLedger T) (tick : String) (cmd : Option BatchCommand) : Prop where
  /-- It succeeds, or takes nothing of the token. -/
  succeeds : (V.read cmd).Lacks V.gas s → (V.read cmd).debit V.gas s (V.token tick) = 0
  /-- The batch has not issued the token before, where the fee is of the checked token. -/
  firstIssue : ∀ token fee supply toSource, V.read cmd = .issue token fee supply toSource →
    V.token tick = V.gas → s.issued token = start.issued token
  /-- A credit of the token goes to the source, and by a name that the check follows. -/
  mint : ∀ c, cmd = some c → c.action = "MINT" → (V.read cmd).credit (V.token tick) ≠ 0 →
    textOr (Js.member c.params "DESTINATION") ctx.source = ctx.source ∧
      ∀ name ∈ (legLists c.params).ticks.head?, ctx.names tick name.toText = true
  issue : ∀ c, cmd = some c → c.action = "ISSUE" → (V.read cmd).credit (V.token tick) ≠ 0 →
    textOr (Js.member c.params "TRANSFER_SUPPLY") ctx.source = ctx.source ∧
      ∀ name ∈ (legLists c.params).ticks.head?, ctx.names tick name.toText = true
  /-- A leg that comes back is addressed to the source as the source is written. -/
  send : ∀ c, cmd = some c → c.action = "SEND" → ∀ i ∈ (legLists c.params).legs,
    V.token ((legLists c.params).tick i) = V.token tick →
    ((legLists c.params).dest i).any V.isSource = true →
    (legLists c.params).dest i = some ctx.source

/-- Every step is fair to the checks behind it. -/
def FairRun : SourceLedger T → List (Option BatchCommand) → Prop
  | _, [] => True
  | s, cmd :: cmds => (∀ tick ∈ cmds.flatMap checkedTicks, Fair ctx V start s tick cmd) ∧
    FairRun (SourceLedger.apply V.gas s (V.read cmd)) cmds

variable {H M ctx V start} {k : ℕ} {s : SourceLedger T} {tick : String}

/-! ### One step of the projection -/

/-- What a delta takes from the balance. -/
def ProjectedDelta.value (d : ProjectedDelta) : ℚ :=
  if d.credits then -plainValue d.amount else plainValue d.amount

/-- What the deltas take from the balance that is checked under a spelling. -/
def netted (ctx : ProjectionContext) (tick : String) (ds : List ProjectedDelta) : ℚ :=
  (ds.map fun d => if ctx.names tick d.tick = true then d.value else 0).sum

/-- The amounts of the deltas are plain, and no more than the command moves. -/
structure Plain (k : ℕ) (ds : List ProjectedDelta) (volume : ℚ) : Prop where
  plain : ∀ d ∈ ds, isNonNegativeDecimal d.amount = true ∧ OnGrid k (plainValue d.amount)
  sum : (ds.map fun d => plainValue d.amount).sum ≤ volume

/-- A step takes no less than its deltas say. -/
def TakesAtLeast (ctx : ProjectionContext) (V : ChainView T) (start : SourceLedger T)
    (cmd : Option BatchCommand) (ds : List ProjectedDelta) : Prop :=
  ∀ s tick, Fair ctx V start s tick cmd →
    netted ctx tick ds ≤ s.balance (V.token tick) -
      (SourceLedger.apply V.gas s (V.read cmd)).balance (V.token tick)

/-- What a command takes in the end. -/
theorem balance_drop (gas : T) (s : SourceLedger T) (c : LedgerCommand T) (t : T) :
    s.balance t - (SourceLedger.apply gas s c).balance t =
      if c.Lacks gas s then 0 else c.debit gas s t - c.credit t := by
  by_cases h : c.Lacks gas s
  · rw [SourceLedger.apply_of_lacks gas h, if_pos h, sub_self]
  · rw [SourceLedger.balance_apply gas h, if_neg h]
    ring

theorem plainValue_nonneg {s : String} (h : isNonNegativeDecimal s = true) : 0 ≤ plainValue s :=
  (spells_plainValue h).2

omit [DecidableEq T] in
/-- What a valid `MINT` says. -/
theorem readMint_valid {p : List (String × Js)} (h : V.readMint p ≠ .invalid) :
    ∃ name amount, (legLists p).ticks.head? = some name ∧ (legLists p).amounts.head? = some amount ∧
      isNonNegativeDecimal amount.toText = true ∧
      V.readMint p = .mint (V.token name.toText) (plainValue amount.toText)
        (V.defaultsToSource (Js.member p "DESTINATION")) := by
  simp only [ChainView.readMint] at h ⊢
  cases hticks : (legLists p).ticks.head? with
  | none => simp [hticks] at h
  | some name =>
    cases hamounts : (legLists p).amounts.head? with
    | none => simp [hticks, hamounts] at h
    | some amount =>
      cases hplain : isNonNegativeDecimal amount.toText with
      | false => simp [hticks, hamounts, hplain] at h
      | true => exact ⟨name, amount, rfl, rfl, hplain, by simp [hplain]⟩

/-- A `MINT` is credited where the ledger credits it. -/
theorem projectMint_spec {cmd : BatchCommand} (haction : cmd.action = "MINT")
    (hvalid : V.read (some cmd) ≠ .invalid) (hgrid : (V.read (some cmd)).OnGrid k) :
    Plain k (projectMintDeltas ctx cmd.params) (V.read (some cmd)).volume ∧
      TakesAtLeast ctx V start (some cmd) (projectMintDeltas ctx cmd.params) := by
  have hread : V.read (some cmd) = V.readMint cmd.params := if_pos haction
  obtain ⟨name, amount, hname, hamount, hplain, hmint⟩ := readMint_valid (hread ▸ hvalid)
  rw [hread, hmint] at hgrid
  have hnonneg := plainValue_nonneg hplain
  have hds : projectMintDeltas ctx cmd.params =
      if textOr (Js.member cmd.params "DESTINATION") ctx.source = ctx.source then
        [⟨name.toText, amount.toText, true⟩] else [] := by
    simp only [projectMintDeltas, hname, hamount, ite_not]
  constructor
  · rw [hread, hmint, hds]
    split_ifs
    · refine ⟨fun d hd => ?_, by simp [LedgerCommand.volume]⟩
      obtain rfl := List.mem_singleton.1 hd
      exact ⟨hplain, hgrid⟩
    · exact ⟨fun d hd => absurd hd List.not_mem_nil, by simpa [LedgerCommand.volume] using hnonneg⟩
  · intro s tick hfair
    have hlacks : ¬(V.read (some cmd)).Lacks V.gas s := by
      rw [hread, hmint]
      rintro ⟨t, ht, -⟩
      cases ht
    rw [balance_drop, if_neg hlacks]
    have hdebit : (V.read (some cmd)).debit V.gas s (V.token tick) = 0 := by
      rw [hread, hmint]
      rfl
    rw [hdebit, zero_sub]
    by_cases hcredit : (V.read (some cmd)).credit (V.token tick) = 0
    · -- nothing is credited, and the projection takes nothing
      rw [hcredit, neg_zero, netted, hds]
      split_ifs
      · simp only [List.map_cons, List.map_nil, List.sum_cons, List.sum_nil, add_zero]
        split_ifs
        · simpa [ProjectedDelta.value] using hnonneg
        · exact le_rfl
      · exact le_rfl
    · obtain ⟨hdest, hnames⟩ := hfair.mint cmd rfl haction hcredit
      have hle : (V.read (some cmd)).credit (V.token tick) ≤ plainValue amount.toText := by
        rw [hread, hmint, LedgerCommand.credit]
        split_ifs
        · exact le_rfl
        · exact hnonneg
      have hnet : netted ctx tick (projectMintDeltas ctx cmd.params) =
          -plainValue amount.toText := by
        rw [netted, hds, if_pos hdest]
        simp [hnames name hname, ProjectedDelta.value]
      rw [hnet]
      exact neg_le_neg hle

omit [DecidableEq T] in
/-- What a valid list of legs says: no leg is passed over. -/
theorem readLegs_valid {l : LegLists} {keeps : Bool} (h : V.readLegs l keeps ≠ .invalid) :
    l.legs = List.range l.count ∧
      (∀ i ∈ l.legs, isNonNegativeDecimal (l.amount i) = true) ∧
      V.readLegs l keeps = .spend (l.legs.map fun i =>
        { V.leg l i with toSource := keeps && (V.leg l i).toSource }) := by
  rw [ChainView.readLegs] at h ⊢
  by_cases hwell : ChainView.wellFormedLegs l = true
  · have hall : ∀ i ∈ List.range l.count,
        l.tick i ≠ "" ∧ isNonNegativeDecimal (l.amount i) = true := fun i hi => by
      simpa using List.all_eq_true.1 hwell i hi
    have hlegs : l.legs = List.range l.count := by
      refine List.filter_eq_self.2 fun i hi => ?_
      have hamount : l.amount i ≠ "" := fun he => by
        have hplain := (hall i hi).2
        rw [he] at hplain
        exact absurd hplain (by decide)
      simp [(hall i hi).1, hamount]
    refine ⟨hlegs, ?_, by rw [if_pos hwell, hlegs]⟩
    rw [hlegs]
    exact fun i hi => (hall i hi).2
  · exact absurd (if_neg hwell) h

/-- What the legs of a token take, where some of them come back. -/
theorem sum_legs_le {l : LegLists} {is : List ℕ} {keeps : Bool}
    (hplain : ∀ i ∈ is, isNonNegativeDecimal (l.amount i) = true)
    (hnames : ∀ name, ctx.names tick name = true → V.token name = V.token tick)
    (f : ℕ → ℚ)
    (hf : ∀ i ∈ is, ctx.names tick (l.tick i) = true →
      f i ≤ if (keeps && (l.dest i).any V.isSource) = true then 0 else plainValue (l.amount i)) :
    (is.map fun i => if ctx.names tick (l.tick i) = true then f i else 0).sum ≤
      (is.map fun i => if V.token (l.tick i) = V.token tick then plainValue (l.amount i)
          else 0).sum -
        (is.map fun i => if V.token (l.tick i) = V.token tick ∧
          (keeps && (l.dest i).any V.isSource) = true then plainValue (l.amount i) else 0).sum := by
  induction is with
  | nil => simp
  | cons i is ih =>
    rw [List.forall_mem_cons] at hplain hf
    have hrest := ih hplain.2 hf.2
    have hnonneg := plainValue_nonneg hplain.1
    have hone : (if ctx.names tick (l.tick i) = true then f i else 0) ≤
        (if V.token (l.tick i) = V.token tick then plainValue (l.amount i) else 0) -
          if V.token (l.tick i) = V.token tick ∧ (keeps && (l.dest i).any V.isSource) = true then
            plainValue (l.amount i) else 0 := by
      by_cases hname : ctx.names tick (l.tick i) = true
      · have hle := hf.1 hname
        rw [if_pos hname, if_pos (hnames _ hname)]
        simp only [hnames _ hname, true_and]
        split_ifs at hle ⊢ <;> linarith
      · rw [if_neg hname]
        split_ifs with h1 h2 h2
        · exact (sub_self _).ge
        · simpa using hnonneg
        · exact absurd h2.1 h1
        · exact (sub_self _).ge
    simp only [List.map_cons, List.sum_cons]
    linarith

theorem netted_append (ds es : List ProjectedDelta) :
    netted ctx tick (ds ++ es) = netted ctx tick ds + netted ctx tick es := by
  simp [netted]

theorem netted_flatMap (is : List ℕ) (g : ℕ → List ProjectedDelta) :
    netted ctx tick (is.flatMap g) = (is.map fun i => netted ctx tick (g i)).sum := by
  induction is with
  | nil => rfl
  | cons i is ih => rw [List.flatMap_cons, netted_append, ih, List.map_cons, List.sum_cons]

/-- A spend takes what its deltas say, if a leg that the projection keeps does not come back. -/
theorem takes_of_legs {cmd : BatchCommand} {l : LegLists} {keeps : Bool} {ds : List ProjectedDelta}
    (hread : V.read (some cmd) = V.readLegs l keeps) (hvalid : V.read (some cmd) ≠ .invalid)
    (hnames : ∀ tick name, ctx.names tick name = true → V.token name = V.token tick) (f : ℕ → ℚ)
    (hds : ∀ tick, netted ctx tick ds =
      (l.legs.map fun i => if ctx.names tick (l.tick i) = true then f i else 0).sum)
    (hle : ∀ i ∈ l.legs, f i ≤ plainValue (l.amount i))
    (hf : ∀ s tick, Fair ctx V start s tick (some cmd) → ∀ i ∈ l.legs,
      ctx.names tick (l.tick i) = true → (keeps && (l.dest i).any V.isSource) = true → f i ≤ 0) :
    TakesAtLeast ctx V start (some cmd) ds := by
  intro s tick hfair
  obtain ⟨-, hplain, hspend⟩ := readLegs_valid (hread ▸ hvalid)
  have hdebit : ∀ s, (V.read (some cmd)).debit V.gas s (V.token tick) = (l.legs.map fun i =>
      if V.token (l.tick i) = V.token tick then plainValue (l.amount i) else 0).sum := by
    intro s
    rw [hread, hspend]
    simp only [LedgerCommand.debit, List.map_map]
    rfl
  have hcredit : (V.read (some cmd)).credit (V.token tick) = (l.legs.map fun i =>
      if V.token (l.tick i) = V.token tick ∧ (keeps && (l.dest i).any V.isSource) = true then
        plainValue (l.amount i) else 0).sum := by
    rw [hread, hspend]
    simp only [LedgerCommand.credit, List.map_map]
    rfl
  rw [hds, balance_drop]
  split_ifs with hlacks
  · -- it fails, so that no leg of the token has an amount
    have hzero := hfair.succeeds hlacks
    rw [hdebit] at hzero
    have hnonneg : ∀ x ∈ l.legs.map fun i =>
        if V.token (l.tick i) = V.token tick then plainValue (l.amount i) else 0, 0 ≤ x := by
      intro x hx
      obtain ⟨i, hi, rfl⟩ := List.mem_map.1 hx
      split_ifs
      · exact plainValue_nonneg (hplain i hi)
      · exact le_rfl
    refine (List.sum_le_sum fun i hi => ?_).trans hzero.le
    by_cases hname : ctx.names tick (l.tick i) = true
    · rw [if_pos hname, if_pos (hnames tick _ hname)]
      exact hle i hi
    · rw [if_neg hname]
      exact hnonneg _ (List.mem_map_of_mem hi)
  · rw [hdebit, hcredit]
    refine sum_legs_le hplain (hnames tick) f fun i hi hname => ?_
    split_ifs with hkept
    · exact hf s tick hfair i hi hname hkept
    · exact hle i hi

omit [DecidableEq T] in
/-- What moves when the legs do. -/
theorem volume_readLegs {l : LegLists} {keeps : Bool} (h : V.readLegs l keeps ≠ .invalid) :
    (V.readLegs l keeps).volume = 2 * (l.legs.map fun i => plainValue (l.amount i)).sum := by
  rw [(readLegs_valid h).2.2, LedgerCommand.volume, List.map_map]
  rfl

/-- A leg is written down once or twice. -/
theorem sum_sendDeltas_le {l : LegLists} {is : List ℕ}
    (hplain : ∀ i ∈ is, isNonNegativeDecimal (l.amount i) = true) :
    ((is.flatMap fun i => ProjectedDelta.mk (l.tick i) (l.amount i) false ::
      if l.dest i = some ctx.source then [⟨l.tick i, l.amount i, true⟩] else []).map
        fun d => plainValue d.amount).sum ≤
      2 * (is.map fun i => plainValue (l.amount i)).sum := by
  induction is with
  | nil => simp
  | cons i is ih =>
    rw [List.forall_mem_cons] at hplain
    have hrest := ih hplain.2
    have hnonneg := plainValue_nonneg hplain.1
    rw [List.flatMap_cons, List.map_append, List.sum_append, List.map_cons, List.sum_cons,
      List.map_cons, List.sum_cons]
    split_ifs
    · simp only [List.map_cons, List.map_nil, List.sum_cons, List.sum_nil]
      linarith
    · simp only [List.map_nil, List.sum_nil]
      linarith

/-- The legs of a `SEND` are debited, and those that come back are credited. -/
theorem projectSend_spec {cmd : BatchCommand} (haction : cmd.action = "SEND")
    (hvalid : V.read (some cmd) ≠ .invalid) (hgrid : (V.read (some cmd)).OnGrid k)
    (hnames : ∀ tick name, ctx.names tick name = true → V.token name = V.token tick) :
    Plain k (projectSendDeltas ctx (legLists cmd.params)) (V.read (some cmd)).volume ∧
      TakesAtLeast ctx V start (some cmd) (projectSendDeltas ctx (legLists cmd.params)) := by
  generalize hl : legLists cmd.params = l
  have hread : V.read (some cmd) = V.readLegs l true := by
    simp [ChainView.read, haction, hl]
  obtain ⟨-, hplain, hspend⟩ := readLegs_valid (hread ▸ hvalid)
  rw [hread, hspend] at hgrid
  constructor
  · constructor
    · intro d hd
      obtain ⟨i, hi, hd⟩ := List.mem_flatMap.1 hd
      have hamount : d.amount = l.amount i := by
        rcases List.mem_cons.1 hd with rfl | hd
        · rfl
        · split_ifs at hd
          · rw [List.mem_singleton.1 hd]
          · cases hd
      rw [hamount]
      exact ⟨hplain i hi, hgrid _ (List.mem_map_of_mem hi)⟩
    · rw [hread, volume_readLegs (hread ▸ hvalid)]
      exact sum_sendDeltas_le hplain
  · refine takes_of_legs hread hvalid hnames (fun i => plainValue (l.amount i) -
      if l.dest i = some ctx.source then plainValue (l.amount i) else 0) ?_ ?_ ?_
    · intro tick
      rw [projectSendDeltas, netted_flatMap]
      refine congrArg List.sum (List.map_congr_left fun i _ => ?_)
      by_cases hname : ctx.names tick (l.tick i) = true
      · by_cases hdest : l.dest i = some ctx.source
        · simp [netted, hname, hdest, ProjectedDelta.value]
        · simp [netted, hname, hdest, ProjectedDelta.value]
      · by_cases hdest : l.dest i = some ctx.source
        · simp [netted, hname, hdest]
        · simp [netted, hname, hdest]
    · intro i hi
      have hnonneg := plainValue_nonneg (hplain i hi)
      split_ifs <;> linarith
    · intro s tick hfair i hi hname hself
      have hdest := hfair.send cmd rfl haction i (by rw [hl]; exact hi)
        (by rw [hl]; exact hnames tick _ hname) (by rw [hl]; simpa using hself)
      rw [hl] at hdest
      simp [hdest]

/-- The legs of a `DESTROY` are debited. -/
theorem projectDestroy_spec {cmd : BatchCommand} (haction : cmd.action = "DESTROY")
    (hvalid : V.read (some cmd) ≠ .invalid) (hgrid : (V.read (some cmd)).OnGrid k)
    (hnames : ∀ tick name, ctx.names tick name = true → V.token name = V.token tick) :
    Plain k (projectDestroyDeltas (legLists cmd.params)) (V.read (some cmd)).volume ∧
      TakesAtLeast ctx V start (some cmd) (projectDestroyDeltas (legLists cmd.params)) := by
  generalize hl : legLists cmd.params = l
  have hread : V.read (some cmd) = V.readLegs l false := by
    simp [ChainView.read, haction, hl]
  obtain ⟨-, hplain, hspend⟩ := readLegs_valid (hread ▸ hvalid)
  rw [hread, hspend] at hgrid
  constructor
  · constructor
    · intro d hd
      obtain ⟨i, hi, rfl⟩ := List.mem_map.1 hd
      exact ⟨hplain i hi, hgrid _ (List.mem_map_of_mem hi)⟩
    · rw [hread, volume_readLegs (hread ▸ hvalid), projectDestroyDeltas, List.map_map]
      have hnonneg : 0 ≤ (l.legs.map fun i => plainValue (l.amount i)).sum := by
        refine List.sum_nonneg fun x hx => ?_
        obtain ⟨i, hi, rfl⟩ := List.mem_map.1 hx
        exact plainValue_nonneg (hplain i hi)
      have hsame : ((fun d : ProjectedDelta => plainValue d.amount) ∘
          fun i => ProjectedDelta.mk (l.tick i) (l.amount i) false) =
          fun i => plainValue (l.amount i) := rfl
      rw [hsame]
      linarith
  · refine takes_of_legs hread hvalid hnames (fun i => plainValue (l.amount i)) ?_ ?_ ?_
    · intro tick
      rw [netted, projectDestroyDeltas, List.map_map]
      rfl
    · exact fun i _ => le_rfl
    · intro s tick hfair i hi hname hself
      simp at hself

/-! ### The fee of an issuance -/

theorem plainValue_of_spells {s : String} {q : ℚ} (h : Spells s q) (h0 : 0 ≤ q) :
    isNonNegativeDecimal s = true ∧ plainValue s = q := by
  refine ⟨h.isNonNegativeDecimal h0, ?_⟩
  rw [plainValue]
  rcases h with ⟨-, hvalue⟩ | ⟨hdec, rfl⟩
  · rw [hvalue]
    rfl
  · rw [decimalText_toFixed hdec]
    rfl

/-- The schedule's prices are quoted without rounding. -/
theorem quoteFee_schedule {units : ℕ} {fee : Fee} (hunits : units = 100000 ∨ units = 50000)
    (h : quoteFee M (natText units) "0.00001" true = some (some fee)) :
    Spells fee.amount (units * plainValue "0.00001") := by
  obtain ⟨amount, hgas, h⟩ := Option.bind_eq_some_iff.1 h
  obtain ⟨chargeable, -, h⟩ := Option.bind_eq_some_iff.1 h
  cases h
  have hprice := (spells_plainValue (s := "0.00001") (by decide)).1
  have hround : roundSig BIGNUMBER_PRECISION (units * plainValue "0.00001") =
      units * plainValue "0.00001" := by
    rcases hunits with rfl | rfl
    · decide +kernel
    · decide +kernel
  have hfixed : Spells (toFixedAt 8 (.fin (units * plainValue "0.00001")))
      (units * plainValue "0.00001") := by
    rcases hunits with rfl | rfl
    · exact .inl ⟨by decide +kernel, by decide +kernel⟩
    · exact .inl ⟨by decide +kernel, by decide +kernel⟩
  have hread : readable (units * plainValue "0.00001") = units * plainValue "0.00001" ∧
      readable 0 = 0 := by
    rcases hunits with rfl | rfl
    · exact ⟨by decide +kernel, by decide⟩
    · exact ⟨by decide +kernel, by decide⟩
  obtain ⟨v, hv, hspells⟩ := Numeric.add_of_spells (M := M) hfixed spells_zero
  rw [hread.1, hread.2, add_zero, hround] at hspells
  simp only [gasFee, (spells_natText units).bignumber M, hprice.bignumber M, Option.bind_eq_bind,
    Option.bind_some, JsNum.times, hround] at hgas
  obtain rfl := Option.some.inj (hv.symm.trans hgas)
  exact hspells

/-- The prices of the schedule. -/
theorem gasConfig_prices {network : Js} {gas : GasConfig} (h : gasConfig network = some gas) :
    gas.gasPrice = "0.00001" ∧ gas.ISSUE = some 100000 ∧ gas.ISSUE_SUBTOKEN = some 50000 := by
  obtain ⟨tick, -, h⟩ := Option.bind_eq_some_iff.1 h
  obtain ⟨-, -, h⟩ := Option.bind_eq_some_iff.1 h
  cases h
  exact ⟨rfl, rfl, rfl⟩

/-- A quote is free, or the schedule's price for a token that the lookup has not found. -/
theorem projectIssueFee_spec {fctx : FeeContext} {cmd : BatchCommand} {gas : GasConfig} {fee : Fee}
    {network : Js} (hgas : gasConfig network = some gas)
    (h : projectIssueFee M H fctx cmd (some gas) = some (some fee)) :
    fee.amount = "0" ∨ ∃ name, (legLists cmd.params).ticks.head? = some name ∧
      Spells fee.amount (scheduleFee gas (trim name.toText)) ∧
      H.toUpperCase (trim name.toText) ≠ H.toUpperCase GAS_TICK ∧
      fctx.token (trim name.toText) = .absent := by
  obtain ⟨hprice, hissue, hsub⟩ := gasConfig_prices hgas
  simp only [projectIssueFee] at h
  split at h
  · cases h
  next hlist =>
  split at h
  · cases h
  next htruthy =>
  have hhead : (legLists cmd.params).ticks.head? = some (Js.member cmd.params "TICK") := by
    have htrue : (Js.member cmd.params "TICK").truthy = true := by simpa using htruthy
    simp only [legLists, concatList, Js.or, htrue, if_true]
    rfl
  split at h
  · cases h
  split at h
  · cases h
    exact .inl rfl
  next hupper =>
  split at h
  · cases h
  · cases h
    exact .inl rfl
  next habsent =>
  refine .inr ⟨_, hhead, ?_, hupper, habsent⟩
  rw [hprice] at h
  rw [scheduleFee, hprice]
  split_ifs at h ⊢ with hchild
  · rw [hsub] at h ⊢
    exact quoteFee_schedule (.inr rfl) h
  · rw [hissue] at h ⊢
    exact quoteFee_schedule (.inl rfl) h

omit [DecidableEq T] in
/-- What an `ISSUE` is expected to pay is what it pays, if the batch has not issued the token. -/
theorem issueFee_spec (hmirrors : Mirrors H M ctx V start) {cmd : BatchCommand} {fee : Fee}
    {name : Js} (hname : (legLists cmd.params).ticks.head? = some name)
    (haction : cmd.action = "ISSUE") (h : issueFee M ctx H cmd = some (some fee)) :
    isNonNegativeDecimal fee.amount = true ∧ (plainValue fee.amount = 0 ∨
      plainValue fee.amount = V.fee (trim name.toText) ∧
        start.issued (V.token name.toText) = false) := by
  have hzero : isNonNegativeDecimal "0" = true ∧ plainValue "0" = 0 :=
    ⟨by decide, by decide +kernel⟩
  have hfree : fee.amount = "0" → isNonNegativeDecimal fee.amount = true ∧
      (plainValue fee.amount = 0 ∨ plainValue fee.amount = V.fee (trim name.toText) ∧
        start.issued (V.token name.toText) = false) := fun he => by
    rw [he]
    exact ⟨hzero.1, .inl hzero.2⟩
  rw [issueFee, if_pos haction] at h
  obtain ⟨pricing, hpricing, hfee⟩ := Option.map_eq_some_iff.1 h
  rw [projectCommandFee, if_pos haction, debitedFee] at hpricing
  split_ifs at hpricing with hdebit
  · obtain ⟨quote, hquote, rfl⟩ := Option.map_eq_some_iff.1 hpricing
    obtain rfl : quote = some fee := hfee
    cases hgas : gasConfig ctx.network with
    | none =>
      rw [hgas] at hquote
      cases hquote
    | some gas =>
      rw [hgas] at hquote
      rcases projectIssueFee_spec hgas hquote with he | ⟨name', hname', hspells, hupper, habsent⟩
      · exact hfree he
      · obtain rfl := Option.some.inj (hname.symm.trans hname')
        have hschedule := hmirrors.fee gas hgas hdebit _ hupper
        rw [← hschedule] at hspells
        obtain ⟨hplain, hvalue⟩ := plainValue_of_spells hspells (hmirrors.fee_nonneg _)
        refine ⟨hplain, .inr ⟨hvalue, ?_⟩⟩
        rw [← hmirrors.trimmed]
        exact hmirrors.absent _ habsent
  · cases hpricing
    cases hfee
    exact hfree rfl

/-- The supply that an `ISSUE` mints. -/
def mintedSupply (p : List (String × Js)) : ℚ :=
  if isScalarSupply (Js.member p "MINT_SUPPLY") then
    plainValue (Js.member p "MINT_SUPPLY").toText else 0

omit [DecidableEq T] in
/-- What a valid `ISSUE` says. -/
theorem readIssue_valid {p : List (String × Js)} (h : V.readIssue p ≠ .invalid) :
    ∃ name, (legLists p).ticks.head? = some name ∧
      (isScalarSupply (Js.member p "MINT_SUPPLY") = true →
        isNonNegativeDecimal (Js.member p "MINT_SUPPLY").toText = true) ∧
      V.readIssue p = .issue (V.token name.toText) (V.fee (trim name.toText)) (mintedSupply p)
        (V.defaultsToSource (Js.member p "TRANSFER_SUPPLY")) := by
  simp only [ChainView.readIssue] at h ⊢
  cases hticks : (legLists p).ticks.head? with
  | none => simp [hticks] at h
  | some name =>
    simp only [hticks] at h ⊢
    by_cases hbad : isScalarSupply (Js.member p "MINT_SUPPLY") = true ∧
        isNonNegativeDecimal (Js.member p "MINT_SUPPLY").toText = false
    · exact absurd (if_pos hbad) h
    · exact ⟨name, rfl, fun hs => by simpa [hs] using hbad, if_neg hbad⟩

theorem mintedSupply_nonneg {p : List (String × Js)}
    (h : isScalarSupply (Js.member p "MINT_SUPPLY") = true →
      isNonNegativeDecimal (Js.member p "MINT_SUPPLY").toText = true) : 0 ≤ mintedSupply p := by
  rw [mintedSupply]
  split_ifs with hs
  · exact plainValue_nonneg (h hs)
  · exact le_rfl

/-- The deltas of an `ISSUE`: its fee, and the supply that the source receives. -/
theorem projectIssueDeltas_cases {p : List (String × Js)} {fee : Fee} {name : Js}
    {ds : List ProjectedDelta} (hname : (legLists p).ticks.head? = some name)
    (hfee : isNonNegativeDecimal fee.amount = true)
    (h : projectIssueDeltas M ctx p (some fee) = some (some ds)) :
    ∃ charged minted, mintsSupply M (Js.member p "MINT_SUPPLY") = some minted ∧
      (charged = true → 0 < plainValue fee.amount) ∧
      ds = (if charged = true then [⟨GAS_TICK, fee.amount, false⟩] else []) ++
        if minted = true ∧ textOr (Js.member p "TRANSFER_SUPPLY") ctx.source = ctx.source then
          [⟨name.toText, (Js.member p "MINT_SUPPLY").toText, true⟩] else [] := by
  rw [projectIssueDeltas] at h
  obtain ⟨charged, hcharged, h⟩ := Option.bind_eq_some_iff.1 h
  obtain ⟨minted, hminted, h⟩ := Option.bind_eq_some_iff.1 h
  simp only [hname] at h
  cases h
  refine ⟨charged, minted, hminted, ?_, rfl⟩
  rw [Numeric.isPositive_of_spells (spells_plainValue hfee).1] at hcharged
  rintro rfl
  have hpos : 0 < readable (plainValue fee.amount) := by simpa using hcharged
  rcases readable_eq_or_zero (plainValue fee.amount) with he | he
  · rwa [he] at hpos
  · rw [he] at hpos
    exact absurd hpos (lt_irrefl _)

/-- A positive supply is one that is credited. -/
theorem mintsSupply_spec {p : List (String × Js)} {minted : Bool}
    (hsupply : isScalarSupply (Js.member p "MINT_SUPPLY") = true →
      isNonNegativeDecimal (Js.member p "MINT_SUPPLY").toText = true)
    (hexact : readable (mintedSupply p) = mintedSupply p)
    (h : mintsSupply M (Js.member p "MINT_SUPPLY") = some minted) :
    (minted = true → isScalarSupply (Js.member p "MINT_SUPPLY") = true) ∧
      (0 < mintedSupply p → minted = true) := by
  rw [mintsSupply] at h
  rw [mintedSupply] at hexact ⊢
  split_ifs at h hexact ⊢ with hscalar
  · refine ⟨fun _ => hscalar, fun hpos => ?_⟩
    rw [Numeric.isPositive_of_spells (spells_plainValue (hsupply hscalar)).1, hexact] at h
    simpa [hpos] using h.symm
  · cases h
    exact ⟨fun hf => absurd hf Bool.false_ne_true, fun hpos => absurd hpos (lt_irrefl _)⟩

/-- An `ISSUE` pays no less than its deltas say. -/
theorem projectIssue_spec (hmirrors : Mirrors H M ctx V start) {cmd : BatchCommand}
    {fee : Option Fee} {ds : List ProjectedDelta} (haction : cmd.action = "ISSUE")
    (hvalid : V.read (some cmd) ≠ .invalid) (hgrid : (V.read (some cmd)).OnGrid k)
    (hsmall : Small k (V.read (some cmd)).volume)
    (hnames : ∀ tick name, ctx.names tick name = true → V.token name = V.token tick)
    (hfee : issueFee M ctx H cmd = some fee)
    (h : projectIssueDeltas M ctx cmd.params fee = some (some ds)) :
    Plain k ds (V.read (some cmd)).volume ∧ TakesAtLeast ctx V start (some cmd) ds := by
  have hread : V.read (some cmd) = V.readIssue cmd.params := by
    simp [ChainView.read, haction]
  obtain ⟨name, hname, hsupply, hissue⟩ := readIssue_valid (hread ▸ hvalid)
  have hsupply0 := mintedSupply_nonneg hsupply
  have hfee0 := hmirrors.fee_nonneg (trim name.toText)
  rw [hread, hissue] at hgrid
  have hvolume : (V.read (some cmd)).volume =
      V.fee (trim name.toText) + mintedSupply cmd.params := by
    rw [hread, hissue]
    rfl
  rw [hvolume] at hsmall ⊢
  -- A command whose fee has no quote projects nothing at all.
  obtain ⟨fee, rfl⟩ : ∃ f, fee = some f := by
    cases fee with
    | none => cases h
    | some f => exact ⟨f, rfl⟩
  obtain ⟨hplain, hquote⟩ := issueFee_spec hmirrors hname haction hfee
  obtain ⟨charged, minted, hminted, hcharged, rfl⟩ := projectIssueDeltas_cases hname hplain h
  have hexact := (exact_of_small hgrid.2 (hsmall.mono (by
    rw [abs_of_nonneg hsupply0]
    linarith))).2
  obtain ⟨hscalar, hpositive⟩ := mintsSupply_spec hsupply hexact hminted
  have hvalue : minted = true →
      plainValue (Js.member cmd.params "MINT_SUPPLY").toText = mintedSupply cmd.params := by
    intro hm
    rw [mintedSupply, if_pos (hscalar hm)]
  have hcharge : charged = true → plainValue fee.amount = V.fee (trim name.toText) ∧
      start.issued (V.token name.toText) = false := fun hc =>
    hquote.resolve_left (hcharged hc).ne'
  -- The deltas as they are projected, each plain and their sum within the command's volume.
  constructor
  · constructor
    · intro d hd
      rcases List.mem_append.1 hd with hd | hd
      · split_ifs at hd with hc
        · obtain rfl := List.mem_singleton.1 hd
          exact ⟨hplain, (hcharge hc).1 ▸ hgrid.1⟩
        · cases hd
      · split_ifs at hd with hc
        · obtain rfl := List.mem_singleton.1 hd
          exact ⟨hsupply (hscalar hc.1), (hvalue hc.1) ▸ hgrid.2⟩
        · cases hd
    · rw [List.map_append, List.sum_append]
      refine add_le_add ?_ ?_
      · split_ifs with hc
        · simp [(hcharge hc).1]
        · exact hfee0
      · split_ifs with hc
        · simp [hvalue hc.1]
        · exact hsupply0
  -- What the ledger takes, against any state that the start stands for.
  · intro s tick hfair
    -- The fee is projected only for a token that no command has issued yet.
    have hpaid : netted ctx tick
        (if charged = true then [⟨GAS_TICK, fee.amount, false⟩] else []) ≤
          (V.read (some cmd)).debit V.gas s (V.token tick) := by
      have hdebit0 : 0 ≤ (V.read (some cmd)).debit V.gas s (V.token tick) := by
        rw [hread, hissue, LedgerCommand.debit]
        split_ifs
        · exact hfee0
        · exact le_rfl
      split_ifs with hc
      · by_cases hgas : ctx.names tick GAS_TICK = true
        · have htoken : V.token tick = V.gas := (hnames tick _ hgas).symm
          have hnew := hfair.firstIssue _ _ _ _ (hread.trans hissue) htoken
          rw [(hcharge hc).2] at hnew
          rw [hread, hissue, LedgerCommand.debit, if_pos ⟨htoken, hnew⟩]
          simp [netted, hgas, ProjectedDelta.value, (hcharge hc).1]
        · simpa [netted, hgas] using hdebit0
      · exact hdebit0
    -- The minted supply comes back, so its delta never counts against the sender.
    have hminted : ∀ c : Prop, [Decidable c] → netted ctx tick
        (if minted = true ∧ c then
          [⟨name.toText, (Js.member cmd.params "MINT_SUPPLY").toText, true⟩] else []) ≤ 0 := by
      intro c _
      split_ifs with hc
      · by_cases hn : ctx.names tick name.toText = true
        · simpa [netted, hn, ProjectedDelta.value, hvalue hc.1] using hsupply0
        · simp [netted, hn]
      · exact le_rfl
    rw [netted_append, balance_drop]
    by_cases hlacks : (V.read (some cmd)).Lacks V.gas s
    · rw [if_pos hlacks]
      rw [hfair.succeeds hlacks] at hpaid
      exact add_nonpos hpaid (hminted _)
    · rw [if_neg hlacks, sub_eq_add_neg]
      refine add_le_add hpaid ?_
      -- The supply is credited to the sender only when it names no other destination.
      by_cases hcredit : (V.read (some cmd)).credit (V.token tick) = 0
      · rw [hcredit, neg_zero]
        exact hminted _
      · obtain ⟨hdest, hname'⟩ := hfair.issue cmd rfl haction hcredit
        have hgiven : (V.read (some cmd)).credit (V.token tick) = mintedSupply cmd.params := by
          rw [hread, hissue, LedgerCommand.credit] at hcredit ⊢
          split_ifs at hcredit ⊢
          · rfl
          · exact absurd rfl hcredit
        have hm : minted = true := by
          rw [hgiven] at hcredit
          exact hpositive (lt_of_le_of_ne hsupply0 (Ne.symm hcredit))
        rw [if_pos ⟨hm, hdest⟩, hgiven]
        simp [netted, hname' name hname, ProjectedDelta.value, hvalue hm]

/-- A step takes no less than its projection says, whatever its action is. -/
theorem projectDeltas_spec (hmirrors : Mirrors H M ctx V start) {cmd : BatchCommand}
    {fee : Option Fee} {ds : List ProjectedDelta} (hvalid : V.read (some cmd) ≠ .invalid)
    (hgrid : (V.read (some cmd)).OnGrid k) (hsmall : Small k (V.read (some cmd)).volume)
    (hnames : ∀ tick name, ctx.names tick name = true → V.token name = V.token tick)
    (hfee : issueFee M ctx H cmd = some fee)
    (h : projectDeltas M ctx cmd fee = some (some ds)) :
    Plain k ds (V.read (some cmd)).volume ∧ TakesAtLeast ctx V start (some cmd) ds := by
  rw [projectDeltas] at h
  split_ifs at h with hmint hissue hsend hdestroy
  · cases h
    exact projectMint_spec hmint hvalid hgrid
  · exact projectIssue_spec hmirrors hissue hvalid hgrid hsmall hnames hfee h
  · cases h
    exact projectSend_spec hsend hvalid hgrid hnames
  · cases h
    exact projectDestroy_spec hdestroy hvalid hgrid hnames
  · cases h

/-! ### The running balance -/

/-- The delta as it stands in the list of amounts to subtract. -/
def Localizes (d : ProjectedDelta) (e : LocalDelta) : Prop :=
  e.tick = d.tick ∧ Spells e.amount d.value

theorem abs_value {d : ProjectedDelta} (h : isNonNegativeDecimal d.amount = true) :
    |d.value| = plainValue d.amount := by
  have hnonneg := plainValue_nonneg h
  rw [ProjectedDelta.value]
  split_ifs
  · rw [abs_neg, abs_of_nonneg hnonneg]
  · exact abs_of_nonneg hnonneg

theorem onGrid_value {d : ProjectedDelta} (h : OnGrid k (plainValue d.amount)) :
    OnGrid k d.value := by
  rw [ProjectedDelta.value]
  split_ifs
  · exact h.neg
  · exact h

theorem toLocal_spec {d : ProjectedDelta} {e : LocalDelta}
    (hplain : isNonNegativeDecimal d.amount = true) (hgrid : OnGrid k (plainValue d.amount))
    (hsmall : Small k (plainValue d.amount)) (h : d.toLocal M = some e) : Localizes d e := by
  rw [ProjectedDelta.toLocal] at h
  rw [Localizes, ProjectedDelta.value]
  split_ifs at h ⊢
  · obtain ⟨amount, hsub, h⟩ := Option.bind_eq_some_iff.1 h
    cases h
    refine ⟨rfl, ?_⟩
    have hspells := sub_exact spells_zero (spells_plainValue hplain).1 (onGrid_zero k) hgrid (by
      rwa [abs_zero, zero_add, abs_of_nonneg (plainValue_nonneg hplain)]) hsub
    rwa [zero_sub] at hspells
  · cases h
    exact ⟨rfl, (spells_plainValue hplain).1⟩

theorem localizes_of_mapM {ds : List ProjectedDelta} {es : List LocalDelta} {v : ℚ}
    (hplain : Plain k ds v) (hsmall : Small k v)
    (h : ds.mapM (ProjectedDelta.toLocal M) = some es) :
    List.Forall₂ Localizes ds es := by
  induction ds generalizing es v with
  | nil => cases h; exact .nil
  | cons d ds ih =>
    rw [List.mapM_cons] at h
    obtain ⟨e, he, h⟩ := Option.bind_eq_some_iff.1 h
    obtain ⟨rest, hrest, h⟩ := Option.bind_eq_some_iff.1 h
    cases h
    obtain ⟨hall, hsum⟩ := hplain
    rw [List.forall_mem_cons] at hall
    rw [List.map_cons, List.sum_cons] at hsum
    have hnonneg := plainValue_nonneg hall.1.1
    have hrest0 : 0 ≤ (ds.map fun d => plainValue d.amount).sum := by
      refine List.sum_nonneg fun x hx => ?_
      obtain ⟨d', hd', rfl⟩ := List.mem_map.1 hx
      exact plainValue_nonneg (hall.2 d' hd').1
    refine .cons (toLocal_spec hall.1.1 hall.1.2 (hsmall.mono ?_) he) (ih ⟨hall.2, ?_⟩ hsmall hrest)
    · linarith
    · linarith

/-- Subtracting what counts for a token leaves its balance less the netted amounts. -/
theorem subtractDeltas_spec {ds : List ProjectedDelta} {es : List LocalDelta} {amount u : String}
    {p v : ℚ} (hlocal : List.Forall₂ Localizes ds es) (hplain : Plain k ds v)
    (hspells : Spells amount p) (hgrid : OnGrid k p) (hsmall : Small k (|p| + v))
    (h : subtractDeltas M amount (es.filter fun e => ctx.names tick e.tick) = some u) :
    Spells u (p - netted ctx tick ds) ∧ OnGrid k (p - netted ctx tick ds) ∧
      |p - netted ctx tick ds| ≤ |p| + v := by
  induction hlocal generalizing amount p v with
  | nil =>
    have hv : 0 ≤ v := hplain.sum
    cases h
    simpa [netted] using ⟨hspells, hgrid, hv⟩
  | @cons d e ds es hde _ ih =>
    obtain ⟨htick, hamount⟩ := hde
    obtain ⟨hall, hsum⟩ := hplain
    rw [List.forall_mem_cons] at hall
    rw [List.map_cons, List.sum_cons] at hsum
    have habs := abs_value hall.1.1
    have hnonneg := plainValue_nonneg hall.1.1
    have hnet : netted ctx tick (d :: ds) =
        (if ctx.names tick d.tick = true then d.value else 0) + netted ctx tick ds := by
      rw [netted, List.map_cons, List.sum_cons, netted]
    have hrest : Plain k ds (v - plainValue d.amount) := ⟨hall.2, by linarith⟩
    by_cases hname : ctx.names tick d.tick = true
    · rw [List.filter_cons_of_pos (by rw [htick]; exact hname)] at h
      obtain ⟨next, hnext, h⟩ := Option.bind_eq_some_iff.1 h
      have hvalue := onGrid_value hall.1.2
      have hrest0 : 0 ≤ (ds.map fun d => plainValue d.amount).sum := by
        refine List.sum_nonneg fun x hx => ?_
        obtain ⟨d', hd', rfl⟩ := List.mem_map.1 hx
        exact plainValue_nonneg (hall.2 d' hd').1
      have hsub := sub_exact hspells hamount hgrid hvalue
        (hsmall.mono (by rw [habs]; linarith)) hnext
      have htriangle : |p - d.value| ≤ |p| + plainValue d.amount := by
        rw [← habs]
        exact abs_sub p d.value
      have hgrid' : OnGrid k (p - d.value) := by
        rw [sub_eq_add_neg]
        exact hgrid.add hvalue.neg
      obtain ⟨h1, h2, h3⟩ := ih hrest hsub hgrid' (hsmall.mono (by linarith)) h
      rw [hnet, if_pos hname, ← sub_sub]
      exact ⟨h1, h2, h3.trans (by linarith)⟩
    · rw [List.filter_cons_of_neg (by rw [htick]; exact hname)] at h
      obtain ⟨h1, h2, h3⟩ := ih hrest hspells hgrid (hsmall.mono (by linarith)) h
      rw [hnet, if_neg hname, zero_add]
      exact ⟨h1, h2, h3.trans (by linarith)⟩

/-! ### One check -/

/-- What the legs of one spelling add up to. -/
def legTotal (l : LegLists) (is : List ℕ) (t : String) : ℚ :=
  (is.map fun i => if l.tick i = t then plainValue (l.amount i) else 0).sum

/-- Each round of `perTickTotals` adds a leg to the total of its spelling. -/
theorem foldTotals_spec {l : LegLists} {is : List ℕ} {totals totals' : Dict String String}
    {f : String → ℚ} {v : ℚ}
    (hplain : ∀ i ∈ is, isNonNegativeDecimal (l.amount i) = true ∧
      OnGrid k (plainValue (l.amount i)))
    (hf : ∀ t, Spells ((totals.get? t).getD "0") (f t) ∧ OnGrid k (f t) ∧ 0 ≤ f t)
    (hv : ∀ t, f t + (is.map fun i => plainValue (l.amount i)).sum ≤ v) (hsmall : Small k v)
    (h : is.foldlM (fun totals i => do
      let total ← Numeric.add M (.str ((totals.get? (l.tick i)).getD "0")) (.str (l.amount i))
      return totals.set (l.tick i) total) totals = some totals') (t : String) :
    Spells ((totals'.get? t).getD "0") (f t + legTotal l is t) := by
  induction is generalizing totals f with
  | nil =>
    cases h
    simpa [legTotal] using (hf t).1
  | cons i is ih =>
    rw [List.foldlM_cons] at h
    obtain ⟨next, hnext, h⟩ := Option.bind_eq_some_iff.1 h
    obtain ⟨total, htotal, hnext⟩ := Option.bind_eq_some_iff.1 hnext
    cases hnext
    rw [List.forall_mem_cons] at hplain
    obtain ⟨⟨hamount, hgrid⟩, hrest⟩ := hplain
    simp only [List.map_cons, List.sum_cons] at hv
    have hnonneg := plainValue_nonneg hamount
    have hrest0 : 0 ≤ (is.map fun i => plainValue (l.amount i)).sum := by
      refine List.sum_nonneg fun x hx => ?_
      obtain ⟨j, hj, rfl⟩ := List.mem_map.1 hx
      exact plainValue_nonneg (hrest j hj).1
    obtain ⟨hs, hg, h0⟩ := hf (l.tick i)
    have hsum := add_exact hs (spells_plainValue hamount).1 hg hgrid (hsmall.mono (by
      rw [abs_of_nonneg h0, abs_of_nonneg hnonneg]
      linarith [hv (l.tick i)])) htotal
    have hstep := ih (f := fun t => f t + if l.tick i = t then plainValue (l.amount i) else 0) hrest
      (fun t => by
        rw [Dict.get?_set]
        by_cases ht : t = l.tick i
        · subst ht
          simp only [if_true, Option.getD_some]
          exact ⟨hsum, hg.add hgrid, by linarith⟩
        · rw [if_neg ht, if_neg (Ne.symm ht), add_zero]
          exact hf t)
      (fun t => by
        have := hv t
        split_ifs <;> linarith) h
    rw [legTotal, List.map_cons, List.sum_cons, ← add_assoc]
    exact hstep

theorem perTickTotals_spec {l : LegLists} {totals : Dict String String} {v : ℚ}
    (hplain : ∀ i ∈ l.legs, isNonNegativeDecimal (l.amount i) = true ∧
      OnGrid k (plainValue (l.amount i)))
    (hv : (l.legs.map fun i => plainValue (l.amount i)).sum ≤ v) (hsmall : Small k v)
    (h : perTickTotals M l = some totals) {e : String × String} (he : e ∈ totals.entries) :
    Spells e.2 (legTotal l l.legs e.1) := by
  have hspec := foldTotals_spec (f := fun _ => 0) hplain
    (fun t => ⟨by simpa using spells_zero, onGrid_zero k, le_rfl⟩) (fun t => by simpa using hv)
    hsmall h e.1
  rwa [Dict.get?_of_mem he, Option.getD_some, zero_add] at hspec

/-- An error on a total says that the running balance does not cover it. -/
theorem checkTotal_spec {verb lowerVerb t total : String} {localDeltas : List LocalDelta} {i : ℕ}
    {f : Finding} (h : checkTotal M ctx verb lowerVerb localDeltas i t total = some (some f))
    (herror : f.severity = .error) :
    f.commandIndex = some (i : ℚ) ∧ Numeric.isPositive M (.str total) = some true ∧
      ∃ balance, ctx.balance M localDeltas t = some (some balance) ∧
        Numeric.gte M (.str balance) (.str total) = some false := by
  rw [checkTotal] at h
  obtain ⟨positive, hpositive, h⟩ := Option.bind_eq_some_iff.1 h
  cases positive with
  | false =>
    cases h
    cases herror
  | true =>
    obtain ⟨answer, hanswer, h⟩ := Option.bind_eq_some_iff.1 h
    cases answer with
    | none => cases h
    | some balance =>
      obtain ⟨covers, hcovers, h⟩ := Option.bind_eq_some_iff.1 h
      cases covers with
      | true => cases h
      | false =>
        obtain ⟨inFlight, -, h⟩ := Option.bind_eq_some_iff.1 h
        obtain ⟨netted, -, h⟩ := Option.bind_eq_some_iff.1 h
        cases h
        refine ⟨?_, hpositive, balance, hanswer, hcovers⟩
        cases netted with
        | false => simp [Finding.commandIndex, insufficientFinding, Js.member, Loop.lookup_cons]
        | true => simp [Finding.commandIndex, insufficientFinding, Js.member, Loop.lookup_cons]

/-- Where an error on a balance comes from. -/
theorem runCommandChecks_spec {cmd : BatchCommand} {i : ℕ} {projected : List LocalDelta}
    {unprojectable : Bool} {found : List Finding} {f : Finding}
    (h : runCommandChecks M ctx cmd i projected unprojectable = some found) (hf : f ∈ found)
    (herror : f.severity = .error) (hcode : f.code = .BALANCE_INSUFFICIENT) :
    unprojectable = false ∧ (cmd.action = "SEND" ∨ cmd.action = "DESTROY") ∧
      ∃ verb lowerVerb totals, perTickTotals M (legLists cmd.params) = some totals ∧
        ∃ e ∈ totals.entries,
          checkTotal M ctx verb lowerVerb (ctx.localDeltas ++ projected) i e.1 e.2 =
            some (some f) := by
  rw [runCommandChecks] at h
  obtain ⟨raw, hraw, h⟩ := Option.bind_eq_some_iff.1 h
  have hproj : unprojectable = false := by
    cases unprojectable with
    | false => rfl
    | true =>
      cases h
      obtain ⟨g, -, rfl⟩ := List.mem_map.1 hf
      rw [downgrade] at herror hcode
      split_ifs at herror hcode with hg
      exact absurd ⟨herror, hcode⟩ hg
  subst hproj
  cases h
  have hcover : ∀ verb lowerVerb,
      checkBalanceCovers M ctx verb lowerVerb (ctx.localDeltas ++ projected) i cmd = some raw →
      ∃ totals, perTickTotals M (legLists cmd.params) = some totals ∧ ∃ e ∈ totals.entries,
        checkTotal M ctx verb lowerVerb (ctx.localDeltas ++ projected) i e.1 e.2 =
          some (some f) := by
    intro verb lowerVerb hcovers
    rw [checkBalanceCovers] at hcovers
    split_ifs at hcovers
    · cases hcovers
      cases hf
    · obtain ⟨totals, htotals, hcovers⟩ := Option.bind_eq_some_iff.1 hcovers
      obtain ⟨outcomes, houtcomes, hcovers⟩ := Option.bind_eq_some_iff.1 hcovers
      cases hcovers
      obtain ⟨o, ho, hof⟩ := List.mem_filterMap.1 hf
      obtain rfl : o = some f := hof
      exact ⟨totals, htotals, Loop.exists_of_mem_mapM houtcomes ho⟩
  rw [balanceFindings] at hraw
  split_ifs at hraw with hsend hdestroy
  · exact ⟨rfl, .inl hsend, "Send", "send", hcover _ _ hraw⟩
  · exact ⟨rfl, .inr hdestroy, "Destroy", "destroy", hcover _ _ hraw⟩
  · cases hraw
    cases hf

theorem subtractDeltas_append (amount : String) (ds es : List LocalDelta) :
    subtractDeltas M amount (ds ++ es) =
      (subtractDeltas M amount ds).bind fun next => subtractDeltas M next es := by
  induction ds generalizing amount with
  | nil => rfl
  | cons d ds ih =>
    simp only [List.cons_append, subtractDeltas, Option.bind_eq_bind]
    cases Numeric.sub M (.str amount) (.str d.amount) with
    | none => rfl
    | some next => exact ih next

/-- A positive total has a leg of its spelling. -/
theorem exists_leg_of_pos {l : LegLists} {is : List ℕ} {t : String} (h : 0 < legTotal l is t) :
    ∃ i ∈ is, l.tick i = t := by
  by_contra hnone
  refine h.ne' (List.sum_eq_zero fun x hx => ?_)
  obtain ⟨i, hi, rfl⟩ := List.mem_map.1 hx
  exact if_neg fun he => hnone ⟨i, hi, he⟩

omit [DecidableEq T] in
/-- What is checked for a balance is read as a spend. -/
theorem read_of_checked {cmd : BatchCommand} (h : cmd.action = "SEND" ∨ cmd.action = "DESTROY") :
    ∃ keeps, V.read (some cmd) = V.readLegs (legLists cmd.params) keeps := by
  rcases h with h | h
  · exact ⟨true, by simp [ChainView.read, h]⟩
  · exact ⟨false, by simp [ChainView.read, h]⟩

/-- A running balance that does not cover a total is a balance that the source lacks. -/
theorem lacks_of_short (hmirrors : Mirrors H M ctx V start) {cmd : BatchCommand}
    {ds : List ProjectedDelta} {projected : List LocalDelta} {v : ℚ} {t total balance : String}
    (haction : cmd.action = "SEND" ∨ cmd.action = "DESTROY")
    (hvalid : V.read (some cmd) ≠ .invalid)
    (hlocal : List.Forall₂ Localizes ds projected) (hplain : Plain k ds v)
    (hgrid : OnGrid k (start.balance (V.token t)))
    (hsmall : Small k (|start.balance (V.token t)| + v))
    (hnet : netted ctx t ds ≤ start.balance (V.token t) - s.balance (V.token t))
    (htotal : Spells total (legTotal (legLists cmd.params) (legLists cmd.params).legs t))
    (hexact : readable (legTotal (legLists cmd.params) (legLists cmd.params).legs t) =
      legTotal (legLists cmd.params) (legLists cmd.params).legs t)
    (hpositive : Numeric.isPositive M (.str total) = some true)
    (hbalance : ctx.balance M (ctx.localDeltas ++ projected) t = some (some balance))
    (hshort : Numeric.gte M (.str balance) (.str total) = some false) :
    (V.read (some cmd)).Lacks V.gas s := by
  generalize hl : legLists cmd.params = l at htotal hexact
  -- the running balance is the one before the batch, less what the projection takes
  rw [ProjectionContext.balance] at hbalance
  cases hchain : ctx.chainBalance t with
  | none =>
    rw [hchain] at hbalance
    cases hbalance
  | some amount =>
    rw [hchain] at hbalance
    dsimp only at hbalance
    obtain ⟨final, hfinal, he⟩ := Option.map_eq_some_iff.1 hbalance
    obtain rfl := Option.some.inj he
    rw [List.filter_append, subtractDeltas_append] at hfinal
    obtain ⟨before, hbefore, hafter⟩ := Option.bind_eq_some_iff.1 hfinal
    have hstart := hmirrors.balance t before (by
      rw [ProjectionContext.balance, hchain]
      dsimp only
      rw [hbefore]
      rfl)
    obtain ⟨hspells, hfinal', hle⟩ := subtractDeltas_spec hlocal hplain hstart hgrid hsmall hafter
    have hread := (exact_of_small hfinal' (hsmall.mono hle)).2
    rw [Numeric.gte_of_spells hspells htotal, hread, hexact] at hshort
    have hlt : start.balance (V.token t) - netted ctx t ds < legTotal l l.legs t := by
      simpa using hshort
    rw [Numeric.isPositive_of_spells htotal, hexact] at hpositive
    have hpos : 0 < legTotal l l.legs t := by simpa using hpositive
    obtain ⟨keeps, hread⟩ := read_of_checked (V := V) haction
    rw [hl] at hread
    obtain ⟨-, hamounts, hlegs⟩ := readLegs_valid (hread ▸ hvalid)
    obtain ⟨i, hi, hti⟩ := exists_leg_of_pos hpos
    refine ⟨V.token t, ?_, ?_⟩
    · rw [hread, hlegs, LedgerCommand.tokens, List.map_map]
      exact List.mem_map.2 ⟨i, hi, by rw [← hti]; rfl⟩
    · have hdebit : legTotal l l.legs t ≤ (V.read (some cmd)).debit V.gas s (V.token t) := by
        rw [hread, hlegs]
        simp only [LedgerCommand.debit, List.map_map, legTotal]
        refine List.sum_le_sum fun i hi => ?_
        have hnonneg := plainValue_nonneg (hamounts i hi)
        simp only [Function.comp_apply, ChainView.leg]
        by_cases hi' : l.tick i = t
        · rw [if_pos hi', if_pos (by rw [hi'])]
        · rw [if_neg hi']
          split_ifs
          · exact hnonneg
          · exact le_rfl
      linarith

/-! ### The run -/

omit [DecidableEq T] in
theorem volume_nonneg (hfee : ∀ name, 0 ≤ V.fee name) (cmd : Option BatchCommand) :
    0 ≤ (V.read cmd).volume := by
  have hlegs : ∀ l keeps, 0 ≤ (V.readLegs l keeps).volume := by
    intro l keeps
    by_cases h : V.readLegs l keeps = .invalid
    · rw [h]
      exact le_rfl
    · rw [volume_readLegs h]
      refine mul_nonneg (by norm_num) (List.sum_nonneg fun x hx => ?_)
      obtain ⟨i, hi, rfl⟩ := List.mem_map.1 hx
      exact plainValue_nonneg ((readLegs_valid h).2.1 i hi)
  cases cmd with
  | none => exact le_rfl
  | some cmd =>
    rw [ChainView.read]
    split_ifs
    · by_cases h : V.readMint cmd.params = .invalid
      · rw [h]
        exact le_rfl
      · obtain ⟨name, amount, -, -, hplain, he⟩ := readMint_valid h
        rw [he]
        exact plainValue_nonneg hplain
    · by_cases h : V.readIssue cmd.params = .invalid
      · rw [h]
        exact le_rfl
      · obtain ⟨name, -, hsupply, he⟩ := readIssue_valid h
        rw [he]
        exact add_nonneg (hfee _) (mintedSupply_nonneg hsupply)
    · exact hlegs _ _
    · exact hlegs _ _
    · exact le_rfl

theorem onGrid_legTotal {l : LegLists} {is : List ℕ} {t : String}
    (h : ∀ i ∈ is, OnGrid k (plainValue (l.amount i))) : OnGrid k (legTotal l is t) := by
  induction is with
  | nil => exact onGrid_zero k
  | cons i is ih =>
    rw [List.forall_mem_cons] at h
    rw [legTotal, List.map_cons, List.sum_cons]
    refine OnGrid.add ?_ (ih h.2)
    split_ifs
    · exact h.1
    · exact onGrid_zero k

theorem legTotal_le {l : LegLists} {is : List ℕ} {t : String}
    (h : ∀ i ∈ is, isNonNegativeDecimal (l.amount i) = true) :
    0 ≤ legTotal l is t ∧ legTotal l is t ≤ (is.map fun i => plainValue (l.amount i)).sum := by
  constructor
  · refine List.sum_nonneg fun x hx => ?_
    obtain ⟨i, hi, rfl⟩ := List.mem_map.1 hx
    split_ifs
    · exact plainValue_nonneg (h i hi)
    · exact le_rfl
  · refine List.sum_le_sum fun i hi => ?_
    split_ifs
    · exact le_rfl
    · exact plainValue_nonneg (h i hi)

/-- The projection leaves no checked balance below the one that the ledger has in this state. -/
def Tracks (ctx : ProjectionContext) (V : ChainView T) (start s : SourceLedger T) (k : ℕ)
    (ticks : List String) (projected : List LocalDelta) (v : ℚ) : Prop :=
  ∃ ds, List.Forall₂ Localizes ds projected ∧ Plain k ds v ∧ ∀ t ∈ ticks,
    netted ctx t ds ≤ start.balance (V.token t) - s.balance (V.token t)

/-- The command of an error lacks its balance. -/
theorem lacks_of_error (hmirrors : Mirrors H M ctx V start) {cmd : BatchCommand}
    {projected : List LocalDelta} {v : ℚ} {i : ℕ} {unprojectable : Bool} {found : List Finding}
    {f : Finding}
    (hvalid : V.read (some cmd) ≠ .invalid) (hgrid : (V.read (some cmd)).OnGrid k)
    (hvolume : Small k (V.read (some cmd)).volume)
    (hinv : unprojectable = false →
      Tracks ctx V start s k (checkedTicks (some cmd)) projected v)
    (hstart : ∀ t ∈ checkedTicks (some cmd), OnGrid k (start.balance (V.token t)) ∧
      Small k (|start.balance (V.token t)| + v))
    (h : runCommandChecks M ctx cmd i projected unprojectable = some found) (hf : f ∈ found)
    (herror : f.severity = .error) (hcode : f.code = .BALANCE_INSUFFICIENT) :
    f.commandIndex = some (i : ℚ) ∧ (V.read (some cmd)).Lacks V.gas s := by
  obtain ⟨hproj, haction, verb, lowerVerb, totals, htotals, e, he, hcheck⟩ :=
    runCommandChecks_spec h hf herror hcode
  obtain ⟨hindex, hpositive, balance, hbalance, hshort⟩ := checkTotal_spec hcheck herror
  obtain ⟨ds, hlocal, hplain, hnet⟩ := hinv hproj
  generalize hl : legLists cmd.params = l at htotals
  obtain ⟨keeps, hread⟩ := read_of_checked (V := V) haction
  rw [hl] at hread
  obtain ⟨-, hamounts, hlegs⟩ := readLegs_valid (hread ▸ hvalid)
  have hgrids : ∀ i ∈ l.legs, OnGrid k (plainValue (l.amount i)) := by
    rw [hread, hlegs] at hgrid
    exact fun i hi => hgrid _ (List.mem_map_of_mem hi)
  rw [hread, volume_readLegs (hread ▸ hvalid)] at hvolume
  have hsum0 := (legTotal_le (t := e.1) hamounts)
  have htotal := perTickTotals_spec (fun i hi => ⟨hamounts i hi, hgrids i hi⟩) le_rfl
    (hvolume.mono (by linarith [hsum0.1, hsum0.2])) htotals he
  have hexact := (exact_of_small (onGrid_legTotal (t := e.1) hgrids) (hvolume.mono (by
    rw [abs_of_nonneg hsum0.1]
    linarith [hsum0.1, hsum0.2]))).2
  have hchecked : e.1 ∈ checkedTicks (some cmd) := by
    rw [Numeric.isPositive_of_spells htotal, hexact] at hpositive
    have hpos : 0 < legTotal l l.legs e.1 := by simpa using hpositive
    obtain ⟨i, hi, hti⟩ := exists_leg_of_pos hpos
    rw [checkedTicks, if_pos haction, hl]
    exact List.mem_map.2 ⟨i, hi, hti⟩
  subst hl
  exact ⟨hindex, lacks_of_short hmirrors haction hvalid hlocal hplain (hstart _ hchecked).1
    (hstart _ hchecked).2 (hnet _ hchecked) htotal hexact hpositive hbalance hshort⟩

/-- What moves in a list of commands. -/
def totalVolume (V : ChainView T) (cmds : List (Option BatchCommand)) : ℚ :=
  (cmds.map fun c => (V.read c).volume).sum

omit [DecidableEq T] in
theorem totalVolume_nonneg (hfee : ∀ name, 0 ≤ V.fee name) (cmds : List (Option BatchCommand)) :
    0 ≤ totalVolume V cmds := by
  refine List.sum_nonneg fun x hx => ?_
  obtain ⟨c, -, rfl⟩ := List.mem_map.1 hx
  exact volume_nonneg hfee c

theorem plain_append {ds es : List ProjectedDelta} {v w : ℚ} (hds : Plain k ds v)
    (hes : Plain k es w) : Plain k (ds ++ es) (v + w) := by
  refine ⟨fun d hd => ?_, ?_⟩
  · rcases List.mem_append.1 hd with hd | hd
    · exact hds.plain d hd
    · exact hes.plain d hd
  · rw [List.map_append, List.sum_append]
    exact add_le_add hds.sum hes.sum

/-- A step of the loop keeps the projection at or above the ledger. -/
theorem tracks_step (hmirrors : Mirrors H M ctx V start) {cmd : BatchCommand} {ticks : List String}
    {projected es : List LocalDelta} {v : ℚ} {fee : Option Fee}
    (hvalid : V.read (some cmd) ≠ .invalid) (hgrid : (V.read (some cmd)).OnGrid k)
    (hsmall : Small k (V.read (some cmd)).volume)
    (hnames : ∀ tick name, ctx.names tick name = true → V.token name = V.token tick)
    (hfair : ∀ t ∈ ticks, Fair ctx V start s t (some cmd))
    (htracks : Tracks ctx V start s k ticks projected v)
    (hfee : issueFee M ctx H cmd = some fee)
    (h : projectRunningDeltas M ctx cmd fee = some (some es)) :
    Tracks ctx V start (SourceLedger.apply V.gas s (V.read (some cmd))) k ticks (projected ++ es)
      (v + (V.read (some cmd)).volume) := by
  obtain ⟨ds, hlocal, hplain, hnet⟩ := htracks
  rw [projectRunningDeltas] at h
  obtain ⟨deltas, hdeltas, h⟩ := Option.bind_eq_some_iff.1 h
  cases deltas with
  | none => cases h
  | some deltas =>
    obtain ⟨es', hes, he⟩ := Option.map_eq_some_iff.1 h
    obtain rfl := Option.some.inj he
    obtain ⟨hplain', htakes⟩ :=
      projectDeltas_spec hmirrors hvalid hgrid hsmall hnames hfee hdeltas
    refine ⟨ds ++ deltas, List.rel_append hlocal (localizes_of_mapM hplain' hsmall hes),
      plain_append hplain hplain', fun t ht => ?_⟩
    rw [netted_append]
    have hone := htakes s t (hfair t ht)
    have hbefore := hnet t ht
    linarith

/-- From any command on, an error is one of a command that lacks its balance when its turn comes. -/
theorem lacks_of_checkCommands (hmirrors : Mirrors H M ctx V start)
    (hnames : ∀ tick name, ctx.names tick name = true → V.token name = V.token tick)
    {todo : List (Option BatchCommand)} {i : ℕ} {projected : List LocalDelta} {v : ℚ}
    {unprojectable : Bool} {found : List Finding}
    (hvalid : ∀ c, some c ∈ todo → V.read (some c) ≠ .invalid)
    (hgrid : ∀ c ∈ todo, (V.read c).OnGrid k) (hv : 0 ≤ v)
    (hvolume : Small k (v + totalVolume V todo))
    (hstart : ∀ t ∈ todo.flatMap checkedTicks, OnGrid k (start.balance (V.token t)) ∧
      Small k (|start.balance (V.token t)| + (v + totalVolume V todo)))
    (hfair : FairRun ctx V start s todo)
    (hinv : unprojectable = false →
      Tracks ctx V start s k (todo.flatMap checkedTicks) projected v)
    (h : checkCommands M ctx H i projected unprojectable todo = some found) :
    ∀ f ∈ found, f.severity = .error → f.code = .BALANCE_INSUFFICIENT →
      ∃ j c, f.commandIndex = some ((i + j : ℕ) : ℚ) ∧ todo[j]? = some (some c) ∧
        (V.read (some c)).Lacks V.gas (SourceLedger.run V.gas s ((todo.take j).map V.read)) := by
  induction todo generalizing i projected v unprojectable found s with
  | nil =>
    cases h
    exact fun f hf => absurd hf List.not_mem_nil
  | cons cmd todo ih =>
    obtain ⟨hfirst, hrest⟩ := hfair
    have htail : ∀ t ∈ todo.flatMap checkedTicks, t ∈ (cmd :: todo).flatMap checkedTicks :=
      fun t ht => by
        rw [List.flatMap_cons]
        exact List.mem_append_right _ ht
    have hsplit : totalVolume V (cmd :: todo) = (V.read cmd).volume + totalVolume V todo := by
      rw [totalVolume, List.map_cons, List.sum_cons, totalVolume]
    have hone := volume_nonneg hmirrors.fee_nonneg cmd
    have hmore := totalVolume_nonneg hmirrors.fee_nonneg todo
    rw [hsplit, ← add_assoc] at hvolume
    have hstart' : ∀ t ∈ todo.flatMap checkedTicks, OnGrid k (start.balance (V.token t)) ∧
        Small k (|start.balance (V.token t)| + (v + (V.read cmd).volume + totalVolume V todo)) := by
      intro t ht
      rw [add_assoc, ← hsplit]
      exact hstart t (htail t ht)
    -- an error of the rest is one of a later command
    have hlater : ∀ {found : List Finding} {projected' : List LocalDelta} {unprojectable' : Bool},
        checkCommands M ctx H (i + 1) projected' unprojectable' todo = some found →
        (unprojectable' = false → Tracks ctx V start (SourceLedger.apply V.gas s (V.read cmd)) k
          (todo.flatMap checkedTicks) projected' (v + (V.read cmd).volume)) →
        ∀ f ∈ found, f.severity = .error → f.code = .BALANCE_INSUFFICIENT →
          ∃ j c, f.commandIndex = some ((i + j : ℕ) : ℚ) ∧ (cmd :: todo)[j]? = some (some c) ∧
            (V.read (some c)).Lacks V.gas
              (SourceLedger.run V.gas s (((cmd :: todo).take j).map V.read)) := by
      intro found projected' unprojectable' h hinv' f hf herror hcode
      obtain ⟨j, c, hindex, hc, hlacks⟩ := ih (fun c hc => hvalid c (List.mem_cons_of_mem _ hc))
        (fun c hc => hgrid c (List.mem_cons_of_mem _ hc)) (add_nonneg hv hone) hvolume hstart' hrest
        hinv' h f hf herror hcode
      refine ⟨j + 1, c, ?_, hc, hlacks⟩
      rw [hindex, Nat.add_right_comm, Nat.add_assoc]
    cases cmd with
    | none =>
      refine hlater h fun hproj => ?_
      obtain ⟨ds, hlocal, hplain, hnet⟩ := hinv hproj
      refine ⟨ds, hlocal, ⟨hplain.plain, hplain.sum.trans (le_add_of_nonneg_right hone)⟩,
        fun t ht => ?_⟩
      have hdrop := balance_drop V.gas s (V.read none) (V.token t)
      have hzero : (V.read none).debit V.gas s (V.token t) - (V.read none).credit (V.token t) = 0 :=
        sub_self 0
      rw [hzero, ite_self] at hdrop
      have := hnet t (htail t ht)
      linarith
    | some cmd =>
      obtain ⟨own, hown, h⟩ := Option.bind_eq_some_iff.1 h
      obtain ⟨fee, hfee, h⟩ := Option.bind_eq_some_iff.1 h
      obtain ⟨deltas, hdeltas, h⟩ := Option.bind_eq_some_iff.1 h
      obtain ⟨rest, hrest', h⟩ := Option.bind_eq_some_iff.1 h
      cases h
      have hvalid' := hvalid cmd List.mem_cons_self
      have hgrid' := hgrid (some cmd) List.mem_cons_self
      have hsmall : Small k (V.read (some cmd)).volume := hvolume.mono (by linarith)
      intro f hf herror hcode
      have hown' : ∀ t ∈ checkedTicks (some cmd), t ∈ (some cmd :: todo).flatMap checkedTicks :=
        fun t ht => by
          rw [List.flatMap_cons]
          exact List.mem_append_left _ ht
      rcases List.mem_append.1 hf with hf | hf
      · obtain ⟨hindex, hlacks⟩ := lacks_of_error hmirrors (v := v) hvalid' hgrid' hsmall
          (fun hproj => by
            obtain ⟨ds, hlocal, hplain, hnet⟩ := hinv hproj
            exact ⟨ds, hlocal, hplain, fun t ht => hnet t (hown' t ht)⟩)
          (fun t ht => ⟨(hstart t (hown' t ht)).1, (hstart t (hown' t ht)).2.mono (by
            rw [hsplit]
            linarith)⟩) hown hf herror hcode
        exact ⟨0, cmd, hindex, rfl, hlacks⟩
      · refine hlater hrest' (fun hproj => ?_) f hf herror hcode
        cases deltas with
        | none => simp at hproj
        | some es =>
          have hbefore : unprojectable = false := by simpa using hproj
          obtain ⟨ds, hlocal, hplain, hnet⟩ := hinv hbefore
          exact tracks_step hmirrors hvalid' hgrid' hsmall hnames hfirst
            ⟨ds, hlocal, hplain, fun t ht => hnet t (htail t ht)⟩ hfee hdeltas

/-- The amounts of a batch are so few digits that no sum is rounded. -/
structure ExactAmounts (V : ChainView T) (start : SourceLedger T)
    (cmds : List (Option BatchCommand)) (k : ℕ) : Prop where
  grid : ∀ c ∈ cmds, (V.read c).OnGrid k
  volume : Small k (totalVolume V cmds)
  balances : ∀ t ∈ cmds.flatMap checkedTicks, OnGrid k (start.balance (V.token t)) ∧
    Small k (|start.balance (V.token t)| + totalVolume V cmds)

/-- An error on a balance, tagged with a command, is raised only if the command lacks its balance
when the commands run in order. -/
def NeverFalseBlocks (V : ChainView T) (start : SourceLedger T) (cmds : List (Option BatchCommand))
    (found : List Finding) : Prop :=
  ∀ f ∈ found, f.severity = .error → f.code = .BALANCE_INSUFFICIENT →
    ∃ (i : ℕ) (c : BatchCommand), f.commandIndex = some (i : ℚ) ∧ cmds[i]? = some (some c) ∧
      (V.read (some c)).Lacks V.gas (SourceLedger.run V.gas start ((cmds.take i).map V.read))

/-- **In a batch of well-formed commands whose steps are fair, no command is blocked that could have
been paid.** -/
theorem checkBatch_neverFalseBlocks (hmirrors : Mirrors H M ctx V start)
    {cmds : List (Option BatchCommand)} {found : List Finding}
    (hvalid : ∀ c, some c ∈ cmds → V.read (some c) ≠ .invalid)
    (hexact : ExactAmounts V start cmds k) (hfair : FairRun ctx V start start cmds)
    (h : checkBatch M ctx H cmds = some found) : NeverFalseBlocks V start cmds found := by
  have hnames : ∀ tick name, ctx.names tick name = true → V.token name = V.token tick := by
    intro tick name hname
    rcases Bool.or_eq_true_iff.1 hname with he | he
    · rw [eq_of_beq he]
    · exact hmirrors.resolved tick name (eq_of_beq he)
  intro f hf herror hcode
  obtain ⟨j, c, hindex, hc, hlacks⟩ := lacks_of_checkCommands hmirrors hnames hvalid hexact.grid
    le_rfl (by rw [zero_add]; exact hexact.volume)
    (fun t ht => by rw [zero_add]; exact hexact.balances t ht) hfair
    (fun _ => ⟨[], .nil, ⟨fun d hd => absurd hd List.not_mem_nil, le_rfl⟩, fun t _ => by
      rw [sub_self]
      exact le_rfl⟩) h f hf herror hcode
  rw [Nat.zero_add] at hindex
  exact ⟨j, c, hindex, hc, hlacks⟩

end Model

/-! ### Two payments of one balance -/

/-- Tokens by their trimmed names, and one address. -/
def paymentView : ChainView String where
  token := trim
  isSource := (· == "addr")
  fee _ := 0

/-- The source holds five units of one token. -/
def paymentLedger : SourceLedger String where
  balance t := if t = "XCP" then 5 else 0
  issued _ := true

/-- The lookups of that source; fees are paid in coin. -/
def paymentContext : ProjectionContext where
  source := "addr"
  feeMode := .str "native"
  network := .str "bitcoin-mainnet"
  token _ := .present
  chainBalance tick := some (if trim tick = "XCP" then "5" else "0")
  resolvedName _ := none
  localDeltas := []

/-- A payment of the token to another address. -/
def payment (amount : String) : Option BatchCommand :=
  some ⟨"SEND", .num (.fin 0),
    [("TICK", .str "XCP"), ("AMOUNT", .str amount), ("DESTINATION", .str "other")]⟩

theorem mirrors_payment :
    Mirrors plainHost plainMath paymentContext paymentView paymentLedger where
  balance tick amount h := by
    have hamount : (if trim tick = "XCP" then "5" else "0") = amount :=
      Option.some.inj (Option.some.inj h)
    rw [← hamount]
    by_cases hxcp : trim tick = "XCP"
    · rw [if_pos hxcp]
      have hbalance : paymentLedger.balance (paymentView.token tick) = 5 := if_pos hxcp
      rw [hbalance]
      exact .inl ⟨by decide, by decide +kernel⟩
    · rw [if_neg hxcp]
      have hbalance : paymentLedger.balance (paymentView.token tick) = 0 := if_neg hxcp
      rw [hbalance]
      exact .inl ⟨by decide, by decide +kernel⟩
  resolved _ _ h := by cases h
  trimmed := trim_trim
  absent _ h := by cases h
  fee_nonneg _ := le_rfl
  fee gas _ h := by
    have hnative : xchainFeeDebit paymentContext.feeMode
        (gasConfig paymentContext.network) = false := rfl
    rw [hnative] at h
    cases h

/-- A payment that does not fail is fair to every later check. -/
theorem fair_payment {amount : String} {s : SourceLedger String} (tick : String)
    (h : ¬(paymentView.read (payment amount)).Lacks paymentView.gas s) :
    Fair paymentContext paymentView paymentLedger s tick (payment amount) where
  succeeds hlacks := absurd hlacks h
  firstIssue token fee supply toSource hread := by
    change paymentView.readLegs _ true = _ at hread
    rw [ChainView.readLegs] at hread
    split at hread <;> cases hread
  mint c hc haction := by
    cases hc
    simp at haction
  issue c hc haction := by
    cases hc
    simp at haction
  send c hc _ i _ _ hback := by
    cases hc
    -- There is one destination, and none for any further leg.
    cases i with
    | zero =>
      have haway : paymentView.isSource "other" = true := hback
      exact absurd haway (by decide)
    | succ i => cases hback

/-- Of two payments, the second is the one that the balance does not cover. -/
theorem checkBatch_second_short : ∃ found,
    checkBatch plainMath paymentContext plainHost [payment "3", payment "3"] = some found ∧
    (found.map fun f => (f.code, f.severity, f.commandIndex)) =
      [(.BALANCE_INSUFFICIENT, .error, some 1)] ∧
    NeverFalseBlocks paymentView paymentLedger [payment "3", payment "3"] found := by
  have hfound : ((checkBatch plainMath paymentContext plainHost [payment "3", payment "3"]).map
      (List.map fun f => (f.code, f.severity, f.commandIndex))) =
      some [(.BALANCE_INSUFFICIENT, .error, some 1)] := by
    decide +kernel
  obtain ⟨found, hcheck, hmap⟩ := Option.map_eq_some_iff.1 hfound
  have hthree : plainValue "3" = 3 := by decide +kernel
  have hread : paymentView.read (payment "3") = .spend [⟨"XCP", 3, false⟩] := by
    rw [← hthree]
    rfl
  have honly : ∀ c ∈ [payment "3", payment "3"], c = payment "3" := fun c hc => by
    simpa using hc
  refine ⟨found, hcheck, hmap, checkBatch_neverFalseBlocks (k := 0) mirrors_payment
    (fun c hc => ?_) ⟨fun c hc => ?_, ?_, fun t ht => ?_⟩ ⟨fun t _ => ?_, fun t ht => ?_, trivial⟩
    hcheck⟩
  · rw [honly _ hc, hread]
    exact fun hinvalid => by cases hinvalid
  · rw [honly c hc, hread]
    intro l hl
    obtain rfl := List.mem_singleton.1 hl
    exact ⟨3, by norm_num⟩
  · change (_ : ℚ) ≤ _
    decide +kernel
  · have hticks : checkedTicks (payment "3") = ["XCP"] := by decide
    obtain rfl : t = "XCP" := by
      simpa [hticks] using ht
    refine ⟨⟨5, by decide +kernel⟩, ?_⟩
    change (_ : ℚ) ≤ _
    decide +kernel
  · exact fair_payment t (by decide +kernel)
  · cases ht

/-- **A payment that fails blocks the one behind it, which could be paid.** -/
theorem checkBatch_falseBlock : ¬ ∀ (H : Host) (M : MathJs) (ctx : ProjectionContext)
    (V : ChainView String) (start : SourceLedger String) (cmds : List (Option BatchCommand))
    (found : List Finding), Mirrors H M ctx V start → checkBatch M ctx H cmds = some found →
    NeverFalseBlocks V start cmds found := by
  intro h
  have hfound : ((checkBatch plainMath paymentContext plainHost
      [payment "10", payment "5"]).map
      (List.map fun f => (f.severity, f.code, f.commandIndex))) =
      some [(.error, .BALANCE_INSUFFICIENT, some 0), (.error, .BALANCE_INSUFFICIENT, some 1)] := by
    decide +kernel
  obtain ⟨found, hcheck, hmap⟩ := Option.map_eq_some_iff.1 hfound
  have hmem : (Severity.error, FindingCode.BALANCE_INSUFFICIENT, some 1) ∈
      found.map fun f => (f.severity, f.code, f.commandIndex) :=
    hmap ▸ List.mem_cons_of_mem _ (List.mem_cons_self ..)
  obtain ⟨f, hf, hkey⟩ := List.mem_map.1 hmem
  obtain ⟨hseverity, hcode, hindex⟩ := by simpa only [Prod.mk.injEq] using hkey
  obtain ⟨i, c, hi, hc, hlacks⟩ := h plainHost plainMath paymentContext paymentView paymentLedger
    _ found mirrors_payment hcheck f hf hseverity hcode
  obtain rfl : 1 = i := by exact_mod_cast Option.some.inj (hindex.symm.trans hi)
  have hsecond : payment "5" = some c := Option.some.inj hc
  have hpaid : ¬(paymentView.read (payment "5")).Lacks paymentView.gas
      (SourceLedger.run paymentView.gas paymentLedger [paymentView.read (payment "10")]) := by
    decide +kernel
  rw [hsecond] at hpaid
  exact hpaid hlacks

end XChainSdk
