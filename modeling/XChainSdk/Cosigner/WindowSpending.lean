import XChainSdk.Cosigner.WindowDurability
import XChainSdk.Lib.SlidingWindow

/-!
# Spending by token

The window ledger keys its totals by the text of a token and the evaluator adds up the spellings of
one token.  Together they give what the rows spend of the token.

* `TextRow` : rows that the co-signer charges.
* `spending` : what some rows spend of a token, under every spelling.
* `spentBy_totals` : the evaluator's running total of the ledger's snapshot.
-/

namespace XChainSdk

variable {M : MathJs} {rows : List WindowEntry} {e : WindowEntry} {tick : Js}

/-- The token of a row, as consensus compares it. -/
def tickFold : Js → Option String
  | .str s => some (foldTick s)
  | _ => none

/-- The names that the ledger and the evaluator use for themselves are not tokens. -/
def Nameable (tick : Js) : Prop := tick ≠ .str "*" ∧ tick ≠ .str UNRESOLVED_TICK_BUCKET

/-- A row of a charge: its token is a text that can be told apart, its amount a number. -/
structure TextRow (M : MathJs) (e : WindowEntry) : Prop where
  text : IsText e.tick
  nameable : Nameable e.tick
  amount : isUndefined e.amount = false → ∃ q, M.value e.amount.toText = some q ∧ 0 ≤ q

/-- The amount of a row. -/
def amountOf (M : MathJs) (e : WindowEntry) : ℚ :=
  if isUndefined e.amount then 0 else (M.value e.amount.toText).getD 0

/-- What some rows spend of a token. -/
def spending (M : MathJs) (f : Option String) (rows : List WindowEntry) : ℚ :=
  ((rows.filter fun e => decide (tickFold e.tick = f)).map (amountOf M)).sum

/-- The ledger's sums have no more digits than the package keeps. -/
def ExactTotals (M : MathJs) (rows : List WindowEntry) : Prop :=
  ∀ key l, l <+: amountsAt M key rows → FitsSig BIGNUMBER_PRECISION l.sum

theorem TextRow.numeric (h : TextRow M e) : Numeric M e := fun hdef => by
  obtain ⟨q, hq, -⟩ := h.amount hdef
  exact ⟨q, hq⟩

theorem amountOf_eq {q : ℚ} (hdef : isUndefined e.amount = false)
    (hq : M.value e.amount.toText = some q) : amountOf M e = q := by
  simp [amountOf, hdef, hq]

theorem TextRow.amountOf_nonneg (h : TextRow M e) : 0 ≤ amountOf M e := by
  cases hdef : isUndefined e.amount with
  | true => simp [amountOf, hdef]
  | false =>
    obtain ⟨q, hq, h0⟩ := h.amount hdef
    rwa [amountOf_eq hdef hq]

@[simp] theorem spending_nil (f : Option String) : spending M f [] = 0 := rfl

theorem spending_append (f : Option String) (a b : List WindowEntry) :
    spending M f (a ++ b) = spending M f a + spending M f b := by
  simp [spending]

theorem spending_singleton (f : Option String) (e : WindowEntry) :
    spending M f [e] = if tickFold e.tick = f then amountOf M e else 0 := by
  by_cases h : tickFold e.tick = f <;> simp [spending, h]

/-- More rows spend no less. -/
theorem spending_mono {f : Option String} {rows rows' : List WindowEntry}
    (hrows : ∀ e ∈ rows', TextRow M e) (h : rows.Sublist rows') :
    spending M f rows ≤ spending M f rows' := by
  refine List.Sublist.sum_le_sum ((h.filter _).map _) fun q hq => ?_
  obtain ⟨e, he, rfl⟩ := List.mem_map.1 hq
  exact (hrows e (List.mem_of_mem_filter he)).amountOf_nonneg

/-! ### The totals of the ledger -/

theorem amountsAt_append (key : String) (a b : List WindowEntry) :
    amountsAt M key (a ++ b) = amountsAt M key a ++ amountsAt M key b := by
  simp [amountsAt]

theorem ExactTotals.of_append {a b : List WindowEntry} (h : ExactTotals M (a ++ b)) :
    ExactTotals M a := fun key l hl =>
  h key l (by rw [amountsAt_append]; exact hl.trans (List.prefix_append _ _))

theorem totals_append (e : WindowEntry) :
    (totals M (rows ++ [e])).perTick = accumulate M (totals M rows).perTick e := by
  simp [totals, List.foldl_append]

/-- The total at a key, as a number. -/
theorem totals_get? (key : String) (hrows : ∀ e ∈ rows, TextRow M e) (hexact : ExactTotals M rows) :
    M.value (((totals M rows).perTick.get? key).getD "0") =
      some (amountsAt M key rows).sum :=
  totals_value (fun e he => (hrows e he).numeric) (hexact key)

/-- A row with an amount adds it to the total at its key. -/
theorem accumulate_totals (hrows : ∀ x ∈ rows ++ [e], TextRow M x)
    (hexact : ExactTotals M (rows ++ [e])) (hdef : isUndefined e.amount = false) :
    ∃ s, accumulate M (totals M rows).perTick e =
        (totals M rows).perTick.set (bucketOf e.tick) s ∧
      M.value s = some ((amountsAt M (bucketOf e.tick) rows).sum + amountOf M e) := by
  obtain ⟨q, hq, -⟩ := (hrows e (by simp)).amount hdef
  have hold := totals_get? (bucketOf e.tick) (fun x hx => hrows x (by simp [hx])) hexact.of_append
  obtain ⟨s, hs, hsv⟩ := M.value_addDecimal hold hq
  have hfit : FitsSig BIGNUMBER_PRECISION ((amountsAt M (bucketOf e.tick) rows).sum + q) := by
    have hpre : amountsAt M (bucketOf e.tick) (rows ++ [e]) =
        amountsAt M (bucketOf e.tick) rows ++ [q] := by
      rw [amountsAt_append]
      simp [amountsAt, hdef, hq]
    have := hexact (bucketOf e.tick) _ (List.prefix_refl _)
    rwa [hpre, List.sum_append, List.sum_singleton] at this
  refine ⟨s, by simp [accumulate, hdef, hs], ?_⟩
  rw [hsv, roundSig_of_fits hfit, amountOf_eq hdef hq]

/-- The keys that spell a token. -/
def spells (t key : String) : Bool := foldTick key == foldTick t && key != UNRESOLVED_TICK_BUCKET

theorem bucketOf_str (s : String) : bucketOf (.str s) = s := by simp [bucketOf, Js.isNullish]

/-- The key of a row spells a token exactly when the row is of the token. -/
theorem TextRow.spells_iff (h : TextRow M e) (t : String) :
    spells t (bucketOf e.tick) = true ↔ tickFold e.tick = some (foldTick t) := by
  rcases h.text with hu | ⟨s, hs⟩
  · simp [hu, bucketOf, Js.isNullish, spells, tickFold]
  · have hne : s ≠ UNRESOLVED_TICK_BUCKET := fun he => h.nameable.2 (by rw [hs, he])
    simp [hs, bucketOf_str, spells, tickFold, hne]

theorem map_getD_of_value {x : Option String} {q : ℚ} (h : M.value (x.getD "0") = some q) :
    (x.map fun s => (M.value s).getD 0).getD 0 = q := by
  cases x with
  | none =>
    rw [Option.getD_none, M.value_zero, Option.some.injEq] at h
    simp [h]
  | some s =>
    rw [Option.getD_some] at h
    simp [h]

/-- The induction is on the rows, the last one first: its key is set to the total with its
amount. -/
theorem spellings_totals (t : String) (hrows : ∀ e ∈ rows, TextRow M e)
    (hexact : ExactTotals M rows) :
    (∀ x ∈ (totals M rows).perTick.entries, ∃ q, M.value x.2 = some q) ∧
      (((totals M rows).perTick.entries.filter fun x => spells t x.1).map fun x =>
        (M.value x.2).getD 0).sum = spending M (some (foldTick t)) rows := by
  induction rows using List.reverseRecOn with
  | nil => exact ⟨by simp [totals, Dict.empty], by simp [totals, Dict.empty]⟩
  | append_singleton rows e ih =>
    obtain ⟨hread, hsum⟩ := ih (fun x hx => hrows x (by simp [hx])) hexact.of_append
    rw [totals_append, spending_append, spending_singleton]
    cases hdef : isUndefined e.amount with
    | true =>
      have hskip : accumulate M (totals M rows).perTick e = (totals M rows).perTick := by
        simp [accumulate, hdef]
      have hzero : amountOf M e = 0 := by simp [amountOf, hdef]
      rw [hskip, hzero, ite_self, add_zero]
      exact ⟨hread, hsum⟩
    | false =>
      obtain ⟨s, hset, hsv⟩ := accumulate_totals hrows hexact hdef
      rw [hset]
      have hold := totals_get? (bucketOf e.tick) (fun x hx => hrows x (by simp [hx]))
        hexact.of_append
      refine ⟨fun x hx => ?_, ?_⟩
      · have hget := Dict.get?_of_mem hx
        rw [Dict.get?_set] at hget
        split_ifs at hget with hkey
        · cases hget
          exact ⟨_, hsv⟩
        · exact hread _ (Dict.mem_entries_of_get? hget)
      · have hset' : ((totals M rows).perTick.set (bucketOf e.tick) s).entries =
            Loop.setEntry (totals M rows).perTick.entries (bucketOf e.tick) s := rfl
        have hlookup : (((totals M rows).perTick.entries.lookup (bucketOf e.tick)).map fun s =>
            (M.value s).getD 0).getD 0 = (amountsAt M (bucketOf e.tick) rows).sum :=
          map_getD_of_value hold
        rw [hset', Loop.sum_setEntry (spells t) (fun s => (M.value s).getD 0), hsum, hlookup, hsv,
          Option.getD_some, add_sub_cancel_left]
        have hiff := (hrows e (by simp)).spells_iff t
        by_cases hs : tickFold e.tick = some (foldTick t)
        · rw [if_pos (hiff.2 hs), if_pos hs]
        · rw [if_neg fun h => hs (hiff.1 h), if_neg hs]

theorem sum_filterMap_value (l : List (String × String))
    (h : ∀ x ∈ l, ∃ q, M.value x.2 = some q) :
    (l.filterMap fun x => M.value x.2).sum = (l.map fun x => (M.value x.2).getD 0).sum := by
  induction l with
  | nil => rfl
  | cons x l ih =>
    rw [List.forall_mem_cons] at h
    obtain ⟨q, hq⟩ := h.1
    simp [hq, ih h.2]

theorem sum_amountsAt {key : String} (hrows : ∀ e ∈ rows, TextRow M e) :
    (amountsAt M key rows).sum =
      ((rows.filter fun e => bucketOf e.tick == key).map (amountOf M)).sum := by
  induction rows with
  | nil => rfl
  | cons e rows ih =>
    rw [List.forall_mem_cons] at hrows
    have hrest := ih hrows.2
    have hcons : amountsAt M key (e :: rows) = amountsAt M key [e] ++ amountsAt M key rows :=
      amountsAt_append key [e] rows
    rw [hcons, List.sum_append, hrest]
    cases hdef : isUndefined e.amount with
    | true => by_cases hkey : bucketOf e.tick = key <;> simp [amountsAt, hdef, hkey, amountOf]
    | false =>
      obtain ⟨q, hq, -⟩ := hrows.1.amount hdef
      by_cases hkey : bucketOf e.tick = key <;> simp [amountsAt, hdef, hkey, hq, amountOf]

/-- **The evaluator's running total of a token is what the rows spend of it.** -/
theorem spentBy_totals (hrows : ∀ e ∈ rows, TextRow M e) (hexact : ExactTotals M rows)
    (ht : IsText tick) (hname : Nameable tick) :
    (spentBy M (totals M rows) tick).sum = spending M (tickFold tick) rows := by
  rcases ht with rfl | ⟨t, rfl⟩
  · -- rows without a token have a bucket of their own
    have hget := totals_get? UNRESOLVED_TICK_BUCKET hrows hexact
    have hbucket : ((((totals M rows).perTick.get? UNRESOLVED_TICK_BUCKET).bind M.value).getD 0) =
        (amountsAt M UNRESOLVED_TICK_BUCKET rows).sum := by
      rw [← map_getD_of_value hget]
      cases (totals M rows).perTick.get? UNRESOLVED_TICK_BUCKET <;> rfl
    have hfilter : (rows.filter fun e => bucketOf e.tick == UNRESOLVED_TICK_BUCKET) =
        rows.filter fun e => decide (tickFold e.tick = none) := by
      refine List.filter_congr fun e he => ?_
      rcases (hrows e he).text with hu | ⟨s, hs⟩
      · simp [hu, bucketOf, Js.isNullish, tickFold]
      · have hne : s ≠ UNRESOLVED_TICK_BUCKET := fun h => (hrows e he).nameable.2 (by rw [hs, h])
        simp [hs, bucketOf_str, tickFold, hne]
    simp only [spentBy, tickKey, List.sum_singleton]
    rw [hbucket, sum_amountsAt hrows, hfilter]
    rfl
  · obtain ⟨hread, hsum⟩ := spellings_totals t hrows hexact
    have hspent : spentBy M (totals M rows) (.str t) =
        ((totals M rows).perTick.entries.filter fun x => spells t x.1).filterMap fun x =>
          M.value x.2 := rfl
    rw [hspent, sum_filterMap_value _ fun x hx => hread x (List.mem_of_mem_filter hx), hsum]
    rfl

end XChainSdk
