import XChainSdk.Cosigner.EvaluatePolicy
import XChainSdk.Lib.Checks

/-!
# What an approval of the policy evaluator guarantees

* `SameToken`, `capFor_congr`, `windowUsedFor_congr` : caps and running totals depend on a token
  only up to letter case.
* `spentBy` : what a snapshot holds for a token, as numbers, with `usedFor_value`.
* `Prepared`, `Approved` : what an approved action passed through.
* `Approved.capped`, `Approved.windowed` : its amount is within the caps that the evaluator finds.
-/

namespace XChainSdk

/-! ### Spellings of a token -/

/-- Two spellings that consensus reads as one token. -/
def SameToken (t t' : Js) : Prop :=
  t = t' ∨ ∃ a b, t = .str a ∧ t' = .str b ∧ foldTick a = foldTick b

theorem toUpper_eq_star {c : Char} (h : c.toUpper = '*') : c = '*' := by
  by_cases hc : 97 ≤ c.toNat ∧ c.toNat ≤ 122
  · exfalso
    have hself : c = Char.ofNat c.toNat := (Char.ofNat_toNat c).symm
    obtain ⟨h1, h2⟩ := hc
    rw [hself] at h
    revert h
    interval_cases c.toNat <;> decide
  · have hself : c.toUpper = c := dif_neg fun hv => hc ⟨hv.1, hv.2⟩
    rw [← hself, h]

theorem foldTick_eq_star {s : String} (h : foldTick s = "*") : s = "*" := by
  have hl : s.toList.map Char.toUpper = ['*'] := by
    have h' := congrArg String.toList h
    simpa [foldTick, asciiUpper] using h'
  obtain ⟨c, r, hs, hc, hr⟩ := List.map_eq_cons_iff.1 hl
  rw [List.map_eq_nil_iff] at hr
  apply String.toList_inj.1
  rw [hs, hr, toUpper_eq_star hc]
  rfl

theorem tickKeysFor_congr {t t' : Js} (h : SameToken t t') (keys : List String) :
    tickKeysFor keys t = tickKeysFor keys t' := by
  rcases h with rfl | ⟨a, b, rfl, rfl, hab⟩
  · rfl
  · simp only [tickKeysFor, tickKey, hab]

theorem ambiguous_congr {t t' : Js} (h : SameToken t t') (table : Option CapTable) :
    ambiguous t table = ambiguous t' table := by
  cases table with
  | none => rfl
  | some m => simp only [ambiguous, tickKeysFor_congr h]

theorem mem_tickKeysFor {keys : List String} {a key : String} :
    key ∈ tickKeysFor keys (.str a) ↔ key ∈ keys ∧ key ≠ "*" ∧ foldTick key = foldTick a := by
  simp [tickKeysFor, tickKey]

theorem firstDefined_cons_undefined (vs : List Js) (fallback : Js) :
    firstDefined (.undefined :: vs) fallback = firstDefined vs fallback := rfl

theorem firstDefined_cons_self (v fallback : Js) :
    firstDefined [v, v] fallback = firstDefined [v] fallback := by
  unfold firstDefined
  by_cases hv : isUndefined v = true <;> simp [hv]

/-- An unambiguous token other than `*` has the cap of the one key that names it. -/
theorem capFor_str {m : CapTable} {a : String} (ha : a ≠ "*")
    (hamb : ambiguous (.str a) (some m) = false) :
    capFor (some m) (.str a) =
      firstDefined (namedCaps m (.str a)) ((m.get? "*").getD .undefined) := by
  have hlen : (tickKeysFor m.keys (.str a)).length ≤ 1 := by
    simpa [ambiguous] using hamb
  have hcap : capFor (some m) (.str a) =
      firstDefined (ownLookup m (.str a) :: namedCaps m (.str a))
        ((m.get? "*").getD .undefined) := rfl
  rw [hcap]
  -- the own lookup finds nothing that the folded lookup does not
  cases hg : m.get? a with
  | none =>
    have hown : ownLookup m (.str a) = .undefined := by simp [ownLookup, tickKey, hg]
    rw [hown, firstDefined_cons_undefined]
  | some v =>
    have hmem : a ∈ tickKeysFor m.keys (.str a) :=
      mem_tickKeysFor.2 ⟨Dict.mem_keys.2 ⟨v, hg⟩, ha, rfl⟩
    obtain ⟨k, hk⟩ := List.length_eq_one_iff.1 (le_antisymm hlen (List.length_pos_of_mem hmem))
    have hka : a = k := by simpa [hk] using hmem
    have hown : ownLookup m (.str a) = v := by simp [ownLookup, tickKey, hg]
    have hnamed : namedCaps m (.str a) = [v] := by simp [namedCaps, hk, ← hka, hg]
    rw [hown, hnamed, firstDefined_cons_self]

theorem capFor_congr {t t' : Js} (h : SameToken t t') {table : Option CapTable}
    (hamb : ambiguous t table = false) : capFor table t = capFor table t' := by
  rcases h with rfl | ⟨a, b, rfl, rfl, hab⟩
  · rfl
  · cases table with
    | none => rfl
    | some m =>
      by_cases ha : a = "*"
      · have hb : b = "*" := foldTick_eq_star (by rw [← hab, ha]; decide)
        rw [ha, hb]
      · have hb : b ≠ "*" := fun hb => ha (foldTick_eq_star (by rw [hab, hb]; decide))
        have hsame : SameToken (.str a) (.str b) := .inr ⟨a, b, rfl, rfl, hab⟩
        rw [capFor_str ha hamb, capFor_str hb (by rw [← ambiguous_congr hsame]; exact hamb),
          namedCaps, namedCaps, tickKeysFor_congr hsame]

theorem windowUsedFor_congr {t t' : Js} (h : SameToken t t') (M : MathJs)
    (perTick : Dict String String) : windowUsedFor M perTick t = windowUsedFor M perTick t' := by
  simp only [windowUsedFor, tickKeysFor_congr h]

theorem isUndefined_congr {t t' : Js} (h : SameToken t t') : isUndefined t = isUndefined t' := by
  rcases h with rfl | ⟨a, b, rfl, rfl, -⟩ <;> rfl

/-! ### Running totals as numbers -/

variable {M : MathJs}

/-- The recorded totals of one token, under every spelling. -/
def spentUnder (M : MathJs) (perTick : Dict String String) (tick : String) : List ℚ :=
  (perTick.entries.filter fun e =>
    foldTick e.1 == foldTick tick && e.1 != UNRESOLVED_TICK_BUCKET).filterMap fun e => M.value e.2

/-- What a snapshot holds for a token; an action without one has a bucket of its own. -/
def spentBy (M : MathJs) (usage : WindowUsage) (tick : Js) : List ℚ :=
  match tickKey tick with
  | some t => spentUnder M usage.perTick t
  | none => [((usage.perTick.get? UNRESOLVED_TICK_BUCKET).bind M.value).getD 0]

/-- Every running total of a snapshot reads as a number. -/
def Readable (M : MathJs) (usage : WindowUsage) : Prop :=
  ∀ e ∈ usage.perTick.entries, ∃ q, M.value e.2 = some q

/-- One step of `windowUsedFor`. -/
def addUsed (M : MathJs) (perTick : Dict String String) (used key : String) : Option String :=
  if key == UNRESOLVED_TICK_BUCKET then some used
  else match perTick.get? key with
    | some amount => M.addDecimal used amount
    | none => some used

/-- The induction is on the entries still to come; the invariant is the exact sum so far. -/
theorem foldlM_addUsed {perTick : Dict String String} {tick : String}
    (l : List (String × String)) (hl : ∀ e ∈ l, perTick.get? e.1 = some e.2)
    (hread : ∀ e ∈ l, ∃ q, M.value e.2 = some q)
    (hstar : ∀ e ∈ l, foldTick e.1 = foldTick tick → e.1 ≠ "*") (used : String) (v : ℚ)
    (hv : M.value used = some v)
    (hfit : ∀ pre, pre <+: ((l.filter fun e => foldTick e.1 == foldTick tick &&
      e.1 != UNRESOLVED_TICK_BUCKET).filterMap fun e => M.value e.2) →
        FitsSig BIGNUMBER_PRECISION (v + pre.sum)) :
    ∃ s, (tickKeysFor (l.map Prod.fst) (.str tick)).foldlM (addUsed M perTick) used = some s ∧
      M.value s = some (v + ((l.filter fun e => foldTick e.1 == foldTick tick &&
        e.1 != UNRESOLVED_TICK_BUCKET).filterMap fun e => M.value e.2).sum) := by
  induction l generalizing used v with
  | nil => exact ⟨used, rfl, by simpa using hv⟩
  | cons e l ih =>
    rw [List.forall_mem_cons] at hl hread hstar
    by_cases hfold : foldTick e.1 = foldTick tick
    · have hkeys : tickKeysFor ((e :: l).map Prod.fst) (.str tick) =
          e.1 :: tickKeysFor (l.map Prod.fst) (.str tick) := by
        simp [tickKeysFor, tickKey, hfold, hstar.1 hfold]
      rw [hkeys, List.foldlM_cons]
      -- `addUsed` skips the bucket of unresolved tokens, though its key may fold to the token.
      by_cases hbucket : e.1 = UNRESOLVED_TICK_BUCKET
      · have hskip : addUsed M perTick used e.1 = some used := by simp [addUsed, hbucket]
        have hfilter : ((e :: l).filter fun e => foldTick e.1 == foldTick tick &&
            e.1 != UNRESOLVED_TICK_BUCKET) = l.filter fun e => foldTick e.1 == foldTick tick &&
              e.1 != UNRESOLVED_TICK_BUCKET := by
          simp [hbucket]
        rw [hfilter] at hfit ⊢
        rw [hskip, Option.bind_eq_bind, Option.bind_some]
        exact ih hl.2 hread.2 hstar.2 used v hv hfit
      · obtain ⟨q, hq⟩ := hread.1
        have hfilter : ((e :: l).filter fun e => foldTick e.1 == foldTick tick &&
            e.1 != UNRESOLVED_TICK_BUCKET).filterMap (fun e => M.value e.2) =
              q :: (l.filter fun e => foldTick e.1 == foldTick tick &&
                e.1 != UNRESOLVED_TICK_BUCKET).filterMap fun e => M.value e.2 := by
          simp [hfold, hbucket, hq]
        rw [hfilter] at hfit ⊢
        obtain ⟨s, hs, hsv⟩ := M.value_addDecimal hv hq
        have hexact : roundSig BIGNUMBER_PRECISION (v + q) = v + q :=
          roundSig_of_fits (by simpa using hfit [q] (by simp))
        have hstep : addUsed M perTick used e.1 = some s := by
          simp [addUsed, hbucket, hl.1, hs]
        rw [hstep, Option.bind_eq_bind, Option.bind_some]
        obtain ⟨s', hs', hsv'⟩ := ih hl.2 hread.2 hstar.2 s (v + q) (by rw [hsv, hexact])
          fun pre hpre => by
            have := hfit (q :: pre) (List.cons_prefix_cons.2 ⟨rfl, hpre⟩)
            rwa [List.sum_cons, ← add_assoc] at this
        exact ⟨s', hs', by rw [hsv', List.sum_cons, add_assoc]⟩
    · have hkeys : tickKeysFor ((e :: l).map Prod.fst) (.str tick) =
          tickKeysFor (l.map Prod.fst) (.str tick) := by
        simp [tickKeysFor, tickKey, hfold]
      have hfilter : ((e :: l).filter fun e => foldTick e.1 == foldTick tick &&
          e.1 != UNRESOLVED_TICK_BUCKET) = l.filter fun e => foldTick e.1 == foldTick tick &&
            e.1 != UNRESOLVED_TICK_BUCKET := by
        simp [hfold]
      rw [hkeys]
      rw [hfilter] at hfit ⊢
      exact ih hl.2 hread.2 hstar.2 used v hv hfit

/-- The code's running total is the exact sum of what is recorded for the token, unless the token
is `*`. -/
theorem usedFor_value {usage : WindowUsage} {tick : Js}
    (htick : tick = .undefined ∨ ∃ t, tick = .str t) (hread : Readable M usage)
    (hstar : tick = .str "*" → usage.perTick.get? "*" = none)
    (hfit : ∀ l, l <+: spentBy M usage tick → FitsSig BIGNUMBER_PRECISION l.sum) :
    ∃ s, usedFor M usage tick = some s ∧ M.value s = some (spentBy M usage tick).sum := by
  rcases htick with rfl | ⟨t, rfl⟩
  · simp only [usedFor, isUndefined, if_true, spentBy, tickKey, List.sum_singleton]
    cases hb : usage.perTick.get? UNRESOLVED_TICK_BUCKET with
    | none => exact ⟨"0", rfl, M.value_zero⟩
    | some s =>
      obtain ⟨q, hq⟩ := hread _ (Dict.mem_entries_of_get? hb)
      exact ⟨s, rfl, by simp [hq]⟩
  · have hnostar : ∀ e ∈ usage.perTick.entries, foldTick e.1 = foldTick t → e.1 ≠ "*" := by
      intro e he hfold hkey
      have ht : t = "*" := foldTick_eq_star (by rw [← hfold, hkey]; decide)
      have hnone := hstar (by rw [ht])
      rw [← hkey, Dict.get?_of_mem he] at hnone
      cases hnone
    obtain ⟨s, hs, hsv⟩ := foldlM_addUsed usage.perTick.entries (fun e he => Dict.get?_of_mem he)
      hread hnostar "0" 0 M.value_zero (fun pre hpre => by rw [zero_add]; exact hfit pre hpre)
    exact ⟨s, hs, by rw [hsv, zero_add]; rfl⟩

/-! ### Resolved values -/

/-- The params that a decoder hands over: texts, and lists under the names of variadic tails. -/
def DecodedParams (params : Params) : Prop :=
  ∀ e ∈ params, (∃ s, e.2 = .str s) ∨ ((∃ xs, e.2 = .arr xs) ∧ e.1 ∈ ["PARAMS", "ITEM"])

/-- No text or a text. -/
def IsText (v : Js) : Prop := v = .undefined ∨ ∃ s, v = .str s

theorem member_eq (params : Params) (k : String) :
    Js.member params k = .undefined ∨ (k, Js.member params k) ∈ params := by
  unfold Js.member
  cases h : params.lookup k with
  | none => exact .inl rfl
  | some v =>
    obtain ⟨l, r, he, -⟩ := List.lookup_eq_some_iff.1 h
    exact .inr (by rw [he]; simp)

theorem pick_isText {params : Params} (h : DecodedParams params) {keys : List String}
    (hkeys : ∀ k ∈ keys, k ∉ ["PARAMS", "ITEM"]) : IsText (pick params keys) := by
  unfold pick
  cases hf : (keys.map (Js.member params)).find? isPresent with
  | none => exact .inl rfl
  | some v =>
    obtain ⟨k, hk, rfl⟩ := List.mem_map.1 (List.mem_of_find?_eq_some hf)
    rcases member_eq params k with hu | hmem
    · exact .inl hu
    · rcases h _ hmem with hs | ⟨-, hrest⟩
      · exact .inr hs
      · exact absurd hrest (hkeys k hk)

theorem valueFields_keys : ∀ e ∈ ACTION_VALUE_FIELDS,
    (match e.2.2 with
      | .pick keys _ => keys.all fun k => !(["PARAMS", "ITEM"].contains k)
      | .fixed _ => true) = true := by
  decide

theorem resolveTick_isText {params : Params} (h : DecodedParams params) {a : AmountSource}
    {t : TickSource} {action : String} (hmem : (action, a, t) ∈ ACTION_VALUE_FIELDS) :
    IsText (resolveTick params t) := by
  have hkeys := valueFields_keys _ hmem
  cases t with
  | fixed tick => exact .inr ⟨tick, rfl⟩
  | pick keys tickDefault =>
    have hk : ∀ k ∈ keys, k ∉ ["PARAMS", "ITEM"] := fun k hkk => by
      simpa using List.all_eq_true.1 hkeys k hkk
    rcases pick_isText h hk with hu | ⟨s, hs⟩
    · rw [resolveTick, hu]
      cases tickDefault with
      | none => exact .inl rfl
      | some d => exact .inr ⟨d, rfl⟩
    · rw [resolveTick, hs]
      exact .inr ⟨s, rfl⟩

theorem resolveValue_isText {params : Params} (h : DecodedParams params) {action : String}
    {amount tick : Js} (hr : resolveValue M action params = some (amount, tick)) : IsText tick := by
  unfold resolveValue at hr
  cases hl : ACTION_VALUE_FIELDS.lookup action with
  | none =>
    simp only [hl, Option.some.injEq, Prod.mk.injEq] at hr
    rw [← hr.2]
    exact pick_isText h (by decide)
  | some f =>
    obtain ⟨a, t⟩ := f
    obtain ⟨l, r, he, -⟩ := List.lookup_eq_some_iff.1 hl
    simp only [hl, Option.map_eq_some_iff, Prod.mk.injEq] at hr
    obtain ⟨a', -, -, rfl⟩ := hr
    have hmem : (action, a, t) ∈ ACTION_VALUE_FIELDS := by rw [he]; simp
    exact resolveTick_isText h hmem

theorem resolveReference_isText {policy : Policy} {e : Evaluation} {tick : Js}
    (he : IsText e.tick) (h : resolveReference policy e = .ok tick) : IsText tick := by
  unfold resolveReference at h
  rcases he with he | ⟨s, he⟩
  · simp only [he, Except.ok.injEq] at h
    exact .inl h.symm
  · simp only [he] at h
    by_cases hcaret : s.toList.head? = some '^'
    · rw [if_pos hcaret] at h
      cases hname : resolveTickRef policy.tickIds s with
      | some name =>
        simp only [hname, Except.ok.injEq] at h
        exact .inr ⟨name, h.symm⟩
      | none =>
        rw [hname] at h
        exact .inr ⟨s, (Except.ok.inj (Checks.ite_error_eq_ok.1 h).2).symm⟩
    · rw [if_neg hcaret] at h
      exact .inr ⟨s, (Except.ok.inj h).symm⟩

/-! ### What an approval passed through -/

section Approval

variable {H : Host} {policy : Policy} {data : ActionData} {usage : WindowUsage} {s : EvalState}
  {e : Evaluation}

/-- The values that the checks judge. -/
structure Prepared (H : Host) (M : MathJs) (policy : Policy) (data : ActionData) (s : EvalState) :
    Prop where
  action : s.action = H.toUpperCase (data.action.or (.str "")).toText
  params : s.params = data.params
  version : s.version = versionOf data.version
  named : s.evaluation.action = s.action
  destinations : s.evaluation.destinations = destinationsOf data.params
  unconfirmed : s.evaluation.needsConfirmation = false
  tick : ∃ raw, resolveValue M s.action data.params = some (s.evaluation.amount, raw) ∧
    resolveReference policy { s.evaluation with tick := raw } = .ok s.evaluation.tick
  unambiguous : ∀ table ∈ tickTables policy s.action, ambiguous s.evaluation.tick table = false

theorem prepareEvaluation_ok (h : prepareEvaluation H M policy data = .ok s) :
    Prepared H M policy data s := by
  unfold prepareEvaluation at h
  obtain ⟨⟨amount, raw⟩, hvalue, h⟩ := Checks.bind_eq_ok.1 h
  obtain ⟨tick, href, h⟩ := Checks.bind_eq_ok.1 h
  obtain ⟨hamb, hs⟩ := Checks.ite_error_eq_ok.1 h
  cases hs
  have hres : resolveValue M (H.toUpperCase (data.action.or (.str "")).toText) data.params =
      some (amount, raw) := by
    cases hr : resolveValue M (H.toUpperCase (data.action.or (.str "")).toText) data.params with
    | none => rw [hr] at hvalue; cases hvalue
    | some v => rw [hr] at hvalue; cases hvalue; rfl
  exact ⟨rfl, rfl, rfl, rfl, rfl, rfl, ⟨raw, hres, href⟩, fun table htable => by
    by_contra hne
    exact hamb (List.any_eq_true.2 ⟨table, htable, by simpa using hne⟩)⟩

theorem Prepared.tick_isText (h : Prepared H M policy data s) (hp : DecodedParams data.params) :
    IsText s.evaluation.tick := by
  obtain ⟨raw, hvalue, href⟩ := h.tick
  exact resolveReference_isText (resolveValue_isText hp hvalue) href

/-- The checks of an approval, in order. -/
structure Approved (H : Host) (M : MathJs) (policy : Policy) (data : ActionData)
    (windowUsage : Option WindowUsage) (s : EvalState) (e : Evaluation) : Prop where
  prepared : prepareEvaluation H M policy data = .ok s
  basics : checkBasics policy s = .ok ()
  derivability : checkDerivability policy s = .ok ()
  cap : checkActionCap M policy s = .ok ()
  window : checkWindow M policy s windowUsage = .ok ()
  confirmation : setConfirmation M policy s = .ok e

theorem evaluatePolicy_ok {windowUsage : Option WindowUsage}
    (h : evaluatePolicy H M policy data windowUsage = .ok e) :
    ∃ s, Approved H M policy data windowUsage s e := by
  unfold evaluatePolicy at h
  obtain ⟨s, h1, h⟩ := Checks.bind_eq_ok.1 h
  obtain ⟨_, h2, h⟩ := Checks.bind_eq_ok.1 h
  obtain ⟨_, h3, h⟩ := Checks.bind_eq_ok.1 h
  obtain ⟨_, h4, h⟩ := Checks.bind_eq_ok.1 h
  obtain ⟨_, h5, h6⟩ := Checks.bind_eq_ok.1 h
  exact ⟨s, h1, h2, h3, h4, h5, h6⟩

theorem orThrow_eq_ok {α : Type} {x : Option α} {a : α} : orThrow x = .ok a ↔ x = some a := by
  cases x <;> simp [orThrow]

/-- Confirmation changes nothing else of an evaluation. -/
theorem setConfirmation_ok (h : setConfirmation M policy s = .ok e) :
    ∃ b, e = { s.evaluation with needsConfirmation := b } := by
  unfold setConfirmation at h
  dsimp only at h
  split_ifs at h with hc
  · obtain ⟨above, -, h⟩ := Checks.bind_eq_ok.1 h
    exact ⟨above, (Except.ok.inj h).symm⟩
  · exact ⟨s.evaluation.needsConfirmation, (Except.ok.inj h).symm⟩

theorem checkBasics_ok (h : checkBasics policy s = .ok ()) :
    (isUndefined s.evaluation.amount = false →
      isNonNegativeDecimal s.evaluation.amount.toText = true) ∧
    s.action ∈ policy.allowedActions ∧
    ∀ allowed, policy.allowedDestinations = some allowed →
      (∀ v, s.version = some v → formatCarriesDestination s.action v = true) ∧
        ∀ d ∈ s.evaluation.destinations, ∃ a ∈ allowed, d = .str a := by
  obtain ⟨hamount, h⟩ := Checks.ite_error_eq_ok.1 h
  obtain ⟨haction, h⟩ := Checks.ite_error_eq_ok.1 h
  refine ⟨fun hu => by simpa [hu] using hamount, by simpa using haction, fun allowed hallowed => ?_⟩
  simp only [hallowed] at h
  obtain ⟨hcarries, h⟩ := Checks.ite_error_eq_ok.1 h
  refine ⟨fun v hv => by simpa [hv] using hcarries, fun d hd => ?_⟩
  have hmem := Checks.forM_eq_ok.1 h d hd
  unfold checkDestination at hmem
  by_cases hin : inCollection allowed d = true
  · cases d with
    | str a => exact ⟨a, by simpa [inCollection] using hin, rfl⟩
    | _ => simp [inCollection] at hin
  · rw [if_neg hin] at hmem
    split_ifs at hmem

theorem checkDerivability_ok (h : checkDerivability policy s = .ok ())
    (hlimit : hasAmountLimit policy = true) :
    s.action ∉ UNBOUNDED_VALUE_ACTIONS ∧
      ∀ v, s.version = some v → (classify s.action v s.params).kind ≠ .unbounded := by
  obtain ⟨hnamed, h⟩ := Checks.ite_error_eq_ok.1 h
  obtain ⟨hclass, -⟩ := Checks.ite_error_eq_ok.1 h
  exact ⟨by simpa [hlimit] using hnamed, fun v hv => by simpa [hlimit, hv] using hclass⟩

/-- A cap that the amount passed. -/
theorem not_lt_of_gtDecimal {a c : ℚ} {amount cap : String} {e : Evaluation} {code : String}
    (ha : M.value amount = some a) (hc : M.value cap = some c)
    (h : (do
      if ← orThrow (M.gtDecimal amount cap) then Except.error (Refusal.denied code e)
      else Except.ok () : Except Refusal Unit) = .ok ()) : a ≤ c := by
  obtain ⟨b, hb, h⟩ := Checks.bind_eq_ok.1 h
  rw [orThrow_eq_ok, M.gtDecimal_eq ha hc, Option.some.injEq] at hb
  subst hb
  obtain ⟨hlt, -⟩ := Checks.ite_error_eq_ok.1 h
  exact not_lt.1 (by simpa using hlt)

theorem checkActionCap_ok (h : checkActionCap M policy s = .ok ()) {a c : ℚ}
    (hdef : isUndefined s.evaluation.amount = false)
    (ha : M.value s.evaluation.amount.toText = some a)
    (hcap : isUndefined (capFor (maxPerActionFor policy s.action) s.evaluation.tick) = false)
    (hc : M.value (capFor (maxPerActionFor policy s.action) s.evaluation.tick).toText = some c) :
    a ≤ c := by
  have hsome : policy.maxPerAction.isSome = true := by
    by_contra hno
    have hnone : policy.maxPerAction = none := by simpa using hno
    simp [maxPerActionFor, hnone, capFor, isUndefined] at hcap
  unfold checkActionCap at h
  simp only [hsome, hdef, hcap, Bool.not_false, Bool.and_self, if_true] at h
  exact not_lt_of_gtDecimal ha hc h

theorem checkWindow_ok {win : WindowRule} (hwin : policy.maxPerWindow = some win)
    (h : checkWindow M policy s (some usage) = .ok ()) :
    (∀ n, win.maxActions = some n → n.lt (.fin ((usage.count + 1 : ℕ) : ℚ)) = false) ∧
      checkWindowAmount M win usage s.evaluation = .ok () := by
  unfold checkWindow at h
  simp only [hwin, Option.getD_some] at h
  obtain ⟨hcount, h⟩ := Checks.ite_error_eq_ok.1 h
  exact ⟨fun n hn => by simpa [hn] using hcount, h⟩

theorem checkWindowAmount_ok {win : WindowRule} {a c u : ℚ} {used : String}
    (h : checkWindowAmount M win usage e = .ok ()) (hdef : isUndefined e.amount = false)
    (ha : M.value e.amount.toText = some a)
    (hused : usedFor M usage e.tick = some used) (hu : M.value used = some u)
    (hfit : FitsSig BIGNUMBER_PRECISION (u + a))
    (hcap : isUndefined (capFor win.perTick e.tick) = false)
    (hc : M.value (capFor win.perTick e.tick).toText = some c) : u + a ≤ c := by
  have hsome : win.perTick.isSome = true := by
    by_contra hno
    have hnone : win.perTick = none := by simpa using hno
    simp [hnone, capFor, isUndefined] at hcap
  unfold checkWindowAmount at h
  simp only [hsome, hdef, hcap, Bool.not_false, Bool.and_self, if_true] at h
  obtain ⟨used', hused', h⟩ := Checks.bind_eq_ok.1 h
  obtain ⟨projected, hproj, h⟩ := Checks.bind_eq_ok.1 h
  rw [orThrow_eq_ok] at hused' hproj
  rw [hused, Option.some.injEq] at hused'
  subst hused'
  obtain ⟨t, ht, htv⟩ := M.value_addDecimal hu ha
  rw [ht, Option.some.injEq] at hproj
  subst hproj
  rw [roundSig_of_fits hfit] at htv
  exact not_lt_of_gtDecimal htv hc h

theorem checkWindow_getD (windowUsage : Option WindowUsage) :
    checkWindow M policy s windowUsage =
      checkWindow M policy s (some (windowUsage.getD WindowUsage.none)) := rfl

/-! ### Amounts within their caps -/

/-- The number of a cap that applies to a token. -/
def capValue (M : MathJs) (table : Option CapTable) (tick : Js) : Option ℚ :=
  let cap := capFor table tick
  if isUndefined cap then none else M.value cap.toText

theorem capValue_eq_some {table : Option CapTable} {tick : Js} {c : ℚ} :
    capValue M table tick = some c ↔
      isUndefined (capFor table tick) = false ∧ M.value (capFor table tick).toText = some c := by
  simp only [capValue, ite_eq_iff, reduceCtorEq, and_false, false_or, Bool.not_eq_true]

/-- The number of the cap of the window. -/
def windowCap (M : MathJs) (policy : Policy) (tick : Js) : Option ℚ :=
  capValue M (windowPerTick policy) tick

/-- The sums that the window's check forms have no more digits than the package keeps. -/
def Fits (M : MathJs) (usage : WindowUsage) (e : Evaluation) : Prop :=
  (∀ l, l <+: spentBy M usage e.tick → FitsSig BIGNUMBER_PRECISION l.sum) ∧
    ∀ a, M.value e.amount.toText = some a →
      FitsSig BIGNUMBER_PRECISION ((spentBy M usage e.tick).sum + a)

/-- The amount of an approved action is within the cap of the action. -/
theorem Approved.capped {windowUsage : Option WindowUsage}
    (h : Approved H M policy data windowUsage s e) (hdef : isUndefined s.evaluation.amount = false)
    {a c : ℚ} (ha : M.value s.evaluation.amount.toText = some a)
    (hc : capValue M (maxPerActionFor policy s.action) s.evaluation.tick = some c) : a ≤ c := by
  obtain ⟨hcap, hcv⟩ := capValue_eq_some.1 hc
  exact checkActionCap_ok h.cap hdef ha hcap hcv

/-- With what the window holds it is within the cap of the window, unless the token is `*`. -/
theorem Approved.windowed {windowUsage : Option WindowUsage}
    (h : Approved H M policy data windowUsage s e) (ht : IsText s.evaluation.tick)
    (hread : Readable M (windowUsage.getD WindowUsage.none))
    (hstar : s.evaluation.tick ≠ .str "*")
    (hfit : Fits M (windowUsage.getD WindowUsage.none) s.evaluation)
    (hdef : isUndefined s.evaluation.amount = false) {a c : ℚ}
    (ha : M.value s.evaluation.amount.toText = some a)
    (hc : windowCap M policy s.evaluation.tick = some c) :
    (spentBy M (windowUsage.getD WindowUsage.none) s.evaluation.tick).sum + a ≤ c := by
  obtain ⟨used, hused, hu⟩ := usedFor_value ht hread (fun h => absurd h hstar) hfit.1
  have hwindow := h.window
  cases hwin : policy.maxPerWindow with
  | none =>
    -- without a window no cap applies
    have hnone : windowCap M policy s.evaluation.tick = none := by
      simp [windowCap, windowPerTick, hwin, capValue, capFor, isUndefined]
    rw [hnone] at hc
    cases hc
  | some win =>
    have hcap : capValue M win.perTick s.evaluation.tick = some c := by
      have hper : windowPerTick policy = win.perTick := by simp [windowPerTick, hwin]
      rw [← hper]
      exact hc
    rw [checkWindow_getD] at hwindow
    obtain ⟨hcd, hcv⟩ := capValue_eq_some.1 hcap
    exact checkWindowAmount_ok (checkWindow_ok hwin hwindow).2 hdef ha hused hu (hfit.2 a ha) hcd hcv

end Approval

end XChainSdk
