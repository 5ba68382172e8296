import XChainSdk.Cosigner.PolicyLimits
import XChainSdk.Cosigner.PolicySoundness

/-!
# What an approval authorises

* `Decoded` : the actions that the co-signer's decoder hands over.
* `capFor_of_capOf` : the evaluator finds the cap that binds a token.
* `Evaluates` : the evaluated amount and token are those that the action gives up.
* `Authorised` : the promises of an approval, with `Approved.authorised`.
-/

namespace XChainSdk

/-! ### Decoded actions -/

/-- The names of the fields of a format. -/
def fieldNames (action : String) (version : ℕ) : List String :=
  ((getFormatFields action version).getD []).map Slot.baseFieldName

/-- What the co-signer's decoder hands over: an action of the format table, and params under the
names of its fields. -/
structure Decoded (data : ActionData) (name : String) (version : ℕ) : Prop where
  action : data.action = .str name
  known : (getFormatFields name version).isSome
  numbered : data.version = .num (.fin version)
  params : DecodedParams data.params
  named : ∀ e ∈ data.params, e.1 ∈ fieldNames name version

section Params

variable {data : ActionData} {action : String} {version : ℕ} {params : Params}

theorem Decoded.versionOf (h : Decoded data action version) :
    versionOf data.version = some version := by
  rw [h.numbered]
  simp [XChainSdk.versionOf]

theorem formats_upper : ∀ e ∈ formats, IsAscii e.1 ∧ asciiUpper e.1 = e.1 := by
  decide +kernel

/-- The actions of the table are in upper case. -/
theorem Decoded.toUpperCase (h : Decoded data action version) (H : Host) :
    H.toUpperCase (data.action.or (.str "")).toText = action := by
  obtain ⟨fields, hfields⟩ := Option.isSome_iff_exists.1 h.known
  obtain ⟨versions, hversions, -⟩ := Option.bind_eq_some_iff.1 hfields
  obtain ⟨hascii, hupper⟩ := formats_upper _ (Loop.mem_of_lookup hversions)
  have hne : action ≠ "" := by
    rintro rfl
    have hnone : formats.lookup "" = none := by decide +kernel
    rw [hnone] at hversions
    cases hversions
  have htext : (data.action.or (.str "")).toText = action := by
    rw [h.action, Js.or, if_pos (by simpa [Js.truthy] using hne), Js.toText_str]
  rw [htext, H.toUpperCase_ascii _ hascii, hupper]

theorem member_of_notMem {names : List String} (hnames : ∀ e ∈ params, e.1 ∈ names) {k : String}
    (hk : k ∉ names) : Js.member params k = .undefined := by
  rcases member_eq params k with h | h
  · exact h
  · exact absurd (hnames _ h) hk

/-- Keys that name no field of the format are never found. -/
theorem pick_filter {names : List String} (hnames : ∀ e ∈ params, e.1 ∈ names)
    (keys : List String) : pick params keys = pick params (keys.filter (· ∈ names)) := by
  induction keys with
  | nil => rfl
  | cons k keys ih =>
    by_cases hk : k ∈ names
    · rw [List.filter_cons_of_pos (by simpa using hk), pick, pick, List.map_cons, List.map_cons,
        List.find?_cons, List.find?_cons]
      cases isPresent (Js.member params k) with
      | true => rfl
      | false => exact ih
    · rw [List.filter_cons_of_neg (by simpa using hk), ← ih, pick, List.map_cons, List.find?_cons,
        member_of_notMem hnames hk]
      rfl

/-- One key is read as it stands. -/
theorem pick_singleton (h : DecodedParams params) {f : String} (hf : f ∉ ["PARAMS", "ITEM"]) :
    (pick params [f] = .undefined ∧ (∀ s, ¬ Holds params f s) ∧ heldAmounts params [f] = []) ∨
      ∃ s, pick params [f] = .str s ∧ Holds params f s ∧
        heldAmounts params [f] = (decimalText s).toList := by
  have hpick : pick params [f] =
      if isPresent (Js.member params f) then Js.member params f else .undefined := by
    rw [pick, List.map_cons, List.map_nil, List.find?_cons]
    cases isPresent (Js.member params f) <;> rfl
  have hheld : heldAmounts params [f] = ((Js.member params f).str?.bind decimalText).toList := by
    rw [heldAmounts, List.filterMap_cons]
    cases (Js.member params f).str?.bind decimalText <;> rfl
  have htext : IsText (Js.member params f) := by
    rcases member_eq params f with hu | hmem
    · exact .inl hu
    · rcases h _ hmem with hs | ⟨-, hrest⟩
      · exact .inr hs
      · exact absurd hrest hf
  rw [hpick, hheld]
  rcases htext with hu | ⟨s, hs⟩
  · refine .inl ⟨by rw [hu]; rfl, fun s hs => ?_, by rw [hu]; rfl⟩
    have hm := hs.1
    rw [hu] at hm
    cases hm
  · by_cases hne : s = ""
    · subst hne
      refine .inl ⟨by rw [hs]; rfl, fun t ht => ?_, by rw [hs]; decide +kernel⟩
      have hm := ht.1
      rw [hs, Js.str.injEq] at hm
      exact ht.2 hm.symm
    · exact .inr ⟨s, by rw [hs, if_pos (by simpa [isPresent] using hne)], ⟨hs, hne⟩, by rw [hs]; rfl⟩

theorem heldAmounts_cons (f : String) (fields : List String) :
    heldAmounts params (f :: fields) = heldAmounts params [f] ++ heldAmounts params fields := by
  rw [← List.singleton_append, heldAmounts, List.filterMap_append]
  rfl

/-- A field that holds a text is the one that it holds. -/
theorem Holds.unique {f s t : String} (hs : Holds params f s) (ht : Holds params f t) : s = t := by
  have h := hs.1.symm.trans ht.1
  exact Js.str.inj h

end Params

/-! ### Caps -/

section Caps

variable {M : MathJs} {t : CapTable} {tick cap : Js}

theorem isUndefined_eq_false {v : Js} : isUndefined v = false ↔ v ≠ .undefined := by
  cases v <;> simp [isUndefined]

theorem firstDefined_of_undefined {vs : List Js} (h : ∀ v ∈ vs, v = .undefined) (fallback : Js) :
    firstDefined vs fallback = fallback := by
  have hnone : (vs.find? fun v => !isUndefined v) = none := by
    rw [List.find?_eq_none]
    intro v hv
    rw [h v hv]
    decide
  rw [firstDefined, hnone, Option.getD_none]

/-- **The evaluator finds the cap that binds a token**, in a table that names it once at most. -/
theorem capFor_of_capOf (ht : IsText tick) (hamb : ambiguous tick (some t) = false)
    (h : CapOf t tick.str? cap) : capFor (some t) tick = cap := by
  rcases ht with rfl | ⟨a, rfl⟩
  · cases h with
    | named name key htoken => cases htoken
    | wildcard hnone hset =>
      rw [capFor, if_pos (by rfl), Dict.get?_of_mem hset.1]
      exact firstDefined_of_undefined (by simp) _
  · cases h with
    | named name key htoken hkey hsame hset =>
      obtain rfl : a = name := Option.some.inj htoken
      have ha : a ≠ "*" := by
        rintro rfl
        exact hkey (foldTick_eq_star (hsame.trans (by decide)))
      have hmem : key ∈ tickKeysFor t.keys (.str a) :=
        mem_tickKeysFor.2 ⟨Dict.mem_keys.2 ⟨cap, Dict.get?_of_mem hset.1⟩, hkey, hsame⟩
      have hlen : (tickKeysFor t.keys (.str a)).length ≤ 1 := by simpa [ambiguous] using hamb
      obtain ⟨k, hk⟩ := List.length_eq_one_iff.1 (le_antisymm hlen (List.length_pos_of_mem hmem))
      obtain rfl : key = k := by simpa [hk] using hmem
      rw [capFor_str ha hamb, namedCaps, hk, List.map_cons, Dict.get?_of_mem hset.1]
      simp [firstDefined, isUndefined_eq_false.2 hset.2]
    | wildcard hnone hset =>
      by_cases ha : a = "*"
      · subst ha
        have hown : ownLookup t (.str "*") = cap := by
          simp [ownLookup, tickKey, Dict.get?_of_mem hset.1]
        rw [capFor, if_neg (by decide), hown]
        simp [firstDefined, isUndefined_eq_false.2 hset.2]
      · rw [capFor_str ha hamb, Dict.get?_of_mem hset.1]
        refine firstDefined_of_undefined (fun v hv => ?_) _
        obtain ⟨key, hkey, rfl⟩ := List.mem_map.1 hv
        obtain ⟨-, hstar, hsame⟩ := mem_tickKeysFor.1 hkey
        by_contra hne
        cases hget : t.get? key with
        | none => exact hne (by rw [hget]; rfl)
        | some w =>
          rw [hget] at hne
          exact hnone a key w rfl hstar hsame ⟨Dict.mem_entries_of_get? hget, hne⟩

theorem CapOf.defined (h : CapOf t tick.str? cap) : cap ≠ .undefined := by
  cases h with
  | named name key htoken hkey hsame hset => exact hset.2
  | wildcard hnone hset => exact hset.2

theorem capValue_of_capOf {c : ℚ} (ht : IsText tick) (hamb : ambiguous tick (some t) = false)
    (h : CapOf t tick.str? cap) (hc : M.value cap.toText = some c) :
    capValue M (some t) tick = some c := by
  rw [capValue_eq_some, capFor_of_capOf ht hamb h]
  exact ⟨isUndefined_eq_false.2 h.defined, hc⟩

end Caps

/-! ### Outflows -/

/-- Where the evaluator reads the amount and the token of an action. -/
def valueFields (action : String) : AmountSource × TickSource :=
  (ACTION_VALUE_FIELDS.lookup action).getD (.pick AMOUNT_KEYS, .pick TICK_KEYS none)

/-- An amount is read from the fields of a format that state it, and from no other. -/
def readsAmounts (names amounts : List String) : AmountSource → Bool
  | .pick keys => decide (keys.filter (· ∈ names) = amounts ∧ amounts.length = 1)
  | .sum legs => decide
      (legs.map (List.filter (· ∈ names)) = (amounts.map fun f => [f]) ∧ 1 < amounts.length)

/-- A token is read from the field of a format that names it, or is gas where none does. -/
def readsToken (names : List String) : OutflowToken → TickSource → Bool
  | .gas, .fixed t => decide (t = GAS_TICK)
  | .gas, .pick keys tickDefault =>
    decide (keys.filter (· ∈ names) = [] ∧ tickDefault = some GAS_TICK)
  | .field f, .pick keys _ => decide (keys.filter (· ∈ names) = [f])
  | .field _, .fixed _ => false

/-- An outflow is read where its format states it. -/
def readsOutflow (action : String) (version : ℕ) : Outflow → Bool
  | .stated amounts token =>
    readsAmounts (fieldNames action version) amounts (valueFields action).1 &&
      readsToken (fieldNames action version) token (valueFields action).2 &&
      amounts.all (· ∉ ["PARAMS", "ITEM"]) && decide (token ∉ [.field "PARAMS", .field "ITEM"])
  | _ => true

theorem outflows_read : ∀ e ∈ OUTFLOWS, ∀ v ∈ e.2, readsOutflow e.1 v.1 v.2 = true := by
  decide +kernel

/-- A format that the evaluator lets amounts bind has a stated outflow, and its handover fields, if it
has any, are those that demote it. -/
theorem table_outflows : ∀ e ∈ TABLE, ∀ v ∈ e.2, v.2.kind ≠ .unbounded →
    (outflowOf e.1 v.1).isSome ∧
      ∀ f ∈ HANDOVER_FIELDS, f ∈ v.2.unlessSet ∨ f ∉ fieldNames e.1 v.1 := by
  decide +kernel

/-- What is read of the destinations of a format is its field for them. -/
theorem destinations_read : ∀ e ∈ formats, ∀ v ∈ e.2,
    (DESTINATION_KEYS.filter fun k => k ∈ v.2.map Slot.baseFieldName).all (· = "DESTINATION") = true := by
  decide +kernel

/-- The amount and the token that are evaluated are those that the fields state. -/
structure Evaluates (M : MathJs) (policy : Policy) (params : Params) (amounts : List String)
    (token : OutflowToken) (e : Evaluation) : Prop where
  plain : ∀ f ∈ amounts, ∀ s, Holds params f s → isNonNegativeDecimal s = true
  unset : (∀ f ∈ amounts, ∀ s, ¬ Holds params f s) → e.amount = .undefined
  amount : ∀ f ∈ amounts, ∀ s, Holds params f s → e.amount ≠ .undefined ∧
    M.value e.amount.toText = some (heldAmounts params amounts).sum
  gas : token = .gas → e.tick = .str GAS_TICK
  named : ∀ f s, token = .field f → Holds params f s →
    ∃ name, TokenOf policy s name ∧ e.tick = .str name

section Outflows

variable {M : MathJs} {policy : Policy} {action : String} {version : ℕ} {params : Params}

theorem resolveValue_eq (action : String) (params : Params) : resolveValue M action params =
    (resolveAmount M params (valueFields action).1).map fun a =>
      (a, resolveTick params (valueFields action).2) := by
  unfold resolveValue valueFields
  cases ACTION_VALUE_FIELDS.lookup action with
  | some f => rfl
  | none =>
    simp only [Option.getD_none, resolveAmount, resolveTick, Option.map_some]
    cases pick params TICK_KEYS <;> rfl

/-- The legs that are summed: none was carried out raw, and the total is exact so far. -/
structure LegsSummed (M : MathJs) (s : LegSum) (v : ℚ) : Prop where
  total : M.value s.total = some v
  clean : s.invalid = none

/-- What is carried out raw stays, and the gate on amounts refuses it. -/
theorem addLeg_invalid {s r : LegSum} {keys : List String} (h : addLeg M params s keys = some r) :
    ((∀ v, s.invalid = some v → v ≠ .undefined ∧ isNonNegativeDecimal v.toText = false) →
      ∀ v, r.invalid = some v → v ≠ .undefined ∧ isNonNegativeDecimal v.toText = false) ∧
      (s.invalid ≠ none → r.invalid ≠ none) := by
  unfold addLeg at h
  split at h
  · cases h
    exact ⟨id, id⟩
  · next hdef =>
    split_ifs at h with hinv hplain
    · cases h
      exact ⟨id, id⟩
    · obtain ⟨total, -, rfl⟩ := Option.map_eq_some_iff.1 h
      exact ⟨id, id⟩
    · cases h
      refine ⟨fun _ v hv => ?_, fun _ => by simp⟩
      cases hv
      exact ⟨hdef, by simpa using hplain⟩

theorem foldlM_invalid {legs : List (List String)} {s r : LegSum}
    (h : legs.foldlM (addLeg M params) s = some r) (hs : s.invalid ≠ none) : r.invalid ≠ none := by
  induction legs generalizing s with
  | nil =>
    cases h
    exact hs
  | cons keys legs ih =>
    rw [List.foldlM_cons] at h
    obtain ⟨m, hm, hrest⟩ := Option.bind_eq_some_iff.1 h
    exact ih hrest ((addLeg_invalid hm).2 hs)

/-- A leg that is unset adds nothing, and one that is set adds its plain amount. -/
theorem addLeg_clean (hp : DecodedParams params) {names : List String}
    (hnames : ∀ e ∈ params, e.1 ∈ names) {s r : LegSum} {keys : List String} {f : String}
    (hkeys : keys.filter (· ∈ names) = [f]) (hf : f ∉ ["PARAMS", "ITEM"]) {v : ℚ}
    (h : addLeg M params s keys = some r) (hs : LegsSummed M s v) (hr : r.invalid = none)
    (hfit : FitsSig BIGNUMBER_PRECISION (v + (heldAmounts params [f]).sum)) :
    LegsSummed M r (v + (heldAmounts params [f]).sum) ∧
      (∀ t, Holds params f t → isNonNegativeDecimal t = true) ∧
      (r.seen = true ↔ s.seen = true ∨ ∃ t, Holds params f t) := by
  have hpick : pick params keys = pick params [f] := by rw [pick_filter hnames, hkeys]
  unfold addLeg at h
  rw [hpick] at h
  rcases pick_singleton hp hf with ⟨hu, hunset, hheld⟩ | ⟨t, ht, hset, hheld⟩
  · rw [hu] at h
    cases h
    refine ⟨?_, fun t ht => absurd ht (hunset t), ?_⟩
    · rw [hheld]
      simpa using hs
    · simp [hunset]
  · rw [ht] at h
    have hinv : s.invalid.isSome = false := by simp [hs.clean]
    simp only [hinv, Bool.false_eq_true, if_false, Js.toText_str] at h
    split_ifs at h with hplain
    · obtain ⟨total, htotal, rfl⟩ := Option.map_eq_some_iff.1 h
      obtain ⟨q, hq, -, -⟩ := decimalText_of_isNonNegativeDecimal hplain
      have hqv : M.value t = some q := by rw [M.value_decimal hplain, hq]
      obtain ⟨total', htotal', hv'⟩ := M.value_addDecimal hs.total hqv
      rw [htotal, Option.some.injEq] at htotal'
      subst htotal'
      rw [hheld, hq] at hfit ⊢
      simp only [Option.toList_some, List.sum_singleton] at hfit ⊢
      rw [roundSig_of_fits hfit] at hv'
      refine ⟨⟨hv', hs.clean⟩, fun t' ht' => hset.unique ht' ▸ hplain, ?_⟩
      simpa using Or.inr ⟨t, hset⟩
    · cases h
      simp at hr

/-- The induction is on the legs; the invariant is that none was carried out raw and the total is
the sum of what the fields before hold. -/
theorem foldlM_addLeg (hp : DecodedParams params) {names : List String}
    (hnames : ∀ e ∈ params, e.1 ∈ names) {legs : List (List String)} {fields : List String}
    (hlegs : legs.map (List.filter (· ∈ names)) = fields.map fun f => [f])
    (hfields : ∀ f ∈ fields, f ∉ ["PARAMS", "ITEM"]) {s r : LegSum} {v : ℚ}
    (h : legs.foldlM (addLeg M params) s = some r) (hs : LegsSummed M s v) (hr : r.invalid = none)
    (hfit : ∀ n, FitsSig BIGNUMBER_PRECISION (v + (heldAmounts params (fields.take n)).sum)) :
    LegsSummed M r (v + (heldAmounts params fields).sum) ∧
      (∀ f ∈ fields, ∀ t, Holds params f t → isNonNegativeDecimal t = true) ∧
      (r.seen = true ↔ s.seen = true ∨ ∃ f ∈ fields, ∃ t, Holds params f t) := by
  induction legs generalizing fields s v with
  | nil =>
    cases fields with
    | cons f fields => simp at hlegs
    | nil =>
      cases h
      refine ⟨by simpa [heldAmounts] using hs, by simp, by simp⟩
  | cons keys legs ih =>
    cases fields with
    | nil => simp at hlegs
    | cons f fields =>
      rw [List.map_cons, List.map_cons, List.cons.injEq] at hlegs
      rw [List.forall_mem_cons] at hfields
      rw [List.foldlM_cons] at h
      obtain ⟨m, hm, hrest⟩ := Option.bind_eq_some_iff.1 h
      have hmclean : m.invalid = none := by
        by_contra hne
        exact foldlM_invalid hrest hne hr
      have hfit1 := hfit 1
      rw [List.take_succ_cons, List.take_zero] at hfit1
      obtain ⟨hsum, hplain, hseen⟩ := addLeg_clean hp hnames hlegs.1 hfields.1 hm hs hmclean hfit1
      have hfit' : ∀ n, FitsSig BIGNUMBER_PRECISION
          (v + (heldAmounts params [f]).sum + (heldAmounts params (fields.take n)).sum) := by
        intro n
        have := hfit (n + 1)
        rwa [List.take_succ_cons, heldAmounts_cons, List.sum_append, ← add_assoc] at this
      obtain ⟨hsum', hplain', hseen'⟩ := ih hlegs.2 hfields.2 hrest hsum hfit'
      rw [heldAmounts_cons, List.sum_append, ← add_assoc]
      refine ⟨hsum', List.forall_mem_cons.2 ⟨hplain, hplain'⟩, ?_⟩
      rw [hseen', hseen, List.exists_mem_cons_iff, or_assoc]

theorem foldlM_refused {legs : List (List String)} {s r : LegSum}
    (h : legs.foldlM (addLeg M params) s = some r)
    (hs : ∀ v, s.invalid = some v → v ≠ .undefined ∧ isNonNegativeDecimal v.toText = false) :
    ∀ v, r.invalid = some v → v ≠ .undefined ∧ isNonNegativeDecimal v.toText = false := by
  induction legs generalizing s with
  | nil =>
    cases h
    exact hs
  | cons keys legs ih =>
    rw [List.foldlM_cons] at h
    obtain ⟨m, hm, hrest⟩ := Option.bind_eq_some_iff.1 h
    exact ih hrest ((addLeg_invalid hm).1 hs)

/-- The sums of several fields have no more digits than the package keeps. -/
def LegsFit (params : Params) (amounts : List String) : Prop :=
  1 < amounts.length → ∀ n, FitsSig BIGNUMBER_PRECISION (heldAmounts params (amounts.take n)).sum

/-- The amount that passes the gate is the sum of the fields that state it. -/
theorem resolveAmount_stated (hp : DecodedParams params) {names : List String}
    (hnames : ∀ e ∈ params, e.1 ∈ names) {amounts : List String} {source : AmountSource}
    (hreads : readsAmounts names amounts source = true)
    (hfields : ∀ f ∈ amounts, f ∉ ["PARAMS", "ITEM"]) (hfit : LegsFit params amounts) {amount : Js}
    (h : resolveAmount M params source = some amount)
    (hgate : amount ≠ .undefined → isNonNegativeDecimal amount.toText = true) :
    (∀ f ∈ amounts, ∀ s, Holds params f s → isNonNegativeDecimal s = true) ∧
      ((∀ f ∈ amounts, ∀ s, ¬ Holds params f s) → amount = .undefined) ∧
      ∀ f ∈ amounts, ∀ s, Holds params f s → amount ≠ .undefined ∧
        M.value amount.toText = some (heldAmounts params amounts).sum := by
  cases source with
  | pick keys =>
    obtain ⟨hkeys, hone⟩ := of_decide_eq_true hreads
    obtain ⟨f, rfl⟩ := List.length_eq_one_iff.1 hone
    have hpick : amount = pick params [f] := by
      rw [← hkeys, ← pick_filter hnames]
      exact (Option.some.inj h).symm
    rcases pick_singleton hp (hfields f (by simp)) with ⟨hu, hunset, -⟩ | ⟨t, ht, hset, hheld⟩
    · have hnone : ∀ g ∈ [f], ∀ s, ¬ Holds params g s := fun g hg s => by
        rw [List.mem_singleton.1 hg]
        exact hunset s
      exact ⟨fun g hg s hs => absurd hs (hnone g hg s), fun _ => hpick.trans hu,
        fun g hg s hs => absurd hs (hnone g hg s)⟩
    · have hdef : amount ≠ .undefined := by simp [hpick, ht]
      have htext : amount.toText = t := by rw [hpick, ht, Js.toText_str]
      have hplain := hgate hdef
      rw [htext] at hplain
      obtain ⟨q, hq, -, -⟩ := decimalText_of_isNonNegativeDecimal hplain
      refine ⟨fun g hg s hs => ?_, fun hnone => absurd hset (hnone f (by simp) t),
        fun g hg s hs => ⟨hdef, ?_⟩⟩
      · rw [List.mem_singleton.1 hg] at hs
        exact hset.unique hs ▸ hplain
      · rw [htext, M.value_decimal hplain, hheld, hq]
        simp
  | sum legs =>
    obtain ⟨hlegs, hlen⟩ := of_decide_eq_true hreads
    obtain ⟨r, hr, hamount⟩ := Option.bind_eq_some_iff.1 h
    have hclean : r.invalid = none := by
      cases hinv : r.invalid with
      | none => rfl
      | some v =>
        -- a leg that is carried out raw does not pass the gate
        obtain ⟨hdef, hplain⟩ := foldlM_refused hr (by simp) v hinv
        obtain rfl : v = amount := by simpa [hinv] using hamount
        rw [hgate hdef] at hplain
        cases hplain
    obtain ⟨hsum, hplain, hseen⟩ := foldlM_addLeg hp hnames hlegs hfields hr ⟨M.value_zero, rfl⟩
      hclean (by simpa using hfit hlen)
    rw [zero_add] at hsum
    have hvalue : amount = if r.seen = true then .str r.total else .undefined := by
      have hr := (Option.some.inj hamount).symm
      rwa [hclean] at hr
    refine ⟨hplain, fun hnone => ?_, fun f hf s hs => ?_⟩
    · have hns : ¬ r.seen = true := by
        rw [hseen]
        rintro (hfalse | ⟨f, hf, s, hs⟩)
        · cases hfalse
        · exact hnone f hf s hs
      rw [hvalue, if_neg hns]
    · rw [hvalue, if_pos (hseen.2 (.inr ⟨f, hf, s, hs⟩)), Js.toText_str]
      exact ⟨by simp, hsum.total⟩

/-- A token that is a text stays one: the name that the policy lists for a `^id`, or the text. -/
theorem tokenOf_resolveReference {e : Evaluation} {t : String} {tick : Js} (he : e.tick = .str t)
    (h : resolveReference policy e = .ok tick) : ∃ name, TokenOf policy t name ∧ tick = .str name := by
  have hsplit (u : String) : t = "^" ++ u ↔
      t.toList.head? = some '^' ∧ u = String.ofList (t.toList.drop 1) := by
    rw [← String.toList_inj, String.toList_append]
    cases hl : t.toList with
    | nil => simp
    | cons c cs =>
      rw [← String.toList_inj]
      simp [eq_comm]
  unfold resolveReference at h
  simp only [he] at h
  by_cases hcaret : t.toList.head? = some '^'
  · rw [if_pos hcaret] at h
    cases hname : resolveTickRef policy.tickIds t with
    | some name =>
      rw [hname] at h
      obtain ⟨ids, hids, hfind⟩ := Option.bind_eq_some_iff.1 hname
      obtain ⟨⟨k, v⟩, hentry, rfl⟩ := Option.map_eq_some_iff.1 hfind
      obtain ⟨hid, pre, post, hentries, hfirst⟩ := List.find?_eq_some_iff_append.1 hentry
      refine ⟨k, .mapped ids pre post k v hids hentries ?_ fun e he' => ?_, (Except.ok.inj h).symm⟩
      · exact (hsplit _).2 ⟨hcaret, by simpa using hid⟩
      · rw [Ne, hsplit]
        rintro ⟨-, heq⟩
        simpa [heq] using hfirst e he'
    | none =>
      rw [hname] at h
      have hok := (Except.ok.inj (Checks.ite_error_eq_ok.1 h).2).symm
      refine ⟨t, .plain fun ids hids e he' => ?_, hok.trans rfl⟩
      rw [Ne, hsplit]
      rintro ⟨-, heq⟩
      rw [hids, resolveTickRef, Option.bind_some, Option.map_eq_none_iff, List.find?_eq_none] at hname
      exact hname e he' (by simpa using heq)
  · rw [if_neg hcaret] at h
    refine ⟨t, .plain fun ids hids e he' => ?_, (Except.ok.inj h).symm⟩
    rw [Ne, hsplit]
    exact fun hc => hcaret hc.1

/-- The token that is evaluated is the one that the action gives up. -/
theorem resolveTick_stated (hp : DecodedParams params) {names : List String}
    (hnames : ∀ e ∈ params, e.1 ∈ names) {token : OutflowToken} {source : TickSource}
    (hreads : readsToken names token source = true) (htoken : token ∉ [.field "PARAMS", .field "ITEM"]) :
    (token = .gas → resolveTick params source = .str GAS_TICK) ∧
      ∀ f s, token = .field f → Holds params f s → resolveTick params source = .str s := by
  cases source with
  | fixed t =>
    cases token with
    | gas =>
      have ht : t = GAS_TICK := of_decide_eq_true hreads
      exact ⟨fun _ => by rw [resolveTick, ht], fun f s hf => by cases hf⟩
    | field f => cases hreads
  | pick keys tickDefault =>
    cases token with
    | gas =>
      obtain ⟨hkeys, hdefault⟩ := of_decide_eq_true hreads
      refine ⟨fun _ => ?_, fun f s hf => by cases hf⟩
      rw [resolveTick, pick_filter hnames, hkeys, hdefault]
      rfl
    | field f =>
      have hkeys : keys.filter (· ∈ names) = [f] := of_decide_eq_true hreads
      refine ⟨fun h => (by cases h), fun g s hg hs => ?_⟩
      cases hg
      rw [resolveTick, pick_filter hnames, hkeys]
      rcases pick_singleton hp (by simpa using htoken) with ⟨-, hunset, -⟩ | ⟨t, ht, hset, -⟩
      · exact absurd hs (hunset s)
      · rw [ht, hset.unique hs]

/-- Nothing names the gas token otherwise. -/
theorem resolveReference_gas {e : Evaluation} {tick : Js} (he : e.tick = .str GAS_TICK)
    (h : resolveReference policy e = .ok tick) : tick = .str GAS_TICK := by
  unfold resolveReference at h
  simp only [he] at h
  rw [if_neg (by decide)] at h
  exact (Except.ok.inj h).symm

end Outflows

/-! ### Approvals -/

/-- **What an approval promises.**  `e` is the evaluation that is returned. -/
structure Authorised (M : MathJs) (policy : Policy) (action : String) (version : ℕ)
    (params : Params) (usage : WindowUsage) (e : Evaluation) : Prop where
  allowed : action ∈ policy.allowedActions
  destinations : ∀ allowed, policy.allowedDestinations = some allowed →
    CarriesDestination action version ∧ ∀ d, NamesDestination params d → d ∈ allowed
  stated : LimitsAmounts policy → TokensStated action version params
  evaluated : ∀ amounts token, outflowOf action version = some (.stated amounts token) →
    Evaluates M policy params amounts token e
  canonical : e.amount ≠ .undefined → isNonNegativeDecimal e.amount.toText = true
  capped : ∀ a cap c, e.amount ≠ .undefined → M.value e.amount.toText = some a →
    ActionCap policy action e.tick.str? cap → M.value cap.toText = some c → a ≤ c
  windowed : ∀ a cap c, e.tick ≠ .str "*" → e.amount ≠ .undefined →
    M.value e.amount.toText = some a → WindowCapOf policy e.tick.str? cap →
      M.value cap.toText = some c → (spentBy M usage e.tick).sum + a ≤ c

section Approval

variable {H : Host} {M : MathJs} {policy : Policy} {data : ActionData} {name : String} {version : ℕ}
  {windowUsage : Option WindowUsage} {s : EvalState} {e : Evaluation}

theorem limitsAmounts_iff : LimitsAmounts policy ↔ hasAmountLimit policy = true := by
  have hwin : (windowPerTick policy).isSome = true ↔
      ∃ win, policy.maxPerWindow = some win ∧ win.perTick.isSome := by
    cases hmax : policy.maxPerWindow <;> simp [windowPerTick, hmax]
  rw [LimitsAmounts, hasAmountLimit, Bool.or_eq_true, Bool.or_eq_true, hwin, or_assoc]

/-- A format whose value a limit may bind has a stated outflow. -/
theorem tokensStated_of_classify (hd : Decoded data name version)
    (h : (classify name version data.params).kind ≠ .unbounded) :
    TokensStated name version data.params := by
  obtain ⟨entry, hentry, hkind, hunset⟩ := classify_kind_ne_unbounded.1 h
  obtain ⟨versions, hversions, hlookup⟩ := Option.bind_eq_some_iff.1 hentry
  obtain ⟨hsome, hfields⟩ := table_outflows _ (Loop.mem_of_lookup hversions) _
    (Loop.mem_of_lookup hlookup) hkind
  refine ⟨hsome, fun f hf s hs => ?_⟩
  rcases hfields f hf with hmem | hnot
  · have hpres := hunset f hmem
    rw [hs.1] at hpres
    simp [isPresent, hs.2] at hpres
  · have hm := hs.1
    rw [member_of_notMem hd.named hnot] at hm
    cases hm

/-- The one key for destinations that a format may have. -/
theorem destinationKeys_eq (hd : Decoded data name version) {f s : String}
    (hf : f = "DESTINATION" ∨ f = "DESTINATIONS") (hs : Holds data.params f s) :
    f = "DESTINATION" ∧ DESTINATION_KEYS.filter (· ∈ fieldNames name version) = ["DESTINATION"] := by
  obtain ⟨fields, hfields⟩ := Option.isSome_iff_exists.1 hd.known
  obtain ⟨versions, hversions, hlookup⟩ := Option.bind_eq_some_iff.1 hfields
  have hread := destinations_read _ (Loop.mem_of_lookup hversions) _ (Loop.mem_of_lookup hlookup)
  have hnames : fields.map Slot.baseFieldName = fieldNames name version := by
    rw [fieldNames, hfields, Option.getD_some]
  rw [hnames] at hread
  have hmem : f ∈ fieldNames name version := by
    by_contra hnot
    have hm := hs.1
    rw [member_of_notMem hd.named hnot] at hm
    cases hm
  have hin : f ∈ DESTINATION_KEYS.filter (· ∈ fieldNames name version) := by
    refine List.mem_filter.2 ⟨?_, by simpa using hmem⟩
    rcases hf with rfl | rfl <;> decide
  have hall : ∀ k ∈ DESTINATION_KEYS.filter (· ∈ fieldNames name version), k = "DESTINATION" :=
    fun k hk => by simpa using List.all_eq_true.1 hread k hk
  refine ⟨hall f hin, ?_⟩
  have hnodup : (DESTINATION_KEYS.filter (· ∈ fieldNames name version)).Nodup :=
    List.Nodup.filter _ (by decide)
  rw [List.eq_replicate_of_mem hall] at hnodup ⊢
  rw [le_antisymm (List.nodup_replicate.1 hnodup) (List.length_pos_of_mem hin)]
  rfl

/-- Every destination that an action names is read. -/
theorem mem_destinationsOf (hd : Decoded data name version) {d : String}
    (h : NamesDestination data.params d) : .str d ∈ destinationsOf data.params := by
  obtain ⟨f, s, hf, hs, hsplit⟩ := h
  obtain ⟨rfl, hkeys⟩ := destinationKeys_eq hd hf hs
  have hpick : pick data.params DESTINATION_KEYS = .str s := by
    rw [pick_filter hd.named, hkeys]
    rcases pick_singleton hd.params (f := "DESTINATION") (by decide) with
      ⟨-, hunset, -⟩ | ⟨t, ht, hset, -⟩
    · exact absurd hs (hunset s)
    · rw [ht, hset.unique hs]
  obtain ⟨cs, hcs, rfl⟩ := List.mem_map.1 hsplit
  rw [destinationsOf, hpick]
  exact List.mem_map.2 ⟨cs, by simpa using hcs, rfl⟩

theorem carriesDestination_of_formatCarries {action : String}
    (h : formatCarriesDestination action version = true) : CarriesDestination action version := by
  unfold formatCarriesDestination at h
  cases hfields : getFormatFields action version with
  | none => simp [hfields] at h
  | some fields =>
    rw [hfields] at h
    exact ⟨fields, hfields, by simpa using h⟩

/-- What an approved action gives up is what was evaluated. -/
theorem evaluates_of_prepared (hd : Decoded data name version) (hprep : Prepared H M policy data s)
    (hgate : s.evaluation.amount ≠ .undefined →
      isNonNegativeDecimal s.evaluation.amount.toText = true)
    {amounts : List String} {token : OutflowToken}
    (hout : outflowOf name version = some (.stated amounts token))
    (hfit : LegsFit data.params amounts) :
    Evaluates M policy data.params amounts token s.evaluation := by
  obtain ⟨versions, hversions, hlookup⟩ := Option.bind_eq_some_iff.1 hout
  have hreads := outflows_read _ (Loop.mem_of_lookup hversions) _ (Loop.mem_of_lookup hlookup)
  simp only [readsOutflow, Bool.and_eq_true, List.all_eq_true, decide_eq_true_eq] at hreads
  obtain ⟨⟨⟨hamounts, htoken⟩, hfields⟩, hrest⟩ := hreads
  obtain ⟨raw, hvalue, href⟩ := hprep.tick
  rw [hprep.action, hd.toUpperCase, resolveValue_eq] at hvalue
  obtain ⟨amount, hamount, heq⟩ := Option.map_eq_some_iff.1 hvalue
  obtain ⟨rfl, rfl⟩ := Prod.mk.inj heq
  obtain ⟨hplain, hunset, hsum⟩ :=
    resolveAmount_stated hd.params hd.named hamounts hfields hfit hamount hgate
  obtain ⟨hgas, hfield⟩ := resolveTick_stated hd.params hd.named htoken hrest
  exact ⟨hplain, hunset, hsum, fun h => resolveReference_gas (hgas h) href,
    fun f t hf ht => tokenOf_resolveReference (hfield f t hf ht) href⟩

/-- **An approval keeps its promises**, if the sums have no more digits than the package keeps. -/
theorem Approved.authorised (h : Approved H M policy data windowUsage s e)
    (hd : Decoded data name version) (hread : Readable M (windowUsage.getD WindowUsage.none))
    (hfit : Fits M (windowUsage.getD WindowUsage.none) s.evaluation)
    (hlegs : ∀ amounts token, outflowOf name version = some (.stated amounts token) →
      LegsFit data.params amounts) :
    Authorised M policy name version data.params (windowUsage.getD WindowUsage.none)
      s.evaluation := by
  have hprep := prepareEvaluation_ok h.prepared
  have hver : s.version = some version := by rw [hprep.version, hd.versionOf]
  have hname : s.action = name := by rw [hprep.action, hd.toUpperCase]
  have htext := hprep.tick_isText hd.params
  obtain ⟨hgate, haction, hdest⟩ := checkBasics_ok h.basics
  have hgate' : s.evaluation.amount ≠ .undefined →
      isNonNegativeDecimal s.evaluation.amount.toText = true := fun hne =>
    hgate (isUndefined_eq_false.2 hne)
  refine ⟨hname ▸ haction, fun allowed hallowed => ?_, fun hlimit => ?_, fun amounts token hout =>
    evaluates_of_prepared hd hprep hgate' hout (hlegs amounts token hout), hgate', ?_, ?_⟩
  · obtain ⟨hcarries, hall⟩ := hdest allowed hallowed
    refine ⟨carriesDestination_of_formatCarries (hname ▸ hcarries version hver), fun d hd' => ?_⟩
    rw [hprep.destinations] at hall
    obtain ⟨a, ha, hda⟩ := hall _ (mem_destinationsOf hd hd')
    exact Js.str.inj hda ▸ ha
  · obtain ⟨-, hclass⟩ := checkDerivability_ok h.derivability (limitsAmounts_iff.1 hlimit)
    have hkind := hclass version hver
    rw [hname, hprep.params] at hkind
    exact tokensStated_of_classify hd hkind
  · rintro a cap c hne ha ⟨tables, t, htables, ht, hcap⟩ hc
    have htable : maxPerActionFor policy s.action = some t := by
      rw [maxPerActionFor, htables, Option.bind_some, hname]
      exact Dict.get?_of_mem ht
    refine h.capped (isUndefined_eq_false.2 hne) ha ?_
    rw [htable]
    exact capValue_of_capOf htext (hprep.unambiguous _ (by rw [← htable]; simp [tickTables])) hcap hc
  · rintro a cap c hstar hne ha ⟨win, t, hwin, ht, hcap⟩ hc
    have htable : windowPerTick policy = some t := by rw [windowPerTick, hwin, Option.bind_some, ht]
    refine h.windowed htext hread hstar hfit (isUndefined_eq_false.2 hne) ha ?_
    rw [windowCap, htable]
    exact capValue_of_capOf htext (hprep.unambiguous _ (by rw [← htable]; simp [tickTables])) hcap hc

end Approval

end XChainSdk
