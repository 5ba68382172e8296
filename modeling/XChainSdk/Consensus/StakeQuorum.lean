import XChainSdk.Consensus.Gates
import XChainSdk.Lib.Loop
import XChainSdk.Lib.Quorum
import Mathlib.Algebra.BigOperators.Group.List.Basic

/-!
# Stake-weighted quorum

The predicate that decides every checkpoint at or above the stake-weighted flag day.

* `BigNum` : the arithmetic of the big-number package, with `BigNum.ExactOn`.
* `indexStakeSources`, `sumStakeWeights`, `sumSignerStake`, `meetsStakeThreshold` : the code.
* `Snapshot.sources`, `Snapshot.weight`, `Snapshot.signingSources` : what the two maps of the code
  stand for, by distinct sources.
* `Snapshot.Rejected` : the malformed snapshots; `meetsStakeThreshold_eq` says that on the others
  the code computes the two-thirds predicate over distinct sources.
-/

namespace XChainSdk

/-- Addition and multiplication of the big-number package. -/
structure BigNum where
  add : ℚ → ℚ → ℚ
  mul : ℚ → ℚ → ℚ

/-- Results that lie in `D` are not rounded. -/
structure BigNum.ExactOn (B : BigNum) (D : Set ℚ) : Prop where
  add : ∀ a b, a + b ∈ D → B.add a b = a + b
  mul : ∀ a b, a * b ∈ D → B.mul a b = a * b

/-- Exact big-decimal arithmetic. -/
def BigNum.Exact (B : BigNum) : Prop := B.ExactOn Set.univ

/-- Arithmetic without any rounding. -/
def BigNum.rational : BigNum := ⟨(· + ·), (· * ·)⟩

theorem BigNum.rational_exact : BigNum.rational.Exact := ⟨fun _ _ _ => rfl, fun _ _ _ => rfl⟩

/-- A validator array, with the mark of a set-building query that overflowed its cap. -/
structure Snapshot where
  rows : List Js
  truncated : Bool := false

/-! ### Fields of a row -/

/-- `String(v.source)`; `none` when the row or its source is missing or blank. -/
def rowSource (v : Js) : Option String :=
  let s := v.getIf "source"
  if !v.truthy || s.isNullish || trim s.toText == "" then none else some s.toText

/-- `String(v.pubkey).toLowerCase()`. -/
def rowPubkey (H : Host) (v : Js) : String := H.toLowerCase (v.getIf "pubkey").toText

/-- The trimmed text of the weight; `none` when it is missing or no plain decimal. -/
def rowWeight (v : Js) : Option String :=
  let w := v.getIf "weight"
  let ws := trim w.toText
  if w.isNullish || ws == "" || (decimalText ws).isNone then none else some ws

/-- `bcnum`: an exact number from text; anything else is 0. -/
def bcnum : Option String → ℚ
  | none => 0
  | some s => (decimalText (trim s)).getD 0

/-! ### The predicate -/

/-- The two dedupe maps: the first weight of a source and the last source of a pubkey. -/
structure StakeIndex where
  weightBySource : List (String × String)
  pubkeyToSource : List (String × String)

/-- One row of the loop of `indexStakeSources`. -/
def indexRow (H : Host) (idx : StakeIndex) (v : Js) : Option StakeIndex :=
  match rowSource v with
  | none => none
  | some src =>
    let pubkeyToSource := Loop.setEntry idx.pubkeyToSource (rowPubkey H v) src
    if (idx.weightBySource.lookup src).isSome then some { idx with pubkeyToSource }
    else match rowWeight v with
      | none => none
      | some ws => some ⟨idx.weightBySource ++ [(src, ws)], pubkeyToSource⟩

/-- The dedupe maps of a snapshot, or `none` to fail closed. -/
def indexStakeSources (H : Host) (rows : List Js) : Option StakeIndex :=
  rows.foldlM (indexRow H) ⟨[], []⟩

/-- One weight of the loop of `sumStakeWeights`. -/
def addWeight (B : BigNum) (S : ℚ) (e : String × String) : Option ℚ :=
  if bcnum (some e.2) < 0 then none else some (B.add S (bcnum (some e.2)))

/-- The total stake over distinct sources, or `none` to fail closed. -/
def sumStakeWeights (B : BigNum) (weightBySource : List (String × String)) : Option ℚ :=
  (weightBySource.foldlM (addWeight B) 0).filter (0 < ·)

/-- The state of the loop of `sumSignerStake`. -/
structure Tally where
  countedSources : List String
  seenPubkeys : List String
  tally : ℚ

/-- One signer of the loop of `sumSignerStake`. -/
def tallySigner (H : Host) (B : BigNum) (idx : StakeIndex) (t : Tally) (pk : Js) : Tally :=
  let lpk := H.toLowerCase pk.toText
  if lpk ∈ t.seenPubkeys then t
  else
    let t := { t with seenPubkeys := lpk :: t.seenPubkeys }
    match idx.pubkeyToSource.lookup lpk with
    | none => t
    | some src =>
      if src ∈ t.countedSources then t
      else { t with
        countedSources := src :: t.countedSources
        tally := B.add t.tally (bcnum (idx.weightBySource.lookup src)) }

/-- The stake of the distinct sources that the signers represent. -/
def sumSignerStake (H : Host) (B : BigNum) (idx : StakeIndex) (signers : List Js) : ℚ :=
  (signers.foldl (tallySigner H B idx) ⟨[], [], 0⟩).tally

/-- `3 * tally > 2 * S` over distinct sources; a snapshot that cannot express it fails closed. -/
def meetsStakeThreshold (H : Host) (B : BigNum) (V : Snapshot) (signers : List Js) : Bool :=
  if V.truncated then false
  else match indexStakeSources H V.rows with
    | none => false
    | some idx => match sumStakeWeights B idx.weightBySource with
      | none => false
      | some S => decide (B.mul S 2 < B.mul (sumSignerStake H B idx signers) 3)

/-! ### Distinct sources -/

/-- The value of a row's weight. -/
def rowValue (v : Js) : Option ℚ := (rowWeight v).map fun ws => bcnum (some ws)

/-- The first row of a source. -/
def firstRow (rows : List Js) (s : String) : Option Js :=
  rows.find? fun r => rowSource r == some s

/-- The sources of some rows. -/
def sourcesOf (rows : List Js) : Finset String := (rows.filterMap rowSource).toFinset

namespace Snapshot

variable (V : Snapshot) (H : Host)

/-- The distinct sources. -/
def sources : Finset String := sourcesOf V.rows

/-- The weight of a source: its first row's. -/
def weight (s : String) : ℚ := (((firstRow V.rows s).bind rowValue).getD 0)

/-- The total stake. -/
def total : ℚ := ∑ s ∈ V.sources, V.weight s

/-- The distinct sources with a pubkey among the signers. -/
def signingSources (signers : List Js) : Finset String :=
  sourcesOf (V.rows.filter fun r =>
    decide (rowPubkey H r ∈ signers.map fun pk => H.toLowerCase pk.toText))

/-- Snapshots that the predicate refuses for every list of signers. -/
inductive Rejected : Prop
  | truncated (h : V.truncated = true)
  | blankSource (r : Js) (hr : r ∈ V.rows) (h : rowSource r = none)
  | noWeight (s : String) (r : Js) (hr : firstRow V.rows s = some r) (h : rowValue r = none)
  | negativeWeight (s : String) (hs : s ∈ V.sources) (h : V.weight s < 0)
  | noStake (h : V.total ≤ 0)

/-- All rows of a source carry one weight and all rows of a pubkey one source. -/
structure Consistent : Prop where
  weight : ∀ r ∈ V.rows, ∀ r' ∈ V.rows, rowSource r = rowSource r' → rowValue r = rowValue r'
  pubkey : ∀ r ∈ V.rows, ∀ r' ∈ V.rows,
    rowPubkey H r = rowPubkey H r' → rowSource r = rowSource r'

/-- The sums that the code forms over sources are values of `D`. -/
def Fits (D : Set ℚ) : Prop :=
  ∀ T ⊆ V.sources, ∑ s ∈ T, V.weight s ∈ D ∧ (∑ s ∈ T, V.weight s) * 2 ∈ D ∧
    (∑ s ∈ T, V.weight s) * 3 ∈ D

end Snapshot

/-! ### The dedupe maps -/

theorem mem_sourcesOf {rows : List Js} {s : String} :
    s ∈ sourcesOf rows ↔ ∃ r ∈ rows, rowSource r = some s := by
  simp [sourcesOf]

theorem firstRow_append (pre : List Js) (v : Js) (s : String) :
    firstRow (pre ++ [v]) s =
      (firstRow pre s).or (if rowSource v = some s then some v else none) := by
  by_cases h : rowSource v = some s <;> simp [firstRow, List.find?_append, h]

theorem firstRow_isSome {rows : List Js} {s : String} :
    (firstRow rows s).isSome ↔ s ∈ sourcesOf rows := by
  simp [firstRow, mem_sourcesOf]

theorem firstRow_eq_some {rows : List Js} {s : String} {r : Js} (h : firstRow rows s = some r) :
    r ∈ rows ∧ rowSource r = some s :=
  ⟨List.mem_of_find?_eq_some h, by simpa using List.find?_some h⟩

/-- What the maps hold after the rows `pre`. -/
structure IndexSpec (H : Host) (pre : List Js) (idx : StakeIndex) : Prop where
  source : ∀ r ∈ pre, (rowSource r).isSome
  weight : ∀ s r, firstRow pre s = some r → (rowWeight r).isSome
  nodup : (idx.weightBySource.map Prod.fst).Nodup
  keys : ∀ s, s ∈ idx.weightBySource.map Prod.fst ↔ s ∈ sourcesOf pre
  entry : ∀ e ∈ idx.weightBySource, (firstRow pre e.1).bind rowWeight = some e.2
  pubkey : ∀ pk s, idx.pubkeyToSource.lookup pk = some s →
    ∃ r ∈ pre, rowPubkey H r = pk ∧ rowSource r = some s
  known : ∀ r ∈ pre, (idx.pubkeyToSource.lookup (rowPubkey H r)).isSome

theorem lookup_isSome_iff_mem_keys {m : List (String × String)} {s : String} :
    (m.lookup s).isSome ↔ s ∈ m.map Prod.fst := by
  simp [List.lookup_isSome_iff]

/-- **Step.**  A row that is not refused extends the maps as `IndexSpec` says. -/
theorem IndexSpec.step {H : Host} {pre : List Js} {v : Js} {idx idx' : StakeIndex}
    (hi : IndexSpec H pre idx) (h : indexRow H idx v = some idx') :
    IndexSpec H (pre ++ [v]) idx' := by
  unfold indexRow at h
  cases hsrc : rowSource v with
  | none => simp [hsrc] at h
  | some src =>
    have hsource : ∀ r ∈ pre ++ [v], (rowSource r).isSome := fun r hr => by
      rcases List.mem_append.1 hr with hr | hr
      · exact hi.source r hr
      · rw [List.mem_singleton.1 hr, hsrc]; rfl
    -- Every row writes the map of pubkeys, its source new or not, and the last row of a pubkey wins.
    have hpubkey : ∀ pk s, (Loop.setEntry idx.pubkeyToSource (rowPubkey H v) src).lookup pk =
        some s → ∃ r ∈ pre ++ [v], rowPubkey H r = pk ∧ rowSource r = some s := by
      intro pk s hl
      rw [Loop.lookup_setEntry] at hl
      split_ifs at hl with hpk
      · exact ⟨v, by simp, hpk.symm, hsrc.trans hl⟩
      · obtain ⟨r, hr, hrs⟩ := hi.pubkey pk s hl
        exact ⟨r, List.mem_append_left _ hr, hrs⟩
    have hknown : ∀ r ∈ pre ++ [v],
        ((Loop.setEntry idx.pubkeyToSource (rowPubkey H v) src).lookup (rowPubkey H r)).isSome := by
      intro r hr
      rw [Loop.lookup_setEntry]
      split_ifs with hpk
      · rfl
      · rcases List.mem_append.1 hr with hr | hr
        · exact hi.known r hr
        · exact absurd (by rw [List.mem_singleton.1 hr]) hpk
    simp only [hsrc] at h
    -- A source seen before keeps its weight and its place.
    split_ifs at h with hseen
    · cases h
      have hmem : src ∈ sourcesOf pre := (hi.keys src).1 (lookup_isSome_iff_mem_keys.1 hseen)
      have hfirst : ∀ s, firstRow (pre ++ [v]) s = firstRow pre s := fun s => by
        rw [firstRow_append]
        split_ifs with hs
        · have hs' : src = s := by simpa [hsrc] using hs
          obtain ⟨r, hr⟩ := Option.isSome_iff_exists.1 (firstRow_isSome.2 (hs' ▸ hmem))
          simp [hr]
        · simp
      refine ⟨hsource, fun s r hr => hi.weight s r (hfirst s ▸ hr), hi.nodup, fun s => ?_,
        fun e he => by rw [hfirst]; exact hi.entry e he, hpubkey, hknown⟩
      rw [hi.keys, mem_sourcesOf, mem_sourcesOf]
      constructor
      · rintro ⟨r, hr, hrs⟩
        exact ⟨r, List.mem_append_left _ hr, hrs⟩
      · rintro ⟨r, hr, hrs⟩
        rcases List.mem_append.1 hr with hr | hr
        · exact ⟨r, hr, hrs⟩
        · rw [List.mem_singleton.1 hr, hsrc, Option.some.injEq] at hrs
          exact mem_sourcesOf.1 (hrs ▸ hmem)
    · cases hws : rowWeight v with
      | none => simp [hws] at h
      | some ws =>
        simp only [hws, Option.some.injEq] at h
        cases h
        -- A new source is appended with its own weight.
        have hnew : src ∉ idx.weightBySource.map Prod.fst := fun hmem =>
          hseen (lookup_isSome_iff_mem_keys.2 hmem)
        have hfirst : firstRow pre src = none := by
          rw [← Option.not_isSome_iff_eq_none, firstRow_isSome, ← hi.keys]
          exact hnew
        refine ⟨hsource, fun s r hr => ?_, ?_, fun s => ?_, fun e he => ?_, hpubkey, hknown⟩
        · rw [firstRow_append] at hr
          rcases Option.or_eq_some_iff.1 hr with hr | ⟨-, hr⟩
          · exact hi.weight s r hr
          · split_ifs at hr with hs
            cases hr
            rw [hws]; rfl
        · rw [List.map_append, List.nodup_append]
          refine ⟨hi.nodup, by simp, fun a ha b hb hab => hnew ?_⟩
          have hb' : b = src := by simpa using hb
          exact hb' ▸ hab ▸ ha
        · have hk := hi.keys s
          simp only [mem_sourcesOf] at hk
          simp only [List.map_append, List.map_cons, List.map_nil, List.mem_append, hk,
            List.mem_singleton, mem_sourcesOf, or_and_right, exists_or, exists_eq_left, hsrc,
            Option.some.injEq]
          exact or_congr_right eq_comm
        · rcases List.mem_append.1 he with he | he
          · have hentry := hi.entry e he
            obtain ⟨r, hr, hrw⟩ := Option.bind_eq_some_iff.1 hentry
            rw [firstRow_append, hr]
            simpa using hrw
          · rw [List.mem_singleton.1 he, firstRow_append, hfirst, if_pos hsrc]
            simpa using hws

/-- **Run.**  The maps of a snapshot that is not refused. -/
theorem indexSpec_of_indexStakeSources {H : Host} {rows : List Js} {idx : StakeIndex}
    (h : indexStakeSources H rows = some idx) : IndexSpec H rows idx :=
  Loop.foldlM_inv (IndexSpec H)
    ⟨by simp, by simp [firstRow], by simp, by simp [sourcesOf], by simp, by simp, by simp⟩
    (fun _ _ _ _ hi hstep => hi.step hstep) h

/-- The index is refused exactly for a blank source or for a first row without a weight. -/
theorem indexStakeSources_eq_none {H : Host} {rows : List Js}
    (h : indexStakeSources H rows = none) :
    (∃ r ∈ rows, rowSource r = none) ∨ ∃ s r, firstRow rows s = some r ∧ rowWeight r = none := by
  obtain ⟨pre, v, post, idx, rfl, hpre, hv⟩ := Loop.foldlM_eq_none h
  have hi := indexSpec_of_indexStakeSources hpre
  unfold indexRow at hv
  cases hsrc : rowSource v with
  | none => exact .inl ⟨v, by simp, hsrc⟩
  | some src =>
    simp only [hsrc] at hv
    split_ifs at hv with hseen
    have hnone : firstRow pre src = none := by
      rw [← Option.not_isSome_iff_eq_none, firstRow_isSome, ← hi.keys]
      exact fun hmem => hseen (lookup_isSome_iff_mem_keys.2 hmem)
    have hfirst : firstRow (pre ++ v :: post) src = some v := by
      rw [firstRow, List.find?_append, List.find?_cons_of_pos (by simp [hsrc])]
      rw [firstRow] at hnone
      simp [hnone]
    refine .inr ⟨src, v, hfirst, ?_⟩
    cases hws : rowWeight v with
    | none => rfl
    | some ws => simp [hws] at hv

/-! ### Sums over distinct sources -/

variable {H : Host} {B : BigNum} {V : Snapshot} {idx : StakeIndex}

theorem IndexSpec.weight_entry (hi : IndexSpec H V.rows idx) {e : String × String}
    (he : e ∈ idx.weightBySource) : V.weight e.1 = bcnum (some e.2) := by
  obtain ⟨r, hr, hw⟩ := Option.bind_eq_some_iff.1 (hi.entry e he)
  simp [Snapshot.weight, hr, rowValue, hw]

theorem IndexSpec.weight_lookup (hi : IndexSpec H V.rows idx) {s : String}
    (hs : s ∈ V.sources) : bcnum (idx.weightBySource.lookup s) = V.weight s := by
  obtain ⟨ws, hws⟩ := Option.isSome_iff_exists.1
    (lookup_isSome_iff_mem_keys.2 ((hi.keys s).2 hs))
  obtain ⟨l₁, l₂, hl, -⟩ := List.lookup_eq_some_iff.1 hws
  rw [hws, ← hi.weight_entry (e := (s, ws)) (by simp [hl])]

theorem IndexSpec.sum_prefix (hi : IndexSpec H V.rows idx) {pre : List (String × String)}
    (hpre : pre <+: idx.weightBySource) :
    (pre.map fun e => bcnum (some e.2)).sum = ∑ s ∈ (pre.map Prod.fst).toFinset, V.weight s := by
  have hnodup : (pre.map Prod.fst).Nodup := hi.nodup.sublist (hpre.map Prod.fst).sublist
  rw [List.sum_toFinset _ hnodup, List.map_map]
  refine congrArg List.sum (List.map_congr_left fun e he => ?_)
  exact (hi.weight_entry (hpre.subset he)).symm

theorem IndexSpec.prefix_subset (hi : IndexSpec H V.rows idx) {pre : List (String × String)}
    (hpre : pre <+: idx.weightBySource) : (pre.map Prod.fst).toFinset ⊆ V.sources := fun s hs =>
  (hi.keys s).1 ((hpre.map Prod.fst).subset (List.mem_toFinset.1 hs))

theorem IndexSpec.keys_toFinset (hi : IndexSpec H V.rows idx) :
    (idx.weightBySource.map Prod.fst).toFinset = V.sources := by
  ext s; rw [List.mem_toFinset, hi.keys]; rfl

theorem IndexSpec.foldlM_addWeight (hi : IndexSpec H V.rows idx) {D : Set ℚ} (hB : B.ExactOn D)
    (hD : V.Fits D) {pre : List (String × String)} (hpre : pre <+: idx.weightBySource) {S : ℚ}
    (h : pre.foldlM (addWeight B) 0 = some S) :
    S = ∑ s ∈ (pre.map Prod.fst).toFinset, V.weight s ∧ ∀ e ∈ pre, 0 ≤ V.weight e.1 := by
  induction pre using List.reverseRecOn generalizing S with
  | nil => cases h; simp
  | append_singleton pre e ih =>
    have hpre' : pre <+: idx.weightBySource := (List.prefix_append pre [e]).trans hpre
    have he : e ∈ idx.weightBySource := hpre.subset (by simp)
    rw [Loop.foldlM_append_singleton] at h
    obtain ⟨S', hS', hadd⟩ := Option.bind_eq_some_iff.1 h
    obtain ⟨hsum, hnonneg⟩ := ih hpre' hS'
    simp only [addWeight, Option.ite_none_left_eq_some, Option.some.injEq, not_lt] at hadd
    obtain ⟨hpos, hadd⟩ := hadd
    have hval := hi.weight_entry he
    have htotal : S' + bcnum (some e.2) =
        ∑ s ∈ ((pre ++ [e]).map Prod.fst).toFinset, V.weight s := by
      rw [hsum, ← hi.sum_prefix hpre', ← hi.sum_prefix hpre]
      simp
    refine ⟨?_, fun e' he' => ?_⟩
    · rw [← hadd, hB.add _ _ (htotal ▸ (hD _ (hi.prefix_subset hpre)).1), htotal]
    · rcases List.mem_append.1 he' with he' | he'
      · exact hnonneg e' he'
      · rw [List.mem_singleton.1 he', hval]; exact hpos

/-- The code's total is the exact total of the distinct sources. -/
theorem IndexSpec.sumStakeWeights_eq (hi : IndexSpec H V.rows idx) {D : Set ℚ}
    (hB : B.ExactOn D) (hD : V.Fits D) {S : ℚ}
    (h : sumStakeWeights B idx.weightBySource = some S) :
    S = V.total ∧ 0 < S ∧ ∀ s ∈ V.sources, 0 ≤ V.weight s := by
  obtain ⟨hfold, hpos⟩ := Option.filter_eq_some_iff.1 h
  obtain ⟨hS, hnonneg⟩ := hi.foldlM_addWeight hB hD (List.prefix_refl _) hfold
  refine ⟨by rw [hS, hi.keys_toFinset]; rfl, by simpa using hpos, fun s hs => ?_⟩
  obtain ⟨e, he, rfl⟩ := List.mem_map.1 ((hi.keys s).2 hs)
  exact hnonneg e he

theorem IndexSpec.sumStakeWeights_eq_none (hi : IndexSpec H V.rows idx) {D : Set ℚ}
    (hB : B.ExactOn D) (hD : V.Fits D) (h : sumStakeWeights B idx.weightBySource = none) :
    (∃ s ∈ V.sources, V.weight s < 0) ∨ V.total ≤ 0 := by
  cases hfold : idx.weightBySource.foldlM (addWeight B) 0 with
  | none =>
    obtain ⟨pre, e, post, S, hl, -, he⟩ := Loop.foldlM_eq_none hfold
    have hmem : e ∈ idx.weightBySource := by simp [hl]
    refine .inl ⟨e.1, (hi.keys e.1).1 (List.mem_map_of_mem hmem), ?_⟩
    rw [hi.weight_entry hmem]
    simpa [addWeight] using he
  | some S =>
    obtain ⟨hS, -⟩ := hi.foldlM_addWeight hB hD (List.prefix_refl _) hfold
    rw [hi.keys_toFinset] at hS
    right
    rw [Snapshot.total, ← hS]
    simpa [sumStakeWeights, hfold] using h

/-! ### The tally -/

/-- What the loop over the signers holds after the signers `pre`. -/
structure TallySpec (H : Host) (V : Snapshot) (idx : StakeIndex) (pre : List Js) (t : Tally) :
    Prop where
  nodup : t.countedSources.Nodup
  counted : ∀ s, s ∈ t.countedSources ↔
    ∃ pk ∈ pre, idx.pubkeyToSource.lookup (H.toLowerCase pk.toText) = some s
  seen : ∀ l, l ∈ t.seenPubkeys ↔ ∃ pk ∈ pre, H.toLowerCase pk.toText = l
  tally : t.tally = ∑ s ∈ t.countedSources.toFinset, V.weight s

theorem IndexSpec.lookup_mem_sources (hi : IndexSpec H V.rows idx) {pk s : String}
    (h : idx.pubkeyToSource.lookup pk = some s) : s ∈ V.sources := by
  obtain ⟨r, hr, -, hs⟩ := hi.pubkey pk s h
  exact mem_sourcesOf.2 ⟨r, hr, hs⟩

/-- **Step.**  A signer adds its source once. -/
theorem TallySpec.step (hi : IndexSpec H V.rows idx) {D : Set ℚ} (hB : B.ExactOn D)
    (hD : V.Fits D) {pre : List Js} {t : Tally} (ht : TallySpec H V idx pre t) (pk : Js) :
    TallySpec H V idx (pre ++ [pk]) (tallySigner H B idx t pk) := by
  have hseen : ∀ l, l ∈ H.toLowerCase pk.toText :: t.seenPubkeys ↔
      ∃ p ∈ pre ++ [pk], H.toLowerCase p.toText = l := fun l => by
    simp only [List.mem_cons, ht.seen l, List.mem_append, or_and_right, exists_or,
      exists_eq_left, List.not_mem_nil, or_false]
    exact or_comm.trans (or_congr_right eq_comm)
  have hcounted : ∀ s, (∃ p ∈ pre ++ [pk],
      idx.pubkeyToSource.lookup (H.toLowerCase p.toText) = some s) ↔
      s ∈ t.countedSources ∨ idx.pubkeyToSource.lookup (H.toLowerCase pk.toText) = some s :=
    fun s => by
      simp only [ht.counted s, List.mem_append, List.mem_singleton, or_and_right, exists_or,
        exists_eq_left]
  simp only [tallySigner]
  split_ifs with h1
  · -- a repeated signer finds its source counted already
    obtain ⟨q, hq, hqpk⟩ := (ht.seen _).1 h1
    refine ⟨ht.nodup, fun s => ?_, fun l => ?_, ht.tally⟩
    · rw [hcounted s]
      refine ⟨.inl, fun h => h.elim id fun h => (ht.counted s).2 ⟨q, hq, hqpk ▸ h⟩⟩
    · rw [← hseen l, List.mem_cons]
      exact ⟨.inr, fun h => h.elim (fun e => e ▸ h1) id⟩
  · cases hl : idx.pubkeyToSource.lookup (H.toLowerCase pk.toText) with
    | none =>
      refine ⟨ht.nodup, fun s => ?_, hseen, ht.tally⟩
      rw [hcounted s, hl]
      simp
    | some src =>
      simp only
      split_ifs with h2
      · refine ⟨ht.nodup, fun s => ?_, hseen, ht.tally⟩
        rw [hcounted s, hl, Option.some.injEq]
        exact ⟨.inl, fun h => h.elim id fun e => e ▸ h2⟩
      · have hsrc : src ∈ V.sources := hi.lookup_mem_sources hl
        have hsub : (src :: t.countedSources).toFinset ⊆ V.sources := fun s hs => by
          rcases List.mem_cons.1 (List.mem_toFinset.1 hs) with rfl | hs
          · exact hsrc
          · obtain ⟨q, -, hq⟩ := (ht.counted s).1 hs
            exact hi.lookup_mem_sources hq
        have hsum : t.tally + V.weight src =
            ∑ s ∈ (src :: t.countedSources).toFinset, V.weight s := by
          rw [List.toFinset_cons, Finset.sum_insert (by simpa using h2), ht.tally, add_comm]
        refine ⟨List.nodup_cons.2 ⟨h2, ht.nodup⟩, fun s => ?_, hseen, ?_⟩
        · rw [hcounted s, hl, Option.some.injEq, List.mem_cons]
          exact or_comm.trans (or_congr_right eq_comm)
        · simp only
          rw [hi.weight_lookup hsrc, hB.add _ _ (hsum ▸ (hD _ hsub).1), hsum]

/-- The distinct sources that the maps give the signers. -/
def StakeIndex.counted (H : Host) (idx : StakeIndex) (signers : List Js) : Finset String :=
  (signers.filterMap fun pk => idx.pubkeyToSource.lookup (H.toLowerCase pk.toText)).toFinset

/-- **Run.**  The code's tally is the exact stake of the distinct sources of the signers. -/
theorem IndexSpec.sumSignerStake_eq (hi : IndexSpec H V.rows idx) {D : Set ℚ}
    (hB : B.ExactOn D) (hD : V.Fits D) (signers : List Js) :
    sumSignerStake H B idx signers = ∑ s ∈ idx.counted H signers, V.weight s := by
  have hspec := Loop.foldl_inv (f := tallySigner H B idx) (TallySpec H V idx) (b := ⟨[], [], 0⟩)
    ⟨by simp, by simp, by simp, by simp⟩ (fun pre pk t ht => ht.step hi hB hD pk) signers
  rw [sumSignerStake, hspec.tally]
  refine Finset.sum_congr (Finset.ext fun s => ?_) fun _ _ => rfl
  rw [List.mem_toFinset, hspec.counted, StakeIndex.counted, List.mem_toFinset, List.mem_filterMap]

theorem IndexSpec.counted_subset (hi : IndexSpec H V.rows idx) (signers : List Js) :
    idx.counted H signers ⊆ V.signingSources H signers := fun s hs => by
  obtain ⟨pk, hpk, hl⟩ := List.mem_filterMap.1 (List.mem_toFinset.1 hs)
  obtain ⟨r, hr, hrpk, hrs⟩ := hi.pubkey _ _ hl
  refine mem_sourcesOf.2 ⟨r, List.mem_filter.2 ⟨hr, ?_⟩, hrs⟩
  simpa using ⟨pk, hpk, hrpk.symm⟩

theorem IndexSpec.counted_eq (hi : IndexSpec H V.rows idx) (hV : V.Consistent H)
    (signers : List Js) : idx.counted H signers = V.signingSources H signers := by
  refine Finset.Subset.antisymm (hi.counted_subset signers) fun s hs => ?_
  obtain ⟨r, hr, hrs⟩ := mem_sourcesOf.1 hs
  obtain ⟨hr, hsigner⟩ := List.mem_filter.1 hr
  obtain ⟨pk, hpk, hlpk⟩ : ∃ pk ∈ signers, H.toLowerCase pk.toText = rowPubkey H r := by
    simpa using hsigner
  obtain ⟨s', hs'⟩ := Option.isSome_iff_exists.1 (hi.known r hr)
  obtain ⟨r', hr', hpk', hrs'⟩ := hi.pubkey _ _ hs'
  have hss' : s' = s := by
    have := hV.pubkey r' hr' r hr hpk'
    rw [hrs', hrs, Option.some.injEq] at this
    exact this
  exact List.mem_toFinset.2 (List.mem_filterMap.2 ⟨pk, hpk, by rw [hlpk, hs', hss']⟩)

theorem Snapshot.signingSources_subset (signers : List Js) :
    V.signingSources H signers ⊆ V.sources := fun s hs => by
  obtain ⟨r, hr, hrs⟩ := mem_sourcesOf.1 hs
  exact mem_sourcesOf.2 ⟨r, (List.mem_filter.1 hr).1, hrs⟩

/-! ### The threshold -/

/-- **Spec lemma of `meetsStakeThreshold`.**  It holds exactly on a snapshot that can be indexed
and summed whose counted sources are a two-thirds quorum. -/
theorem meetsStakeThreshold_iff {D : Set ℚ} (hB : B.ExactOn D) (hD : V.Fits D)
    (signers : List Js) :
    meetsStakeThreshold H B V signers = true ↔
      V.truncated = false ∧ ∃ idx S, indexStakeSources H V.rows = some idx ∧
        sumStakeWeights B idx.weightBySource = some S ∧
        Quorum.TwoThirds V.weight V.sources (idx.counted H signers) := by
  unfold meetsStakeThreshold
  cases htr : V.truncated with
  | true => simp
  | false =>
    cases hidx : indexStakeSources H V.rows with
    | none => simp
    | some idx =>
      have hi := indexSpec_of_indexStakeSources hidx
      cases hS : sumStakeWeights B idx.weightBySource with
      | none => simp [hS]
      | some S =>
        have hcounted : idx.counted H signers ⊆ V.sources :=
          (hi.counted_subset signers).trans (V.signingSources_subset signers)
        have htotal : S = V.total := (hi.sumStakeWeights_eq hB hD hS).1
        have h2 : B.mul S 2 = V.total * 2 := by
          rw [htotal]; exact hB.mul _ _ (hD _ (Finset.Subset.refl _)).2.1
        have h3 : B.mul (sumSignerStake H B idx signers) 3 =
            (∑ s ∈ idx.counted H signers, V.weight s) * 3 := by
          rw [hi.sumSignerStake_eq hB hD]; exact hB.mul _ _ (hD _ hcounted).2.2
        simp [hS, h2, h3, Quorum.TwoThirds, Snapshot.total, mul_comm]

/-- The verdict sees the signers as a set. -/
theorem meetsStakeThreshold_signers {D : Set ℚ} (hB : B.ExactOn D) (hD : V.Fits D)
    {A A' : List Js} (h : ∀ pk, pk ∈ A ↔ pk ∈ A') :
    meetsStakeThreshold H B V A = meetsStakeThreshold H B V A' := by
  have hcounted : ∀ idx : StakeIndex, idx.counted H A = idx.counted H A' := fun idx => by
    ext s
    simp only [StakeIndex.counted, List.mem_toFinset, List.mem_filterMap, h]
  rw [Bool.eq_iff_iff, meetsStakeThreshold_iff hB hD, meetsStakeThreshold_iff hB hD]
  simp only [hcounted]

/-- A refused snapshot never meets the threshold. -/
theorem meetsStakeThreshold_of_rejected {D : Set ℚ} (hB : B.ExactOn D) (hD : V.Fits D)
    (h : V.Rejected) (signers : List Js) : meetsStakeThreshold H B V signers = false := by
  rw [← Bool.not_eq_true, meetsStakeThreshold_iff hB hD]
  rintro ⟨htr, idx, S, hidx, hS, -⟩
  have hi := indexSpec_of_indexStakeSources hidx
  obtain ⟨htotal, hpos, hnonneg⟩ := hi.sumStakeWeights_eq hB hD hS
  cases h with
  | truncated h => simp [h] at htr
  | blankSource r hr h => simpa [h] using hi.source r hr
  | noWeight s r hr h =>
    have hw := hi.weight s r hr
    simp only [rowValue, Option.map_eq_none_iff] at h
    simp [h] at hw
  | negativeWeight s hs h => exact absurd (hnonneg s hs) (not_le.2 h)
  | noStake h => exact absurd (htotal ▸ hpos) (not_lt.2 h)

/-- A snapshot that is not refused can be indexed and summed. -/
theorem exists_index_of_not_rejected {D : Set ℚ} (hB : B.ExactOn D) (hD : V.Fits D)
    (h : ¬V.Rejected) : V.truncated = false ∧ ∃ idx S, indexStakeSources H V.rows = some idx ∧
      sumStakeWeights B idx.weightBySource = some S := by
  have htr : V.truncated = false := by
    rw [← Bool.not_eq_true]; exact fun ht => h (.truncated ht)
  refine ⟨htr, ?_⟩
  cases hidx : indexStakeSources H V.rows with
  | none =>
    rcases indexStakeSources_eq_none hidx with ⟨r, hr, hs⟩ | ⟨s, r, hr, hw⟩
    · exact absurd (.blankSource r hr hs) h
    · exact absurd (.noWeight s r hr (by simp [rowValue, hw])) h
  | some idx =>
    have hi := indexSpec_of_indexStakeSources hidx
    cases hS : sumStakeWeights B idx.weightBySource with
    | none =>
      rcases hi.sumStakeWeights_eq_none hB hD hS with ⟨s, hs, hneg⟩ | htotal
      · exact absurd (.negativeWeight s hs hneg) h
      · exact absurd (.noStake htotal) h
    | some S => exact ⟨idx, S, rfl, hS⟩

/-- **Reference equality.**  On a consistent snapshot that is not refused the code decides the
two-thirds predicate over distinct sources. -/
theorem meetsStakeThreshold_eq {D : Set ℚ} (hB : B.ExactOn D) (hD : V.Fits D)
    (hV : V.Consistent H) (h : ¬V.Rejected) (signers : List Js) :
    meetsStakeThreshold H B V signers =
      decide (Quorum.TwoThirds V.weight V.sources (V.signingSources H signers)) := by
  obtain ⟨htr, idx, S, hidx, hS⟩ := exists_index_of_not_rejected (H := H) hB hD h
  rw [Bool.eq_iff_iff, meetsStakeThreshold_iff hB hD, decide_eq_true_iff]
  constructor
  · rintro ⟨-, idx', S', hidx', -, hq⟩
    rwa [(indexSpec_of_indexStakeSources hidx').counted_eq hV] at hq
  · intro hq
    exact ⟨htr, idx, S, hidx, hS, by
      rwa [(indexSpec_of_indexStakeSources hidx).counted_eq hV]⟩

end XChainSdk
