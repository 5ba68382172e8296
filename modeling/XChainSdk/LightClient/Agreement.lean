import XChainSdk.LightClient.ProvenSet

/-!
# What a checkpoint verdict depends on

* `quorumPredicate` : the count-or-stake predicate on a set of signing members.
* `verifyCheckpoint_valid` : the verdict is that predicate on the members with a good signature.
* `exactStakeTotal_units` : the committed total of a set whose weights are canonical amounts.
* `verifyCheckpoint_verdict` : the verdict sees the signature list as the set of good signers, and
  agrees with the verdict over a proven set with the same rows and their exact total.
-/

namespace XChainSdk

open Hash Js

variable {H : Host} {B : BigNum} {V : Snapshot} {cp : Js}

/-! ### The predicate on a set of members -/

/-- The members of the set that the list carries a good signature of. -/
def SignedMember (H : Host) (canonical : String) (V : Snapshot) (sigs : List Js) (pk : String) :
    Prop :=
  pk ∈ qualifiedSet H V.rows ∧ ∃ s ∈ sigs, SignedBy H canonical s pk

/-- The quorum predicate on the members `signers`, listed once each. -/
def quorumPredicate (H : Host) (B : BigNum) (weighted : Bool) (V : Snapshot)
    (signers : List String) : Bool :=
  if weighted then
    !V.rows.isEmpty && V.rows.all isWeightedEntry &&
      meetsStakeThreshold H B V (signers.map .str)
  else
    decide (0 < (qualifiedSet H V.rows).length) &&
      decide (countQuorum (qualifiedSet H V.rows).length ≤ signers.length)

/-- The predicate sees the members as a set. -/
theorem quorumPredicate_congr {D : Set ℚ} (hB : B.ExactOn D) (hD : V.Fits D) (weighted : Bool)
    {l l' : List String} (hl : l.Nodup) (hl' : l'.Nodup) (h : ∀ pk, pk ∈ l ↔ pk ∈ l') :
    quorumPredicate H B weighted V l = quorumPredicate H B weighted V l' := by
  have hlen : l.length = l'.length := ((List.perm_ext_iff_of_nodup hl hl').2 h).length_eq
  have hmeets : meetsStakeThreshold H B V (l.map .str) = meetsStakeThreshold H B V (l'.map .str) :=
    meetsStakeThreshold_signers hB hD fun x => by simp only [List.mem_map, h]
  rw [quorumPredicate, quorumPredicate, hlen, hmeets]

/-- The checkpoint is not structurally refused. -/
structure Admissible (H : Host) (cp : Js) (canonical : String) : Prop where
  canonical : canonicalCheckpoint H cp = some canonical
  committed : commitmentMissing cp = false
  supersession : supersessionDisallowed cp = false

theorem Admissible.truthy {canonical : String} (h : Admissible H cp canonical) :
    cp.truthy = true := by
  cases ht : cp.truthy with
  | true => rfl
  | false => have := h.canonical; simp [canonicalCheckpoint, ht] at this

theorem verifyCheckpoint_of_admissible {canonical : String} (h : Admissible H cp canonical) :
    (verifyCheckpoint H B cp V).valid =
      quorumPredicate H B
        (isStakeWeightedQuorumActive (cp.field "snapshot_block") (cp.field "network")) V
        (validSigners H canonical (qualifiedSet H V.rows)
          (signatureEntries H (cp.field "validator_signatures"))) := by
  simp only [verifyCheckpoint, h.canonical, h.committed, h.supersession, Bool.or_self,
    Bool.false_eq_true, if_false, getIf_of_truthy h.truthy, quorumPredicate]

theorem verifyCheckpoint_of_not_admissible (h : ∀ canonical, ¬Admissible H cp canonical) :
    (verifyCheckpoint H B cp V).valid = false := by
  simp only [verifyCheckpoint]
  cases hc : canonicalCheckpoint H cp with
  | none => rfl
  | some canonical =>
    have hstruct : (commitmentMissing cp || supersessionDisallowed cp) = true := by
      by_contra hne
      rw [Bool.not_eq_true, Bool.or_eq_false_iff] at hne
      exact h canonical ⟨hc, hne.1, hne.2⟩
    simp only [hstruct, if_true]

/-- **Verdict.**  The verdict is the predicate on any enumeration of the good signers. -/
theorem verifyCheckpoint_valid {D : Set ℚ} (hB : B.ExactOn D) (hD : V.Fits D) {canonical : String}
    (h : Admissible H cp canonical) {l : List String} (hl : l.Nodup)
    (hmem : ∀ pk, pk ∈ l ↔ SignedMember H canonical V
      (signatureEntries H (cp.field "validator_signatures")) pk) :
    (verifyCheckpoint H B cp V).valid =
      quorumPredicate H B
        (isStakeWeightedQuorumActive (cp.field "snapshot_block") (cp.field "network")) V l := by
  rw [verifyCheckpoint_of_admissible h]
  refine quorumPredicate_congr hB hD _ (validSigners_spec _ _ _).nodup hl fun pk => ?_
  rw [mem_validSigners, hmem, SignedMember]

/-! ### Other signature lists -/

/-- The checkpoint with the fields `fs` and the signature entries `sigs`. -/
def withSignatures (fs : List (String × Js)) (sigs : List Js) : Js :=
  .obj (("validator_signatures", .arr sigs) :: fs)

theorem field_withSignatures {fs : List (String × Js)} {sigs : List Js} {k : String}
    (hk : k ≠ "validator_signatures") :
    (withSignatures fs sigs).field k = (Js.obj fs).field k := by
  rw [withSignatures, field_obj, field_obj, member, member, Loop.lookup_cons, if_neg hk]

@[simp] theorem signatures_withSignatures (fs : List (String × Js)) (sigs : List Js) :
    signatureEntries H ((withSignatures fs sigs).field "validator_signatures") = sigs := by
  rw [withSignatures, field_obj, member, Loop.lookup_cons, if_pos rfl]
  rfl

theorem Admissible.withSignatures {fs : List (String × Js)} {sigs sigs' : List Js}
    {canonical : String} (h : Admissible H (withSignatures fs sigs) canonical) :
    Admissible H (XChainSdk.withSignatures fs sigs') canonical := by
  have hf : ∀ k, k ≠ "validator_signatures" →
      (XChainSdk.withSignatures fs sigs').field k = (XChainSdk.withSignatures fs sigs).field k :=
    fun k hk => by rw [field_withSignatures hk, field_withSignatures hk]
  have ht : (XChainSdk.withSignatures fs sigs').truthy =
      (XChainSdk.withSignatures fs sigs).truthy := rfl
  exact ⟨(canonicalCheckpoint_congr ht hf).trans h.canonical,
    (commitmentMissing_congr ht hf).trans h.committed,
    (supersessionDisallowed_congr ht hf).trans h.supersession⟩

/-- Entries may be permuted, repeated, and mixed with entries that are no good signature. -/
theorem verifyCheckpoint_signatures {D : Set ℚ} (hB : B.ExactOn D) (hD : V.Fits D)
    {fs : List (String × Js)} {sigs sigs' : List Js} (hsub : ∀ s ∈ sigs, s ∈ sigs')
    (hnew : ∀ s ∈ sigs', s ∈ sigs ∨ ∀ canonical pk, Admissible H (withSignatures fs sigs) canonical →
      pk ∈ qualifiedSet H V.rows → ¬SignedBy H canonical s pk) :
    (verifyCheckpoint H B (withSignatures fs sigs') V).valid =
      (verifyCheckpoint H B (withSignatures fs sigs) V).valid := by
  by_cases hadm : ∃ canonical, Admissible H (withSignatures fs sigs) canonical
  · obtain ⟨canonical, h⟩ := hadm
    have hsb : ∀ s, isStakeWeightedQuorumActive ((withSignatures fs s).field "snapshot_block")
        ((withSignatures fs s).field "network") =
        isStakeWeightedQuorumActive ((Js.obj fs).field "snapshot_block")
          ((Js.obj fs).field "network") := fun s => by
      rw [field_withSignatures (by decide), field_withSignatures (by decide)]
    rw [verifyCheckpoint_of_admissible h.withSignatures, verifyCheckpoint_of_admissible h, hsb, hsb,
      signatures_withSignatures, signatures_withSignatures]
    refine quorumPredicate_congr hB hD _ (validSigners_spec _ _ _).nodup
      (validSigners_spec _ _ _).nodup fun pk => ?_
    rw [mem_validSigners, mem_validSigners]
    refine and_congr_right fun hq => ⟨?_, fun ⟨s, hs, hsigned⟩ => ⟨s, hsub s hs, hsigned⟩⟩
    rintro ⟨s, hs, hsigned⟩
    rcases hnew s hs with hs | hbad
    · exact ⟨s, hs, hsigned⟩
    · exact absurd hsigned (hbad canonical pk h hq)
  · rw [verifyCheckpoint_of_not_admissible fun c hc => hadm ⟨c, hc⟩,
      verifyCheckpoint_of_not_admissible fun c hc => hadm ⟨c, hc.withSignatures⟩]

/-! ### The exact total -/

/-- `t` spells the total stake of the set. -/
def IsExactTotal (V : Snapshot) (t : String) : Prop :=
  ∃ u, amountUnits t = some u ∧ (u : ℚ) / 10 ^ 18 = V.total

/-- Every row passes both verifiers' reading of its weight. -/
def CanonicalWeights (V : Snapshot) : Prop :=
  ∀ v ∈ V.rows, isWeightedEntry v = true ∧ (amountUnits (v.field "weight").toText).isSome

theorem totalRow_of_indexRow {idx idx' : StakeIndex} {v : Js} (h : indexRow H idx v = some idx') :
    totalRow idx.weightBySource v = some idx'.weightBySource := by
  unfold indexRow at h
  unfold totalRow
  cases hsrc : rowSource v with
  | none => simp [hsrc] at h
  | some src =>
    simp only [hsrc] at h
    split_ifs at h with hseen
    · cases h
      simp [hseen]
    · cases hws : rowWeight v with
      | none => simp [hws] at h
      | some ws =>
        simp only [hws, Option.some.injEq] at h
        cases h
        simp [hseen]

theorem totalStake_isSome {signers : List Js} (h : meetsStakeThreshold H B V signers = true) :
    ∃ idx, indexStakeSources H V.rows = some idx ∧ (totalStake B V).isSome := by
  unfold meetsStakeThreshold at h
  split_ifs at h with htr
  cases hidx : indexStakeSources H V.rows with
  | none => simp [hidx] at h
  | some idx =>
    refine ⟨idx, rfl, ?_⟩
    simp only [hidx] at h
    cases hS : sumStakeWeights B idx.weightBySource with
    | none => simp [hS] at h
    | some S =>
      have hfold := (Option.filter_eq_some_iff.1 hS).1
      have hrows := Loop.foldlM_sim StakeIndex.weightBySource
        (fun _ _ _ => totalRow_of_indexRow) hidx
      simp only at hrows
      simp [totalStake, htr, hrows, hfold]

theorem source_of_rowSource {v : Js} {src : String} (h : rowSource v = some src) :
    v.truthy = true ∧ (v.field "source").toText = src := by
  simp only [rowSource] at h
  split_ifs at h with hblank
  cases h
  have ht : v.truthy = true := by
    cases ht : v.truthy with
    | true => rfl
    | false => simp [ht] at hblank
  exact ⟨ht, by rw [getIf_of_truthy ht]⟩

theorem rowWeight_eq_some {v : Js} {ws : String} (ht : v.truthy = true)
    (h : rowWeight v = some ws) : ws = trim (v.field "weight").toText := by
  simp only [rowWeight, getIf_of_truthy ht] at h
  split_ifs at h with hbad
  cases h
  rfl

/-- The raw first weights are those of the index before trimming. -/
theorem firstWeights_trim {rows : List Js} {idx : StakeIndex}
    (h : indexStakeSources H rows = some idx) :
    (rows.foldl firstWeight []).map (fun e => (e.1, trim e.2)) = idx.weightBySource := by
  refine Loop.foldlM_inv (fun pre idx => (pre.foldl firstWeight []).map
    (fun e => (e.1, trim e.2)) = idx.weightBySource) rfl (fun pre v idx idx' hpre hstep => ?_) h
  have hlookup : ∀ s, ((pre.foldl firstWeight []).lookup s).isSome =
      (idx.weightBySource.lookup s).isSome := fun s => by
    rw [Bool.eq_iff_iff, lookup_isSome_iff_mem_keys, lookup_isSome_iff_mem_keys, ← hpre,
      List.map_map]
    rfl
  rw [List.foldl_append, List.foldl_cons, List.foldl_nil]
  unfold indexRow at hstep
  cases hsrc : rowSource v with
  | none => simp [hsrc] at hstep
  | some src =>
    obtain ⟨ht, htext⟩ := source_of_rowSource hsrc
    simp only [hsrc] at hstep
    simp only [firstWeight, htext, hlookup]
    split_ifs at hstep ⊢ with hseen
    · cases hstep
      exact hpre
    · cases hws : rowWeight v with
      | none => simp [hws] at hstep
      | some ws =>
        simp only [hws, Option.some.injEq] at hstep
        cases hstep
        rw [List.map_append, hpre, rowWeight_eq_some ht hws]
        rfl

theorem mem_firstWeights {rows : List Js} {e : String × String}
    (h : e ∈ rows.foldl firstWeight []) : ∃ v ∈ rows, e.2 = (v.field "weight").toText := by
  refine Loop.foldl_inv (fun pre m => ∀ e ∈ m, ∃ v ∈ pre, e.2 = (v.field "weight").toText)
    (by simp) (fun pre v m hm e he => ?_) rows e h
  simp only [firstWeight] at he
  split_ifs at he with hseen
  · obtain ⟨v', hv', hw⟩ := hm e he
    exact ⟨v', List.mem_append_left _ hv', hw⟩
  · rcases List.mem_append.1 he with he | he
    · obtain ⟨v', hv', hw⟩ := hm e he
      exact ⟨v', List.mem_append_left _ hv', hw⟩
    · exact ⟨v, by simp, by rw [List.mem_singleton.1 he]⟩

theorem mapM_amountUnits (ts : List String) (h : ∀ t ∈ ts, (amountUnits t).isSome) :
    ∃ us, ts.mapM amountUnits = some us ∧
      ((us.sum : ℕ) : ℚ) / 10 ^ 18 = (ts.map fun t => bcnum (some (trim t))).sum := by
  induction ts with
  | nil => exact ⟨[], rfl, by simp⟩
  | cons t ts ih =>
    obtain ⟨us, hus, hsum⟩ := ih fun t' ht' => h t' (List.mem_cons_of_mem _ ht')
    obtain ⟨u, hu⟩ := Option.isSome_iff_exists.1 (h t List.mem_cons_self)
    refine ⟨u :: us, by simp [List.mapM_cons, hu, hus], ?_⟩
    have hb : bcnum (some (trim t)) = u / 10 ^ 18 := by
      rw [bcnum, trim_trim_of_amountUnits (h t List.mem_cons_self), decimalText_of_amountUnits hu,
        Option.getD_some]
    rw [List.map_cons, List.sum_cons, List.sum_cons, ← hsum, hb, Nat.cast_add, add_div]

/-- **Exact total.**  With canonical weights the cross-checked total is the total stake. -/
theorem exactStakeTotal_units {signers : List Js}
    (hV : ∀ v ∈ V.rows, (amountUnits (v.field "weight").toText).isSome)
    (h : meetsStakeThreshold H B V signers = true) :
    ∃ t u, exactStakeTotal B V = some t ∧ amountUnits t = some u ∧
      (u : ℚ) / 10 ^ 18 = V.total := by
  obtain ⟨idx, hidx, htotal⟩ := totalStake_isSome h
  obtain ⟨S, hS⟩ := Option.isSome_iff_exists.1 htotal
  have hi := indexSpec_of_indexStakeSources hidx
  obtain ⟨us, hus, hsum⟩ := mapM_amountUnits
    ((V.rows.foldl firstWeight []).map Prod.snd) fun t ht => by
      obtain ⟨e, he, rfl⟩ := List.mem_map.1 ht
      obtain ⟨v, hv, hw⟩ := mem_firstWeights he
      rw [hw]
      exact hV v hv
  refine ⟨unitsText us.sum, us.sum, ?_, amountUnits_unitsText _, ?_⟩
  · rw [exactStakeTotal, hS, Option.bind_some, sumCanonicalAmounts, hus, Option.map_some]
  · rw [hsum, Snapshot.total, ← hi.keys_toFinset, ← hi.sum_prefix (List.prefix_refl _),
      ← firstWeights_trim hidx, List.map_map, List.map_map]
    rfl

/-! ### Agreement -/

theorem not_isHexText_toLowerCase_null : isHexText 64 (H.toLowerCase "null") = false := by
  rw [H.toLowerCase_ascii _ (by decide)]
  decide

theorem not_isHexText_toLowerCase_object :
    isHexText 64 (H.toLowerCase "[object Object]") = false := by
  rw [H.toLowerCase_ascii _ (by decide)]
  decide

example : isHexText 2 "1e" = true := by decide

/-- On weighted rows both verifiers know the same usable pubkeys. -/
theorem mem_qualifiedSet_iff {rows : List Js} (hrows : ∀ v ∈ rows, isWeightedEntry v = true)
    {pk : String} (hpk : isHexText 64 pk = true) :
    pk ∈ qualifiedSet H rows ↔ pk ∈ provenPubkeys H rows := by
  rw [qualifiedSet, List.mem_dedup, List.mem_map, provenPubkeys, List.mem_filterMap]
  refine exists_congr fun v => and_congr_right fun hv => ?_
  cases v with
  | obj fs =>
    simp only [memberText, truthy, if_true, field_obj, Bool.true_and]
    cases hp : member fs "pubkey" <;> simp only [isNullish, Bool.not_true, Bool.not_false,
      Bool.false_eq_true, if_true, if_false, reduceCtorEq, iff_false, Option.some.injEq]
    · rw [toText]
      rintro rfl
      simp [not_isHexText_toLowerCase_object] at hpk
    · rw [toText]
      rintro rfl
      simp [not_isHexText_toLowerCase_null] at hpk
  | arr xs =>
    have := hrows _ hv
    simp [isWeightedEntry, field_arr, isNullish] at this
  | _ => exact absurd (hrows _ hv) (by simp [isWeightedEntry])

/-- **Agreement.**  Over canonical weights and their exact total the two verifiers agree wherever
both apply. -/
theorem verifyCheckpoint_agrees {t : String} (hact : commitmentActive cp = true)
    (hweighted : isStakeWeightedQuorumActive (cp.field "snapshot_block") (cp.field "network") =
      true) (hV : CanonicalWeights V) (ht : IsExactTotal V t) :
    (verifyCheckpoint H B cp V).valid =
      (verifyCheckpointWithProvenSet H B cp (some ⟨V, .str t⟩)).valid := by
  by_cases hadm : ∃ canonical, Admissible H cp canonical
  · obtain ⟨canonical, h⟩ := hadm
    have hsigners : validSigners H canonical (qualifiedSet H V.rows)
        (signatureEntries H (cp.field "validator_signatures")) =
        validSigners H canonical (provenPubkeys H V.rows)
          (signatureEntries H (cp.field "validator_signatures")) :=
      validSigners_congr (fun pk hpk => mem_qualifiedSet_iff (fun v hv => (hV v hv).1) hpk) _
    rw [verifyCheckpoint_of_admissible h, hweighted, hsigners]
    simp only [verifyCheckpointWithProvenSet, hact, hweighted, h.committed, h.supersession,
      h.canonical, Bool.not_true, Bool.or_self, Bool.false_eq_true, if_false, Option.map_some,
      Option.getD_some, foldl_countProvenSignature, quorumPredicate, if_true]
    have hall : V.rows.all isWeightedEntry = true := List.all_eq_true.2 fun v hv => (hV v hv).1
    cases hmeets : meetsStakeThreshold H B V ((validSigners H canonical (provenPubkeys H V.rows)
        (signatureEntries H (cp.field "validator_signatures"))).map .str) with
    | false => simp
    | true =>
      obtain ⟨u, hu, hut⟩ := ht
      obtain ⟨t', u', ht', hu', hut'⟩ := exactStakeTotal_units (fun v hv => (hV v hv).2) hmeets
      have hne : V.rows ≠ [] := fun hnil => by
        obtain ⟨rows, tr⟩ := V
        cases hnil
        rw [meetsStakeThreshold_nil] at hmeets
        cases hmeets
      have huu : u' = u := by
        have := hut'.trans hut.symm
        rw [div_left_inj' (by positivity)] at this
        exact_mod_cast this
      simp [hall, hne, ht', hu', committedUnits hu, huu]
  · rw [verifyCheckpoint_of_not_admissible fun c hc => hadm ⟨c, hc⟩]
    simp only [verifyCheckpointWithProvenSet, hact, hweighted, Bool.not_true, Bool.false_eq_true,
      if_false]
    split_ifs with hstruct
    · rfl
    · cases hc : canonicalCheckpoint H cp with
      | none => rfl
      | some canonical =>
        rw [Bool.or_eq_true, not_or, Bool.not_eq_true, Bool.not_eq_true] at hstruct
        exact absurd ⟨canonical, hc, hstruct.1, hstruct.2⟩ hadm

/-! ### The verdict -/

/-- **Checkpoint verdict.**  Where the sums of the set's weights are not rounded: the verdict is
the count-or-stake predicate on the members with a good signature, a structurally refused
checkpoint is never valid, and the signature list may be permuted, repeated and mixed with entries
that are no good signature.  Over canonical weights and their exact total the verifier of a proven
set gives the same verdict wherever both apply. -/
theorem verifyCheckpoint_verdict (H : Host) (B : BigNum) (D : Set ℚ) (V : Snapshot)
    (hB : B.ExactOn D) (hD : V.Fits D) :
    (∀ cp canonical, Admissible H cp canonical → ∀ l : List String, l.Nodup →
      (∀ pk, pk ∈ l ↔ SignedMember H canonical V
        (signatureEntries H (cp.field "validator_signatures")) pk) →
      (verifyCheckpoint H B cp V).valid =
        quorumPredicate H B
          (isStakeWeightedQuorumActive (cp.field "snapshot_block") (cp.field "network")) V l) ∧
    (∀ cp, (∀ canonical, ¬Admissible H cp canonical) →
      (verifyCheckpoint H B cp V).valid = false) ∧
    (∀ fs sigs sigs', (∀ s ∈ sigs, s ∈ sigs') →
      (∀ s ∈ sigs', s ∈ sigs ∨ ∀ canonical pk, Admissible H (withSignatures fs sigs) canonical →
        pk ∈ qualifiedSet H V.rows → ¬SignedBy H canonical s pk) →
      (verifyCheckpoint H B (withSignatures fs sigs') V).valid =
        (verifyCheckpoint H B (withSignatures fs sigs) V).valid) ∧
    ∀ cp t, commitmentActive cp = true →
      isStakeWeightedQuorumActive (cp.field "snapshot_block") (cp.field "network") = true →
      CanonicalWeights V → IsExactTotal V t →
      (verifyCheckpoint H B cp V).valid =
        (verifyCheckpointWithProvenSet H B cp (some ⟨V, .str t⟩)).valid :=
  ⟨fun _ _ hadm _ hl hmem => verifyCheckpoint_valid hB hD hadm hl hmem,
    fun _ h => verifyCheckpoint_of_not_admissible h,
    fun _ _ _ hsub hnew => verifyCheckpoint_signatures hB hD hsub hnew,
    fun _ _ hact hweighted hV ht => verifyCheckpoint_agrees hact hweighted hV ht⟩

/-- A host whose signatures all verify. -/
def lenientHost : Host :=
  asciiHost (fun _ => ⟨List.replicate 32 0, rfl⟩) fun _ _ _ => true

/-- A pubkey of one repeated digit. -/
def samplePubkey (c : Char) : String := String.ofList (List.replicate 64 c)

/-- A signature entry of a pubkey. -/
def sampleSignature (pubkey : String) : Js :=
  .obj [("pubkey", .str pubkey), ("sig", .str (String.ofList (List.replicate 128 '0')))]

/-- A checkpoint with committed roots, without its signatures. -/
def regtestFields : List (String × Js) :=
  [("chain", .str "BTC"), ("network", .str "regtest"), ("block_index", .num (.fin 10)),
    ("block_hash", .str "b0"), ("ledger_hash", .str "1e"), ("actions_hash", .str "ac"),
    ("contract_hash", .str "c0"), ("checkpoint_seq", .num (.fin 1)),
    ("snapshot_block", .num (.fin 16)), ("state_root", .str "aa"),
    ("state_root_version", .num (.fin 1)), ("block_merkle_root", .str "bb"),
    ("block_merkle_version", .num (.fin 1))]

/-- One validator whose weight has the given spelling. -/
def oneValidator (weight : String) : Snapshot :=
  ⟨[.obj [("pubkey", .str (samplePubkey 'a')), ("source", .str "s"), ("weight", .str weight)]],
    false⟩

example : commitmentActive (withSignatures regtestFields []) = true := by decide

/-- A garbage entry before the good one changes nothing, and the proven set agrees. -/
theorem verifyCheckpoint_verdict_oneValidator :
    (verifyCheckpoint lenientHost BigNum.rational (withSignatures regtestFields
        [.null, sampleSignature (samplePubkey 'A'), sampleSignature (samplePubkey 'A')])
        (oneValidator "5")).valid =
      (verifyCheckpointWithProvenSet lenientHost BigNum.rational (withSignatures regtestFields
        [sampleSignature (samplePubkey 'A')]) (some ⟨oneValidator "5", .str "5.0"⟩)).valid := by
  have hall := verifyCheckpoint_verdict lenientHost BigNum.rational Set.univ (oneValidator "5")
    BigNum.rational_exact fun _ _ => ⟨trivial, trivial, trivial⟩
  have htotal : IsExactTotal (oneValidator "5") "5.0" :=
    ⟨5 * 10 ^ 18, by decide, by decide +kernel⟩
  have hweights : CanonicalWeights (oneValidator "5") := by
    unfold CanonicalWeights
    decide +kernel
  have hgarbage : ∀ canonical pk, ¬SignedBy lenientHost canonical .null pk := by
    rintro canonical pk ⟨rfl, hver⟩
    exact ne_empty_of_verifySignature hver (by decide)
  refine (hall.2.2.1 _ _ _ (fun s hs => ?_) (fun s hs => ?_)).trans
    (hall.2.2.2 _ _ (by decide) (by decide) hweights htotal)
  · rw [List.mem_singleton.1 hs]; simp
  · simp only [List.mem_cons, List.not_mem_nil, or_false, or_self] at hs
    rcases hs with rfl | rfl
    · exact .inr fun canonical pk _ _ => hgarbage canonical pk
    · simp

/-- A weight spelled `+5` passes the one verifier and throws in the other's exact total, at a
checkpoint that both verifiers judge. -/
theorem verifyCheckpoint_disagrees_plus :
    let cp := withSignatures regtestFields [sampleSignature (samplePubkey 'a')]
    commitmentActive cp = true ∧
      isStakeWeightedQuorumActive (cp.field "snapshot_block") (cp.field "network") = true ∧
      ¬∀ t, IsExactTotal (oneValidator "+5") t →
        (verifyCheckpoint lenientHost BigNum.rational cp (oneValidator "+5")).valid =
          (verifyCheckpointWithProvenSet lenientHost BigNum.rational cp
            (some ⟨oneValidator "+5", .str t⟩)).valid := by
  refine ⟨by decide, by decide, fun h => ?_⟩
  have := h "5" ⟨5 * 10 ^ 18, by decide, by decide +kernel⟩
  revert this
  decide +kernel

end XChainSdk
