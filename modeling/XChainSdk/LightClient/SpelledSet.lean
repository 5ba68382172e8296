import XChainSdk.Checkpoint.Spelling
import XChainSdk.LightClient.LeafText
import XChainSdk.LightClient.ProofChecks

/-!
# Proven sets with their own strings

The leaf of a row commits to the text of its source, while the quorum tells sources apart by the
strings themselves, as the keys of a `Map`.  Half of a surrogate pair has the text of U+FFFD.

* `SpelledSet` : a returned capability, with the strings that were served.
* `SpelledSet.verifyValidatorSetProof`, `SpelledSet.verifyCheckpointWithProvenSet` : the verifiers.
* `OneSpelling` : no source of a capability is listed under two strings of one text.
* `SpelledSet.verifyCheckpointWithProvenSet_text` : then what is valid over the strings is valid over
  their texts.
-/

namespace XChainSdk

open Js

/-! ### Rows -/

/-- A row as it is returned. -/
structure SpelledRow where
  pubkey : CodeUnits
  source : CodeUnits
  weight : CodeUnits

/-- A capability as it is returned; its total is a canonical amount. -/
structure SpelledSet where
  validators : List SpelledRow
  total : Js

/-- A row of the wire. -/
def SpelledRow.of (v : RawJs) : SpelledRow where
  pubkey := (v.field "pubkey").units
  source := (v.field "source").units
  weight := (v.field "weight").units

/-- The rows that a capability lists. -/
def listedRows (c : RawJs) : List SpelledRow :=
  ((((c.field "validators").or (.arr [])).iter).getD []).map .of

/-- No two listed sources of the capability are different strings of one text. -/
def OneSpelling (cap : String) (proof : RawJs) : Prop :=
  ∀ c, (cap, c) ∈ (proof.field "capabilities").ownEntries →
    Set.InjOn CodeUnits.text {s | ∃ v ∈ listedRows c, v.source = s}

/-- The row with the texts of its strings. -/
def SpelledRow.text (v : SpelledRow) : Js :=
  obj [("pubkey", str v.pubkey.text), ("source", str v.source.text), ("weight", str v.weight.text)]

namespace SpelledSet

/-- The set with the texts of its strings. -/
def text (P : SpelledSet) : ProvenSet := ⟨⟨P.validators.map SpelledRow.text, false⟩, P.total⟩

/-- A capability as it is returned. -/
def of (c : RawJs) : SpelledSet := ⟨listedRows c, (provenSet c.text).total⟩

variable (H : Host) (B : BigNum)

/-- The result of `verifyValidatorSetProof`. -/
structure Verdict where
  verified : Bool
  capabilities : List (String × SpelledSet)

/-- `verifyValidatorSetProof`.  Strings are only hashed and parsed on the way to the verdict. -/
def verifyValidatorSetProof (proof : RawJs) (trustedStateRoot : Js) : Verdict :=
  if (XChainSdk.verifyValidatorSetProof H proof.text trustedStateRoot).verified then
    ⟨true, (proof.field "capabilities").ownEntries.map fun (cap, c) => (cap, of c)⟩
  else ⟨false, []⟩

/-! ### The quorum -/

/-- The two dedupe maps. -/
structure Index where
  weightBySource : List (CodeUnits × String)
  pubkeyToSource : List (CodeUnits × CodeUnits)

/-- `String(v.source).trim() === ''`. -/
def blankSource (v : SpelledRow) : Bool := trim v.source.text == ""

/-- One row of the loop of `indexStakeSources`. -/
def indexRow (idx : Index) (v : SpelledRow) : Option Index :=
  if blankSource v then none
  else
    let pubkeyToSource := Loop.setEntry idx.pubkeyToSource (lowerUnits H v.pubkey) v.source
    if (idx.weightBySource.lookup v.source).isSome then some { idx with pubkeyToSource }
    else (rowWeight v.text).map fun ws => ⟨idx.weightBySource ++ [(v.source, ws)], pubkeyToSource⟩

/-- A map of weights with the texts of its keys. -/
def weights (m : List (CodeUnits × String)) : List (String × String) :=
  m.map fun e => (e.1.text, e.2)

/-- The state of the loop of `sumSignerStake`. -/
structure Tally where
  countedSources : List CodeUnits
  seenPubkeys : List String
  tally : ℚ

/-- One signer of the loop of `sumSignerStake`. -/
def tallySigner (idx : Index) (t : Tally) (pk : String) : Tally :=
  let lpk := H.toLowerCase pk
  if lpk ∈ t.seenPubkeys then t
  else
    let t := { t with seenPubkeys := lpk :: t.seenPubkeys }
    match idx.pubkeyToSource.lookup (.ofText lpk) with
    | none => t
    | some src =>
      if src ∈ t.countedSources then t
      else { t with
        countedSources := src :: t.countedSources
        tally := B.add t.tally (bcnum (idx.weightBySource.lookup src)) }

/-- `meetsStakeThreshold` -/
def meetsStakeThreshold (rows : List SpelledRow) (signers : List String) : Bool :=
  match rows.foldlM (indexRow H) ⟨[], []⟩ with
  | none => false
  | some idx => match sumStakeWeights B (weights idx.weightBySource) with
    | none => false
    | some S =>
      decide (B.mul S 2 < B.mul (signers.foldl (tallySigner H B idx) ⟨[], [], 0⟩).tally 3)

/-- One row of the loop of `totalStake`. -/
def totalRow (m : List (CodeUnits × String)) (v : SpelledRow) : Option (List (CodeUnits × String)) :=
  if blankSource v then none
  else if (m.lookup v.source).isSome then some m
  else (rowWeight v.text).map fun ws => m ++ [(v.source, ws)]

/-- The first weight of each source, as its own text. -/
def firstWeight (m : List (CodeUnits × String)) (v : SpelledRow) : List (CodeUnits × String) :=
  if (m.lookup v.source).isSome then m else m ++ [(v.source, v.weight.text)]

/-- `exactStakeTotal` -/
def exactStakeTotal (rows : List SpelledRow) : Option String :=
  ((rows.foldlM totalRow []).bind fun m => (weights m).foldlM (addWeight B) 0).bind fun _ =>
    sumCanonicalAmounts ((rows.foldl firstWeight []).map Prod.snd)

/-- The signers of the signature loop over a proven set. -/
def countSignature (canonical : String) (provenPks : List CodeUnits) (seenPk : List String)
    (sig : Js) : List String :=
  let pk := signaturePubkey H sig
  if seenPk.contains pk then seenPk
  else if !provenPks.contains (.ofText pk) then seenPk
  else if !verifySignature H canonical (signatureText sig) pk then seenPk
  else seenPk ++ [pk]

/-- `verifyCheckpointWithProvenSet` -/
def verifyCheckpointWithProvenSet (cp : Js) (P : SpelledSet) : ProvenVerdict :=
  if !commitmentActive cp then ⟨false, "0"⟩
  else if !isStakeWeightedQuorumActive (cp.field "snapshot_block") (cp.field "network") then
    ⟨false, "0"⟩
  else if commitmentMissing cp || supersessionDisallowed cp then ⟨false, "0"⟩
  else match canonicalCheckpoint H cp with
    | none => ⟨false, "0"⟩
    | some canonical =>
      let provenPks := P.validators.map fun v => lowerUnits H v.pubkey
      let sigs := signatureEntries H (cp.field "validator_signatures")
      let validSigners := sigs.foldl (countSignature H canonical provenPks) []
      if meetsStakeThreshold H B P.validators validSigners then
        match exactStakeTotal B P.validators with
        | none => ⟨false, "0"⟩
        | some total =>
          match (canonicalAmount (P.total.or (.str "0")).toText).bind amountUnits with
          | none => ⟨false, total⟩
          | some c => ⟨amountUnits total == some c, total⟩
      else ⟨false, "0"⟩

end SpelledSet

variable {H : Host} {B : BigNum}

/-! ### Lower case of a pubkey -/

theorem isAscii_of_isHexText {n : ℕ} {s : String} (h : isHexText n s = true) : IsAscii s := by
  simp only [isHexText, Bool.and_eq_true, List.all_eq_true] at h
  intro c hc
  by_contra hbig
  have hnot : ∀ d : Char, d.toNat < 128 → ¬ c ≤ d := fun d hd hle => by
    have hle : c.toNat ≤ d.toNat := hle
    omega
  have hdigit := h.2 c hc
  simp [digitIn, hnot _ (show ('9' : Char).toNat < 128 by decide),
    hnot _ (show ('f' : Char).toNat < 128 by decide),
    hnot _ (show ('F' : Char).toNat < 128 by decide)] at hdigit

theorem notMem_k_of_isHexText {n : ℕ} {s : String} (h : isHexText n s = true) : 'k' ∉ s.toList := by
  simp only [isHexText, Bool.and_eq_true, List.all_eq_true] at h
  intro hk
  exact absurd (h.2 _ hk) (by decide)

/-- A good signature names its pubkey in lower case. -/
theorem toLowerCase_of_signedBy {canonical pk : String} {s : Js}
    (h : SignedBy H canonical s pk) : H.toLowerCase pk = pk := by
  obtain ⟨rfl, hver⟩ := h
  have hhex := isHexText_pubkey_of_verifySignature hver
  exact toLowerCase_toLowerCase (isAscii_of_isHexText hhex) (notMem_k_of_isHexText hhex)

/-- Half of a pair that stands alone stays in lower case. -/
theorem exists_surrogate_mem_lowerFrom {s : CodeUnits} (h : s.isWellFormed = false)
    (run : CodeUnits) : ∃ u ∈ lowerFrom H run s, IsSurrogate u := by
  induction s using CodeUnits.chars.induct generalizing run with
  | case1 u v rest hpair ih =>
    rw [CodeUnits.isWellFormed, if_pos hpair] at h
    rw [lowerFrom, if_pos hpair]
    exact ih h _
  | case2 u v rest hpair ih =>
    rw [CodeUnits.isWellFormed, if_neg hpair] at h
    rw [lowerFrom, if_neg hpair]
    split_ifs with hsur
    · exact ⟨u, by simp, hsur⟩
    · exact ih (by simpa [hsur] using h) _
  | case3 u =>
    have hsur : IsSurrogate u := by simpa [CodeUnits.isWellFormed] using h
    rw [lowerFrom, if_pos hsur]
    exact ⟨u, by simp, hsur⟩
  | case4 => cases h

theorem not_surrogate_of_mem_ofText {s : String} (h : IsAscii s) {u : UInt16}
    (hu : u ∈ CodeUnits.ofText s) : ¬ IsSurrogate u := by
  obtain ⟨c, hc, hu⟩ := List.mem_flatMap.1 hu
  have hlt := h c hc
  rw [charUnits, if_pos (by omega), List.mem_singleton] at hu
  rw [hu, IsSurrogate, UInt16.toNat_ofNat']
  omega

/-- A string in lower case is a hexadecimal key when its text in lower case is. -/
theorem lowerUnits_eq_ofText_iff {s : CodeUnits} {pk : String} {n : ℕ}
    (hpk : isHexText n pk = true) : lowerUnits H s = .ofText pk ↔ H.toLowerCase s.text = pk := by
  constructor
  · intro h
    have hwell : s.isWellFormed = true := by
      by_contra hnot
      obtain ⟨u, hu, hsur⟩ := exists_surrogate_mem_lowerFrom (H := H) (Bool.eq_false_iff.2 hnot) []
      rw [← lowerUnits, h] at hu
      exact not_surrogate_of_mem_ofText (isAscii_of_isHexText hpk) hu hsur
    rw [lowerUnits_of_isWellFormed hwell] at h
    exact CodeUnits.ofText_injective h
  · rintro rfl
    have hascii := H.isAscii_of_toLowerCase _ (isAscii_of_isHexText hpk) (notMem_k_of_isHexText hpk)
    have hplain : '\uFFFD' ∉ s.text.toList := fun hmem => absurd (hascii _ hmem) (by decide)
    have hwell : s.isWellFormed = true := by
      rw [CodeUnits.eq_ofText_of_text rfl hplain, CodeUnits.isWellFormed_ofText]
    rw [lowerUnits_of_isWellFormed hwell]

/-! ### Texts of the maps -/

namespace SpelledSet

variable {S : Set CodeUnits} {v : SpelledRow} {rows : List SpelledRow}

theorem rowSource_text (v : SpelledRow) :
    rowSource v.text = if blankSource v then none else some v.source.text := by
  have hsource : v.text.getIf "source" = str v.source.text := rfl
  have htruthy : v.text.truthy = true := rfl
  simp [rowSource, hsource, htruthy, blankSource, isNullish]

theorem rowPubkey_text (v : SpelledRow) : rowPubkey H v.text = H.toLowerCase v.pubkey.text := by
  have hpubkey : v.text.getIf "pubkey" = str v.pubkey.text := rfl
  rw [rowPubkey, hpubkey, toText_str]

/-- Every key of the map is in the set. -/
def KeysIn (S : Set CodeUnits) (m : List (CodeUnits × String)) : Prop := ∀ e ∈ m, e.1 ∈ S

theorem KeysIn.concat {m : List (CodeUnits × String)} (h : KeysIn S m) {s : CodeUnits} (hs : s ∈ S)
    (ws : String) : KeysIn S (m ++ [(s, ws)]) := by
  intro e he
  rcases List.mem_append.1 he with he | he
  · exact h e he
  · rw [List.mem_singleton.1 he]
    exact hs

theorem weights_concat (m : List (CodeUnits × String)) (s : CodeUnits) (ws : String) :
    weights (m ++ [(s, ws)]) = weights m ++ [(s.text, ws)] := by
  rw [weights, List.map_append]
  rfl

/-- Sources that are told apart by their texts are found under them. -/
theorem lookup_weights (hS : Set.InjOn CodeUnits.text S) {m : List (CodeUnits × String)}
    (hm : KeysIn S m) {s : CodeUnits} (hs : s ∈ S) : (weights m).lookup s.text = m.lookup s :=
  Loop.lookup_map_fst hS hm hs

/-- The maps over the strings, and those over the texts. -/
structure Index.Follows (H : Host) (S : Set CodeUnits) (idx : Index) (idx' : StakeIndex) : Prop where
  weights : idx'.weightBySource = SpelledSet.weights idx.weightBySource
  keys : KeysIn S idx.weightBySource
  pubkeys : ∀ pk, isHexText 64 pk = true → idx'.pubkeyToSource.lookup pk =
    (idx.pubkeyToSource.lookup (.ofText pk)).map CodeUnits.text
  sources : ∀ pk s, idx.pubkeyToSource.lookup pk = some s → s ∈ S

/-- **Step.**  One row more. -/
theorem Index.Follows.step (hS : Set.InjOn CodeUnits.text S) {idx idx₁ : Index} {idx' : StakeIndex}
    (h : idx.Follows H S idx') (hv : v.source ∈ S) (hstep : indexRow H idx v = some idx₁) :
    ∃ idx₁', XChainSdk.indexRow H idx' v.text = some idx₁' ∧ idx₁.Follows H S idx₁' := by
  unfold indexRow at hstep
  have hpubkeys : ∀ pk, isHexText 64 pk = true →
      (Loop.setEntry idx'.pubkeyToSource (rowPubkey H v.text) v.source.text).lookup pk =
        ((Loop.setEntry idx.pubkeyToSource (lowerUnits H v.pubkey) v.source).lookup
          (.ofText pk)).map CodeUnits.text := by
    intro pk hpk
    have hsame : pk = rowPubkey H v.text ↔ CodeUnits.ofText pk = lowerUnits H v.pubkey := by
      rw [rowPubkey_text, eq_comm, ← lowerUnits_eq_ofText_iff hpk, eq_comm]
    rw [Loop.lookup_setEntry, Loop.lookup_setEntry]
    by_cases hpub : pk = rowPubkey H v.text
    · rw [if_pos hpub, if_pos (hsame.1 hpub), Option.map_some]
    · rw [if_neg hpub, if_neg (mt hsame.2 hpub), h.pubkeys pk hpk]
  have hsources : ∀ pk s, (Loop.setEntry idx.pubkeyToSource (lowerUnits H v.pubkey) v.source).lookup
      pk = some s → s ∈ S := by
    intro pk s hl
    rw [Loop.lookup_setEntry] at hl
    split_ifs at hl
    · cases hl
      exact hv
    · exact h.sources pk s hl
  have hlookup : idx'.weightBySource.lookup v.source.text = idx.weightBySource.lookup v.source := by
    rw [h.weights]
    exact lookup_weights hS h.keys hv
  split_ifs at hstep with hblank hseen
  · cases hstep
    refine ⟨⟨idx'.weightBySource, Loop.setEntry idx'.pubkeyToSource (rowPubkey H v.text)
      v.source.text⟩, ?_, h.weights, h.keys, hpubkeys, hsources⟩
    simp [XChainSdk.indexRow, rowSource_text, hblank, hlookup, hseen]
  · obtain ⟨ws, hws, rfl⟩ := Option.map_eq_some_iff.1 hstep
    refine ⟨⟨idx'.weightBySource ++ [(v.source.text, ws)], Loop.setEntry idx'.pubkeyToSource
      (rowPubkey H v.text) v.source.text⟩, ?_, ?_, h.keys.concat hv ws, hpubkeys, hsources⟩
    · simp [XChainSdk.indexRow, rowSource_text, hblank, hlookup, hseen, hws]
    · rw [h.weights, weights_concat]

/-- **Run.**  Rows that are indexed by their strings are indexed by their texts. -/
theorem Index.Follows.run (hS : Set.InjOn CodeUnits.text S) {idx idx₁ : Index} {idx' : StakeIndex}
    (h : idx.Follows H S idx') (hrows : ∀ v ∈ rows, v.source ∈ S)
    (hrun : rows.foldlM (indexRow H) idx = some idx₁) :
    ∃ idx₁', (rows.map SpelledRow.text).foldlM (XChainSdk.indexRow H) idx' = some idx₁' ∧
      idx₁.Follows H S idx₁' := by
  induction rows generalizing idx idx' with
  | nil =>
    cases hrun
    exact ⟨idx', rfl, h⟩
  | cons v rows ih =>
    rw [List.foldlM_cons] at hrun
    obtain ⟨t, ht, hrun⟩ := Option.bind_eq_some_iff.1 hrun
    obtain ⟨t', ht', hfollows⟩ := h.step hS (hrows v List.mem_cons_self) ht
    rw [List.map_cons, List.foldlM_cons, ht']
    exact ih hfollows (fun v hv => hrows v (List.mem_cons_of_mem _ hv)) hrun

/-- The tally over the strings, and the one over the texts. -/
structure Tally.Follows (S : Set CodeUnits) (t : Tally) (t' : XChainSdk.Tally) : Prop where
  counted : t'.countedSources = t.countedSources.map CodeUnits.text
  sources : ∀ s ∈ t.countedSources, s ∈ S
  seen : t'.seenPubkeys = t.seenPubkeys
  tally : t'.tally = t.tally

/-- **Step.**  One signer more. -/
theorem Tally.Follows.step (hS : Set.InjOn CodeUnits.text S) {idx : Index} {idx' : StakeIndex}
    (hidx : idx.Follows H S idx') {t : Tally} {t' : XChainSdk.Tally} (h : t.Follows S t')
    {pk : String} (hhex : isHexText 64 pk = true) (hlower : H.toLowerCase pk = pk) :
    (tallySigner H B idx t pk).Follows S (XChainSdk.tallySigner H B idx' t' (.str pk)) := by
  simp only [tallySigner, XChainSdk.tallySigner, toText_str, hlower, h.seen, hidx.pubkeys pk hhex]
  split_ifs with hseen
  · exact h
  · cases hl : idx.pubkeyToSource.lookup (.ofText pk) with
    | none => exact ⟨h.counted, h.sources, rfl, h.tally⟩
    | some src =>
      have hsrc := hidx.sources _ _ hl
      have hmem : src.text ∈ t'.countedSources ↔ src ∈ t.countedSources := by
        rw [h.counted, List.mem_map]
        refine ⟨?_, fun hmem => ⟨src, hmem, rfl⟩⟩
        rintro ⟨s, hs, htext⟩
        rw [← hS (h.sources s hs) hsrc htext]
        exact hs
      simp only [Option.map_some, hmem]
      split_ifs with hcounted
      · exact ⟨h.counted, h.sources, rfl, h.tally⟩
      · refine ⟨?_, ?_, rfl, ?_⟩
        · rw [h.counted, List.map_cons]
        · intro s hs
          rcases List.mem_cons.1 hs with rfl | hs
          · exact hsrc
          · exact h.sources s hs
        · rw [h.tally, hidx.weights, lookup_weights hS hidx.keys hsrc]

theorem Tally.Follows.run (hS : Set.InjOn CodeUnits.text S) {idx : Index} {idx' : StakeIndex}
    (hidx : idx.Follows H S idx') {t : Tally} {t' : XChainSdk.Tally} (h : t.Follows S t')
    {signers : List String}
    (hsigners : ∀ pk ∈ signers, isHexText 64 pk = true ∧ H.toLowerCase pk = pk) :
    (signers.foldl (tallySigner H B idx) t).Follows S
      ((signers.map .str).foldl (XChainSdk.tallySigner H B idx') t') := by
  induction signers generalizing t t' with
  | nil => exact h
  | cons pk signers ih =>
    have hpk := hsigners pk List.mem_cons_self
    exact ih (h.step hS hidx hpk.1 hpk.2) fun pk hpk => hsigners pk (List.mem_cons_of_mem _ hpk)

/-! ### The verdict -/

theorem meetsStakeThreshold_text (hS : Set.InjOn CodeUnits.text S)
    (hrows : ∀ v ∈ rows, v.source ∈ S) {signers : List String}
    (hsigners : ∀ pk ∈ signers, isHexText 64 pk = true ∧ H.toLowerCase pk = pk)
    (h : meetsStakeThreshold H B rows signers = true) :
    XChainSdk.meetsStakeThreshold H B ⟨rows.map SpelledRow.text, false⟩ (signers.map .str) = true := by
  unfold meetsStakeThreshold at h
  cases hrun : rows.foldlM (indexRow H) ⟨[], []⟩ with
  | none => simp [hrun] at h
  | some idx =>
    have hempty : Index.Follows H S ⟨[], []⟩ ⟨[], []⟩ :=
      ⟨rfl, fun _ he => (List.not_mem_nil he).elim, fun _ _ => rfl, fun _ _ hl => by cases hl⟩
    obtain ⟨idx', hrun', hidx⟩ := hempty.run hS hrows hrun
    have htally : Tally.Follows S ⟨[], [], 0⟩ ⟨[], [], 0⟩ :=
      ⟨rfl, fun _ hs => (List.not_mem_nil hs).elim, rfl, rfl⟩
    have hsum := (htally.run (B := B) hS hidx hsigners).tally
    rw [hrun] at h
    have hrun'' : indexStakeSources H (rows.map SpelledRow.text) = some idx' := hrun'
    rw [XChainSdk.meetsStakeThreshold, if_neg Bool.false_ne_true, hrun'']
    dsimp only at h ⊢
    rw [hidx.weights, sumSignerStake, hsum]
    exact h

/-- **Step.**  One row more of the total. -/
theorem totalRow_text (hS : Set.InjOn CodeUnits.text S) {m m₁ : List (CodeUnits × String)}
    (hm : KeysIn S m) (hv : v.source ∈ S) (hstep : totalRow m v = some m₁) :
    XChainSdk.totalRow (weights m) v.text = some (weights m₁) ∧ KeysIn S m₁ := by
  unfold totalRow at hstep
  have hlookup := lookup_weights hS hm hv
  split_ifs at hstep with hblank hseen
  · cases hstep
    refine ⟨?_, hm⟩
    simp [XChainSdk.totalRow, rowSource_text, hblank, hlookup, hseen]
  · obtain ⟨ws, hws, rfl⟩ := Option.map_eq_some_iff.1 hstep
    refine ⟨?_, hm.concat hv ws⟩
    simp [XChainSdk.totalRow, rowSource_text, hblank, hlookup, hseen, hws, weights_concat]

theorem foldlM_totalRow_text (hS : Set.InjOn CodeUnits.text S) {m m₁ : List (CodeUnits × String)}
    (hm : KeysIn S m) (hrows : ∀ v ∈ rows, v.source ∈ S) (hrun : rows.foldlM totalRow m = some m₁) :
    (rows.map SpelledRow.text).foldlM XChainSdk.totalRow (weights m) = some (weights m₁) := by
  induction rows generalizing m with
  | nil =>
    cases hrun
    rfl
  | cons v rows ih =>
    rw [List.foldlM_cons] at hrun
    obtain ⟨t, ht, hrun⟩ := Option.bind_eq_some_iff.1 hrun
    obtain ⟨ht', hkeys⟩ := totalRow_text hS hm (hrows v List.mem_cons_self) ht
    rw [List.map_cons, List.foldlM_cons, ht']
    exact ih hkeys (fun v hv => hrows v (List.mem_cons_of_mem _ hv)) hrun

theorem foldl_firstWeight_text (hS : Set.InjOn CodeUnits.text S) {m : List (CodeUnits × String)}
    (hm : KeysIn S m) (hrows : ∀ v ∈ rows, v.source ∈ S) :
    (rows.map SpelledRow.text).foldl XChainSdk.firstWeight (weights m) =
      weights (rows.foldl firstWeight m) := by
  induction rows generalizing m with
  | nil => rfl
  | cons v rows ih =>
    have hv := hrows v List.mem_cons_self
    have hrest : ∀ v ∈ rows, v.source ∈ S := fun v hv => hrows v (List.mem_cons_of_mem _ hv)
    have hsource : (v.text.field "source").toText = v.source.text := toText_str _
    have hweight : (v.text.field "weight").toText = v.weight.text := toText_str _
    have hstep : XChainSdk.firstWeight (weights m) v.text = weights (firstWeight m v) := by
      simp only [XChainSdk.firstWeight, firstWeight, hsource, hweight, lookup_weights hS hm hv]
      split_ifs
      · rfl
      · rw [weights_concat]
    have hkeys : KeysIn S (firstWeight m v) := by
      rw [firstWeight]
      split_ifs
      · exact hm
      · exact hm.concat hv _
    rw [List.map_cons, List.foldl_cons, List.foldl_cons, hstep, ih hkeys hrest]

theorem exactStakeTotal_text (hS : Set.InjOn CodeUnits.text S) (hrows : ∀ v ∈ rows, v.source ∈ S)
    {total : String} (h : exactStakeTotal B rows = some total) :
    XChainSdk.exactStakeTotal B ⟨rows.map SpelledRow.text, false⟩ = some total := by
  obtain ⟨q, hq, hsum⟩ := Option.bind_eq_some_iff.1 h
  obtain ⟨m, hm, hq⟩ := Option.bind_eq_some_iff.1 hq
  have hempty : KeysIn S [] := fun _ he => (List.not_mem_nil he).elim
  have hrun : (rows.map SpelledRow.text).foldlM XChainSdk.totalRow [] = some (weights m) :=
    foldlM_totalRow_text hS hempty hrows hm
  have htotal : totalStake B ⟨rows.map SpelledRow.text, false⟩ = some q := by
    rw [totalStake, if_neg Bool.false_ne_true, hrun, Option.bind_some, hq]
  have hfirst : ((rows.map SpelledRow.text).foldl XChainSdk.firstWeight []).map Prod.snd =
      (rows.foldl firstWeight []).map Prod.snd := by
    have hmap := foldl_firstWeight_text hS hempty hrows
    rw [show weights [] = [] from rfl] at hmap
    rw [hmap, weights, List.map_map]
    rfl
  rw [XChainSdk.exactStakeTotal, htotal, Option.bind_some, hfirst, hsum]

/-- The signature loop over the strings is the one over the texts. -/
theorem foldl_countSignature (canonical : String) (rows : List SpelledRow) (sigs : List Js) :
    sigs.foldl (countSignature H canonical (rows.map fun v => lowerUnits H v.pubkey)) [] =
      validSigners H canonical (provenPubkeys H (rows.map SpelledRow.text)) sigs := by
  have hpubkeys : provenPubkeys H (rows.map SpelledRow.text) =
      rows.map fun v => H.toLowerCase v.pubkey.text := by
    induction rows with
    | nil => rfl
    | cons v rows ih =>
      have hpubkey : v.text.field "pubkey" = str v.pubkey.text := rfl
      have htruthy : v.text.truthy = true := rfl
      rw [List.map_cons, provenPubkeys, List.filterMap_cons, ← provenPubkeys, ih]
      simp [hpubkey, htruthy, isNullish]
  have hstep : countSignature H canonical (rows.map fun v => lowerUnits H v.pubkey) =
      countProvenSignature H canonical (provenPubkeys H (rows.map SpelledRow.text)) := by
    funext seen s
    simp only [countSignature, countProvenSignature]
    by_cases hver : verifySignature H canonical (signatureText s) (signaturePubkey H s) = true
    · have hhex := isHexText_pubkey_of_verifySignature hver
      have hcontains : (rows.map fun v => lowerUnits H v.pubkey).contains
          (.ofText (signaturePubkey H s)) =
            (provenPubkeys H (rows.map SpelledRow.text)).contains (signaturePubkey H s) := by
        rw [Bool.eq_iff_iff, List.contains_iff_mem, List.contains_iff_mem, hpubkeys]
        simp [lowerUnits_eq_ofText_iff hhex]
      rw [hcontains]
    · have hver' := Bool.eq_false_iff.2 hver
      simp [hver']
  rw [hstep, foldl_countProvenSignature]

/-- **What is valid over the strings is valid over their texts**, when no two sources of the set have
one text. -/
theorem verifyCheckpointWithProvenSet_text {cp : Js} {P : SpelledSet}
    (hP : Set.InjOn CodeUnits.text {s | ∃ v ∈ P.validators, v.source = s})
    (h : (verifyCheckpointWithProvenSet H B cp P).valid = true) :
    (XChainSdk.verifyCheckpointWithProvenSet H B cp (some P.text)).valid = true := by
  have hrows : ∀ v ∈ P.validators, v.source ∈ {s | ∃ v ∈ P.validators, v.source = s} :=
    fun v hv => ⟨v, hv, rfl⟩
  simp only [verifyCheckpointWithProvenSet, foldl_countSignature] at h
  simp only [XChainSdk.verifyCheckpointWithProvenSet, foldl_countProvenSignature, Option.map_some,
    Option.getD_some]
  split_ifs at h ⊢ with hactive hweighted hstruct
  cases hcanonical : canonicalCheckpoint H cp with
  | none => simp [hcanonical] at h
  | some canonical =>
    simp only [hcanonical] at h ⊢
    split_ifs at h with hmeets
    have hsigners : ∀ pk ∈ validSigners H canonical (provenPubkeys H P.text.validators.rows)
        (signatureEntries H (cp.field "validator_signatures")),
        isHexText 64 pk = true ∧ H.toLowerCase pk = pk := by
      intro pk hpk
      obtain ⟨-, e, -, hsigned⟩ := mem_validSigners.1 hpk
      exact ⟨isHexText_pubkey_of_verifySignature hsigned.2, toLowerCase_of_signedBy hsigned⟩
    rw [if_pos (show XChainSdk.meetsStakeThreshold H B P.text.validators _ = true from
      meetsStakeThreshold_text hP hrows hsigners hmeets)]
    cases htotal : exactStakeTotal B P.validators with
    | none => simp [htotal] at h
    | some total =>
      have htotal' : XChainSdk.exactStakeTotal B P.text.validators = some total :=
        exactStakeTotal_text hP hrows htotal
      rw [htotal']
      simp only [htotal] at h
      exact h

end SpelledSet

/-! ### The returned set -/

namespace SpelledSet

theorem text_of_row (v : RawJs) : (SpelledRow.of v).text = provenRow v.text := by
  simp only [SpelledRow.text, SpelledRow.of, provenRow, RawJs.text_units, RawJs.text_field]

theorem text_of (c : RawJs) : (of c).text = provenSet c.text := by
  have hrows : (listedRows c).map SpelledRow.text =
      ((capabilityRows c.text).getD []).map provenRow := by
    have hiter : RawJs.texts ((((c.field "validators").or (.arr [])).iter).getD []) =
        (capabilityRows c.text).getD [] := by
      have htexts := RawJs.map_texts_iter ((c.field "validators").or (.arr []))
      rw [RawJs.text_or, RawJs.text_field] at htexts
      have hnil : RawJs.texts [] = [] := rfl
      rw [← Option.getD_map RawJs.texts, hnil, htexts, capabilityRows, Js.field]
      cases c.text.get "validators" <;> rfl
    rw [← hiter, listedRows, List.map_map]
    generalize (((c.field "validators").or (.arr [])).iter).getD [] = vs
    induction vs with
    | nil => rfl
    | cons v vs ih =>
      rw [List.map_cons, RawJs.texts, List.map_cons, ih, Function.comp_apply, text_of_row]
  rw [text, of, hrows]
  rfl

theorem capabilities_of_verified {proof root : Js}
    (h : (XChainSdk.verifyValidatorSetProof H proof root).verified = true) :
    (XChainSdk.verifyValidatorSetProof H proof root).capabilities =
      ((proof.field "capabilities").ownEntries.getD []).map fun (cap, c) => (cap, provenSet c) := by
  rw [XChainSdk.verifyValidatorSetProof] at h ⊢
  cases hrun : runChecks (validatorSetChecks H proof root) with
  | none => simp [hrun] at h
  | some reason =>
    cases reason with
    | none => rfl
    | some reason => simp [hrun] at h

/-- A returned capability, the value it was read from, and its texts. -/
theorem capabilities_verifyValidatorSetProof {proof : RawJs} {root : Js} {cap : String}
    {P : SpelledSet} (h : (cap, P) ∈ (verifyValidatorSetProof H proof root).capabilities) :
    (XChainSdk.verifyValidatorSetProof H proof.text root).verified = true ∧
      (cap, P.text) ∈ (XChainSdk.verifyValidatorSetProof H proof.text root).capabilities ∧
      ∃ c, (cap, c) ∈ (proof.field "capabilities").ownEntries ∧ P = of c := by
  rw [verifyValidatorSetProof] at h
  split_ifs at h with hverified
  · obtain ⟨⟨cap', c⟩, hc, he⟩ := List.mem_map.1 h
    cases he
    refine ⟨hverified, ?_, c, hc, rfl⟩
    have htext : (cap, c.text) ∈ (((proof.text).field "capabilities").ownEntries.getD []) := by
      rw [← RawJs.text_field, ← RawJs.fieldTexts_ownEntries]
      exact RawJs.mem_fieldTexts hc
    rw [capabilities_of_verified hverified, text_of]
    exact List.mem_map.2 ⟨_, htext, rfl⟩
  · cases h

end SpelledSet

end XChainSdk
