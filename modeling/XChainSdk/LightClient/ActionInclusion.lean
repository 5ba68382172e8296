import XChainSdk.Js.RawJs
import XChainSdk.LightClient.ProofChecks
import XChainSdk.LightClient.LeafText
import XChainSdk.Merkle.BlockContent
import XChainSdk.Merkle.SampleHash

/-!
# Inclusion of actions

* `verifyAction` : the check of a served action against the content root of a checkpoint.
* `ActionRow.Proves` : the row that a proof rebuilds the leaf of.
* `PlainFields` : the served fields are those of the report, by `Number` as by `String`, and no half
  of a surrogate pair stands alone in the action.
* `verifyAction_sound_iff` : **a verified action is a row of the block**, and the report has the
  values of that row exactly when the served fields are plain.
-/

namespace XChainSdk

open Hash Js HashTree

/-! ### The check -/

/-- What `resolveQuorum` finds about a checkpoint. -/
structure QuorumResult where
  valid : Bool
  quorum : Js
  weighted : Js

/-- The result of `verifyAction`. -/
structure ActionVerdict where
  verified : Bool
  height : JsNum
  action : RawJs
  actionIndex : JsNum
  txIndex : Option JsNum
  reason : Option String
  checkpoint : RawJs
  quorum : Js
  weighted : Js

/-- A verdict that reports the fields of a served proof. -/
def actionVerdict (proof cp : RawJs) (height : JsNum) (q : QuorumResult) (verified : Bool)
    (reason : Option String) : ActionVerdict where
  verified
  height
  action := proof.field "action"
  actionIndex := (proof.field "action_index").text.toNumber
  txIndex := if (proof.field "tx_index").isNullish then none
    else some (proof.field "tx_index").text.toNumber
  reason
  checkpoint := cp
  quorum := q.quorum
  weighted := q.weighted

/-- The checkpoint that a response is checked against. -/
def actionCheckpoint (opts body : RawJs) : RawJs :=
  (opts.field "trustedCheckpoint").or (body.field "checkpoint")

/-- The checks of a served action against its checkpoint. -/
def checkAction (H : Host) (actionIndex : Js) (proof cp : RawJs) (q : QuorumResult) :
    ActionVerdict :=
  let height := (proof.field "height").text
  let blockIndex := (cp.field "block_index").text
  let verdict := actionVerdict proof cp blockIndex.toNumber q
  let trusted := lowerHex H (cp.field "block_merkle_root").text
  if q.valid = false then verdict false (some "CHECKPOINT_QUORUM_FAILED")
  else if sameWireIndex height blockIndex = false then
    verdict false (some "PROOF_HEIGHT_MISMATCH")
  else if trusted = "" then verdict false (some "CHECKPOINT_PRE_COMMITMENT")
  else if sameWireIndex (proof.field "action_index").text actionIndex = false then
    verdict false (some "ACTION_INDEX_MISMATCH")
  else
    let v := verifyActionProof H proof.text (str trusted)
    verdict v.verified v.reason

/-- `verifyAction` on the fetched response; `none` is a thrown error. -/
def verifyAction (H : Host) (resolveQuorum : RawJs → Option QuorumResult) (opts body : RawJs) :
    Option ActionVerdict :=
  let proof := body.field "proof"
  let cp := actionCheckpoint opts body
  let actionIndex := (opts.field "actionIndex").text
  if proof.text.truthy = false then none
  else if (opts.field "trustedCheckpoint").text.truthy then
    if sameWireIndex (proof.field "height").text (cp.field "block_index").text = false then
      some (actionVerdict proof cp (proof.field "height").text.toNumber ⟨false, null, null⟩ false
        (some "PROOF_HEIGHT_MISMATCH"))
    else some (checkAction H actionIndex proof cp ⟨true, null, null⟩)
  else if cp.text.truthy = false then none
  else (resolveQuorum cp).map (checkAction H actionIndex proof cp)

/-! ### Rows and reports -/

/-- The fields of the leaf that a proof describes. -/
def actionFields (proof : Js) : List String :=
  ["A", (proof.field "action_index").toText, (proof.field "tx_index").elemText,
    (proof.field "action").elemText]

/-- The leaf of the row is the one that the proof describes. -/
def ActionRow.Proves (r : ActionRow) (proof : RawJs) : Prop :=
  r.fields = actionFields proof.text

/-- The report has the action text, the action index and the tx index of the row; an empty text may
be reported as absent. -/
structure ReportsRow (v : ActionVerdict) (r : ActionRow) : Prop where
  action : v.action = .str (.ofText (orEmpty r.action)) ∨
    (v.action.isNullish = true ∧ orEmpty r.action = "")
  actionIndex : v.actionIndex = .fin r.actionIndex
  txIndex : v.txIndex = r.txIndex.map fun t : ℕ => JsNum.fin t

/-- `Number` and `String` of a served index agree. -/
def ExactIndex (x : Js) : Prop := ∃ n : ℕ, x.toText = natText n ∧ x.toNumber = .fin n

/-- The served action is a string without a lone surrogate or absent, the served action index is
exact as a number, and so is the served tx index where there is one. -/
structure PlainFields (proof : RawJs) : Prop where
  action : (proof.field "action").isNullish = true ∨
    ∃ s : CodeUnits, proof.field "action" = .str s ∧ s.isWellFormed = true
  actionIndex : ExactIndex (proof.field "action_index").text
  txIndex : (proof.field "tx_index").isNullish = true ∨ ExactIndex (proof.field "tx_index").text

theorem natText_injective : Function.Injective natText := fun _ _ h =>
  toDigits_inj (String.ofList_injective h)

theorem natText_ne_empty (n : ℕ) : natText n ≠ "" := by
  intro h
  have hnil : Nat.toDigits 10 n = [] := String.ofList_injective h
  exact Nat.toDigits_ne_nil hnil

theorem not_isNullish_of_exactIndex {x : Js} (h : ExactIndex x) : x.isNullish = false := by
  obtain ⟨n, htext, hnumber⟩ := h
  cases x with
  | undefined => cases hnumber
  | null =>
    -- the text `null` has letters
    have hchars : "null".toList = Nat.toDigits 10 n := by
      rw [show "null" = natText n from htext, natText, String.toList_ofList]
    have hdigit := Nat.isDigit_of_mem_toDigits (b := 10) (n := n) (by decide) (by decide)
      (hchars ▸ (show 'n' ∈ "null".toList by decide))
    exact absurd hdigit (by decide)
  | _ => rfl

/-- The decimal text of a natural number reads as the nearest double. -/
theorem stringToNumber_natText (n : ℕ) : stringToNumber (natText n) = toDouble n := by
  have hdig := allDigits_toDigits n
  obtain ⟨c, cs, hcs⟩ := List.exists_cons_of_ne_nil (Nat.toDigits_ne_nil (b := 10) (n := n))
  rw [hcs] at hdig
  have hc : c.isDigit = true := hdig c (by simp)
  have hliteral : decimalLiteral (c :: cs) = toDouble n := by
    obtain ⟨htake, hdrop⟩ := hdig.takeWhile_self
    have hvalue : digitsValue (c :: cs) = n := by
      rw [← hcs]
      exact Nat.ofDigitChars_ten_toDigits
    have hinf : c :: cs ≠ "Infinity".toList := by
      intro h
      rw [(List.cons.inj h).1] at hc
      exact absurd hc (by decide)
    have hunsigned : unsignedDecimal (c :: cs) = some ((n : ℚ), []) := by
      simp [unsignedDecimal, htake, hdrop, hvalue]
    unfold decimalLiteral
    rw [splitSign_of_digits hc]
    dsimp only
    rw [if_neg hinf, hunsigned]
    rfl
  have htrim : trimChars (c :: cs) = c :: cs :=
    trimChars_of_no_space fun d hd => isJsSpace_of_isDigit (hdig d hd)
  rw [stringToNumber, natText, String.toList_ofList, hcs, htrim]
  split
  · next h => cases h
  · next d ds h =>
    -- the second character is a digit, so this is no radix prefix
    have hd : d.isDigit = true := hdig d (by rw [h]; simp)
    rw [if_neg, if_neg, if_neg, ← h]
    · exact hliteral
    all_goals
      rintro (rfl | rfl) <;> exact absurd hd (by decide)
  · exact hliteral

/-- A served decimal is exact when its number is a double, so up to `2 ^ 53` always. -/
theorem exactIndex_natText {n : ℕ} : ExactIndex (str (natText n)) ↔ toDouble n = .fin n := by
  constructor
  · rintro ⟨m, htext, hnumber⟩
    rw [Js.toText_str] at htext
    cases natText_injective htext
    rw [← stringToNumber_natText]
    exact hnumber
  · intro h
    exact ⟨n, Js.toText_str _, (stringToNumber_natText n).trans h⟩

theorem elemText_of_isNullish {x : Js} (h : x.isNullish = true) : x.elemText = "" := by
  rw [elemText, if_pos h]

theorem elemText_of_not_isNullish {x : Js} (h : x.isNullish = false) : x.elemText = x.toText := by
  rw [elemText, h]
  rfl

/-- The report of a proof has the values of the row that it proves exactly when its fields are
plain. -/
theorem reportsRow_iff {r : ActionRow} {proof cp : RawJs} {height : JsNum} {q : QuorumResult}
    {verified : Bool} {reason : Option String} (hr : r.Proves proof) :
    ReportsRow (actionVerdict proof cp height q verified reason) r ↔ PlainFields proof := by
  simp only [ActionRow.Proves, ActionRow.fields, actionFields, List.cons.injEq, true_and,
    and_true, ← RawJs.text_field] at hr
  obtain ⟨hindex, htx, haction⟩ := hr
  constructor
  · rintro ⟨hact, hidx, htxi⟩
    refine ⟨?_, ⟨r.actionIndex, hindex.symm, hidx⟩, ?_⟩
    · rcases hact with hact | ⟨hnull, -⟩
      · exact .inr ⟨_, hact, CodeUnits.isWellFormed_ofText _⟩
      · exact .inl hnull
    · cases hnull : (proof.field "tx_index").isNullish with
      | true => exact .inl rfl
      | false =>
        have htxi' : some (proof.field "tx_index").text.toNumber =
            r.txIndex.map fun t : ℕ => JsNum.fin t := by
          rw [← htxi, actionVerdict, hnull]
          rfl
        obtain ⟨t, ht, hnumber⟩ := Option.map_eq_some_iff.1 htxi'.symm
        rw [elemText_of_not_isNullish hnull, ht] at htx
        exact .inr ⟨t, htx.symm, hnumber.symm⟩
  · rintro ⟨hact, ⟨n, htext, hnumber⟩, htxi⟩
    refine ⟨?_, ?_, ?_⟩
    · rcases hact with hnull | ⟨s, hs, hwell⟩
      · rw [elemText_of_isNullish hnull] at haction
        exact .inr ⟨hnull, haction⟩
      · -- a string without lone surrogates is that of its text
        rw [hs, RawJs.text, elemText_of_not_isNullish rfl, Js.toText_str] at haction
        rw [haction, (CodeUnits.isWellFormed_iff s).1 hwell]
        exact .inl hs
    · rw [natText_injective (hindex.trans htext)]
      exact hnumber
    · rcases htxi with hnull | ⟨t, httext, htnumber⟩
      · rw [elemText_of_isNullish hnull] at htx
        cases hrow : r.txIndex with
        | none => simp [actionVerdict, hnull]
        | some t =>
          rw [hrow] at htx
          exact absurd htx (natText_ne_empty t)
      · have hnull := not_isNullish_of_exactIndex ⟨t, httext, htnumber⟩
        rw [elemText_of_not_isNullish hnull, httext] at htx
        cases hrow : r.txIndex with
        | none =>
          rw [hrow] at htx
          exact absurd htx.symm (natText_ne_empty t)
        | some t' =>
          rw [hrow] at htx
          cases natText_injective (show natText t' = natText t from htx)
          simp [actionVerdict, RawJs.isNullish, hnull, htnumber]

/-! ### Soundness -/

/-- A verified action has passed `verifyActionProof` against the root of the checkpoint. -/
theorem verifyActionProof_of_verified {H : Host} {resolveQuorum : RawJs → Option QuorumResult}
    {opts body : RawJs} {v : ActionVerdict} (hv : verifyAction H resolveQuorum opts body = some v)
    (hverified : v.verified = true) :
    (verifyActionProof H (body.field "proof").text
      (str (lowerHex H ((actionCheckpoint opts body).field "block_merkle_root").text))).verified =
        true ∧
      ∃ height q reason,
        v = actionVerdict (body.field "proof") (actionCheckpoint opts body) height q true reason := by
  have hcheck : ∀ q, v = checkAction H (opts.field "actionIndex").text (body.field "proof")
      (actionCheckpoint opts body) q → (verifyActionProof H (body.field "proof").text
        (str (lowerHex H ((actionCheckpoint opts body).field "block_merkle_root").text))).verified =
          true ∧
      ∃ height q reason, v =
        actionVerdict (body.field "proof") (actionCheckpoint opts body) height q true reason := by
    intro q hq
    rw [checkAction] at hq
    dsimp only at hq
    split_ifs at hq
    · rw [hq] at hverified; cases hverified
    · rw [hq] at hverified; cases hverified
    · rw [hq] at hverified; cases hverified
    · rw [hq] at hverified; cases hverified
    · have hpass : (verifyActionProof H (body.field "proof").text (str (lowerHex H
          ((actionCheckpoint opts body).field "block_merkle_root").text))).verified = true := by
        rw [hq] at hverified
        exact hverified
      rw [hpass] at hq
      exact ⟨hpass, _, _, _, hq⟩
  unfold verifyAction at hv
  dsimp only at hv
  split_ifs at hv
  · cases hv
    cases hverified
  · exact hcheck _ (Option.some.inj hv).symm
  · obtain ⟨q, -, hq⟩ := Option.map_eq_some_iff.1 hv
    exact hcheck q hq.symm

/-- What it takes for an action proof to pass. -/
theorem verifyActionProof_verified {H : Host} {proof root : Js}
    (h : (verifyActionProof H proof root).verified = true) :
    ∃ text, joinFields (actionFields proof) = some text ∧
      verifyFixedMerkleProof H root (leafHash H text).bytes
        ((proof.field "merkle_proof").field "index")
        ((proof.field "merkle_proof").field "siblings") = some true := by
  rw [verifyActionProof, verified_verdictOf_iff] at h
  simp only [List.mem_cons, List.not_mem_nil, or_false, forall_eq_or_imp, forall_eq,
    refuse_eq_pass_iff] at h
  obtain ⟨-, -, hproof⟩ := h
  obtain ⟨leaf, hleaf, hproof⟩ := Option.bind_eq_some_iff.1 hproof
  obtain ⟨ok, hok, hnot⟩ := Option.bind_eq_some_iff.1 hproof
  obtain ⟨text, htext, rfl⟩ := Option.map_eq_some_iff.1 hleaf
  refine ⟨text, htext, ?_⟩
  rw [hok]
  simpa using hnot

/-- The byte strings that are hashed for the leaves and the root of a block. -/
def blockHashed (H : Host) (texts : List Bytes) : Set Bytes :=
  {x | x = emptyLeafPreimage ∨ ∃ t ∈ texts, x = 0 :: t} ∪
    (fixedTree H (texts.map (leafHash H))).preimages H.sha256 1

/-- The byte strings that checking an action proof hashes. -/
def actionProofHashed (H : Host) (proof : Js) : Set Bytes :=
  {x | ∃ text, joinFields (actionFields proof) = some text ∧
    (x = 0 :: text ∨ x ∈ fixedProofHashed H (leafHash H text).bytes
      ((proof.field "merkle_proof").field "index")
      ((proof.field "merkle_proof").field "siblings"))}

/-- **A verified action is a row of the block**, and not any other leaf; and the values that are
reported are those of that row if and only if the served fields are plain. -/
theorem verifyAction_sound_iff (H : Host) (resolveQuorum : RawJs → Option QuorumResult)
    (opts body : RawJs) (rows : BlockRows) (texts : List Bytes) (root : Bytes) (v : ActionVerdict)
    (htexts : rows.leafTexts = some texts)
    (hcommitted : blockMerkleRoot H (texts.map (leafHash H)) = some root)
    (hroot : lowerHex H ((actionCheckpoint opts body).field "block_merkle_root").text = toHex root)
    (hS : CollisionFree H.sha256
      (blockHashed H texts ∪ actionProofHashed H (body.field "proof").text))
    (hv : verifyAction H resolveQuorum opts body = some v) (hverified : v.verified = true) :
    (∃ r ∈ rows.actions, r.Proves (body.field "proof")) ∧
      ((∃ r ∈ rows.actions, r.Proves (body.field "proof") ∧ ReportsRow v r) ↔
        PlainFields (body.field "proof")) := by
  obtain ⟨hpass, height, q, reason, rfl⟩ := verifyActionProof_of_verified hv hverified
  obtain ⟨text, htext, hproof⟩ := verifyActionProof_verified hpass
  rw [hroot] at hproof
  have hin : text ∈ texts := by
    refine fixedMerkleProof_sound hcommitted (hS.mono ?_) hproof
    refine Set.union_subset (Set.union_subset ?_ fun x hx => .inl (.inr hx)) fun x hx =>
      .inr ⟨text, htext, .inr hx⟩
    rintro x (rfl | rfl | ht)
    · exact .inl (.inl (.inl rfl))
    · exact .inr ⟨text, htext, .inl rfl⟩
    · exact .inl (.inl (.inr ht))
  obtain ⟨r, hr, hfields⟩ := BlockRows.action_of_text htexts htext hin
  refine ⟨⟨r, hr, hfields⟩, ?_, fun hplain => ⟨r, hr, hfields, (reportsRow_iff hfields).2 hplain⟩⟩
  rintro ⟨r', -, hproves, hreports⟩
  exact (reportsRow_iff hproves).1 hreports

/-! ### A row without a tx index -/

/-- A block with a credit and two actions, of which the second one has no tx index. -/
def sampleBlock : BlockRows where
  credits := [⟨7, some "erin1", some "GAS", "1"⟩]
  actions := [⟨6, some 3, some "SEND|0|GAS"⟩, ⟨7, none, some "MINT|0|GAS"⟩]

/-- The texts of its leaves. -/
def sampleBlockTexts : List Bytes :=
  [["L", "credit", "7", "erin1", "GAS", "1"], ["A", "6", "3", "SEND|0|GAS"],
    ["A", "7", "", "MINT|0|GAS"]].map fun fields => (joinFields fields).getD []

/-- The numbers of the leaves. -/
def sampleBlockLeaves : List ℕ := [1513000, 983000, 947000]

/-- The node above the first two leaves. -/
def sampleBlockNode : Digest := sampleHost.sha256 (samplePair 1513000 983000)

/-- The root. -/
def sampleBlockRoot : Bytes :=
  (nodeHash sampleHost sampleBlockNode.bytes (sampleHost.sha256 (samplePair 947000 0)).bytes).bytes

/-- A served digest. -/
def servedHex (b : Bytes) : RawJs := .ofText (toHex b)

/-- The checkpoint of the block. -/
def sampleBlockCheckpoint : RawJs :=
  .obj [("block_index", .num (.fin 5)), ("block_merkle_root", servedHex sampleBlockRoot)]

/-- A served proof of the last row, with a tx index of the server's choice. -/
def sampleActionBody (txIndex : RawJs) : RawJs :=
  .obj [("proof", .obj [("height", .num (.fin 5)), ("action_index", .ofText "7"),
    ("tx_index", txIndex), ("action", .ofText "MINT|0|GAS"),
    ("leaf", servedHex (sampleDigest 947000).bytes),
    ("merkle_proof", .obj [("index", .num (.fin 2)),
      ("siblings", .arr [servedHex (EMPTY sampleHost 0).bytes, servedHex sampleBlockNode.bytes])])])]

/-- A caller who trusts the checkpoint asks for the action. -/
def sampleActionOpts : RawJs :=
  .obj [("trustedCheckpoint", sampleBlockCheckpoint), ("actionIndex", .num (.fin 7))]

theorem leafTexts_sampleBlock : sampleBlock.leafTexts = some sampleBlockTexts := by
  decide

theorem leaves_sampleBlock :
    sampleBlockTexts.map (leafHash sampleHost) = sampleBlockLeaves.map sampleDigest := by
  decide +kernel

theorem blockMerkleRoot_sampleBlock :
    blockMerkleRoot sampleHost (sampleBlockTexts.map (leafHash sampleHost)) =
      some sampleBlockRoot := by
  decide +kernel

theorem root_sampleBlock :
    lowerHex sampleHost ((actionCheckpoint sampleActionOpts (sampleActionBody .null)).field
      "block_merkle_root").text = toHex sampleBlockRoot := by
  decide +kernel

/-- The byte strings that are hashed. -/
def sampleBlockHashed : List Bytes :=
  emptyLeafPreimage :: sampleBlockTexts.map (0 :: ·) ++ [samplePair 1513000 983000,
    samplePair 947000 0,
    1 :: (sampleBlockNode.bytes ++ (sampleHost.sha256 (samplePair 947000 0)).bytes)]

theorem blockHashed_sampleBlock {x : Bytes} (hx : x ∈ blockHashed sampleHost sampleBlockTexts) :
    x ∈ sampleBlockHashed := by
  rcases hx with hx | hx
  · rcases hx with rfl | ⟨t, ht, rfl⟩
    · exact List.mem_cons_self
    · exact List.mem_append_left _ (.tail _ (List.mem_map_of_mem ht))
  · rw [leaves_sampleBlock] at hx
    refine List.mem_append_right _ ?_
    rcases hx with rfl | (rfl | hx | hx) | rfl | hx | hx
    · exact .tail _ (.tail _ (.head _))
    · exact .head _
    · cases hx
    · cases hx
    · exact .tail _ (.head _)
    · cases hx
    · cases hx

theorem actionProofHashed_sampleBlock {x : Bytes} (hx : x ∈ actionProofHashed sampleHost
    ((sampleActionBody .null).field "proof").text) : x ∈ sampleBlockHashed := by
  obtain ⟨text, htext, hx⟩ := hx
  have hjoin : joinFields (actionFields ((sampleActionBody .null).field "proof").text) =
      some ((joinFields ["A", "7", "", "MINT|0|GAS"]).getD []) := by decide +kernel
  cases hjoin.symm.trans htext
  rcases hx with rfl | ⟨sibs, p, hsibs, hp, hx⟩
  · decide +kernel
  · cases hsibs
    have hpath : indexPath (.num (.fin 2))
        [hexText (EMPTY sampleHost 0).bytes, hexText sampleBlockNode.bytes] =
          some [(true, sampleBlockNode.bytes), (false, (EMPTY sampleHost 0).bytes)] := by
      decide +kernel
    have htexts : [(servedHex (EMPTY sampleHost 0).bytes).text, (servedHex sampleBlockNode.bytes).text] =
        [hexText (EMPTY sampleHost 0).bytes, hexText sampleBlockNode.bytes] := by
      rw [servedHex, servedHex, RawJs.text_ofText, RawJs.text_ofText, hexText, hexText]
    have hp' : indexPath (.num (.fin 2))
        [(servedHex (EMPTY sampleHost 0).bytes).text, (servedHex sampleBlockNode.bytes).text] =
          some p := hp
    rw [htexts] at hp'
    cases hpath.symm.trans hp'
    refine List.mem_append_right _ ?_
    rcases hx with rfl | rfl | hx
    · exact .tail _ (.tail _ (.head _))
    · exact .tail _ (.head _)
    · cases hx

theorem collisionFree_sampleBlock : CollisionFree sampleHost.sha256
    (blockHashed sampleHost sampleBlockTexts ∪
      actionProofHashed sampleHost ((sampleActionBody .null).field "proof").text) := by
  intro x hx y hy he
  have hall : ∀ x ∈ sampleBlockHashed, ∀ y ∈ sampleBlockHashed,
      sampleHost.sha256 x = sampleHost.sha256 y → x = y := by decide +kernel
  exact hall x (hx.elim blockHashed_sampleBlock actionProofHashed_sampleBlock) y
    (hy.elim blockHashed_sampleBlock actionProofHashed_sampleBlock) he

theorem verified_sampleBlock :
    ∃ v, verifyAction sampleHost (fun _ => none) sampleActionOpts (sampleActionBody .null) = some v ∧
      v.verified = true := by
  have h : (verifyAction sampleHost (fun _ => none) sampleActionOpts (sampleActionBody .null)).map
      ActionVerdict.verified = some true := by decide +kernel
  exact Option.map_eq_some_iff.1 h

theorem verifyAction_sound_iff_sampleBlock :
    ∃ v, verifyAction sampleHost (fun _ => none) sampleActionOpts (sampleActionBody .null) = some v ∧
      (∃ r ∈ sampleBlock.actions, r.Proves ((sampleActionBody .null).field "proof")) ∧
      ((∃ r ∈ sampleBlock.actions, r.Proves ((sampleActionBody .null).field "proof") ∧
          ReportsRow v r) ↔ PlainFields ((sampleActionBody .null).field "proof")) := by
  obtain ⟨v, hv, hverified⟩ := verified_sampleBlock
  exact ⟨v, hv, verifyAction_sound_iff sampleHost (fun _ => none) sampleActionOpts
    (sampleActionBody .null) sampleBlock sampleBlockTexts sampleBlockRoot v leafTexts_sampleBlock
    blockMerkleRoot_sampleBlock root_sampleBlock collisionFree_sampleBlock hv hverified⟩

/-- **A row without a tx index is reported with tx index 0** when the server writes it as the empty
string. -/
theorem verifyAction_txIndex_zero :
    ∃ v, verifyAction sampleHost (fun _ => none) sampleActionOpts (sampleActionBody (.ofText "")) =
        some v ∧ v.verified = true ∧ v.txIndex = some (.fin 0) ∧
      ¬ ∃ r ∈ sampleBlock.actions, ReportsRow v r := by
  have h : (verifyAction sampleHost (fun _ => none) sampleActionOpts
      (sampleActionBody (.ofText ""))).map (fun v => (v.verified, v.txIndex)) =
        some (true, some (.fin 0)) := by decide +kernel
  obtain ⟨v, hv, hfields⟩ := Option.map_eq_some_iff.1 h
  obtain ⟨hverified, htx⟩ := Prod.mk.inj hfields
  refine ⟨v, hv, hverified, htx, ?_⟩
  rintro ⟨r, hr, hreports⟩
  have hrow := htx.symm.trans hreports.txIndex
  rcases List.mem_cons.1 hr with rfl | hr
  · exact absurd hrow (by decide)
  · rw [List.mem_singleton.1 hr] at hrow
    cases hrow

end XChainSdk
