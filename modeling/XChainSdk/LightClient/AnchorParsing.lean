import XChainSdk.LightClient.ActionInclusion
import XChainSdk.LightClient.AnchorBundle
import XChainSdk.Js.NumberFormat

/-!
# Anchor bundles are read as they were written

* `exact_readAnchorV3Body` : the readers of the fold version do not look ahead.
* `AnchorBundle.tokens`, `AnchorBundle.Written` : the wire of a bundle, and the bundles that have
  one.
* `anchorParsing_exact` : **a bundle that is written is read back**, an accepted wire cannot be cut
  or continued by segments, the fold is on its wrapper section, and the two versions read the same
  sections.
-/

namespace XChainSdk

open Js Cursor

/-! ### Readers do not look ahead -/

section Exact

variable {H : Host}

theorem exact_readToken (test : String → Bool) (err : String) : Exact (readToken test err) :=
  (Exact.take 1 err).bind fun _ => Exact.check _

theorem readSignatures_done {count : JsNum} {missing : ℕ → String} {k : ℕ}
    (h : (JsNum.fin k).lt count = false) (xs : List String) :
    readSignatures H count missing k xs = .ok ([], xs) := by
  unfold readSignatures
  simp [h]

theorem readSignatures_cons {count : JsNum} {missing : ℕ → String} {k : ℕ}
    (h : (JsNum.fin k).lt count = true) {pubkey sig : String} (hne : ¬ (pubkey = "" ∨ sig = ""))
    (rest : List String) : readSignatures H count missing k (pubkey :: sig :: rest) =
      (readSignatures H count missing (k + 1) rest).map fun out =>
        (⟨H.toLowerCase pubkey, H.toLowerCase sig⟩ :: out.1, out.2) := by
  rw [readSignatures]
  simp only [h, Bool.not_true, Bool.false_eq_true, if_false, if_neg hne]
  cases readSignatures H count missing (k + 1) rest with
  | error e => rfl
  | ok out => rfl

theorem exact_readSignatures (count : JsNum) (missing : ℕ → String) (k : ℕ) :
    Exact (readSignatures H count missing k) := by
  intro xs a rest h
  induction k, xs using readSignatures.induct count generalizing a with
  | case1 k xs hdone =>
    have hdone' : (JsNum.fin k).lt count = false := by simpa using hdone
    rw [readSignatures_done hdone'] at h
    cases h
    exact ⟨[], rfl, readSignatures_done hdone'⟩
  | case2 k hmore pubkey sig xs hempty =>
    unfold readSignatures at h
    simp [hmore, hempty] at h
  | case3 k hmore pubkey sig xs hempty ih =>
    have hmore' : (JsNum.fin k).lt count = true := by simpa using hmore
    rw [readSignatures_cons hmore' hempty] at h
    cases hrest : readSignatures H count missing (k + 1) xs with
    | error e =>
      rw [hrest] at h
      cases h
    | ok out =>
      rw [hrest] at h
      cases h
      obtain ⟨w, rfl, hw⟩ := ih _ hrest
      refine ⟨pubkey :: sig :: w, rfl, fun ys => ?_⟩
      rw [List.cons_append, List.cons_append, readSignatures_cons hmore' hempty, hw ys]
      rfl
  | case4 k xs hmore hshort =>
    unfold readSignatures at h
    rcases xs with _ | ⟨pubkey, _ | ⟨sig, xs⟩⟩
    · simp [hmore] at h
    · simp [hmore] at h
    · exact absurd rfl (hshort pubkey sig xs)

theorem exact_readAnchorHeader (version : ℕ) (refused : String → String) :
    Exact (readAnchorHeader version refused) := by
  intro parts a rest h
  unfold readAnchorHeader at h
  dsimp only at h
  by_cases hversion : parts.headD "undefined" ≠ natText version
  · rw [if_pos hversion] at h
    cases h
  · rw [if_neg hversion] at h
    split at h
    · next version' network snapshotBlock sectionCount rest' =>
      split_ifs at h with hcount
      cases h
      refine ⟨[version', network, snapshotBlock, sectionCount], rfl, fun ys => ?_⟩
      exact (if_neg hversion).trans (if_neg hcount)
    · cases h

theorem exact_parseAnchorV3Section (network : String) (k : ℕ) :
    Exact (parseAnchorV3Section H network k) :=
  (Exact.take _ _).bind fun _ => (Exact.check _).bind fun _ =>
    (exact_readSignatures _ _ _).bind fun _ => Exact.pure _

theorem exact_readAnchorV3Tail : Exact (readAnchorV3Tail H) :=
  (Exact.take _ _).bind fun _ => (Exact.check _).bind fun _ =>
    (exact_readSignatures _ _ _).bind fun _ => Exact.pure _

theorem exact_readAnchorArchive (n : ℕ) : Exact (readAnchorArchive H n) :=
  (exact_readToken _ _).bind fun _ => (Exact.check _).bind fun _ =>
    (Exact.take _ _).bind fun _ => Exact.pure _

theorem exact_readFold (token : String) (n : ℕ) : Exact (readFold H token n) :=
  Exact.ite ((exact_readAnchorArchive n).bind fun _ => Exact.pure _) (Exact.pure _)

theorem exact_readAnchorV3Body (orderGate : GateTable) (blockIndex : Js) :
    Exact (readAnchorV3Body H orderGate blockIndex) := by
  refine (exact_readAnchorHeader _ _).bind fun header => ?_
  refine (Exact.times (fun k => exact_parseAnchorV3Section _ k) _ _).bind fun sections => ?_
  refine (Exact.check _).bind fun _ => (exact_readToken _ _).bind fun token => ?_
  exact (exact_readFold _ _).bind fun archive => Exact.pure _

/-- The parser is an exact reader that must end at the last segment. -/
theorem parseAnchorV3Parts_eq (orderGate : GateTable) (blockIndex : Js) :
    parseAnchorV3Parts H orderGate blockIndex = (do
      let bundle ← (do
        let bundle ← readAnchorV3Body H orderGate blockIndex
        let tail ← readAnchorV3Tail H
        return bundle tail)
      atEnd "LightClient: trailing ANCHOR v3 fields"
      return bundle) := by
  simp only [parseAnchorV3Parts, parseAnchorV3Tail, bind_assoc, pure_bind]

end Exact

/-! ### Writing a bundle -/

/-- The fields of a signature on the wire. -/
def AnchorSignature.tokens (s : AnchorSignature) : List String := [s.pubkey, s.sig]

/-- The fields of a section on the wire. -/
def AnchorSection.tokens (s : AnchorSection) : List String :=
  [s.chain, numberToString s.blockIndex, s.blockHash, s.ledgerHash, s.actionsHash, s.contractHash,
    numberToString s.checkpointSeq, numberToString s.snapshotBlock, s.stateRoot,
    numberToString s.stateRootVersion, s.blockMerkleRoot, numberToString s.blockMerkleVersion,
    natText s.validatorSignatures.length] ++ s.validatorSignatures.flatMap AnchorSignature.tokens

/-- The fields of an archive on the wire. -/
def AnchorArchive.tokens (a : AnchorArchive) : List String :=
  [natText a.wrapperSectionIndex] ++ [numberToString a.matchBatchSeq, numberToString a.matchCount,
    a.batchCrc32, numberToString a.totalChunks, a.archiveB64]

/-- The header, the sections and what stands between them and the tail. -/
def AnchorBundle.tokens (b : AnchorBundle) (fold : List String) : List String :=
  [natText b.version, b.network, numberToString b.snapshotBlock, natText b.sections.length] ++
    (b.sections.flatMap AnchorSection.tokens ++ (fold ++
      ([b.publisher.getD "", natText b.publisherAttestations.length] ++
        b.publisherAttestations.flatMap AnchorSignature.tokens)))

/-- The count and the archive of a fold bundle on the wire. -/
def FoldBundle.foldTokens (b : FoldBundle) : List String :=
  match b.archive with
  | none => ["0"]
  | some a => "1" :: a.tokens

section Written

variable (H : Host)

/-- Lower-case hex. -/
def AnchorSignature.normalized (s : AnchorSignature) : AnchorSignature :=
  ⟨H.toLowerCase s.pubkey, H.toLowerCase s.sig⟩

def FoldArchive.normalized (a : FoldArchive) : FoldArchive :=
  { a with batchCrc32 := H.toLowerCase a.batchCrc32 }

/-- Lower-case hex and an upper-case chain. -/
def AnchorSection.normalized (s : AnchorSection) : AnchorSection :=
  { s with
    chain := H.toUpperCase s.chain
    blockHash := H.toLowerCase s.blockHash
    ledgerHash := H.toLowerCase s.ledgerHash
    actionsHash := H.toLowerCase s.actionsHash
    contractHash := H.toLowerCase s.contractHash
    stateRoot := H.toLowerCase s.stateRoot
    blockMerkleRoot := H.toLowerCase s.blockMerkleRoot
    validatorSignatures := s.validatorSignatures.map (AnchorSignature.normalized H)
    foldArchive := s.foldArchive.map (FoldArchive.normalized H) }

def AnchorArchive.normalized (a : AnchorArchive) : AnchorArchive :=
  { a with batchCrc32 := H.toLowerCase a.batchCrc32 }

def AnchorBundle.normalized (b : AnchorBundle) : AnchorBundle :=
  { b with
    sections := b.sections.map (AnchorSection.normalized H)
    publisher := b.publisher.map H.toLowerCase
    publisherAttestations := b.publisherAttestations.map (AnchorSignature.normalized H) }

def FoldBundle.normalized (b : FoldBundle) : FoldBundle :=
  { b.toAnchorBundle.normalized H with
    archiveCount := b.archiveCount
    archive := b.archive.map (AnchorArchive.normalized H) }

end Written

/-- `Number(String(x))` is `x`. -/
def NumberReadsBack (x : JsNum) : Prop := stringToNumber (numberToString x) = x

/-- Every natural number up to `2 ^ 53` reads back. -/
theorem numberReadsBack_natCast {n : ℕ} (h : n ≤ 2 ^ 53) : NumberReadsBack (.fin n) := by
  rw [NumberReadsBack, numberToString_natCast h]
  exact (stringToNumber_natText n).trans (toDouble_natCast h)

/-- A list of signatures that can be written: no empty field, and a length that is a number. -/
structure WrittenSignatures (signatures : List AnchorSignature) : Prop where
  nonempty : ∀ s ∈ signatures, s.pubkey ≠ "" ∧ s.sig ≠ ""
  length_le : signatures.length ≤ 2 ^ 53

/-- A section that can be written: it takes the network of the header, and has a signature. -/
structure AnchorSection.Written (network : String) (s : AnchorSection) : Prop where
  network_eq : s.network = network
  blockIndex : NumberReadsBack s.blockIndex
  checkpointSeq : NumberReadsBack s.checkpointSeq
  snapshotBlock : NumberReadsBack s.snapshotBlock
  stateRootVersion : NumberReadsBack s.stateRootVersion
  blockMerkleVersion : NumberReadsBack s.blockMerkleVersion
  signed : s.validatorSignatures ≠ []
  signatures : WrittenSignatures s.validatorSignatures

/-- A bundle that can be written: it has a section. -/
structure AnchorBundle.Written (b : AnchorBundle) : Prop where
  snapshotBlock : NumberReadsBack b.snapshotBlock
  sectionCount : b.sectionCount = .fin b.sections.length
  sections_ne_nil : b.sections ≠ []
  length_le : b.sections.length ≤ 2 ^ 53
  sections : ∀ s ∈ b.sections, s.Written b.network
  publisher : b.publisher ≠ some ""
  attestations : WrittenSignatures b.publisherAttestations

/-- A section without a fold. -/
def AnchorSection.unfolded (s : AnchorSection) : AnchorSection := { s with foldArchive := none }

/-- An archive that can be written. -/
structure AnchorArchive.Written (sections : ℕ) (a : AnchorArchive) : Prop where
  wrapper_lt : a.wrapperSectionIndex < sections
  matchBatchSeq : NumberReadsBack a.matchBatchSeq
  matchCount : NumberReadsBack a.matchCount
  totalChunks : NumberReadsBack a.totalChunks

/-- A fold bundle that can be written: its wrapper section, and no other, has the fold. -/
structure FoldBundle.Written (b : FoldBundle) : Prop extends b.toAnchorBundle.Written where
  version : b.version = ANCHOR_FOLD_VERSION
  archiveCount : b.archiveCount = .fin (if b.archive.isSome then 1 else 0)
  archive : ∀ a ∈ b.archive, a.Written b.sections.length
  folded : b.sections = attachFold b.archive (b.sections.map AnchorSection.unfolded)

section RoundTrip

variable {H : Host}

/-- Pairs are read up to their count. -/
theorem reads_readSignatures {missing : ℕ → String} {signatures : List AnchorSignature} {n k : ℕ}
    (h : ∀ s ∈ signatures, s.pubkey ≠ "" ∧ s.sig ≠ "") (hn : k + signatures.length = n) :
    Reads (readSignatures H (.fin n) missing k) (signatures.flatMap AnchorSignature.tokens)
      (signatures.map (AnchorSignature.normalized H)) := by
  intro ys
  induction signatures generalizing k with
  | nil =>
    refine readSignatures_done ?_ ys
    have hk : k = n := by simpa using hn
    simp [JsNum.lt, hk]
  | cons s signatures ih =>
    obtain ⟨hpubkey, hsig⟩ := h s (List.mem_cons_self ..)
    have hlt : (JsNum.fin k).lt (.fin n) = true := by
      have hkn : k < n := by
        rw [← hn, List.length_cons]
        omega
      simpa [JsNum.lt] using hkn
    rw [List.flatMap_cons, AnchorSignature.tokens, List.append_assoc, List.cons_append,
      List.cons_append, List.nil_append, readSignatures_cons hlt (by simp [hpubkey, hsig]),
      ih (fun t ht => h t (List.mem_cons_of_mem _ ht)) (by rw [← hn, List.length_cons]; omega)]
    rfl

theorem reads_parseAnchorV3Section {network : String} {s : AnchorSection} (h : s.Written network)
    (k : ℕ) : Reads (parseAnchorV3Section H network k) s.tokens
      { s.normalized H with foldArchive := none } := by
  obtain ⟨rfl, hblock, hseq, hsnapshot, hstate, hmerkle, hsigned, hsigs⟩ := h
  have hcount : parseIntText (natText s.validatorSignatures.length) =
      .fin s.validatorSignatures.length := by
    rw [parseIntText_natText, toDouble_natCast hsigs.length_le]
  rw [parseAnchorV3Section, AnchorSection.tokens]
  refine Reads.bind (Reads.take ?_) (Reads.bind_check (a := ()) ?_ ?_)
  · rfl
  · have hge : (JsNum.fin s.validatorSignatures.length).lt (.fin 1) = false := by
      simp [JsNum.lt, hsigned]
    simp only [List.getD_cons_succ, List.getD_cons_zero, hcount, hge]
    rfl
  · simp only [List.getD_cons_succ, List.getD_cons_zero, hcount]
    have hread := @reads_readSignatures H (fun i =>
      "LightClient: missing ANCHOR sig at section " ++ natText k ++ " index " ++ natText i)
      _ _ _ hsigs.nonempty (Nat.zero_add _)
    have hsection := hread.bind_pure (g := fun signatures => ({
      chain := H.toUpperCase s.chain, network := s.network
      blockIndex := stringToNumber (numberToString s.blockIndex)
      blockHash := H.toLowerCase s.blockHash, ledgerHash := H.toLowerCase s.ledgerHash
      actionsHash := H.toLowerCase s.actionsHash, contractHash := H.toLowerCase s.contractHash
      checkpointSeq := stringToNumber (numberToString s.checkpointSeq)
      snapshotBlock := stringToNumber (numberToString s.snapshotBlock)
      stateRoot := H.toLowerCase s.stateRoot
      stateRootVersion := stringToNumber (numberToString s.stateRootVersion)
      blockMerkleRoot := H.toLowerCase s.blockMerkleRoot
      blockMerkleVersion := stringToNumber (numberToString s.blockMerkleVersion)
      validatorSignatures := signatures } : AnchorSection))
    rw [hblock, hseq, hsnapshot, hstate, hmerkle] at hsection ⊢
    exact hsection

theorem reads_readAnchorHeader {version n : ℕ} {refused : String → String} {network : String}
    {snapshotBlock : JsNum} (hsnapshot : NumberReadsBack snapshotBlock) (hpos : 0 < n)
    (hn : n ≤ 2 ^ 53) : Reads (readAnchorHeader version refused)
      [natText version, network, numberToString snapshotBlock, natText n]
      (network, snapshotBlock, .fin n) := by
  intro ys
  have hcount : parseIntText (natText n) = .fin n := by
    rw [parseIntText_natText, toDouble_natCast hn]
  have hge : (JsNum.fin n).lt (.fin 1) = false := by simp [JsNum.lt, hpos.ne']
  have hfinite : (JsNum.fin n).isFinite = true := rfl
  have hread : stringToNumber (numberToString snapshotBlock) = snapshotBlock := hsnapshot
  simp only [readAnchorHeader, List.cons_append, List.nil_append, List.headD_cons, ne_eq,
    not_true_eq_false, if_false, hcount, hge, hfinite, hread, Bool.not_true, Bool.or_self,
    Bool.false_eq_true]

theorem reads_readToken {test : String → Bool} {t err : String} (h : test t = true) :
    Reads (readToken test err) [t] t := by
  refine Reads.bind (w := [t]) (v := []) (Reads.take ?_) (Reads.check ?_)
  · rfl
  · rw [List.getD_cons_zero, if_pos h]

theorem isDigitsToken_natText (n : ℕ) : isDigitsToken (natText n) = true := by
  have hdig := allDigits_toDigits n
  have hne : Nat.toDigits 10 n ≠ [] := Nat.toDigits_ne_nil
  rw [isDigitsToken, natText, String.toList_ofList, Bool.and_eq_true, List.all_eq_true]
  exact ⟨by simp [hne], hdig⟩

theorem reads_readAnchorArchive {n : ℕ} {a : AnchorArchive} (h : a.Written n) (hn : n ≤ 2 ^ 53) :
    Reads (readAnchorArchive H n) a.tokens (a.normalized H) := by
  obtain ⟨hlt, hseq, hcount, hchunks⟩ := h
  have hwrapper : stringToNumber (natText a.wrapperSectionIndex) = .fin a.wrapperSectionIndex := by
    rw [stringToNumber_natText, toDouble_natCast (by omega)]
  have hneg : (JsNum.fin a.wrapperSectionIndex).lt (.fin 0) = false := by simp [JsNum.lt]
  have hin : (JsNum.fin a.wrapperSectionIndex).lt (.fin n) = true := by simpa [JsNum.lt] using hlt
  have hsteps : arrayIndex (.fin a.wrapperSectionIndex) = a.wrapperSectionIndex := by
    simp [arrayIndex]
  rw [readAnchorArchive, AnchorArchive.tokens]
  refine Reads.bind (reads_readToken (isDigitsToken_natText _)) ?_
  dsimp only
  rw [hwrapper, hneg, hin, hsteps]
  refine Reads.bind_check (a := ()) rfl ?_
  have hparts : Reads (take 5 "LightClient: invalid: ARCHIVE_COUNT") [numberToString a.matchBatchSeq,
      numberToString a.matchCount, a.batchCrc32, numberToString a.totalChunks, a.archiveB64]
      [numberToString a.matchBatchSeq, numberToString a.matchCount, a.batchCrc32,
        numberToString a.totalChunks, a.archiveB64] := Reads.take rfl
  have harchive := hparts.bind_pure (g := fun parts => AnchorArchive.mk
    ⟨stringToNumber (parts.getD 0 ""), stringToNumber (parts.getD 1 ""),
      H.toLowerCase (parts.getD 2 ""), stringToNumber (parts.getD 3 "")⟩
    a.wrapperSectionIndex (parts.getD 4 ""))
  simp only [List.getD_cons_succ, List.getD_cons_zero] at harchive
  rw [hseq, hcount, hchunks] at harchive
  exact harchive

theorem lowerOrNull_getD {publisher : Option String} (h : publisher ≠ some "") :
    lowerOrNull H (publisher.getD "") = publisher.map H.toLowerCase := by
  cases publisher with
  | none =>
    have hempty : H.toLowerCase "" = "" := H.toLowerCase_ascii "" (by decide)
    rw [lowerOrNull, Option.getD_none, if_pos hempty, Option.map_none]
  | some p =>
    have hne : H.toLowerCase p ≠ "" := by
      intro hlower
      -- only the empty text has an empty lower case
      have hascii := H.isAscii_of_toLowerCase p (by rw [hlower]; decide) (by rw [hlower]; decide)
      rw [H.toLowerCase_ascii p hascii] at hlower
      have hchars : p.toList.map Char.toLower = [] := String.ofList_injective hlower
      exact h (congrArg some (String.toList_inj.1 (List.map_eq_nil_iff.1 hchars)))
    rw [lowerOrNull, Option.getD_some, if_neg hne, Option.map_some]

theorem reads_readAnchorV3Tail {publisher : Option String} {attestations : List AnchorSignature}
    (hpublisher : publisher ≠ some "") (h : WrittenSignatures attestations) :
    Reads (readAnchorV3Tail H)
      ([publisher.getD "", natText attestations.length] ++ attestations.flatMap AnchorSignature.tokens)
      (publisher.map H.toLowerCase, attestations.map (AnchorSignature.normalized H)) := by
  have hcount : stringToNumber (natText attestations.length) = .fin attestations.length := by
    rw [stringToNumber_natText, toDouble_natCast h.length_le]
  rw [readAnchorV3Tail]
  refine Reads.bind (Reads.take ?_) (Reads.bind_check (a := ()) ?_ ?_)
  · rfl
  · simp only [List.getD_cons_succ, List.getD_cons_zero, isDigitsToken_natText, if_true]
  · simp only [List.getD_cons_succ, List.getD_cons_zero, hcount, lowerOrNull_getD hpublisher]
    exact (reads_readSignatures h.nonempty (Nat.zero_add _)).bind_pure
      (g := fun signatures => (publisher.map H.toLowerCase, signatures))

/-- A section as it is read, before the fold is attached. -/
def AnchorSection.asRead (H : Host) (s : AnchorSection) : AnchorSection :=
  { s.normalized H with foldArchive := none }

theorem map_asRead (sections : List AnchorSection) : sections.map (AnchorSection.asRead H) =
    (sections.map (AnchorSection.normalized H)).map AnchorSection.unfolded := by
  rw [List.map_map]
  rfl

theorem attachFold_asRead (archive : Option AnchorArchive) (sections : List AnchorSection) :
    attachFold (archive.map (AnchorArchive.normalized H)) (sections.map (AnchorSection.asRead H)) =
      (attachFold archive (sections.map AnchorSection.unfolded)).map (AnchorSection.normalized H) := by
  cases archive with
  | none => simp [attachFold, AnchorSection.asRead, AnchorSection.unfolded, AnchorSection.normalized]
  | some a =>
    refine List.ext_getElem? fun i => ?_
    simp only [attachFold, Option.map_some, List.getElem?_modify, List.getElem?_map,
      AnchorArchive.normalized]
    cases sections[i]? with
    | none => rfl
    | some s =>
      by_cases hi : a.wrapperSectionIndex = i
      · simp [hi, AnchorSection.asRead, AnchorSection.unfolded, AnchorSection.normalized,
          FoldArchive.normalized]
      · simp [hi, AnchorSection.asRead, AnchorSection.unfolded, AnchorSection.normalized]

theorem reads_sections {network : String} {sections : List AnchorSection}
    (h : ∀ s ∈ sections, s.Written network) :
    Reads (times (parseAnchorV3Section H network) sections.length 0)
      (sections.flatMap AnchorSection.tokens) (sections.map (AnchorSection.asRead H)) :=
  Reads.times 0 fun s hs k => reads_parseAnchorV3Section (h s hs) k

theorem reads_fold {b : FoldBundle} (h : b.Written) {test : String → Bool} {err : String}
    (hzero : test "0" = true) (hone : test "1" = true) :
    Reads (do
      let token ← readToken test err
      let archive ← readFold H token b.sections.length
      return (token, archive)) b.foldTokens
      (if b.archive.isSome then "1" else "0", b.archive.map (AnchorArchive.normalized H)) := by
  rw [FoldBundle.foldTokens]
  cases harchive : b.archive with
  | none => exact Reads.bind (w := ["0"]) (v := []) (reads_readToken hzero) (Reads.pure _)
  | some a =>
    refine Reads.bind (w := ["1"]) (v := a.tokens) (reads_readToken hone) ?_
    have hread := reads_readAnchorArchive (H := H) (h.archive a harchive) h.length_le
    exact (hread.bind_pure (g := some)).bind_pure (g := fun archive => ("1", archive))

variable {orderGate : GateTable} {blockIndex : Js}

theorem length_sections_pos {b : AnchorBundle} (h : b.Written) : 0 < b.sections.length :=
  List.length_pos_iff.2 h.sections_ne_nil

/-- A fold bundle is read as it was written. -/
theorem reads_foldBundle {b : FoldBundle} (h : b.Written)
    (horder : enforceAnchorBundleOrder orderGate b.network blockIndex
      (b.sections.map (AnchorSection.asRead H)) = .ok ()) :
    Reads (do
      let bundle ← readAnchorV3Body H orderGate blockIndex
      let tail ← readAnchorV3Tail H
      return bundle tail) (b.toAnchorBundle.tokens b.foldTokens) (b.normalized H) := by
  have hsteps : loopSteps (.fin b.sections.length) = b.sections.length := by simp [loopSteps]
  have hfold := attachFold_asRead (H := H) b.archive b.sections
  rw [← h.folded] at hfold
  have hcount : stringToNumber (if b.archive.isSome then "1" else "0") = b.archiveCount := by
    rw [h.archiveCount]
    cases b.archive with
    | none => exact (stringToNumber_natText 0).trans (toDouble_natCast (by omega))
    | some a => exact (stringToNumber_natText 1).trans (toDouble_natCast (by omega))
  simp only [readAnchorV3Body, bind_assoc, pure_bind]
  rw [AnchorBundle.tokens, h.version]
  refine Reads.bind (reads_readAnchorHeader h.snapshotBlock (length_sections_pos h.toWritten)
    h.length_le) ?_
  dsimp only
  rw [hsteps]
  refine Reads.bind (reads_sections h.sections) ?_
  refine Reads.bind_check horder ?_
  rw [List.length_map]
  have hrest := (@reads_fold H b h (fun t => t == "0" || t == "1")
    "LightClient: invalid: ARCHIVE_COUNT" rfl rfl).bind
    (f := fun p => do
      let tail ← readAnchorV3Tail H
      return (FoldBundle.mk ⟨ANCHOR_FOLD_VERSION, b.network, b.snapshotBlock, .fin b.sections.length,
        attachFold p.2 (b.sections.map (AnchorSection.asRead H)), tail.1, tail.2⟩
        (stringToNumber p.1) p.2))
    ((reads_readAnchorV3Tail h.publisher h.attestations).bind_pure)
  simp only [bind_assoc, pure_bind, hfold, hcount] at hrest
  rw [← h.sectionCount] at hrest ⊢
  rw [← h.version] at hrest ⊢
  exact hrest

/-- The two section readers are one. -/
theorem parseAnchorV0Section_eq : parseAnchorV0Section H = parseAnchorV3Section H := rfl

theorem parseAnchorV0Tail_written {publisher : Option String} {attestations : List AnchorSignature}
    (hpublisher : publisher ≠ some "") (h : WrittenSignatures attestations) : ∃ rest,
    parseAnchorV0Tail H ([publisher.getD "", natText attestations.length] ++
      attestations.flatMap AnchorSignature.tokens) = .ok ((publisher.map H.toLowerCase,
        attestations.map (AnchorSignature.normalized H)), rest) := by
  have hcount : parseIntText (natText attestations.length) = .fin attestations.length := by
    rw [parseIntText_natText, toDouble_natCast h.length_le]
  simp only [parseAnchorV0Tail, List.cons_append, List.nil_append, List.getD_cons_zero,
    lowerOrNull_getD hpublisher, List.drop_succ_cons, List.drop_zero, hcount]
  by_cases hnil : attestations = []
  · subst hnil
    exact ⟨_, rfl⟩
  · have hlt : (JsNum.fin 0).lt (.fin attestations.length) = true := by
      simp [JsNum.lt, List.length_pos_iff, hnil]
    have hread := @reads_readSignatures H (fun k =>
      "LightClient: missing ANCHOR attestation at index " ++ natText k) _ _ _ h.nonempty
      (Nat.zero_add _) []
    rw [List.append_nil] at hread
    refine ⟨[], ?_⟩
    rw [hlt, hread]
    rfl

/-- A bundle without a fold is read as it was written. -/
theorem parseAnchorV0Parts_written {b : AnchorBundle} (h : b.Written)
    (hversion : b.version = ANCHOR_BUNDLE_VERSION) (hfold : ∀ s ∈ b.sections, s.foldArchive = none)
    (horder : enforceAnchorBundleOrder orderGate b.network blockIndex
      (b.sections.map (AnchorSection.asRead H)) = .ok ()) : ∃ rest,
    parseAnchorV0Parts H orderGate blockIndex (b.tokens []) = .ok (b.normalized H, rest) := by
  have hsteps : loopSteps (.fin b.sections.length) = b.sections.length := by simp [loopSteps]
  have hsections : b.sections.map (AnchorSection.asRead H) =
      b.sections.map (AnchorSection.normalized H) := by
    refine List.map_congr_left fun s hs => ?_
    rw [AnchorSection.asRead]
    simp [AnchorSection.normalized, hfold s hs]
  obtain ⟨rest, htail⟩ := parseAnchorV0Tail_written (H := H) h.publisher h.attestations
  refine ⟨rest, ?_⟩
  rw [parseAnchorV0Parts, AnchorBundle.tokens, hversion, List.nil_append]
  refine bind_eq_ok.2 ⟨_, _, reads_readAnchorHeader h.snapshotBlock (length_sections_pos h)
    h.length_le _, ?_⟩
  dsimp only
  rw [hsteps, parseAnchorV0Section_eq]
  refine bind_eq_ok.2 ⟨_, _, reads_sections h.sections _, ?_⟩
  refine bind_eq_ok.2 ⟨(), _, Reads.check horder _, ?_⟩
  refine bind_eq_ok.2 ⟨_, _, htail, ?_⟩
  rw [hsections, ← h.sectionCount, ← hversion]
  rfl

end RoundTrip

/-! ### Wires -/

theorem wireParts_join {t : String} {ts : List String} (hfree : Tokens.Free '|' (t :: ts)) :
    wireParts (Tokens.join '|' (t :: ts)) = if asciiLower t = "anchor" then ts else t :: ts := by
  rw [wireParts, Tokens.splitOn_join (List.cons_ne_nil _ _) hfree, List.map_map]
  have hid : (String.ofList ∘ String.toList) = id := funext fun s => String.ofList_toList
  rw [hid, List.map_id]

/-! ### What an accepted wire says -/

section Accepted

variable {H : Host} {orderGate : GateTable} {blockIndex : Js}

theorem unfolded_of_parseAnchorV3Section {network : String} {k : ℕ} {parts rest : List String}
    {s : AnchorSection} (h : parseAnchorV3Section H network k parts = .ok (s, rest)) :
    s.unfolded = s := by
  obtain ⟨p, mid, -, h⟩ := bind_eq_ok.1 h
  obtain ⟨u, mid', -, h⟩ := bind_eq_ok.1 h
  obtain ⟨signatures, mid'', -, h⟩ := bind_eq_ok.1 h
  cases h
  rfl

theorem arrayIndex_lt {x : JsNum} {n : ℕ} (hneg : x.lt (.fin 0) = false)
    (hlt : x.lt (.fin n) = true) : arrayIndex x < n := by
  cases x with
  | nan => cases hlt
  | inf negative =>
    cases negative with
    | true => cases hneg
    | false => cases hlt
  | fin q =>
    have hq : q < n := of_decide_eq_true hlt
    have hfloor : ⌊q⌋ < n := Int.floor_lt.2 (by exact_mod_cast hq)
    have hn : 0 ≤ q := not_lt.1 (of_decide_eq_false hneg)
    have hpos : 0 < n := by exact_mod_cast lt_of_le_of_lt hn hq
    rw [arrayIndex]
    omega

theorem wrapper_lt_of_readFold {token : String} {n : ℕ} {parts rest : List String}
    {archive : Option AnchorArchive} (h : readFold H token n parts = .ok (archive, rest)) :
    ∀ a ∈ archive, a.wrapperSectionIndex < n := by
  intro a ha
  rw [readFold] at h
  split_ifs at h
  · obtain ⟨a', m1, hread, h⟩ := bind_eq_ok.1 h
    cases h
    cases ha
    obtain ⟨wrapper, m2, -, hread⟩ := bind_eq_ok.1 hread
    obtain ⟨u, m3, hcheck, hread⟩ := bind_eq_ok.1 hread
    obtain ⟨p, m4, -, hread⟩ := bind_eq_ok.1 hread
    cases hread
    have hok := (Checks.ite_error_eq_ok.1 (check_eq_ok.1 hcheck).1).1
    simp only [Bool.or_eq_true, Bool.not_eq_true', not_or, Bool.not_eq_true, Bool.not_eq_false] at hok
    exact arrayIndex_lt hok.1 hok.2
  · cases h
    cases ha

/-- The sections of an accepted fold bundle are read as such, and the fold is attached to them. -/
theorem sections_of_parseAnchorV3Parts {parts rest : List String} {r : FoldBundle}
    (h : parseAnchorV3Parts H orderGate blockIndex parts = .ok (r, rest)) :
    ∃ refused mid mid' sections, readAnchorHeader ANCHOR_FOLD_VERSION refused parts =
        .ok ((r.network, r.snapshotBlock, r.sectionCount), mid) ∧
      times (parseAnchorV3Section H r.network) (loopSteps r.sectionCount) 0 mid =
        .ok (sections, mid') ∧
      r.sections = attachFold r.archive sections ∧
      ∀ a ∈ r.archive, a.wrapperSectionIndex < sections.length := by
  obtain ⟨bundle, m0, hbody, h⟩ := bind_eq_ok.1 h
  obtain ⟨tail, m1, -, h⟩ := bind_eq_ok.1 h
  cases h
  obtain ⟨⟨network, snapshotBlock, sectionCount⟩, m2, hheader, hbody⟩ := bind_eq_ok.1 hbody
  obtain ⟨sections, m3, hsections, hbody⟩ := bind_eq_ok.1 hbody
  obtain ⟨u, m4, -, hbody⟩ := bind_eq_ok.1 hbody
  obtain ⟨token, m5, -, hbody⟩ := bind_eq_ok.1 hbody
  obtain ⟨archive, m6, hfold, hbody⟩ := bind_eq_ok.1 hbody
  cases hbody
  exact ⟨_, _, _, sections, hheader, hsections, rfl, wrapper_lt_of_readFold hfold⟩

theorem sections_of_parseAnchorV0Parts {parts rest : List String} {r : AnchorBundle}
    (h : parseAnchorV0Parts H orderGate blockIndex parts = .ok (r, rest)) :
    ∃ refused mid mid', readAnchorHeader ANCHOR_BUNDLE_VERSION refused parts =
        .ok ((r.network, r.snapshotBlock, r.sectionCount), mid) ∧
      times (parseAnchorV0Section H r.network) (loopSteps r.sectionCount) 0 mid =
        .ok (r.sections, mid') := by
  obtain ⟨⟨network, snapshotBlock, sectionCount⟩, m0, hheader, h⟩ := bind_eq_ok.1 h
  obtain ⟨sections, m1, hsections, h⟩ := bind_eq_ok.1 h
  obtain ⟨u, m2, -, h⟩ := bind_eq_ok.1 h
  obtain ⟨tail, m3, -, h⟩ := bind_eq_ok.1 h
  cases h
  exact ⟨_, _, _, hheader, hsections⟩

/-- The fields of a header are those after its version. -/
theorem readAnchorHeader_congr {version version' : ℕ} {refused refused' : String → String}
    {parts : List String} {out out' : (String × JsNum × JsNum) × List String}
    (h : readAnchorHeader version refused (natText version :: parts) = .ok out)
    (h' : readAnchorHeader version' refused' (natText version' :: parts) = .ok out') : out = out' := by
  rcases parts with _ | ⟨network, _ | ⟨snapshotBlock, _ | ⟨sectionCount, rest⟩⟩⟩
  · simp [readAnchorHeader] at h
  · simp [readAnchorHeader] at h
  · simp [readAnchorHeader] at h
  · simp only [readAnchorHeader, List.headD_cons, ne_eq, not_true_eq_false, if_false] at h h'
    split_ifs at h h'
    cases h
    cases h'
    rfl

/-- Both versions read the same sections from the same segments. -/
theorem sections_eq_of_parts {parts rest rest' : List String} {r : AnchorBundle} {r' : FoldBundle}
    {blockIndex' : Js}
    (h : parseAnchorV0Parts H orderGate blockIndex (natText ANCHOR_BUNDLE_VERSION :: parts) =
      .ok (r, rest))
    (h' : parseAnchorV3Parts H orderGate blockIndex' (natText ANCHOR_FOLD_VERSION :: parts) =
      .ok (r', rest')) :
    r'.network = r.network ∧ r'.snapshotBlock = r.snapshotBlock ∧ r'.sectionCount = r.sectionCount ∧
      r'.sections = attachFold r'.archive r.sections := by
  obtain ⟨refused, mid, mid', hheader, hsections⟩ := sections_of_parseAnchorV0Parts h
  obtain ⟨refused', m1, m2, sections, hheader', hsections', hfold, -⟩ :=
    sections_of_parseAnchorV3Parts h'
  have hsame := readAnchorHeader_congr hheader hheader'
  simp only [Prod.mk.injEq] at hsame
  obtain ⟨⟨hnetwork, hsnapshot, hcount⟩, rfl⟩ := hsame
  rw [parseAnchorV0Section_eq, hnetwork, hcount, hsections'] at hsections
  cases hsections
  exact ⟨hnetwork.symm, hsnapshot.symm, hcount.symm, hfold⟩

/-- The fold is on the wrapper section and on no other. -/
theorem foldArchive_of_parseAnchorV3Parts {parts rest : List String} {r : FoldBundle}
    (h : parseAnchorV3Parts H orderGate blockIndex parts = .ok (r, rest)) :
    (∀ a ∈ r.archive, a.wrapperSectionIndex < r.sections.length) ∧
      ∀ i s, r.sections[i]? = some s → s.foldArchive =
        (r.archive.filter fun a => a.wrapperSectionIndex = i).map AnchorArchive.toFoldArchive := by
  obtain ⟨-, mid, mid', sections, -, hsections, hfold, hwrapper⟩ := sections_of_parseAnchorV3Parts h
  have hplain : ∀ s ∈ sections, s.unfolded = s :=
    forall_of_times (fun k xs s rest hs => unfolded_of_parseAnchorV3Section hs) hsections
  rw [hfold]
  cases harchive : r.archive with
  | none =>
    refine ⟨fun a ha => absurd ha (Option.not_mem_none a), fun i s hs => ?_⟩
    rw [← hplain s (List.mem_of_getElem? hs)]
    rfl
  | some a =>
    rw [attachFold]
    refine ⟨fun b hb => ?_, fun i s hs => ?_⟩
    · rw [List.length_modify]
      exact hwrapper b (harchive ▸ hb)
    · rw [List.getElem?_modify] at hs
      obtain ⟨t, ht, rfl⟩ := Option.map_eq_some_iff.1 hs
      have hnone : t.foldArchive = none := by
        rw [← hplain t (List.mem_of_getElem? ht)]
        rfl
      by_cases hi : a.wrapperSectionIndex = i
      · simp [hi]
      · simp [hi, hnone]

/-- A wire that an accepted one cuts short or continues is refused. -/
theorem error_of_prefix {parts parts' rest : List String} {r : FoldBundle}
    (h : parseAnchorV3Parts H orderGate blockIndex parts = .ok (r, rest)) (hne : parts' ≠ parts)
    (hpre : parts' <+: parts ∨ parts <+: parts') :
    ∃ e, parseAnchorV3Parts H orderGate blockIndex parts' = .error e := by
  cases h' : parseAnchorV3Parts H orderGate blockIndex parts' with
  | error e => exact ⟨e, rfl⟩
  | ok out =>
    rw [parseAnchorV3Parts_eq] at h h'
    have hexact : Exact (do
        let bundle ← readAnchorV3Body H orderGate blockIndex
        let tail ← readAnchorV3Tail H
        return bundle tail) :=
      (exact_readAnchorV3Body _ _).bind fun _ => exact_readAnchorV3Tail.bind fun _ => Exact.pure _
    rcases hpre with hpre | hpre
    · exact absurd (eq_of_atEnd hexact h' h hpre) hne
    · exact absurd (eq_of_atEnd hexact h h' hpre).symm hne

end Accepted

/-! ### Parsing is exact -/

/-- The texts of a wire, after an optional `ANCHOR` in any case. -/
def IsWire (wire : String) (ts : List String) : Prop :=
  ∃ lead, (lead = [] ∨ ∃ w, lead = [w] ∧ asciiLower w = "anchor") ∧
    Tokens.Free '|' (lead ++ ts) ∧ wire = Tokens.join '|' (lead ++ ts)

theorem wireParts_of_isWire {wire t : String} {ts : List String} (h : IsWire wire (t :: ts))
    (ht : asciiLower t ≠ "anchor") : wireParts wire = t :: ts := by
  obtain ⟨lead, hlead, hfree, rfl⟩ := h
  rcases hlead with rfl | ⟨w, rfl, hw⟩
  · rw [List.nil_append] at hfree ⊢
    rw [wireParts_join hfree, if_neg ht]
  · rw [List.cons_append, List.nil_append] at hfree ⊢
    rw [wireParts_join hfree, if_pos hw]

section Order

variable {orderGate : GateTable} {network : String} {blockIndex : Js}

theorem descends_map {α β : Type} (f : α → β) (key : β → String) (xs : List α) :
    descends key (xs.map f) = descends (key ∘ f) xs := by
  induction xs using descends.induct with
  | case1 x y rest ih =>
    rw [List.map_cons, List.map_cons, descends, descends, ← List.map_cons, ih]
    rfl
  | case2 xs h =>
    rcases xs with _ | ⟨x, _ | ⟨y, rest⟩⟩
    · rfl
    · rfl
    · exact absurd rfl (h x y rest)

/-- The order of a bundle does not depend on its fold. -/
theorem enforceAnchorBundleOrder_unfolded (sections : List AnchorSection) :
    enforceAnchorBundleOrder orderGate network blockIndex
      (sections.map AnchorSection.unfolded) =
    enforceAnchorBundleOrder orderGate network blockIndex sections := by
  simp only [enforceAnchorBundleOrder, descends_map, List.findIdx?_map]
  rfl

end Order

section Exactness

variable (H : Host) (orderGate : GateTable)

/-- What the two parsers do with the wires of bundles, and with the wires that they accept. -/
structure AnchorParsing : Prop where
  parse_v3 : ∀ (b : FoldBundle) (blockIndex : Js) (wire : String), b.Written →
    IsWire wire (b.toAnchorBundle.tokens b.foldTokens) →
    enforceAnchorBundleOrder orderGate b.network blockIndex (b.normalized H).sections = .ok () →
      parseAnchorV3 H orderGate blockIndex wire = .ok (b.normalized H)
  parse_v0 : ∀ (b : AnchorBundle) (blockIndex : Js) (wire : String), b.Written →
    b.version = ANCHOR_BUNDLE_VERSION → (∀ s ∈ b.sections, s.foldArchive = none) →
    IsWire wire (b.tokens []) →
    enforceAnchorBundleOrder orderGate b.network blockIndex (b.normalized H).sections = .ok () →
      parseAnchorV0 H orderGate blockIndex wire = .ok (b.normalized H)
  whole : ∀ (blockIndex : Js) (wire wire' : String) (r : FoldBundle),
    parseAnchorV3 H orderGate blockIndex wire = .ok r → wireParts wire' ≠ wireParts wire →
    (wireParts wire' <+: wireParts wire ∨ wireParts wire <+: wireParts wire') →
      ∃ e, parseAnchorV3 H orderGate blockIndex wire' = .error e
  fold : ∀ (blockIndex : Js) (wire : String) (r : FoldBundle),
    parseAnchorV3 H orderGate blockIndex wire = .ok r →
      (∀ a ∈ r.archive, a.wrapperSectionIndex < r.sections.length) ∧
      ∀ i s, r.sections[i]? = some s → s.foldArchive =
        (r.archive.filter fun a => a.wrapperSectionIndex = i).map AnchorArchive.toFoldArchive
  agree : ∀ (blockIndex blockIndex' : Js) (wire wire' : String) (parts : List String)
    (r : AnchorBundle) (r' : FoldBundle), wireParts wire = natText ANCHOR_BUNDLE_VERSION :: parts →
    wireParts wire' = natText ANCHOR_FOLD_VERSION :: parts →
    parseAnchorV0 H orderGate blockIndex wire = .ok r →
    parseAnchorV3 H orderGate blockIndex' wire' = .ok r' →
      r'.network = r.network ∧ r'.snapshotBlock = r.snapshotBlock ∧
      r'.sectionCount = r.sectionCount ∧ r'.sections = attachFold r'.archive r.sections

variable {H orderGate}

theorem map_fst_eq_ok {α β : Type} {x : Except String (α × β)} {a : α}
    (h : x.map Prod.fst = .ok a) : ∃ b, x = .ok (a, b) := by
  cases x with
  | error e => cases h
  | ok out =>
    cases h
    exact ⟨out.2, rfl⟩

theorem anchorParsing_exact (H : Host) (orderGate : GateTable) : AnchorParsing H orderGate where
  parse_v3 := by
    intro b blockIndex wire h hwire horder
    have hparts : wireParts wire = b.toAnchorBundle.tokens b.foldTokens := by
      rw [AnchorBundle.tokens] at hwire ⊢
      exact wireParts_of_isWire hwire (by rw [h.version]; decide)
    have horder' : enforceAnchorBundleOrder orderGate b.network blockIndex
        (b.sections.map (AnchorSection.asRead H)) = .ok () := by
      rw [← horder, ← enforceAnchorBundleOrder_unfolded (b.normalized H).sections]
      exact congrArg _ (map_asRead b.sections)
    have hread := reads_foldBundle h horder' []
    rw [List.append_nil] at hread
    rw [parseAnchorV3, hparts, parseAnchorV3Parts_eq, bind_atEnd_eq_ok.2 ⟨hread, rfl⟩]
    rfl
  parse_v0 := by
    intro b blockIndex wire h hversion hfold hwire horder
    have hparts : wireParts wire = b.tokens [] := by
      rw [AnchorBundle.tokens] at hwire ⊢
      exact wireParts_of_isWire hwire (by rw [hversion]; decide)
    have horder' : enforceAnchorBundleOrder orderGate b.network blockIndex
        (b.sections.map (AnchorSection.asRead H)) = .ok () := by
      rw [← horder, ← enforceAnchorBundleOrder_unfolded (b.normalized H).sections]
      exact congrArg _ (map_asRead b.sections)
    obtain ⟨rest, hread⟩ := parseAnchorV0Parts_written h hversion hfold horder'
    rw [parseAnchorV0, hparts, hread]
    rfl
  whole := by
    intro blockIndex wire wire' r h hne hpre
    obtain ⟨rest, h⟩ := map_fst_eq_ok h
    obtain ⟨e, he⟩ := error_of_prefix h hne hpre
    exact ⟨e, by rw [parseAnchorV3, he]; rfl⟩
  fold := by
    intro blockIndex wire r h
    obtain ⟨rest, h⟩ := map_fst_eq_ok h
    exact foldArchive_of_parseAnchorV3Parts h
  agree := by
    intro blockIndex blockIndex' wire wire' parts r r' hparts hparts' h h'
    obtain ⟨rest, h⟩ := map_fst_eq_ok h
    obtain ⟨rest', h'⟩ := map_fst_eq_ok h'
    rw [hparts] at h
    rw [hparts'] at h'
    exact sections_eq_of_parts h h'

end Exactness

/-- A section of a network without signatures. -/
def unsignedSection : AnchorSection where
  chain := "BTC"
  network := "regtest"
  blockIndex := .fin 7
  blockHash := "aa"
  ledgerHash := "aa"
  actionsHash := "aa"
  contractHash := "aa"
  checkpointSeq := .fin 1
  snapshotBlock := .fin 7
  stateRoot := "aa"
  stateRootVersion := .fin 1
  blockMerkleRoot := "aa"
  blockMerkleVersion := .fin 1
  validatorSignatures := []

/-- A bundle of one section with the given signatures, and one attestation. -/
def sampleBundle (signatures : List AnchorSignature) : FoldBundle where
  version := ANCHOR_FOLD_VERSION
  network := "regtest"
  snapshotBlock := .fin 7
  sectionCount := .fin 1
  sections := [{ unsignedSection with validatorSignatures := signatures }]
  publisher := none
  publisherAttestations := [⟨"ab", "cd"⟩]
  archiveCount := .fin 0
  archive := none

/-- The wire of a bundle. -/
def FoldBundle.wire (b : FoldBundle) : String :=
  Tokens.join '|' (b.toAnchorBundle.tokens b.foldTokens)

/-- A section without signatures is refused, and a wire that is cut inside its last segment is
accepted. -/
theorem anchorParsing_unsigned :
    parseAnchorV3 plainHost [] .undefined (sampleBundle []).wire =
        .error "LightClient: bad ANCHOR SIG_COUNT in section 0" ∧
      parseAnchorV3 plainHost [] .undefined (sampleBundle [⟨"ab", "cd"⟩]).wire =
        .ok (sampleBundle [⟨"ab", "cd"⟩]) ∧
      (parseAnchorV3 plainHost [] .undefined
        (String.ofList (sampleBundle [⟨"ab", "cd"⟩]).wire.toList.dropLast)).toOption.isSome := by
  decide +kernel

end XChainSdk
