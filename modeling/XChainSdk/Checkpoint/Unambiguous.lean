import Mathlib
import XChainSdk.Checkpoint.Spelling
import XChainSdk.Checkpoint.Verify

/-!
# Canonical bytes are unambiguous

* `PipeFree` : a field whose string has no `|`; only strings and arrays can have one.
* `SameSigned` : two checkpoints agree on every signed field and on the suffixes.
* `shape_of_length` : the number of tokens tells which suffixes and which header are present.
* `canonicalCheckpoint_unambiguous` : equal strings make two checkpoints `SameSigned`, and so does one
  signature that counts for both when no half of a surrogate pair stands alone in their fields.
* `canonicalCheckpoint_ambiguous` : with such a half, one signature counts for two checkpoints.
-/

namespace XChainSdk

open Hash Js

/-- A field whose string has no pipe. -/
def PipeFree : RawJs → Prop
  | .str s => 0x7C ∉ s
  | .arr xs => 0x7C ∉ (RawJs.arr xs).units
  | _ => True

instance : DecidablePred PipeFree := fun x => by
  cases x <;> unfold PipeFree <;> infer_instance

/-- No string field of the checkpoint has a pipe. -/
structure PipeFreeFields (cp : RawJs) : Prop where
  signed : ∀ k ∈ signedFields, PipeFree (cp.field k)
  fold : ∀ k ∈ foldFields, PipeFree ((cp.field "fold_archive").field k)

/-- The checkpoints agree on every signed field, as strings, and on the suffixes that are present. -/
structure SameSigned (H : Host) (cp cp' : RawJs) : Prop where
  chain : (cp.field "chain").elemUnits = (cp'.field "chain").elemUnits
  network : (cp.field "network").elemUnits = (cp'.field "network").elemUnits
  block_index : (cp.field "block_index").units = (cp'.field "block_index").units
  block_hash : (cp.field "block_hash").elemUnits = (cp'.field "block_hash").elemUnits
  ledger_hash : (cp.field "ledger_hash").elemUnits = (cp'.field "ledger_hash").elemUnits
  actions_hash : (cp.field "actions_hash").elemUnits = (cp'.field "actions_hash").elemUnits
  contract_hash : (cp.field "contract_hash").elemUnits = (cp'.field "contract_hash").elemUnits
  checkpoint_seq : (cp.field "checkpoint_seq").units = (cp'.field "checkpoint_seq").units
  snapshot_block : (cp.field "snapshot_block").units = (cp'.field "snapshot_block").units
  roots : appendsRoots cp.text = appendsRoots cp'.text
  rootFields : appendsRoots cp.text = true →
    lowerUnits H (cp.field "state_root").units = lowerUnits H (cp'.field "state_root").units ∧
    (cp.field "state_root_version").units = (cp'.field "state_root_version").units ∧
    lowerUnits H (cp.field "block_merkle_root").units =
      lowerUnits H (cp'.field "block_merkle_root").units ∧
    (cp.field "block_merkle_version").units = (cp'.field "block_merkle_version").units
  supersession : appendsSupersession cp.text = appendsSupersession cp'.text
  supersessionFields : appendsSupersession cp.text = true →
    (cp.field "supersedes_from").text.toNumber = (cp'.field "supersedes_from").text.toNumber ∧
    lowerUnits H (cp.field "rules_digest").units = lowerUnits H (cp'.field "rules_digest").units
  fold : appendsFold cp.text = appendsFold cp'.text
  foldFields : appendsFold cp.text = true →
    ((cp.field "fold_archive").field "match_batch_seq").units =
      ((cp'.field "fold_archive").field "match_batch_seq").units ∧
    ((cp.field "fold_archive").field "match_count").units =
      ((cp'.field "fold_archive").field "match_count").units ∧
    lowerUnits H ((cp.field "fold_archive").field "batch_crc32").units =
      lowerUnits H ((cp'.field "fold_archive").field "batch_crc32").units ∧
    ((cp.field "fold_archive").field "total_chunks").units =
      ((cp'.field "fold_archive").field "total_chunks").units

/-- The signature verifies over one message at most. -/
def Host.SignsOnce (H : Host) (sigHex pubkeyHex : String) : Prop :=
  ∀ m m', H.ed25519 (hexDecode pubkeyHex) (hexDecode sigHex) m = true →
    H.ed25519 (hexDecode pubkeyHex) (hexDecode sigHex) m' = true → m = m'

variable {H : Host} {cp cp' : RawJs}

/-! ### Tokens without a pipe -/

theorem pipe_notMem_of_numeric {cs : List Char} (h : ∀ c ∈ cs, isNumericChar c = true) :
    '|' ∉ cs := fun hmem => by
  have := h _ hmem
  revert this; decide

example : '|' ∉ (numberToString (.fin 7)).toList := by decide

theorem pipe_notMem_ofText {s : String} (h : '|' ∉ s.toList) : 0x7C ∉ CodeUnits.ofText s :=
  fun hmem => h ((CodeUnits.mem_ofText (by decide) s).1 hmem)

theorem pipe_notMem_numberToString (x : JsNum) : '|' ∉ (numberToString x).toList :=
  pipe_notMem_of_numeric (isNumericChar_numberToString x)

theorem PipeFree.units {x : RawJs} (h : PipeFree x) : 0x7C ∉ x.units := by
  cases x with
  | undefined => exact pipe_notMem_ofText (by decide)
  | null => exact pipe_notMem_ofText (by decide)
  | bool b => cases b <;> exact pipe_notMem_ofText (by decide)
  | num x => exact pipe_notMem_ofText (pipe_notMem_numberToString x)
  | bigint z =>
    refine pipe_notMem_ofText ?_
    rw [Js.toText, String.toList_ofList]
    exact pipe_notMem_of_numeric fun _ => isNumericChar_intText
  | str s => exact h
  | arr xs => exact h
  | obj fs => exact pipe_notMem_ofText (by decide)

theorem PipeFree.elemUnits {x : RawJs} (h : PipeFree x) : 0x7C ∉ x.elemUnits := by
  rw [RawJs.elemUnits]
  split_ifs
  · exact List.not_mem_nil
  · exact h.units

theorem pipe_notMem_of_isHexText {n : ℕ} {s : String} (h : isHexText n s = true) :
    '|' ∉ s.toList := fun hmem => by
  simp only [isHexText, Bool.and_eq_true, List.all_eq_true] at h
  have := h.2 _ hmem
  revert this; decide

theorem free_headerUnits (h : PipeFreeFields cp) : ∀ u ∈ headerUnits cp, 0x7C ∉ u := by
  have hf := fun k hk => (h.signed k hk).units
  have hseq := (h.fold "match_batch_seq" (by decide)).units
  simp only [signedFields, List.mem_cons, List.not_mem_nil, or_false, forall_eq_or_imp,
    forall_eq] at hf
  intro u hu
  rw [headerUnits] at hu
  split_ifs at hu <;>
    simp only [List.mem_append, List.mem_cons, List.not_mem_nil, or_false, false_or] at hu
  · rcases hu with (rfl | rfl | rfl | rfl | rfl | rfl) | rfl | rfl | rfl <;>
      first | exact pipe_notMem_ofText (by decide) | simp only [hf, hseq, not_false_eq_true]
  · rcases hu with (rfl | rfl | rfl | rfl | rfl | rfl) | rfl | rfl <;>
      first | exact pipe_notMem_ofText (by decide) | simp only [hf, not_false_eq_true]

theorem free_baseUnits (h : PipeFreeFields cp) : ∀ u ∈ baseUnits cp, 0x7C ∉ u := by
  have hf := fun k hk => (h.signed k hk).units
  have he := fun k hk => (h.signed k hk).elemUnits
  simp only [signedFields, List.mem_cons, List.not_mem_nil, or_false, forall_eq_or_imp,
    forall_eq] at hf he
  intro u hu
  simp only [baseUnits, List.mem_cons, List.not_mem_nil, or_false] at hu
  rcases hu with rfl | rfl | rfl | rfl | rfl | rfl | rfl | rfl | rfl | rfl <;>
    first | exact pipe_notMem_ofText (by decide) | simp only [hf, he, not_false_eq_true]

theorem free_rootUnits (h : PipeFreeFields cp) : ∀ u ∈ rootUnits H cp, 0x7C ∉ u := by
  have hf := fun k hk => (h.signed k hk).units
  simp only [signedFields, List.mem_cons, List.not_mem_nil, or_false, forall_eq_or_imp,
    forall_eq] at hf
  intro u hu
  rw [rootUnits] at hu
  split_ifs at hu
  · simp only [List.mem_cons, List.not_mem_nil, or_false] at hu
    rcases hu with rfl | rfl | rfl | rfl <;>
      first
      | exact pipe_notMem_lowerUnits (by simp only [hf, not_false_eq_true])
      | simp only [hf, not_false_eq_true]
  · cases hu

theorem free_supersedeUnits {s : String} (h : canonicalCheckpoint H cp.text = some s) :
    ∀ u ∈ supersedeUnits H cp, 0x7C ∉ u := by
  intro u hu
  rw [supersedeUnits] at hu
  split_ifs at hu with ha
  · obtain ⟨n, hn, -⟩ := canonicalCheckpoint_eq_join h
    obtain ⟨-, ⟨d, hd, hhex⟩, -⟩ := hn ha
    rw [← RawJs.text_field] at hd
    have htext : (cp.field "rules_digest").units.text = d := by
      rw [RawJs.text_units, hd, toText_str]
    simp only [List.mem_cons, List.not_mem_nil, or_false] at hu
    rcases hu with rfl | rfl | rfl
    · exact pipe_notMem_ofText (by decide)
    · exact pipe_notMem_ofText (pipe_notMem_numberToString _)
    · refine pipe_notMem_lowerUnits fun hmem => pipe_notMem_of_isHexText hhex ?_
      rw [← htext]
      exact (CodeUnits.mem_text (by decide) _).2 hmem
  · cases hu

theorem free_foldUnits (h : PipeFreeFields cp) : ∀ u ∈ foldUnits H cp, 0x7C ∉ u := by
  have hf := fun k hk => (h.fold k hk).units
  simp only [foldFields, List.mem_cons, List.not_mem_nil, or_false, forall_eq_or_imp,
    forall_eq] at hf
  intro u hu
  simp only [foldUnits] at hu
  split_ifs at hu
  · simp only [List.mem_cons, List.not_mem_nil, or_false] at hu
    rcases hu with rfl | rfl | rfl | rfl <;>
      first
      | exact pipe_notMem_lowerUnits (by simp only [hf, not_false_eq_true])
      | simp only [hf, not_false_eq_true]
  · cases hu

theorem free_checkpointUnits (h : PipeFreeFields cp) {s : String}
    (hs : canonicalCheckpoint H cp.text = some s) : ∀ u ∈ checkpointUnits H cp, 0x7C ∉ u := by
  simp only [checkpointUnits, List.mem_append]
  rintro u (hu | (((hu | hu) | hu) | hu))
  · exact free_headerUnits h u hu
  · exact free_baseUnits h u hu
  · exact free_rootUnits h u hu
  · exact free_supersedeUnits hs u hu
  · exact free_foldUnits h u hu

/-! ### The shape of a canonical string -/

theorem length_headerUnits : (headerUnits cp).length =
    if isEquivHeaderActive (cp.field "snapshot_block").text (cp.field "network").text then
      if appendsFold cp.text then 9 else 8
    else 0 := by
  rw [headerUnits]
  split_ifs <;> rfl

theorem length_rootUnits : (rootUnits H cp).length = if appendsRoots cp.text then 4 else 0 := by
  rw [rootUnits]
  split_ifs <;> rfl

theorem length_supersedeUnits :
    (supersedeUnits H cp).length = if appendsSupersession cp.text then 3 else 0 := by
  rw [supersedeUnits]
  split_ifs <;> rfl

theorem length_foldUnits : (foldUnits H cp).length = if appendsFold cp.text then 4 else 0 := by
  simp only [foldUnits]
  split_ifs <;> rfl

/-- The number of tokens tells the header and the three suffixes apart: roots come with the
header, and a folded archive adds a token to the header as well. -/
theorem shape_of_length : ∀ e r s f e' r' s' f' : Bool, (r = true → e = true) →
    (r' = true → e' = true) →
    (if e then if f then 9 else 8 else 0) + (10 + (if r then 4 else 0) + (if s then 3 else 0) +
        (if f then 4 else 0)) =
      (if e' then if f' then 9 else 8 else 0) + (10 + (if r' then 4 else 0) +
        (if s' then 3 else 0) + (if f' then 4 else 0)) →
    e = e' ∧ r = r' ∧ s = s' ∧ f = f' := by
  decide

theorem headed_of_appendsRoots (h : appendsRoots cp.text = true) :
    isEquivHeaderActive (cp.field "snapshot_block").text (cp.field "network").text = true := by
  simp only [appendsRoots, Bool.and_eq_true] at h
  rw [RawJs.text_field, RawJs.text_field]
  exact equivHeaderActive_of_commitmentActive h.1.1.1.1

/-- The height that a superseding checkpoint is signed with. -/
theorem supersedes_from_of_canonicalCheckpoint {s : String}
    (h : canonicalCheckpoint H cp.text = some s) (ha : appendsSupersession cp.text = true) :
    ∃ n : ℕ, n < 2 ^ 53 ∧ (cp.field "supersedes_from").text.toNumber = .fin n := by
  obtain ⟨n, hn, -⟩ := canonicalCheckpoint_eq_join h
  exact ⟨n, (hn ha).1, by rw [RawJs.text_field, (hn ha).2.2]⟩

theorem sameSigned_of_units {s t : String} (hs : canonicalCheckpoint H cp.text = some s)
    (ht : canonicalCheckpoint H cp'.text = some t)
    (h : checkpointUnits H cp = checkpointUnits H cp') : SameSigned H cp cp' := by
  have hlen := congrArg List.length h
  simp only [checkpointUnits, List.length_append, length_headerUnits, length_rootUnits,
    length_supersedeUnits, length_foldUnits] at hlen
  obtain ⟨he, hr, hsup, hf⟩ := shape_of_length _ _ _ _ _ _ _ _ headed_of_appendsRoots
    headed_of_appendsRoots hlen
  -- blocks of equal length are equal
  obtain ⟨-, htail⟩ := List.append_inj h (by rw [length_headerUnits, length_headerUnits, he, hf])
  obtain ⟨htail, hfold⟩ := List.append_inj' htail (by rw [length_foldUnits, length_foldUnits, hf])
  obtain ⟨htail, hsupersede⟩ := List.append_inj' htail
    (by rw [length_supersedeUnits, length_supersedeUnits, hsup])
  obtain ⟨hbase, hroots⟩ := List.append_inj' htail
    (by rw [length_rootUnits, length_rootUnits, hr])
  simp only [baseUnits, List.cons.injEq, and_true, true_and] at hbase
  obtain ⟨hchain, hnet, hbi, hbh, hlh, hah, hch, hseq, hsb⟩ := hbase
  refine ⟨hchain, hnet, hbi, hbh, hlh, hah, hch, hseq, hsb, hr, fun ha => ?_, hsup, fun ha => ?_, hf,
    fun ha => ?_⟩
  · rw [rootUnits, rootUnits, ← hr, ha, if_pos rfl] at hroots
    simpa using hroots
  · have ha' : appendsSupersession cp'.text = true := hsup ▸ ha
    obtain ⟨n, hn, hfrom⟩ := supersedes_from_of_canonicalCheckpoint hs ha
    obtain ⟨n', hn', hfrom'⟩ := supersedes_from_of_canonicalCheckpoint ht ha'
    simp only [supersedeUnits, ha, ha', if_true, List.cons.injEq, and_true, true_and] at hsupersede
    obtain ⟨hnum, hdigest⟩ := hsupersede
    rw [hfrom, hfrom', CodeUnits.ofText_injective.eq_iff, numberToString_natCast hn.le,
      numberToString_natCast hn'.le, String.ofList_inj] at hnum
    exact ⟨by rw [hfrom, hfrom', toDigits_inj hnum], hdigest⟩
  · rw [foldUnits, foldUnits, ← hf, ha, if_pos rfl] at hfold
    simpa using hfold

/-- Equal strings of pipe-free checkpoints have equal tokens. -/
theorem sameSigned_of_canonicalUnits_eq (hp : PipeFreeFields cp) (hp' : PipeFreeFields cp')
    {s : CodeUnits} (h : canonicalUnits H cp = some s) (h' : canonicalUnits H cp' = some s) :
    SameSigned H cp cp' := by
  obtain ⟨t, ht, hs⟩ := Option.map_eq_some_iff.1 h
  obtain ⟨t', ht', hs'⟩ := Option.map_eq_some_iff.1 h'
  refine sameSigned_of_units ht ht' (CodeUnits.join_inj (by simp [checkpointUnits, baseUnits])
    (by simp [checkpointUnits, baseUnits]) (free_checkpointUnits hp ht)
    (free_checkpointUnits hp' ht') (hs.trans hs'.symm))

/-! ### Accepted checkpoints -/

/-- A checkpoint that is not structurally refused commits its roots where the commitment is
active, and its supersession wherever it has one. -/
theorem appendsRoots_of_accepted {cp : Js} (ht : cp.truthy = true) (hm : commitmentMissing cp = false) :
    appendsRoots cp = commitmentActive cp := by
  have hnull : ∀ x : Js, x.truthy = true → x.isNullish = false := fun x hx => by
    cases x <;> first | rfl | cases hx
  cases hact : isCheckpointCommitmentActive (cp.field "snapshot_block") (cp.field "network") with
  | false => simp [appendsRoots, commitmentActive, hact]
  | true =>
    simp only [commitmentMissing, ht, hact, Bool.true_and, Bool.or_eq_false_iff,
      Bool.not_eq_false'] at hm
    obtain ⟨⟨⟨h1, h2⟩, h3⟩, h4⟩ := hm
    simp [appendsRoots, commitmentActive, ht, hact, hnull _ h1, hnull _ h2, h3, h4]

theorem appendsSupersession_of_accepted {cp : Js} (hd : supersessionDisallowed cp = false) :
    appendsSupersession cp = hasSupersedeFields cp := by
  cases hs : hasSupersedeFields cp with
  | false => simp [appendsSupersession, hs]
  | true =>
    simp only [supersessionDisallowed, hs, Bool.true_and, Bool.not_eq_false'] at hd
    simp [appendsSupersession, hs, hd]

/-- **Unambiguous bytes.**  Of two checkpoints without pipes in their fields: equal canonical
strings carry the same signed fields and suffixes; so does one signature that counts for both, when no
half of a surrogate pair stands alone in a signed field; and a checkpoint that is not structurally
refused has in its bytes every suffix that it presents. -/
theorem canonicalCheckpoint_unambiguous (H : Host) (cp cp' : RawJs) (hp : PipeFreeFields cp)
    (hp' : PipeFreeFields cp') {s t : CodeUnits} (h : canonicalUnits H cp = some s)
    (h' : canonicalUnits H cp' = some t) :
    (s = t → SameSigned H cp cp') ∧
    (WellFormedFields cp → WellFormedFields cp' → ∀ sig pk, H.SignsOnce sig pk →
      verifySignature H s.text sig pk = true → verifySignature H t.text sig pk = true →
      SameSigned H cp cp') ∧
    (commitmentMissing cp'.text = false → supersessionDisallowed cp'.text = false →
      appendsRoots cp'.text = commitmentActive cp'.text ∧
        appendsSupersession cp'.text = hasSupersedeFields cp'.text) := by
  refine ⟨fun hs => sameSigned_of_canonicalUnits_eq hp hp' h (hs ▸ h'),
    fun hwell hwell' sig pk hone hv hv' => ?_, fun hm hd => ⟨appendsRoots_of_accepted ?_ hm,
      appendsSupersession_of_accepted hd⟩⟩
  · simp only [verifySignature, Bool.and_eq_true] at hv hv'
    have htext : s.text = t.text := utf8_injective (hone _ _ hv.2 hv'.2)
    -- strings of one text without lone halves are the same string
    have hs : s = t := CodeUnits.eq_of_text_eq (isWellFormed_canonicalUnits hwell h)
      (isWellFormed_canonicalUnits hwell' h') htext
    exact sameSigned_of_canonicalUnits_eq hp hp' h (hs ▸ h')
  · obtain ⟨r, hr, -⟩ := Option.map_eq_some_iff.1 h'
    cases ht : cp'.text.truthy with
    | true => rfl
    | false => simp [canonicalCheckpoint, ht] at hr

/-! ### Samples -/

/-- A checkpoint with every suffix, its root and digest given by one hexadecimal digit. -/
def fullCheckpoint (rootDigit digestDigit : Char) (blockHash : CodeUnits) : RawJs := .obj
  [("chain", .ofText "BTC"), ("network", .ofText "testnet"), ("block_index", .num (.fin 160000)),
    ("block_hash", .str blockHash), ("ledger_hash", .ofText "1e"), ("actions_hash", .ofText "ac"),
    ("contract_hash", .ofText "c0"), ("checkpoint_seq", .ofText "7"),
    ("snapshot_block", .num (.fin 160006)), ("state_root", .ofText (String.ofList [rootDigit])),
    ("state_root_version", .num (.fin 1)), ("block_merkle_root", .ofText "5"),
    ("block_merkle_version", .num (.fin 1)), ("supersedes_from", .ofText "159000"),
    ("rules_digest", .ofText (String.ofList (List.replicate 64 digestDigit))),
    ("fold_archive", .obj [("match_batch_seq", .num (.fin 3)), ("match_count", .num (.fin 2)),
      ("batch_crc32", .ofText "cafe"), ("total_chunks", .num (.fin 1))])]

/-- A host on which every signature is one of the message. -/
def signingHost (message : String) : Host :=
  asciiHost plainHost.sha256 fun _ _ m => m == utf8 message

theorem signsOnce_signingHost (message sig pk : String) : (signingHost message).SignsOnce sig pk :=
  fun _ _ hm hm' => (eq_of_beq hm).trans (eq_of_beq hm').symm

/-- The text of its canonical string. -/
def fullCanonical (blockHash : String) : String :=
  "EQUIV|XCHECKPOINT|BTC|testnet|160000|7|3|0||XCHECKPOINT|BTC|testnet|160000|" ++ blockHash ++
    "|1e|ac|c0|7|160006|a|1|5|1|SUPERSEDE|159000|" ++ String.ofList (List.replicate 64 'f') ++
    "|3|2|cafe|1"

/-- A signature and a pubkey of the right length. -/
def fullSignature : String := String.ofList (List.replicate 128 'a')

def fullPubkey : String := String.ofList (List.replicate 64 'c')

theorem verifySignature_fullCanonical {blockHash payload : String}
    (h : payload = fullCanonical blockHash) :
    verifySignature (signingHost (fullCanonical blockHash)) payload fullSignature fullPubkey =
      true := by
  have hne : fullCanonical blockHash ≠ "" := fun he =>
    absurd (String.append_eq_empty_iff.1 he).2 (by decide)
  have hhex : isHexText 64 fullPubkey = true ∧ isHexText 128 fullSignature = true := by
    decide +kernel
  have hsig : fullSignature ≠ "" ∧ fullPubkey ≠ "" := by decide +kernel
  simp [verifySignature, h, hne, hhex, hsig, signingHost, asciiHost]

theorem canonicalCheckpoint_unambiguous_fullCheckpoint :
    SameSigned (signingHost (fullCanonical "b0")) (fullCheckpoint 'a' 'F' (.ofText "b0"))
      (fullCheckpoint 'A' 'f' (.ofText "b0")) := by
  have hs : canonicalUnits (signingHost (fullCanonical "b0"))
      (fullCheckpoint 'a' 'F' (.ofText "b0")) = some (.ofText (fullCanonical "b0")) := by
    decide +kernel
  have ht : canonicalUnits (signingHost (fullCanonical "b0"))
      (fullCheckpoint 'A' 'f' (.ofText "b0")) = some (.ofText (fullCanonical "b0")) := by
    decide +kernel
  -- one signature is good for both
  have hgood := verifySignature_fullCanonical (CodeUnits.text_ofText (fullCanonical "b0"))
  exact (canonicalCheckpoint_unambiguous (signingHost (fullCanonical "b0"))
    (fullCheckpoint 'a' 'F' (.ofText "b0")) (fullCheckpoint 'A' 'f' (.ofText "b0"))
    ⟨by decide, by decide⟩ ⟨by decide, by decide⟩ hs ht).2.1
    ⟨by decide +kernel, by decide +kernel⟩ ⟨by decide +kernel, by decide +kernel⟩ fullSignature
    fullPubkey (signsOnce_signingHost _ _ _) hgood hgood

/-- **One signature counts for two checkpoints**, with half of a surrogate pair in the block hash of
one and U+FFFD in the other's. -/
theorem canonicalCheckpoint_ambiguous :
    ∃ (H : Host) (cp cp' : RawJs) (s t : CodeUnits), PipeFreeFields cp ∧ PipeFreeFields cp' ∧
      canonicalUnits H cp = some s ∧ canonicalUnits H cp' = some t ∧
      H.SignsOnce fullSignature fullPubkey ∧
      verifySignature H s.text fullSignature fullPubkey = true ∧
      verifySignature H t.text fullSignature fullPubkey = true ∧
      commitmentMissing cp.text = false ∧ supersessionDisallowed cp.text = false ∧
      commitmentMissing cp'.text = false ∧ supersessionDisallowed cp'.text = false ∧
      ¬ SameSigned H cp cp' := by
  let H := signingHost (fullCanonical "a\uFFFD")
  let cp := fullCheckpoint 'a' 'f' [0x61, 0xD800]
  let cp' := fullCheckpoint 'a' 'f' [0x61, 0xFFFD]
  have hs : (canonicalUnits H cp).map CodeUnits.text = some (fullCanonical "a\uFFFD") := by
    decide +kernel
  have ht : (canonicalUnits H cp').map CodeUnits.text = some (fullCanonical "a\uFFFD") := by
    decide +kernel
  obtain ⟨s, hs, hstext⟩ := Option.map_eq_some_iff.1 hs
  obtain ⟨t, ht, httext⟩ := Option.map_eq_some_iff.1 ht
  refine ⟨H, cp, cp', s, t, ⟨by decide, by decide⟩, ⟨by decide, by decide⟩, hs, ht,
    signsOnce_signingHost _ _ _, verifySignature_fullCanonical hstext,
    verifySignature_fullCanonical httext, by decide +kernel, by decide +kernel, by decide +kernel,
    by decide +kernel, fun h => ?_⟩
  exact absurd h.block_hash (by decide)

end XChainSdk
