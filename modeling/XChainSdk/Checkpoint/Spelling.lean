import XChainSdk.Checkpoint.Canonical
import XChainSdk.Js.RawJs

/-!
# The string of a checkpoint

`canonicalCheckpoint` gives the text of the canonical string, which is what is signed.  The string
itself is a sequence of code units, and half of a surrogate pair in a field has the text of U+FFFD.

* `lowerUnits` : `toLowerCase` on code units.
* `checkpointUnits`, `canonicalUnits` : the tokens of the string, and the string.
* `text_canonicalUnits` : its text is the one of `canonicalCheckpoint`.
* `isWellFormed_canonicalUnits` : no half of a pair stands alone in the string of well-formed fields.
-/

namespace XChainSdk

open Js

variable (H : Host)

/-! ### Lower case -/

/-- `toLowerCase` of a run without lone surrogates. -/
def lowerRun (run : CodeUnits) : CodeUnits := .ofText (H.toLowerCase run.text)

/-- The rest of a string in lower case, after the current run. -/
def lowerFrom (run : CodeUnits) : CodeUnits → CodeUnits
  | u :: v :: rest =>
    if IsPair u v then lowerFrom (run ++ [u, v]) rest
    -- half of a pair is no letter, and it ends the run
    else if IsSurrogate u then lowerRun H run ++ u :: lowerFrom [] (v :: rest)
    else lowerFrom (run ++ [u]) (v :: rest)
  | [u] => if IsSurrogate u then lowerRun H run ++ [u] else lowerRun H (run ++ [u])
  | [] => lowerRun H run

/-- `toLowerCase` of a string. -/
def lowerUnits (s : CodeUnits) : CodeUnits := lowerFrom H [] s

/-! ### Tokens -/

variable (cp : RawJs)

/-- The tokens of the equivocation header. -/
def headerUnits : List CodeUnits :=
  if isEquivHeaderActive (cp.field "snapshot_block").text (cp.field "network").text then
    [.ofText "EQUIV", .ofText "XCHECKPOINT", (cp.field "chain").units, (cp.field "network").units,
      (cp.field "block_index").units, (cp.field "checkpoint_seq").units] ++
    ((if appendsFold cp.text then [((cp.field "fold_archive").field "match_batch_seq").units]
      else []) ++ [.ofText "0", .ofText ""])
  else []

/-- The ten tokens that every checkpoint has. -/
def baseUnits : List CodeUnits :=
  [.ofText "XCHECKPOINT", (cp.field "chain").elemUnits, (cp.field "network").elemUnits,
    (cp.field "block_index").units, (cp.field "block_hash").elemUnits,
    (cp.field "ledger_hash").elemUnits, (cp.field "actions_hash").elemUnits,
    (cp.field "contract_hash").elemUnits, (cp.field "checkpoint_seq").units,
    (cp.field "snapshot_block").units]

/-- The tokens of the committed roots. -/
def rootUnits : List CodeUnits :=
  if appendsRoots cp.text then
    [lowerUnits H (cp.field "state_root").units, (cp.field "state_root_version").units,
      lowerUnits H (cp.field "block_merkle_root").units, (cp.field "block_merkle_version").units]
  else []

/-- The tokens of the supersession suffix. -/
def supersedeUnits : List CodeUnits :=
  if appendsSupersession cp.text then
    [.ofText "SUPERSEDE", .ofText (numberToString (cp.field "supersedes_from").text.toNumber),
      lowerUnits H (cp.field "rules_digest").units]
  else []

/-- The tokens of the folded archive. -/
def foldUnits : List CodeUnits :=
  let fold := cp.field "fold_archive"
  if appendsFold cp.text then
    [(fold.field "match_batch_seq").units, (fold.field "match_count").units,
      lowerUnits H (fold.field "batch_crc32").units, (fold.field "total_chunks").units]
  else []

/-- All tokens of a canonical string. -/
def checkpointUnits : List CodeUnits :=
  headerUnits cp ++ (baseUnits cp ++ rootUnits H cp ++ supersedeUnits H cp ++ foldUnits H cp)

/-- The canonical string of a checkpoint; `none` is a thrown error. -/
def canonicalUnits : Option CodeUnits :=
  (canonicalCheckpoint H cp.text).map fun _ => .join 0x7C (checkpointUnits H cp)

/-! ### Well-formed fields -/

/-- The signed fields of a checkpoint. -/
def signedFields : List String :=
  ["chain", "network", "block_index", "block_hash", "ledger_hash", "actions_hash",
    "contract_hash", "checkpoint_seq", "snapshot_block", "state_root", "state_root_version",
    "block_merkle_root", "block_merkle_version"]

/-- The signed fields of a folded archive. -/
def foldFields : List String := ["match_batch_seq", "match_count", "batch_crc32", "total_chunks"]

/-- No half of a surrogate pair stands alone in a signed field. -/
structure WellFormedFields (cp : RawJs) : Prop where
  signed : ∀ k ∈ signedFields, (cp.field k).units.isWellFormed = true
  fold : ∀ k ∈ foldFields, ((cp.field "fold_archive").field k).units.isWellFormed = true

variable {H} {cp}

theorem lowerFrom_of_isWellFormed {s : CodeUnits} (h : s.isWellFormed = true) (run : CodeUnits) :
    lowerFrom H run s = lowerRun H (run ++ s) := by
  induction s using CodeUnits.chars.induct generalizing run with
  | case1 u v rest hpair ih =>
    rw [CodeUnits.isWellFormed, if_pos hpair] at h
    rw [lowerFrom, if_pos hpair, ih h, List.append_assoc]
    rfl
  | case2 u v rest hpair ih =>
    rw [CodeUnits.isWellFormed, if_neg hpair, Bool.and_eq_true, Bool.not_eq_true',
      decide_eq_false_iff_not] at h
    rw [lowerFrom, if_neg hpair, if_neg h.1, ih h.2, List.append_assoc]
    rfl
  | case3 u =>
    rw [CodeUnits.isWellFormed, Bool.not_eq_true', decide_eq_false_iff_not] at h
    rw [lowerFrom, if_neg h]
  | case4 => rw [lowerFrom, List.append_nil]

theorem lowerUnits_of_isWellFormed {s : CodeUnits} (h : s.isWellFormed = true) :
    lowerUnits H s = .ofText (H.toLowerCase s.text) :=
  lowerFrom_of_isWellFormed h []

/-- Lower case brings no pipe. -/
theorem pipe_notMem_lowerUnits {s : CodeUnits} (h : 0x7C ∉ s) : 0x7C ∉ lowerUnits H s := by
  have hrun : ∀ run : CodeUnits, 0x7C ∉ run → 0x7C ∉ lowerRun H run := by
    intro run hr hmem
    rw [lowerRun, CodeUnits.mem_ofText (by decide)] at hmem
    exact hr ((CodeUnits.mem_text (by decide) run).1
      (H.mem_of_mem_toLowerCase _ _ hmem (by decide) (by decide)))
  have hfrom : ∀ (s run : CodeUnits), 0x7C ∉ run → 0x7C ∉ s → 0x7C ∉ lowerFrom H run s := by
    intro s
    induction s using CodeUnits.chars.induct with
    | case1 u v rest hpair ih =>
      intro run hr hs
      simp only [List.mem_cons, not_or] at hs
      rw [lowerFrom, if_pos hpair]
      exact ih _ (by simp [hr, hs.1, hs.2.1]) hs.2.2
    | case2 u v rest hpair ih =>
      intro run hr hs
      rw [List.mem_cons, not_or] at hs
      rw [lowerFrom, if_neg hpair]
      split_ifs
      · simp only [List.mem_append, List.mem_cons, not_or]
        exact ⟨hrun run hr, hs.1, ih [] List.not_mem_nil hs.2⟩
      · exact ih _ (by simp [hr, hs.1]) hs.2
    | case3 u =>
      intro run hr hs
      rw [List.mem_singleton] at hs
      rw [lowerFrom]
      split_ifs
      · simp [hrun run hr, hs]
      · exact hrun _ (by simp [hr, hs])
    | case4 =>
      intro run hr _
      exact hrun run hr
  exact hfrom s [] List.not_mem_nil h

theorem isWellFormed_elemUnits {x : RawJs} (h : x.units.isWellFormed = true) :
    x.elemUnits.isWellFormed = true := by
  rw [RawJs.elemUnits]
  split_ifs
  · rfl
  · exact h

theorem isWellFormed_lowerUnits {s : CodeUnits} (h : s.isWellFormed = true) :
    (lowerUnits H s).isWellFormed = true := by
  rw [lowerUnits_of_isWellFormed h, CodeUnits.isWellFormed_ofText]

/-- A digest that is signed has only hexadecimal digits. -/
theorem isWellFormed_rules_digest {s : String} (h : canonicalCheckpoint H cp.text = some s)
    (ha : appendsSupersession cp.text = true) :
    (cp.field "rules_digest").units.isWellFormed = true := by
  obtain ⟨n, hn, -⟩ := canonicalCheckpoint_eq_join h
  obtain ⟨-, ⟨d, hd, hhex⟩, -⟩ := hn ha
  rw [← RawJs.text_field] at hd
  have htext : (cp.field "rules_digest").units.text = d := by
    rw [RawJs.text_units, hd, toText_str]
  have hplain : '\uFFFD' ∉ d.toList := by
    intro hmem
    simp only [isHexText, Bool.and_eq_true, List.all_eq_true] at hhex
    exact absurd (hhex.2 _ hmem) (by decide)
  rw [CodeUnits.eq_ofText_of_text htext hplain, CodeUnits.isWellFormed_ofText]

theorem isWellFormed_checkpointUnits {s : String} (h : canonicalCheckpoint H cp.text = some s)
    (hwell : WellFormedFields cp) : ∀ u ∈ checkpointUnits H cp, u.isWellFormed = true := by
  have hf := hwell.signed
  have hfold := hwell.fold
  simp only [signedFields, foldFields, List.mem_cons, List.not_mem_nil, or_false, forall_eq_or_imp,
    forall_eq] at hf hfold
  -- One group of the signed fields after another.
  have hsup : ∀ u ∈ supersedeUnits H cp, u.isWellFormed = true := by
    intro u hu
    rw [supersedeUnits] at hu
    split_ifs at hu with ha
    · simp only [List.mem_cons, List.not_mem_nil, or_false] at hu
      rcases hu with rfl | rfl | rfl
      · exact CodeUnits.isWellFormed_ofText _
      · exact CodeUnits.isWellFormed_ofText _
      · exact isWellFormed_lowerUnits (isWellFormed_rules_digest h ha)
    · cases hu
  have hhead : ∀ u ∈ headerUnits cp, u.isWellFormed = true := by
    intro u hu
    rw [headerUnits] at hu
    split_ifs at hu <;>
      simp only [List.mem_append, List.mem_cons, List.not_mem_nil, or_false, false_or] at hu
    · rcases hu with (rfl | rfl | rfl | rfl | rfl | rfl) | rfl | rfl | rfl <;>
        simp only [hf, hfold, CodeUnits.isWellFormed_ofText]
    · rcases hu with (rfl | rfl | rfl | rfl | rfl | rfl) | rfl | rfl <;>
        simp only [hf, CodeUnits.isWellFormed_ofText]
  have hbase : ∀ u ∈ baseUnits cp, u.isWellFormed = true := by
    intro u hu
    simp only [baseUnits, List.mem_cons, List.not_mem_nil, or_false] at hu
    rcases hu with rfl | rfl | rfl | rfl | rfl | rfl | rfl | rfl | rfl | rfl <;>
      first
      | exact CodeUnits.isWellFormed_ofText _
      | exact isWellFormed_elemUnits (by simp only [hf])
      | simp only [hf]
  have hroots : ∀ u ∈ rootUnits H cp, u.isWellFormed = true := by
    intro u hu
    rw [rootUnits] at hu
    split_ifs at hu
    · simp only [List.mem_cons, List.not_mem_nil, or_false] at hu
      rcases hu with rfl | rfl | rfl | rfl <;>
        first
        | exact isWellFormed_lowerUnits (by simp only [hf])
        | simp only [hf]
    · cases hu
  have hfoldUnits : ∀ u ∈ foldUnits H cp, u.isWellFormed = true := by
    intro u hu
    simp only [foldUnits] at hu
    split_ifs at hu
    · simp only [List.mem_cons, List.not_mem_nil, or_false] at hu
      rcases hu with rfl | rfl | rfl | rfl <;>
        first
        | exact isWellFormed_lowerUnits (by simp only [hfold])
        | simp only [hfold]
    · cases hu
  simp only [checkpointUnits, List.mem_append]
  rintro u (hu | (((hu | hu) | hu) | hu))
  · exact hhead u hu
  · exact hbase u hu
  · exact hroots u hu
  · exact hsup u hu
  · exact hfoldUnits u hu

theorem text_lowerUnits {s : CodeUnits} (h : s.isWellFormed = true) :
    (lowerUnits H s).text = H.toLowerCase s.text := by
  rw [lowerUnits_of_isWellFormed h, CodeUnits.text_ofText]

/-- The texts of the tokens are the tokens of the text. -/
theorem map_text_checkpointUnits {n : ℕ} (hwell : WellFormedFields cp)
    (hn : appendsSupersession cp.text = true →
      (cp.field "supersedes_from").text.toNumber = .fin n ∧
        (cp.field "rules_digest").units.isWellFormed = true) :
    (checkpointUnits H cp).map CodeUnits.text = checkpointTokens H cp.text n := by
  have hroot := text_lowerUnits (H := H) (hwell.signed "state_root" (by decide))
  have hmerkle := text_lowerUnits (H := H) (hwell.signed "block_merkle_root" (by decide))
  have hcrc := text_lowerUnits (H := H) (hwell.fold "batch_crc32" (by decide))
  have hhead : (headerUnits cp).map CodeUnits.text = headerTokens cp.text := by
    rw [headerUnits, headerTokens, ← RawJs.text_field, ← RawJs.text_field]
    split_ifs <;> simp [RawJs.text_units, RawJs.text_field]
  have hbase : (baseUnits cp).map CodeUnits.text = baseTokens cp.text := by
    simp [baseUnits, baseTokens, RawJs.text_units, RawJs.text_elemUnits, RawJs.text_field]
  have hroots : (rootUnits H cp).map CodeUnits.text = rootTokens H cp.text := by
    rw [rootUnits, rootTokens]
    split_ifs <;> simp [hroot, hmerkle, RawJs.text_units, RawJs.text_field]
  have hsup : (supersedeUnits H cp).map CodeUnits.text = supersedeTokens H cp.text n := by
    rw [supersedeUnits, supersedeTokens]
    split_ifs with ha
    · obtain ⟨hnum, hdigest⟩ := hn ha
      rw [hnum]
      simp [text_lowerUnits hdigest, RawJs.text_units, RawJs.text_field]
    · rfl
  have hfold : (foldUnits H cp).map CodeUnits.text = foldTokens H cp.text := by
    simp only [foldUnits, foldTokens]
    split_ifs <;> simp [hcrc, RawJs.text_units, RawJs.text_field]
  simp only [checkpointUnits, checkpointTokens, List.map_append, hhead, hbase, hroots, hsup, hfold]

/-- **The text of the string is what is signed.** -/
theorem text_canonicalUnits (hwell : WellFormedFields cp) :
    (canonicalUnits H cp).map CodeUnits.text = canonicalCheckpoint H cp.text := by
  cases h : canonicalCheckpoint H cp.text with
  | none => rw [canonicalUnits, h, Option.map_none, Option.map_none]
  | some s =>
    obtain ⟨n, hn, rfl⟩ := canonicalCheckpoint_eq_join h
    have htokens := map_text_checkpointUnits (H := H) (n := n) hwell fun ha =>
      ⟨by rw [RawJs.text_field, (hn ha).2.2], isWellFormed_rules_digest h ha⟩
    rw [canonicalUnits, h, Option.map_some, Option.map_some,
      CodeUnits.text_join (by decide), htokens]
    rfl

/-- **The string of well-formed fields is well formed.** -/
theorem isWellFormed_canonicalUnits {s : CodeUnits} (hwell : WellFormedFields cp)
    (h : canonicalUnits H cp = some s) : s.isWellFormed = true := by
  obtain ⟨t, ht, rfl⟩ := Option.map_eq_some_iff.1 h
  exact CodeUnits.isWellFormed_join (by decide) (isWellFormed_checkpointUnits ht hwell)

end XChainSdk
