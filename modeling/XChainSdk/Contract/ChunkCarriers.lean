import Mathlib.Data.List.GetD
import XChainSdk.Contract.ChunkHelper
import XChainSdk.Protocol.Serialization

/-!
# The carriers of a source

* `utf8ByteSize_base64` : the length of a source on the wire.
* `splitCode_join` : **the slices in order are the base64 of the source**.
* `chunkAction_fits` : **the action of every slice fits its carrier**.
-/

namespace XChainSdk

open Js Hash

/-! ### base64 -/

theorem base64Char_spec (n : ℕ) : base64Char n ∈ '=' :: base64Alphabet := by
  rw [base64Char]
  rcases lt_or_ge n base64Alphabet.length with h | h
  · rw [List.getD_eq_getElem _ _ h]
    exact List.mem_cons_of_mem _ (List.getElem_mem h)
  · rw [List.getD_eq_default _ _ h]
    exact List.mem_cons_self

theorem mem_base64Chars {bs : Bytes} {c : Char} (h : c ∈ base64Chars bs) :
    c ∈ '=' :: base64Alphabet := by
  induction bs using base64Chars.induct with
  | case1 a b d rest ih =>
    rw [base64Chars, List.mem_append] at h
    rcases h with h | h
    · simp only [List.mem_cons, List.not_mem_nil, or_false] at h
      rcases h with rfl | rfl | rfl | rfl <;> exact base64Char_spec _
    · exact ih h
  | case2 a b =>
    simp only [base64Chars, List.mem_cons, List.not_mem_nil, or_false] at h
    rcases h with rfl | rfl | rfl | rfl
    · exact base64Char_spec _
    · exact base64Char_spec _
    · exact base64Char_spec _
    · exact List.mem_cons_self
  | case3 a =>
    simp only [base64Chars, List.mem_cons, List.not_mem_nil, or_false] at h
    rcases h with rfl | rfl | rfl | rfl
    · exact base64Char_spec _
    · exact base64Char_spec _
    · exact List.mem_cons_self
    · exact List.mem_cons_self
  | case4 => cases h

theorem length_base64Chars (bs : Bytes) :
    (base64Chars bs).length = 4 * ((bs.length + 2) / 3) := by
  induction bs using base64Chars.induct with
  | case1 a b d rest ih =>
    rw [base64Chars, List.length_append, ih]
    simp only [List.length_cons, List.length_nil]
    omega
  | case2 a b => simp [base64Chars]
  | case3 a => simp [base64Chars]
  | case4 => rfl

/-- A text of one-byte characters has as many bytes as characters. -/
theorem utf8ByteSize_ofList {cs : List Char} (h : ∀ c ∈ cs, c.utf8Size = 1) :
    (String.ofList cs).utf8ByteSize = cs.length := by
  induction cs with
  | nil => rfl
  | cons c cs ih =>
    rw [String.ofList_cons, String.utf8ByteSize_append, String.utf8ByteSize_singleton,
      ih fun d hd => h d (List.mem_cons_of_mem _ hd), h c List.mem_cons_self, List.length_cons,
      Nat.add_comm]

theorem utf8Size_base64 : ∀ c ∈ '=' :: base64Alphabet, c.utf8Size = 1 := by
  have hall : (('=' :: base64Alphabet).all fun c => c.utf8Size == 1) = true := by decide
  exact fun c hc => beq_iff_eq.1 (List.all_eq_true.1 hall c hc)

/-- The length of the source on the wire. -/
def base64Length (code : String) : ℕ := 4 * ((code.utf8ByteSize + 2) / 3)

theorem length_utf8 (s : String) : (utf8 s).length = s.utf8ByteSize := rfl

theorem length_toList_base64 (code : String) : (base64 code).toList.length = base64Length code := by
  rw [base64, String.toList_ofList, length_base64Chars, length_utf8, base64Length]

theorem utf8ByteSize_base64 (code : String) : (base64 code).utf8ByteSize = base64Length code := by
  rw [base64, utf8ByteSize_ofList fun c hc => utf8Size_base64 c (mem_base64Chars hc),
    length_base64Chars, length_utf8, base64Length]

/-! ### Slices -/

section Slices

variable {size : ℕ} {text : List Char}

theorem flatten_slices_take (size : ℕ) (text : List Char) (n : ℕ) :
    ((List.range n).map fun i => (text.drop (i * size)).take size).flatten =
      text.take (n * size) := by
  induction n with
  | zero => simp
  | succ n ih =>
    rw [List.range_succ, List.map_append, List.flatten_append, ih, Nat.succ_mul, List.take_add]
    simp

/-- The slices in order are the text. -/
theorem flatten_slices (hsize : 0 < size) : (slices size text).flatten = text := by
  rw [slices, flatten_slices_take, List.take_of_length_le]
  have hdiv := Nat.lt_div_mul_add (a := text.length + size - 1) hsize
  omega

theorem length_of_mem_slices {part : List Char} (h : part ∈ slices size text) :
    part.length ≤ size := by
  obtain ⟨i, -, rfl⟩ := List.mem_map.1 h
  exact List.length_take_le _ _

theorem subset_of_mem_slices {part : List Char} (h : part ∈ slices size text) : part ⊆ text := by
  obtain ⟨i, -, rfl⟩ := List.mem_map.1 h
  exact fun c hc => List.mem_of_mem_drop (List.mem_of_mem_take hc)

theorem length_slices (size : ℕ) (text : List Char) :
    (slices size text).length = (text.length + size - 1) / size := by
  simp [slices]

end Slices

theorem splitCode_eq {code : String} (h : base64Length code ≠ 0) :
    splitCode code =
      (slices MAX_DEPLOYCHUNK_PART_BYTES (base64 code).toList).map String.ofList := by
  refine if_neg ?_
  rw [List.isEmpty_iff, List.map_eq_nil_iff, ← List.length_eq_zero_iff, length_slices,
    length_toList_base64, MAX_DEPLOYCHUNK_PART_BYTES]
  omega

theorem splitCode_empty {code : String} (h : base64Length code = 0) : splitCode code = [""] := by
  refine if_pos ?_
  rw [List.isEmpty_iff, List.map_eq_nil_iff, ← List.length_eq_zero_iff, length_slices,
    length_toList_base64, h]
  rfl

/-- The slices in order are the base64 of the source. -/
theorem splitCode_join (code : String) :
    ((splitCode code).map String.toList).flatten = (base64 code).toList := by
  by_cases h : base64Length code = 0
  · have hnil : (base64 code).toList = [] :=
      List.eq_nil_of_length_eq_zero ((length_toList_base64 code).trans h)
    rw [splitCode_empty h, hnil]
    rfl
  · have hid : (String.toList ∘ String.ofList) = id := funext fun cs => String.toList_ofList
    rw [splitCode_eq h, List.map_map, hid, List.map_id, flatten_slices (by decide)]

theorem utf8ByteSize_part {code part : String} (h : part ∈ splitCode code) :
    part.utf8ByteSize ≤ MAX_DEPLOYCHUNK_PART_BYTES := by
  by_cases hlen : base64Length code = 0
  · rw [splitCode_empty hlen, List.mem_singleton] at h
    subst h
    decide
  · rw [splitCode_eq hlen] at h
    obtain ⟨cs, hcs, rfl⟩ := List.mem_map.1 h
    have hone : ∀ c ∈ cs, c.utf8Size = 1 := by
      intro c hc
      have hmem := subset_of_mem_slices hcs hc
      rw [base64, String.toList_ofList] at hmem
      exact utf8Size_base64 c (mem_base64Chars hmem)
    rw [utf8ByteSize_ofList hone]
    exact length_of_mem_slices hcs

theorem length_splitCode (code : String) : (splitCode code).length =
    max 1 ((base64Length code + MAX_DEPLOYCHUNK_PART_BYTES - 1) / MAX_DEPLOYCHUNK_PART_BYTES) := by
  by_cases h : base64Length code = 0
  · rw [splitCode_empty h, h]
    rfl
  · rw [splitCode_eq h, List.length_map, length_slices, length_toList_base64,
      MAX_DEPLOYCHUNK_PART_BYTES]
    omega

/-! ### The actions of the slices -/

theorem segmentBytes_append (segments segments' : List String) :
    segmentBytes (segments ++ segments') = segmentBytes segments + segmentBytes segments' := by
  simp [segmentBytes]

theorem segmentBytes_trimTrailing_le (keep : ℕ) (segments : List String) :
    segmentBytes (Tokens.trimTrailing keep segments) ≤ segmentBytes segments := by
  obtain ⟨n, hn⟩ := Tokens.exists_trimTrailing keep segments
  conv_rhs => rw [← hn, segmentBytes_append]
  exact Nat.le_add_right _ _

theorem utf8ByteSize_natText_le {n k : ℕ} (hk : 0 < k) (h : n < 10 ^ k) :
    (natText n).utf8ByteSize ≤ k := by
  have hdigit : ∀ c ∈ Nat.toDigits 10 n, c.utf8Size = 1 := by
    intro c hc
    have hc' : c.isDigit = true := Nat.isDigit_of_mem_toDigits (by decide) (by decide) hc
    have hval : c.val ≤ 57 := (Bool.and_eq_true_iff.1 hc').2 |> of_decide_eq_true
    exact Char.utf8Size_eq_one_iff.2 (UInt32.le_trans hval (by decide))
  rw [natText, utf8ByteSize_ofList hdigit]
  exact (Nat.length_toDigits_le_iff (by decide) hk).2 h

theorem formatOf_chunk : formatOf "DEPLOY" 4 =
    .ok (fixed ["CODE_HASH", "CHUNK_INDEX", "TOTAL_CHUNKS", "CODE_PART"], none) := rfl

@[simp] theorem valueText_str (s : String) : valueText (.str s) = s := by
  simp [valueText, isNullish]

theorem valueText_natCast {n : ℕ} (h : n ≤ 2 ^ 53) : valueText (.num (.fin n)) = natText n := by
  simp [valueText, isNullish, toText, numberToString_natCast h, natText]

/-- The action of a slice. -/
theorem chunkAction_eq {codeHash part : String} {index totalChunks : ℕ} (hindex : index ≤ 2 ^ 53)
    (htotal : totalChunks ≤ 2 ^ 53) : chunkAction codeHash index totalChunks part =
      .ok (Tokens.join '|' ("DEPLOY" :: Tokens.trimTrailing 1
        ["4", codeHash, natText index, natText totalChunks, part])) := by
  have hparts : ["4", codeHash, natText index, natText totalChunks, part] =
      [natText 4, valueText (.str codeHash), valueText (.num (.fin index)),
        valueText (.num (.fin totalChunks)), valueText (.str part)] := by
    rw [valueText_str, valueText_str, valueText_natCast hindex, valueText_natCast htotal]
    rfl
  rw [chunkAction, serialize_flat formatOf_chunk rfl, hparts]
  rfl

/-- Every slice of a source that is a string of the language fits its carrier: such a string has
fewer than `2 ^ 53` units of at most three bytes. -/
theorem chunkAction_fits {code part codeHash : String} {index : ℕ} (hcode : code.utf8ByteSize < 2 ^ 55)
    (hhash : codeHash.utf8ByteSize = 64) (hpart : (splitCode code)[index]? = some part) :
    ∃ text, chunkAction codeHash index (splitCode code).length part = .ok text ∧
      compiledPushSize text.utf8ByteSize ≤ MAX_ACTION_DATA_LENGTH := by
  have hlen : (splitCode code).length < 10 ^ 14 := by
    rw [length_splitCode, base64Length, MAX_DEPLOYCHUNK_PART_BYTES]
    omega
  obtain ⟨hindex, hget⟩ := List.getElem?_eq_some_iff.1 hpart
  refine ⟨_, chunkAction_eq (by omega) (by omega), ?_⟩
  have hsize := utf8ByteSize_part (hget ▸ List.getElem_mem hindex)
  have htrim := segmentBytes_trimTrailing_le 1
    ["4", codeHash, natText index, natText (splitCode code).length, part]
  have hn := utf8ByteSize_natText_le (by decide) hlen
  have hi := utf8ByteSize_natText_le (by decide) (hindex.trans hlen)
  have hversion : "4".utf8ByteSize = 1 := by decide
  have haction : "DEPLOY".utf8ByteSize = 6 := by decide
  simp only [segmentBytes, List.map_cons, List.map_nil, List.sum_cons, List.sum_nil, hhash,
    hversion] at htrim
  rw [utf8ByteSize_join_cons, haction]
  rw [MAX_DEPLOYCHUNK_PART_BYTES] at hsize
  refine (compiledPushSize_mono (n := 8000) ?_).trans (by decide)
  simp only [segmentBytes]
  omega

end XChainSdk
