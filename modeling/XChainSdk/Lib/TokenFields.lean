import XChainSdk.Lib.Tokens

/-!
# Fields of delimited records

A record is a list of tokens whose fields are told by their position.  A missing field reads as an
empty one, and a writer leaves out the empty fields at the end.

* `Tokens.field`, `Tokens.setField` : reading a field, and writing it.
* `Tokens.field_setField`, `Tokens.setField_setField`, `Tokens.setField_field` : the laws of a lens.
* `Tokens.split` : the tokens of a text, and `Tokens.split_join`, `Tokens.join_split`.
-/

namespace Tokens

/-! ### Texts and their tokens -/

/-- The tokens of a text. -/
def split (c : Char) (s : String) : List String := (s.toList.splitOn c).map String.ofList

variable {c : Char} {ts us : List String}

theorem split_join (h : ts ≠ []) (hts : Free c ts) : split c (join c ts) = ts := by
  rw [split, splitOn_join h hts, List.map_map]
  simp

theorem free_split (c : Char) (s : String) : Free c (split c s) := by
  have hfree : ∀ l ∈ s.toList.splitOn c, c ∉ l := by
    induction s.toList with
    | nil => simp
    | cons x xs ih =>
      rw [List.splitOn_cons_eq_if_modifyHead]
      split
      · simpa using ih
      · next hx =>
        obtain ⟨y, ys, hys⟩ := List.exists_cons_of_ne_nil (List.splitOn_ne_nil c xs)
        rw [hys] at ih ⊢
        have hxc : c ≠ x := fun h => hx (by simp [h])
        simpa [hxc] using ih
  intro t ht
  obtain ⟨l, hl, rfl⟩ := List.mem_map.1 ht
  simpa using hfree l hl

theorem join_split (c : Char) (s : String) : join c (split c s) = s := by
  rw [← String.toList_inj, join, String.toList_intercalate, split, List.map_map,
    String.toList_singleton]
  simp

/-! ### Fields -/

/-- The field at a position. -/
def field (i : ℕ) (ts : List String) : String := ts.getD i ""

/-- Writes a field; empty fields at the end are left out, down to `keep` of them. -/
def setField (keep i : ℕ) (v : String) (ts : List String) : List String :=
  trimTrailing keep ((ts ++ List.replicate (i + 1 - ts.length) "").set i v)

theorem trimTrailing_append_replicate {keep : ℕ} (h : keep ≤ ts.length) (n : ℕ) :
    trimTrailing keep (ts ++ List.replicate n "") = trimTrailing keep ts := by
  induction n with
  | zero => simp
  | succ n ih =>
    rw [← ih, trimTrailing, trimTrailing, List.replicate_succ', ← List.append_assoc]
    have hlen : keep ≤ (ts ++ List.replicate n "").length := by simp; omega
    rw [List.take_append_of_le_length hlen, List.drop_append_of_le_length hlen,
      List.rdropWhile_concat_pos _ _ _ (by simp)]

/-- Records of the same fields are written alike. -/
theorem trimTrailing_ext {keep : ℕ} (hts : keep ≤ ts.length) (hus : keep ≤ us.length)
    (h : ∀ i, field i ts = field i us) : trimTrailing keep ts = trimTrailing keep us := by
  wlog hle : ts.length ≤ us.length generalizing ts us
  · exact (this hus hts (fun i => (h i).symm) (not_le.1 hle).le).symm
  have hpad : us = ts ++ List.replicate (us.length - ts.length) "" := by
    refine List.ext_getElem (by simp; omega) fun i hi hi' => ?_
    have hfield := h i
    simp only [field, List.getD_eq_getElem?_getD] at hfield
    rw [List.getElem?_eq_getElem hi, Option.getD_some] at hfield
    rw [← hfield, List.getElem_append]
    split_ifs with hlt
    · rw [List.getElem?_eq_getElem hlt, Option.getD_some]
    · rw [List.getElem?_eq_none (not_lt.1 hlt), Option.getD_none, List.getElem_replicate]
  rw [hpad, trimTrailing_append_replicate hts]

variable {keep i : ℕ} {v w : String}

theorem length_padded (i : ℕ) (v : String) (ts : List String) :
    ((ts ++ List.replicate (i + 1 - ts.length) "").set i v).length = max (i + 1) ts.length := by
  simp only [List.length_set, List.length_append, List.length_replicate]
  omega

/-- **Writing a field changes this field only.** -/
theorem field_setField (keep i j : ℕ) (v : String) (ts : List String) :
    field j (setField keep i v ts) = if j = i then v else field j ts := by
  rw [setField, field, getD_trimTrailing]
  split_ifs with hj
  · subst hj
    rw [List.getD_eq_getElem?_getD, List.getElem?_set_self, Option.getD_some]
    simp only [List.length_append, List.length_replicate]
    omega
  · rw [List.getD_eq_getElem?_getD, List.getElem?_set_ne (Ne.symm hj),
      ← List.getD_eq_getElem?_getD, getD_append_replicate_empty, field]

/-- **The second of two writes wins.** -/
theorem setField_setField (hkeep : keep ≤ i + 1) (v w : String) (ts : List String) :
    setField keep i w (setField keep i v ts) = setField keep i w ts := by
  refine trimTrailing_ext ?_ ?_ fun j => ?_
  · rw [length_padded]
    omega
  · rw [length_padded]
    omega
  · have h1 := field_setField keep i j w (setField keep i v ts)
    have h2 := field_setField keep i j w ts
    rw [setField, field, getD_trimTrailing] at h1 h2
    rw [field, field, h1, h2, field_setField]
    split_ifs <;> rfl

/-- **Writing what is read changes nothing but empty fields at the end.** -/
theorem setField_field (hkeep : keep ≤ ts.length) (hi : keep ≤ i + 1) :
    setField keep i (field i ts) ts = trimTrailing keep ts := by
  refine trimTrailing_ext ?_ hkeep fun j => ?_
  · rw [length_padded]
    omega
  · have h1 := field_setField keep i j (field i ts) ts
    rw [setField, field, getD_trimTrailing] at h1
    rw [field, h1]
    split_ifs with hj
    · rw [hj]
    · rfl

theorem free_setField (hv : c ∉ v.toList) (h : Free c ts) : Free c (setField keep i v ts) := by
  refine free_trimTrailing fun t ht => ?_
  rcases List.mem_or_eq_of_mem_set ht with ht | rfl
  · rcases List.mem_append.1 ht with ht | ht
    · exact h t ht
    · rw [List.eq_of_mem_replicate ht]
      simp
  · exact hv

theorem le_length_setField (hi : keep ≤ i + 1) (v : String) (ts : List String) :
    keep ≤ (setField keep i v ts).length := by
  have hlen := length_padded i v ts
  rw [setField, trimTrailing, List.length_append, List.length_take]
  omega

end Tokens
