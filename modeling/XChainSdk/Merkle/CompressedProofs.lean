import XChainSdk.Merkle.SmtProofs

/-!
# The wire form of sparse proofs

* `spread` : the siblings of a bitmap in their places, the empty roots in the others.
* `decompressSmtProof_of_reads` : a proof with one sibling for each set bit is spread.
* `compressSmtProof_spread` : compressing the spread siblings gives the proof back.
* `compressedProofs_exact` : both directions, and no proof with a surplus or a missing sibling is
  accepted.
-/

namespace XChainSdk

open Hash Js HashTree

/-! ### Bitmaps -/

/-- The depths whose bits are set, from `d` on. -/
def setDepths (bitmap : Bytes) (d n : ℕ) : List ℕ := (List.range' d n).filter (bitAt bitmap)

/-- Number of set bits of a bitmap. -/
def setBits (bitmap : Bytes) : ℕ := (setDepths bitmap 0 SMT_DEPTH).length

theorem setDepths_succ (bitmap : Bytes) (d n : ℕ) : setDepths bitmap d (n + 1) =
    if bitAt bitmap d then d :: setDepths bitmap (d + 1) n else setDepths bitmap (d + 1) n := by
  rw [setDepths, List.range'_succ, List.filter_cons]
  rfl

/-- Byte strings of 32 bytes with the same bits are equal. -/
theorem eq_of_bitAt {a b : Bytes} (ha : a.length = 32) (hb : b.length = 32)
    (hbit : ∀ i < 256, bitAt a i = bitAt b i) : a = b := by
  have hkey : (⟨a, ha⟩ : Digest) = ⟨b, hb⟩ := by
    refine keyBits_injective (List.map_congr_left fun i hi => ?_)
    rw [Nat.zero_add]
    exact hbit i (List.mem_range.1 hi)
  exact congrArg Digest.bytes hkey

section

variable (H : Host)

/-- The siblings of the set bits in their places, and the empty roots in the others. -/
def spread (bitmap : Bytes) : ℕ → ℕ → List Bytes → List Bytes
  | _, 0, _ => []
  | d, n + 1, real =>
    if bitAt bitmap d then
      match real with
      | [] => []
      | s :: real => s :: spread bitmap (d + 1) n real
    else (EMPTY H (SMT_DEPTH - 1 - d)).bytes :: spread bitmap (d + 1) n real

theorem spread_set {bitmap : Bytes} {d : ℕ} (hbit : bitAt bitmap d = true) (n : ℕ) (s : Bytes)
    (real : List Bytes) :
    spread H bitmap d (n + 1) (s :: real) = s :: spread H bitmap (d + 1) n real := by
  rw [spread.eq_def]
  simp only [hbit, if_true]

theorem spread_clear {bitmap : Bytes} {d : ℕ} (hbit : ¬bitAt bitmap d = true) (n : ℕ)
    (real : List Bytes) : spread H bitmap d (n + 1) real =
      (EMPTY H (SMT_DEPTH - 1 - d)).bytes :: spread H bitmap (d + 1) n real := by
  rw [spread.eq_def]
  simp only [hbit, if_false, Bool.false_eq_true]

/-- No sibling is the empty root of its height. -/
def NoRedundant (bitmap : Bytes) (d n : ℕ) (real : List Bytes) : Prop :=
  ∀ e ∈ real.zip (setDepths bitmap d n), isSent H e = true

/-- A bit is set exactly when the sibling in its place is sent, and those that are sent are the
siblings of the set bits. -/
theorem spread_spec {bitmap : Bytes} (n d : ℕ) {real : List Bytes}
    (hlen : real.length = (setDepths bitmap d n).length) (hne : NoRedundant H bitmap d n real) :
    (spread H bitmap d n real).length = n ∧
      (∀ i, i < n → ∃ s, (spread H bitmap d n real)[i]? = some s ∧
        bitAt bitmap (d + i) = isSent H (s, d + i)) ∧
      (((spread H bitmap d n real).zipIdx d).filter (isSent H)).map Prod.fst = real := by
  induction n generalizing d real with
  | zero =>
    have hnil : real = [] := List.length_eq_zero_iff.1 hlen
    exact ⟨rfl, fun i hi => absurd hi (Nat.not_lt_zero i), by rw [hnil]; rfl⟩
  | succ n ih =>
    rw [setDepths_succ] at hlen
    rw [NoRedundant, setDepths_succ] at hne
    unfold spread
    split_ifs at hlen hne ⊢ with hbit
    · cases real with
      | nil => simp at hlen
      | cons s real =>
        have hsent : isSent H (s, d) = true := hne (s, d) (by simp)
        obtain ⟨h1, h2, h3⟩ := ih (d + 1) (by simpa using hlen) fun e he => hne e (by simp [he])
        refine ⟨congrArg Nat.succ h1, fun i hi => ?_, ?_⟩
        · cases i with
          | zero => exact ⟨s, rfl, hbit.trans hsent.symm⟩
          | succ i =>
            obtain ⟨x, hx, hxbit⟩ := h2 i (by omega)
            rw [show d + 1 + i = d + (i + 1) by omega] at hxbit
            exact ⟨x, hx, hxbit⟩
        · rw [List.zipIdx_cons, List.filter_cons_of_pos hsent, List.map_cons, h3]
    · have hempty : isSent H ((EMPTY H (SMT_DEPTH - 1 - d)).bytes, d) = false := by simp [isSent]
      obtain ⟨h1, h2, h3⟩ := ih (d + 1) hlen hne
      refine ⟨congrArg Nat.succ h1, fun i hi => ?_, ?_⟩
      · cases i with
        | zero => exact ⟨_, rfl, (Bool.eq_false_of_not_eq_true hbit).trans hempty.symm⟩
        | succ i =>
          obtain ⟨x, hx, hxbit⟩ := h2 i (by omega)
          rw [show d + 1 + i = d + (i + 1) by omega] at hxbit
          exact ⟨x, hx, hxbit⟩
      · rw [List.zipIdx_cons, List.filter_cons_of_neg (by simp [hempty]), h3]

/-! ### Decompression -/

/-- Whatever the siblings are, as many are used as bits are set. -/
theorem foldlM_decompressStep_count {bitmap : Bytes} {real : Js} (n d : ℕ) {acc out : List Js × ℕ}
    (h : (List.range' d n).foldlM (decompressStep H bitmap real) acc = some out) :
    out.2 = acc.2 + (setDepths bitmap d n).length := by
  induction n generalizing d acc with
  | zero =>
    obtain rfl := Option.some.inj h
    rfl
  | succ n ih =>
    rw [List.range'_succ, List.foldlM_cons] at h
    obtain ⟨acc', hstep, h⟩ := Option.bind_eq_some_iff.1 h
    rw [ih (d + 1) h, setDepths_succ]
    unfold decompressStep at hstep
    split_ifs at hstep ⊢ with hbit
    · obtain ⟨s, -, rfl⟩ := Option.map_eq_some_iff.1 hstep
      rw [List.length_cons]
      omega
    · obtain rfl := Option.some.inj hstep
      rfl

/-- Siblings that can be read are spread. -/
theorem foldlM_decompressStep_spread {bitmap : Bytes} {R : List Js} (n d : ℕ) (acc : List Js × ℕ)
    {real : List Bytes} (hread : List.Forall₂ (fun x b => x.toBuf = some b) (R.drop acc.2) real)
    (hlen : real.length = (setDepths bitmap d n).length) :
    ∃ (out : List Js) (ri : ℕ), (List.range' d n).foldlM (decompressStep H bitmap (arr R)) acc =
        some (acc.1 ++ out, ri) ∧ out.mapM Js.toBuf = some (spread H bitmap d n real) := by
  induction n generalizing d acc real with
  | zero => exact ⟨[], acc.2, by simp, rfl⟩
  | succ n ih =>
    rw [setDepths_succ] at hlen
    rw [List.range'_succ, List.foldlM_cons]
    by_cases hbit : bitAt bitmap d = true
    · rw [if_pos hbit] at hlen
      generalize hR : R.drop acc.2 = rest at hread
      cases hread with
      | nil => simp at hlen
      | @cons x s xs real hx hread =>
        have hget : R[acc.2]? = some x := by
          have hhead := congrArg List.head? hR
          simpa using hhead
        have hstep : decompressStep H bitmap (arr R) acc d = some (acc.1 ++ [x], acc.2 + 1) := by
          rw [decompressStep, if_pos hbit, Js.index, List.getD_eq_getElem?_getD, hget]
          rfl
        have hdrop : R.drop (acc.2 + 1) = xs := by
          have htail := congrArg List.tail hR
          simpa using htail
        obtain ⟨out, ri, hout, hmap⟩ := ih (d + 1) (acc.1 ++ [x], acc.2 + 1) (hdrop ▸ hread)
          (by simpa using hlen)
        refine ⟨x :: out, ri, ?_, ?_⟩
        · rw [hstep, Option.bind_eq_bind, Option.bind_some, hout, List.append_assoc]
          rfl
        · rw [List.mapM_cons, hx, hmap, spread_set H hbit]
          rfl
    · rw [if_neg hbit] at hlen
      have hstep : decompressStep H bitmap (arr R) acc d =
          some (acc.1 ++ [hexText (EMPTY H (SMT_DEPTH - 1 - d)).bytes], acc.2) := by
        rw [decompressStep, if_neg hbit]
        rfl
      obtain ⟨out, ri, hout, hmap⟩ := ih (d + 1)
        (acc.1 ++ [hexText (EMPTY H (SMT_DEPTH - 1 - d)).bytes], acc.2) hread hlen
      refine ⟨hexText (EMPTY H (SMT_DEPTH - 1 - d)).bytes :: out, ri, ?_, ?_⟩
      · rw [hstep, Option.bind_eq_bind, Option.bind_some, hout, List.append_assoc]
        rfl
      · rw [List.mapM_cons, toBuf_hexText, hmap, spread_clear H hbit]
        rfl

/-- What a value reads as: a bitmap and siblings, of any spelling. -/
structure ReadsAs (compressed : Js) (bitmap : Bytes) (real : List Bytes) : Prop where
  bitmap : ∃ x, compressed.get "bitmap" = some x ∧ x.toBuf = some bitmap
  siblings : ∃ xs, compressed.get "siblings" = some (arr xs) ∧ xs.mapM Js.toBuf = some real

/-- A proof as `compressSmtProof` writes it. -/
def wireProof (bitmap : Bytes) (real : List Bytes) : Js :=
  obj [("bitmap", str (toHex bitmap)), ("siblings", arr (real.map hexText))]

/-- A proof with one sibling for each set bit is spread. -/
theorem decompressSmtProof_of_reads {compressed : Js} {bitmap : Bytes} {real : List Bytes}
    (hread : ReadsAs compressed bitmap real) (hlen : real.length = setBits bitmap) :
    ∃ sibs, decompressSmtProof H compressed = some sibs ∧
      sibs.mapM Js.toBuf = some (spread H bitmap 0 SMT_DEPTH real) := by
  obtain ⟨⟨x, hx, hbitmap⟩, ⟨xs, hxs, hreal⟩⟩ := hread
  have hforall := Loop.mapM_eq_some_iff.1 hreal
  obtain ⟨out, ri, hout, hmap⟩ := foldlM_decompressStep_spread H SMT_DEPTH 0 ([], 0) hforall hlen
  have hcount : ri = xs.length := by
    have hri := foldlM_decompressStep_count H SMT_DEPTH 0 hout
    rw [hforall.length_eq, hlen]
    simpa [setBits] using hri
  refine ⟨out, ?_, hmap⟩
  have hlength : (arr xs).get "length" = some (num (.fin xs.length)) := rfl
  rw [← List.range_eq_range', List.nil_append] at hout
  simp [decompressSmtProof, hx, hbitmap, hxs, hout, hlength, hcount]

/-- The siblings that are used are all of them. -/
theorem length_of_decompressSmtProof {compressed : Js} {sibs : List Js}
    (h : decompressSmtProof H compressed = some sibs) :
    ∃ x bitmap real, compressed.get "bitmap" = some x ∧ x.toBuf = some bitmap ∧
      compressed.get "siblings" = some real ∧
      real.get "length" = some (num (.fin (setBits bitmap))) := by
  obtain ⟨x, hx, h⟩ := Option.bind_eq_some_iff.1 h
  obtain ⟨bitmap, hbitmap, h⟩ := Option.bind_eq_some_iff.1 h
  obtain ⟨real, hreal, h⟩ := Option.bind_eq_some_iff.1 h
  obtain ⟨⟨out, ri⟩, hout, h⟩ := Option.bind_eq_some_iff.1 h
  obtain ⟨len, hlen, h⟩ := Option.bind_eq_some_iff.1 h
  rw [List.range_eq_range'] at hout
  have hri := foldlM_decompressStep_count H SMT_DEPTH 0 hout
  refine ⟨x, bitmap, real, hx, hbitmap, hreal, ?_⟩
  split at h
  · next q =>
    split_ifs at h with hq
    rw [hlen, hq]
    simp only [Nat.zero_add] at hri
    rw [hri]
    rfl
  · cases h

/-! ### Compression -/

/-- Compressing the spread siblings gives the proof back. -/
theorem compressSmtProof_spread {bitmap : Bytes} {real : List Bytes} (hbitmap : bitmap.length = 32)
    (hlen : real.length = setBits bitmap) (hne : NoRedundant H bitmap 0 SMT_DEPTH real) :
    compressSmtProof H (spread H bitmap 0 SMT_DEPTH real) = wireProof bitmap real := by
  obtain ⟨hlength, hbits, hsent⟩ := spread_spec H SMT_DEPTH 0 hlen hne
  obtain ⟨h1, h2, h3⟩ := foldl_compressStep H (spread H bitmap 0 SMT_DEPTH real).zipIdx
    (List.replicate 32 0, []) (by simp) fun e he => by
      have hlt := List.snd_lt_of_mem_zipIdx he
      rw [hlength] at hlt
      exact hlt
  have hcompress : compressSmtProof H (spread H bitmap 0 SMT_DEPTH real) =
      obj [("bitmap", str (toHex ((spread H bitmap 0 SMT_DEPTH real).zipIdx.foldl (compressStep H)
        (List.replicate 32 0, [])).1)), ("siblings", arr ((spread H bitmap 0 SMT_DEPTH
          real).zipIdx.foldl (compressStep H) (List.replicate 32 0, [])).2)] := rfl
  have hsame : ((spread H bitmap 0 SMT_DEPTH real).zipIdx.foldl (compressStep H)
      (List.replicate 32 0, [])).1 = bitmap := by
    refine eq_of_bitAt h1 hbitmap fun i hi => ?_
    obtain ⟨s, hs, hbit⟩ := hbits i hi
    rw [h2, bitAt_replicate_zero, Bool.false_or, ← Nat.zero_add i, hbit, Nat.zero_add,
      Bool.eq_iff_iff, List.any_eq_true]
    constructor
    · rintro ⟨⟨s', j⟩, he, hand⟩
      rw [Bool.and_eq_true, beq_iff_eq] at hand
      obtain ⟨hsent', rfl⟩ := hand
      obtain rfl := Option.some.inj ((List.mem_zipIdx_iff_getElem?.1 he).symm.trans hs)
      exact hsent'
    · intro hsent'
      exact ⟨(s, i), List.mem_zipIdx_iff_getElem?.2 hs, by simpa using hsent'⟩
  have hreal : ((spread H bitmap 0 SMT_DEPTH real).zipIdx.foldl (compressStep H)
      (List.replicate 32 0, [])).2 = real.map hexText := by
    rw [h3, List.nil_append]
    have hmap := congrArg (List.map hexText) hsent
    rwa [List.map_map] at hmap
  rw [hcompress, hsame, hreal]
  rfl

/-- The two directions of the codec, and the proofs that it refuses.  A proof that is spelled
otherwise comes back in lower-case digits. -/
structure CodecExact : Prop where
  decompress_compress : ∀ sibs : List Digest, sibs.length = SMT_DEPTH →
    decompressSmtProof H (compressSmtProof H (sibs.map Digest.bytes)) =
      some (sibs.map fun s => hexText s.bytes)
  compress_decompress : ∀ compressed bitmap real, ReadsAs compressed bitmap real →
    bitmap.length = 32 → real.length = setBits bitmap → NoRedundant H bitmap 0 SMT_DEPTH real →
      ∃ sibs bufs, decompressSmtProof H compressed = some sibs ∧ sibs.mapM Js.toBuf = some bufs ∧
        compressSmtProof H bufs = wireProof bitmap real
  refuses : ∀ compressed bitmap x real, compressed.get "bitmap" = some x → x.toBuf = some bitmap →
    compressed.get "siblings" = some real →
    real.get "length" ≠ some (num (.fin (setBits bitmap))) → ∀ rootHex key leaf,
      verifyCompressedSmtProof H rootHex key leaf compressed ≠ some true

theorem compressedProofs_exact : CodecExact H where
  decompress_compress := by
    intro sibs hlen
    rw [decompressSmtProof_compressSmtProof H (by simpa using hlen), List.map_map]
    rfl
  compress_decompress := by
    intro compressed bitmap real hread hbitmap hlen hne
    obtain ⟨sibs, hsibs, hbufs⟩ := decompressSmtProof_of_reads H hread hlen
    exact ⟨sibs, _, hsibs, hbufs, compressSmtProof_spread H hbitmap hlen hne⟩
  refuses := by
    intro compressed bitmap x real hx hbitmap hreal hlen rootHex key leaf hverified
    obtain ⟨sibs, hsibs, -⟩ := verifyCompressedSmtProof_eq_true_iff.1 hverified
    obtain ⟨x', bitmap', real', hx', hbitmap', hreal', hlen'⟩ := length_of_decompressSmtProof H hsibs
    obtain rfl := Option.some.inj (hx.symm.trans hx')
    obtain rfl := Option.some.inj (hbitmap.symm.trans hbitmap')
    obtain rfl := Option.some.inj (hreal.symm.trans hreal')
    exact hlen hlen'

end

/-- The empty proof is its own image. -/
example : wireProof (List.replicate 32 0) [] = compressSmtProof plainHost
    (spread plainHost (List.replicate 32 0) 0 SMT_DEPTH []) := by
  refine (compressSmtProof_spread plainHost (by simp) ?_ ?_).symm
  · decide
  · intro e he
    cases he

end XChainSdk
