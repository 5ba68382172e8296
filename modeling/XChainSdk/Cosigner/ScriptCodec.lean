import XChainSdk.Cosigner.Envelope

/-!
# Scripts as bytes

The elements of a script are opcodes and pushed bytes.  A push has several spellings; the writer
uses the shortest, and the reader takes any.

* `Script.compile`, `Script.decompile` : the writer and the reader of the Bitcoin library.
* `Chunk.Canonical` : the elements that have a spelling of their own.
* `Script.decompile_compile` : what is written is read back.
* `Script.canonical_of_decompile` : what is read can be written.
-/

namespace XChainSdk

open Hash

def OP_PUSHDATA1 : ℕ := 0x4c
def OP_PUSHDATA2 : ℕ := 0x4d
def OP_PUSHDATA4 : ℕ := 0x4e
def OP_1NEGATE : ℕ := 0x4f
def OP_RESERVED : ℕ := 0x50

namespace Script

/-! ### The writer -/

/-- `asMinimalOP`: the opcode that stands for pushed bytes. -/
def asMinimalOP : Bytes → Option ℕ
  | [] => some OP_0
  | [b] =>
    if 1 ≤ b.toNat ∧ b.toNat ≤ 16 then some (OP_RESERVED + b.toNat)
    else if b = 0x81 then some OP_1NEGATE
    else none
  | _ => none

/-- `pushdata.encode`: what announces pushed bytes. -/
def pushdataEncode (n : ℕ) : Bytes :=
  if n < OP_PUSHDATA1 then [UInt8.ofNat n]
  else if n ≤ 0xff then UInt8.ofNat OP_PUSHDATA1 :: littleEndian 1 n
  else if n ≤ 0xffff then UInt8.ofNat OP_PUSHDATA2 :: littleEndian 2 n
  else UInt8.ofNat OP_PUSHDATA4 :: littleEndian 4 n

/-- The bytes of an element. -/
def compileChunk : Chunk → Bytes
  | .op code => [UInt8.ofNat code]
  | .push bytes =>
    match asMinimalOP bytes with
    | some op => [UInt8.ofNat op]
    | none => pushdataEncode bytes.length ++ bytes

/-- `script.compile` -/
def compile (chunks : List Chunk) : Bytes := chunks.flatMap compileChunk

/-! ### The reader -/

/-- The number that little-endian bytes spell. -/
def readLE : Bytes → ℕ
  | [] => 0
  | b :: bytes => b.toNat + 256 * readLE bytes

/-- A number of `k` bytes at the front, and what follows it. -/
def sized (k : ℕ) (bytes : Bytes) : Option (ℕ × Bytes) :=
  if bytes.length < k then none else some (readLE (bytes.take k), bytes.drop k)

/-- `pushdata.decode`: how many bytes are pushed, and what follows the announcement. -/
def pushdataDecode (opcode : ℕ) (rest : Bytes) : Option (ℕ × Bytes) :=
  if opcode < OP_PUSHDATA1 then some (opcode, rest)
  else if opcode = OP_PUSHDATA1 then sized 1 rest
  else if opcode = OP_PUSHDATA2 then sized 2 rest
  else sized 4 rest

/-- The element of pushed bytes. -/
def chunkOf (data : Bytes) : Chunk :=
  match asMinimalOP data with
  | some op => .op op
  | none => .push data

/-- The loop of `script.decompile`, for as many elements as there are bytes. -/
def decompileFrom : ℕ → Bytes → Option (List Chunk)
  | _, [] => some []
  | 0, _ :: _ => none
  | n + 1, b :: rest =>
    if OP_0 < b.toNat ∧ b.toNat ≤ OP_PUSHDATA4 then
      match pushdataDecode b.toNat rest with
      | none => none
      | some (k, rest) =>
        if rest.length < k then none
        else (decompileFrom n (rest.drop k)).map (chunkOf (rest.take k) :: ·)
    else (decompileFrom n rest).map (Chunk.op b.toNat :: ·)

/-- `script.decompile` -/
def decompile (script : Bytes) : Option (List Chunk) := decompileFrom script.length script

end Script

/-- The element has a spelling: an opcode that announces no push, or bytes that no opcode pushes. -/
def Chunk.Canonical : Chunk → Prop
  | .op code => (code = OP_0 ∨ OP_PUSHDATA4 < code) ∧ code < 256
  | .push bytes => Script.asMinimalOP bytes = none ∧ bytes.length < 2 ^ 32

namespace Script

/-! ### Sizes -/

@[simp] theorem length_littleEndian (k n : ℕ) : (littleEndian k n).length = k := by
  induction k generalizing n with
  | zero => rfl
  | succ k ih => simp [littleEndian, ih]

theorem readLE_littleEndian (k n : ℕ) : readLE (littleEndian k n) = n % 256 ^ k := by
  induction k generalizing n with
  | zero => simp [littleEndian, readLE, Nat.mod_one]
  | succ k ih =>
    have hb : (UInt8.ofNat n).toNat = n % 256 := by simp
    rw [littleEndian, readLE, ih, hb, pow_succ', Nat.mod_mul]

theorem readLE_lt (bytes : Bytes) : readLE bytes < 256 ^ bytes.length := by
  induction bytes with
  | nil => simp [readLE]
  | cons b bytes ih =>
    have hb : b.toNat < 256 := b.toNat_lt
    rw [readLE, List.length_cons, pow_succ']
    omega

theorem sized_littleEndian {k n : ℕ} (h : n < 256 ^ k) (rest : Bytes) :
    sized k (littleEndian k n ++ rest) = some (n, rest) := by
  have hlen : ¬ (littleEndian k n ++ rest).length < k := by simp
  rw [sized, if_neg hlen, List.take_left' (length_littleEndian k n),
    List.drop_left' (length_littleEndian k n), readLE_littleEndian, Nat.mod_eq_of_lt h]

/-- Pushed bytes with a spelling are read back after their announcement. -/
theorem decompileFrom_push {bytes : Bytes} (hmin : asMinimalOP bytes = none)
    (hlen : bytes.length < 2 ^ 32) (n : ℕ) (rest : Bytes) :
    decompileFrom (n + 1) (pushdataEncode bytes.length ++ bytes ++ rest) =
      (decompileFrom n rest).map (.push bytes :: ·) := by
  have hpos : 0 < bytes.length := by
    refine List.length_pos_of_ne_nil ?_
    rintro rfl
    cases hmin
  have hchunk : chunkOf bytes = .push bytes := by rw [chunkOf, hmin]
  -- the announcement is one byte and, for long pushes, a size
  have hread (b : UInt8) (size : Bytes) (hb : OP_0 < b.toNat ∧ b.toNat ≤ OP_PUSHDATA4)
      (hdecode : pushdataDecode b.toNat (size ++ (bytes ++ rest)) =
        some (bytes.length, bytes ++ rest)) :
      decompileFrom (n + 1) (b :: (size ++ (bytes ++ rest))) =
        (decompileFrom n rest).map (.push bytes :: ·) := by
    have hshort : ¬ (bytes ++ rest).length < bytes.length := by simp
    simp only [decompileFrom, hb, and_self, if_true, hdecode, hshort, if_false, List.drop_left,
      List.take_left, hchunk]
  unfold pushdataEncode
  split_ifs with h1 h2 h3
  · have hb : (UInt8.ofNat bytes.length).toNat = bytes.length := by
      rw [UInt8.toNat_ofNat', Nat.mod_eq_of_lt (h1.trans (by decide))]
    refine hread _ [] ?_ ?_
    · rw [hb]
      exact ⟨hpos, h1.le.trans (by decide)⟩
    · rw [hb, pushdataDecode, if_pos h1]
      rfl
  · rw [List.append_assoc]
    have hdecode : ∀ r, pushdataDecode (UInt8.ofNat OP_PUSHDATA1).toNat r = sized 1 r :=
      fun _ => rfl
    have hsmall : bytes.length < 256 ^ 1 := by omega
    exact hread _ (littleEndian 1 bytes.length) (by decide)
      ((hdecode _).trans (sized_littleEndian hsmall _))
  · rw [List.append_assoc]
    have hdecode : ∀ r, pushdataDecode (UInt8.ofNat OP_PUSHDATA2).toNat r = sized 2 r :=
      fun _ => rfl
    have hsmall : bytes.length < 256 ^ 2 := by omega
    exact hread _ (littleEndian 2 bytes.length) (by decide)
      ((hdecode _).trans (sized_littleEndian hsmall _))
  · rw [List.append_assoc]
    have hdecode : ∀ r, pushdataDecode (UInt8.ofNat OP_PUSHDATA4).toNat r = sized 4 r :=
      fun _ => rfl
    have hsmall : bytes.length < 256 ^ 4 := by omega
    exact hread _ (littleEndian 4 bytes.length) (by decide)
      ((hdecode _).trans (sized_littleEndian hsmall _))

/-- An element is read back from its spelling. -/
theorem decompileFrom_compileChunk {c : Chunk} (hc : c.Canonical) (n : ℕ) (rest : Bytes) :
    decompileFrom (n + 1) (compileChunk c ++ rest) = (decompileFrom n rest).map (c :: ·) := by
  cases c with
  | op code =>
    obtain ⟨hcode, hlt⟩ := hc
    have hnat : (UInt8.ofNat code).toNat = code := by
      rw [UInt8.toNat_ofNat', Nat.mod_eq_of_lt hlt]
    have hnot : ¬ (OP_0 < code ∧ code ≤ OP_PUSHDATA4) := by
      rintro ⟨hpos, hle⟩
      rcases hcode with rfl | hgt
      · exact absurd hpos (lt_irrefl _)
      · omega
    simp only [compileChunk, List.singleton_append, decompileFrom, hnat, hnot, if_false]
  | push bytes =>
    obtain ⟨hmin, hlen⟩ := hc
    simp only [compileChunk, hmin]
    exact decompileFrom_push hmin hlen n rest

theorem compileChunk_ne_nil (c : Chunk) : compileChunk c ≠ [] := by
  cases c with
  | op code => simp [compileChunk]
  | push bytes =>
    simp only [compileChunk]
    split
    · simp
    · unfold pushdataEncode
      split_ifs <;> simp

theorem length_le_compile (chunks : List Chunk) : chunks.length ≤ (compile chunks).length := by
  induction chunks with
  | nil => simp
  | cons c chunks ih =>
    have hpos := List.length_pos_of_ne_nil (compileChunk_ne_nil c)
    rw [compile, List.flatMap_cons, List.length_append, List.length_cons]
    rw [compile] at ih
    omega

/-- **What is written is read back.** -/
theorem decompile_compile {chunks : List Chunk} (h : ∀ c ∈ chunks, c.Canonical) :
    decompile (compile chunks) = some chunks := by
  have hfuel : ∀ n, chunks.length ≤ n → decompileFrom n (compile chunks) = some chunks := by
    induction chunks with
    | nil =>
      intro n _
      cases n <;> rfl
    | cons c chunks ih =>
      intro n hn
      obtain ⟨n, rfl⟩ := Nat.exists_eq_add_of_le' (Nat.one_le_iff_ne_zero.2 (by
        rintro rfl
        simp at hn) : 1 ≤ n)
      rw [compile, List.flatMap_cons, decompileFrom_compileChunk (h c List.mem_cons_self)]
      have hrest := ih (fun c hc => h c (List.mem_cons_of_mem _ hc)) n (by simpa using hn)
      rw [compile] at hrest
      rw [hrest, Option.map_some]
  exact hfuel _ (length_le_compile chunks)

/-! ### What is read -/

theorem canonical_op_asMinimalOP {bytes : Bytes} {op : ℕ} (h : asMinimalOP bytes = some op) :
    (Chunk.op op).Canonical := by
  unfold asMinimalOP at h
  split at h
  · cases h
    exact ⟨.inl rfl, by decide⟩
  · next b =>
    split_ifs at h with h1 h2
    · cases h
      refine ⟨.inr ?_, ?_⟩ <;> unfold OP_RESERVED <;> first | unfold OP_PUSHDATA4 | skip
      all_goals omega
    · cases h
      exact ⟨.inr (by decide), by decide⟩
  · cases h

theorem canonical_chunkOf {data : Bytes} (h : data.length < 2 ^ 32) : (chunkOf data).Canonical := by
  unfold chunkOf
  split
  · next op hop => exact canonical_op_asMinimalOP hop
  · next hnone => exact ⟨hnone, h⟩

theorem sized_lt {k j : ℕ} {bytes rest : Bytes} (h : sized k bytes = some (j, rest)) :
    j < 256 ^ k := by
  unfold sized at h
  split_ifs at h with hlen
  cases h
  have hlt := readLE_lt (bytes.take k)
  rwa [List.length_take_of_le (not_lt.1 hlen)] at hlt

theorem pushdataDecode_lt {opcode k : ℕ} {bytes rest : Bytes}
    (h : pushdataDecode opcode bytes = some (k, rest)) : k < 2 ^ 32 := by
  unfold pushdataDecode at h
  split_ifs at h with h1 h2 h3
  · cases h
    exact h1.trans (by decide)
  · exact (sized_lt h).trans (by norm_num)
  · exact (sized_lt h).trans (by norm_num)
  · exact (sized_lt h).trans_eq (by norm_num)

theorem pushdataDecode_length {opcode k : ℕ} {bytes rest : Bytes}
    (h : pushdataDecode opcode bytes = some (k, rest)) : rest.length ≤ bytes.length := by
  have hsized {j : ℕ} (hj : sized j bytes = some (k, rest)) : rest.length ≤ bytes.length := by
    unfold sized at hj
    split_ifs at hj
    cases hj
    simp
  unfold pushdataDecode at h
  split_ifs at h
  · cases h
    exact le_rfl
  · exact hsized h
  · exact hsized h
  · exact hsized h

/-- **What is read can be written.** -/
theorem canonical_of_decompileFrom {n : ℕ} {script : Bytes} {chunks : List Chunk}
    (h : decompileFrom n script = some chunks) :
    (∀ c ∈ chunks, c.Canonical) ∧ chunks.length ≤ script.length := by
  induction n generalizing script chunks with
  | zero =>
    cases script with
    | nil =>
      cases h
      simp
    | cons b rest => cases h
  | succ n ih =>
    cases script with
    | nil =>
      cases h
      simp
    | cons b rest =>
      rw [decompileFrom] at h
      split_ifs at h with hb
      · cases hdecode : pushdataDecode b.toNat rest with
        | none => simp [hdecode] at h
        | some r =>
          obtain ⟨k, rest'⟩ := r
          simp only [hdecode] at h
          split_ifs at h with hlen
          obtain ⟨chunks', hchunks, rfl⟩ := Option.map_eq_some_iff.1 h
          obtain ⟨hall, hle⟩ := ih hchunks
          have hk := pushdataDecode_lt hdecode
          have hrest := pushdataDecode_length hdecode
          have hdata : (rest'.take k).length < 2 ^ 32 := by
            rw [List.length_take]
            omega
          refine ⟨List.forall_mem_cons.2 ⟨canonical_chunkOf hdata, hall⟩, ?_⟩
          simp only [List.length_cons, List.length_drop] at hle ⊢
          omega
      · obtain ⟨chunks', hchunks, rfl⟩ := Option.map_eq_some_iff.1 h
        obtain ⟨hall, hle⟩ := ih hchunks
        have hop : (Chunk.op b.toNat).Canonical := by
          refine ⟨?_, b.toNat_lt⟩
          by_cases h0 : b.toNat = OP_0
          · exact .inl h0
          · refine .inr (not_le.1 fun hle => hb ⟨Nat.pos_of_ne_zero h0, hle⟩)
        refine ⟨List.forall_mem_cons.2 ⟨hop, hall⟩, ?_⟩
        simpa using hle

theorem canonical_of_decompile {script : Bytes} {chunks : List Chunk}
    (h : decompile script = some chunks) :
    (∀ c ∈ chunks, c.Canonical) ∧ chunks.length ≤ script.length :=
  canonical_of_decompileFrom h

end Script

end XChainSdk
