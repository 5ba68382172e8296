import XChainSdk.Address.Base58

/-!
# Bech32 and bech32m

* `bech32Polymod` : the checksum, in the 32-bit arithmetic of the source; it is linear over
  exclusive or, so six symbols behind a text can be solved for (`polymod_eq_iff`).
* `regroup` : the five-bit symbols taken eight bits at a time through a 32-bit accumulator;
  `regroups` says that no bit is lost, however long the text.
* `toSymbols` : bytes as five-bit symbols; `padded_regroup_iff` says which symbols they are.
-/

namespace XChainSdk

open Hash

/-! ### The checksum -/

/-- `BECH32_CHARSET` -/
def BECH32_CHARSET : String := "qpzry9x8gf2tvdw0s3jn54khce6mua7l"

/-- `BECH32_CONST` -/
def BECH32_CONST : BitVec 32 := 1

/-- `BECH32M_CONST` -/
def BECH32M_CONST : BitVec 32 := 0x2bc830a3

/-- `BECH32_GEN` -/
def BECH32_GEN : List (BitVec 32) := [0x3b6a57b2, 0x26508e6d, 0x1ea119fa, 0x3d4233dd, 0x2a1462b3]

/-- `if ((top >> i) & 1) chk ^= BECH32_GEN[i]` -/
def addGenerator (top chk : BitVec 32) (g : BitVec 32 × ℕ) : BitVec 32 :=
  if top.sshiftRight g.2 &&& 1#32 = 0#32 then chk else chk ^^^ g.1

/-- One value of the loop. -/
def polymodStep (chk : BitVec 32) (value : ℕ) : BitVec 32 :=
  BECH32_GEN.zipIdx.foldl (addGenerator (chk.sshiftRight 25))
    (((chk &&& 0x1ffffff#32) <<< 5) ^^^ BitVec.ofNat 32 value)

/-- The human-readable part, high bits first. -/
def expandHrp (hrp : String) : List ℕ :=
  (utf16Units hrp).map (· / 32) ++ 0 :: (utf16Units hrp).map (· % 32)

/-- `bech32Polymod(hrp, data)`. -/
def bech32Polymod (hrp : String) (data : List ℕ) : BitVec 32 :=
  (expandHrp hrp ++ data).foldl polymodStep 1

/-! ### The checksum is linear -/

section Linear

variable {gs : List (BitVec 32 × ℕ)}

theorem and_one_eq_zero_iff (x : BitVec 32) : x &&& 1#32 = 0#32 ↔ x.getLsbD 0 = false := by
  rw [BitVec.and_one_eq_setWidth_ofBool_getLsbD]
  cases x.getLsbD 0 <;> decide

theorem addGenerator_eq (top chk : BitVec 32) (g : BitVec 32 × ℕ) :
    addGenerator top chk g = chk ^^^ addGenerator top 0 g := by
  unfold addGenerator
  split_ifs <;> simp

theorem foldl_addGenerator (top chk : BitVec 32) :
    gs.foldl (addGenerator top) chk = chk ^^^ gs.foldl (addGenerator top) 0 := by
  induction gs generalizing chk with
  | nil => simp
  | cons g gs ih =>
    rw [List.foldl_cons, List.foldl_cons, ih, ih (addGenerator top 0 g), addGenerator_eq,
      BitVec.xor_assoc]

theorem addGenerator_xor (s t : BitVec 32) (g : BitVec 32 × ℕ) :
    addGenerator (s ^^^ t) 0 g = addGenerator s 0 g ^^^ addGenerator t 0 g := by
  simp only [addGenerator, and_one_eq_zero_iff, BitVec.sshiftRight_xor_distrib, BitVec.getLsbD_xor]
  cases (s.sshiftRight g.2).getLsbD 0 <;> cases (t.sshiftRight g.2).getLsbD 0 <;> simp

theorem foldl_addGenerator_xor (s t : BitVec 32) : gs.foldl (addGenerator (s ^^^ t)) 0 =
    gs.foldl (addGenerator s) 0 ^^^ gs.foldl (addGenerator t) 0 := by
  induction gs with
  | nil => simp
  | cons g gs ih =>
    simp only [List.foldl_cons]
    rw [foldl_addGenerator, foldl_addGenerator s, foldl_addGenerator t, ih, addGenerator_xor]
    ac_rfl

end Linear

/-- A step without its value. -/
def polymodShift (chk : BitVec 32) : BitVec 32 :=
  ((chk &&& 0x1ffffff#32) <<< 5) ^^^ BECH32_GEN.zipIdx.foldl (addGenerator (chk.sshiftRight 25)) 0

theorem polymodStep_eq (chk : BitVec 32) (value : ℕ) :
    polymodStep chk value = polymodShift chk ^^^ BitVec.ofNat 32 value := by
  rw [polymodStep, foldl_addGenerator, polymodShift]
  ac_rfl

theorem polymodShift_xor (a b : BitVec 32) :
    polymodShift (a ^^^ b) = polymodShift a ^^^ polymodShift b := by
  have hand : (a ^^^ b) &&& 0x1ffffff#32 = (a &&& 0x1ffffff#32) ^^^ (b &&& 0x1ffffff#32) := by
    apply BitVec.eq_of_getLsbD_eq
    intro i _
    simp only [BitVec.getLsbD_and, BitVec.getLsbD_xor, Bool.and_xor_distrib_right]
  rw [polymodShift, hand, BitVec.shiftLeft_xor_distrib, BitVec.sshiftRight_xor_distrib,
    foldl_addGenerator_xor, polymodShift, polymodShift]
  ac_rfl

theorem foldl_zeros_xor (k : ℕ) (a b : BitVec 32) :
    (List.replicate k 0).foldl polymodStep (a ^^^ b) =
      (List.replicate k 0).foldl polymodStep a ^^^ (List.replicate k 0).foldl polymodStep b := by
  have hzero (x : BitVec 32) : polymodStep x 0 = polymodShift x := by
    rw [polymodStep_eq, BitVec.xor_zero]
  induction k generalizing a b with
  | zero => rfl
  | succ k ih => simp only [List.replicate_succ, List.foldl_cons, hzero, polymodShift_xor, ih]

/-- Values read from a state are zeros read from it, and the values read from nothing. -/
theorem foldl_polymodStep (ds : List ℕ) (a : BitVec 32) : ds.foldl polymodStep a =
    (List.replicate ds.length 0).foldl polymodStep a ^^^ ds.foldl polymodStep 0 := by
  have hnone : polymodShift 0 = 0 := by decide
  induction ds generalizing a with
  | nil => simp
  | cons d ds ih =>
    rw [List.length_cons, List.replicate_succ, List.foldl_cons, List.foldl_cons, List.foldl_cons,
      ih, ih (polymodStep 0 d), polymodStep_eq a d, foldl_zeros_xor, polymodStep_eq a 0,
      polymodStep_eq 0 d, hnone]
    rw [BitVec.xor_zero]
    ac_rfl

/-! ### Six symbols behind a text -/

theorem mul_xor_of_lt {x v : ℕ} (hv : v < 32) : x * 32 ^^^ v = x * 32 + v := by
  have hdiv : (x * 32 ^^^ v) / 2 ^ 5 = x := by
    rw [Nat.xor_div_two_pow, Nat.div_eq_of_lt (by omega : v < 2 ^ 5), Nat.xor_zero]
    omega
  have hmod : (x * 32 ^^^ v) % 2 ^ 5 = v := by
    rw [Nat.xor_mod_two_pow, Nat.mod_eq_of_lt (by omega : v < 2 ^ 5)]
    rw [show x * 32 % 2 ^ 5 = 0 by omega, Nat.zero_xor]
  omega

/-- With room above it, a state takes a symbol as its lowest digit. -/
theorem toNat_polymodStep {chk : BitVec 32} {v : ℕ} (hchk : chk.toNat < 2 ^ 25) (hv : v < 32) :
    (polymodStep chk v).toNat = chk.toNat * 32 + v := by
  have htop : chk.sshiftRight 25 = 0 := by
    rw [BitVec.sshiftRight_eq_of_msb_false (BitVec.msb_eq_false_iff_two_mul_lt.2 (by omega))]
    apply BitVec.eq_of_toNat_eq
    rw [BitVec.toNat_ushiftRight, Nat.shiftRight_eq_div_pow, Nat.div_eq_of_lt hchk]
    rfl
  have hnone : BECH32_GEN.zipIdx.foldl (addGenerator 0) 0 = 0#32 := by decide
  have hmask : (chk &&& 0x1ffffff#32).toNat = chk.toNat := by
    rw [BitVec.toNat_and]
    exact Nat.and_two_pow_sub_one_of_lt_two_pow hchk
  rw [polymodStep, htop, foldl_addGenerator, hnone, BitVec.xor_zero, BitVec.toNat_xor,
    BitVec.toNat_shiftLeft, hmask, BitVec.toNat_ofNat, Nat.shiftLeft_eq,
    Nat.mod_eq_of_lt (by omega : chk.toNat * 2 ^ 5 < 2 ^ 32),
    Nat.mod_eq_of_lt (by omega : v < 2 ^ 32)]
  exact mul_xor_of_lt hv

theorem toNat_foldl_polymodStep {ds : List ℕ} (hlen : ds.length ≤ 6) (h : ∀ d ∈ ds, d < 32) :
    (ds.foldl polymodStep 0).toNat = Radix.value 32 ds := by
  induction ds using List.reverseRecOn with
  | nil => rfl
  | append_singleton ds d ih =>
    have hlen' : ds.length ≤ 5 := by
      rw [List.length_append, List.length_singleton] at hlen
      omega
    have hfirst := ih (by omega) fun e he => h e (by simp [he])
    have hroom : Radix.value 32 ds < 2 ^ 25 := calc
      Radix.value 32 ds < 32 ^ ds.length := Radix.value_lt fun e he => h e (by simp [he])
      _ ≤ 32 ^ 5 := Nat.pow_le_pow_right (by omega) hlen'
      _ = 2 ^ 25 := by norm_num
    rw [List.foldl_append, List.foldl_cons, List.foldl_nil, Radix.value_concat,
      toNat_polymodStep (by rwa [hfirst]) (h d (by simp)), hfirst]

theorem foldl_addGenerator_lt {gs : List (BitVec 32 × ℕ)} (hgs : ∀ g ∈ gs, g.1.toNat < 2 ^ 30)
    {top chk : BitVec 32} (hchk : chk.toNat < 2 ^ 30) :
    (gs.foldl (addGenerator top) chk).toNat < 2 ^ 30 := by
  induction gs generalizing chk with
  | nil => exact hchk
  | cons g gs ih =>
    refine ih (fun g hg => hgs g (by simp [hg])) ?_
    unfold addGenerator
    split_ifs
    · exact hchk
    · rw [BitVec.toNat_xor]
      exact Nat.xor_lt_two_pow hchk (hgs g (by simp))

/-- The checksum has thirty bits. -/
theorem polymodStep_lt (chk : BitVec 32) {v : ℕ} (hv : v < 2 ^ 30) :
    (polymodStep chk v).toNat < 2 ^ 30 := by
  refine foldl_addGenerator_lt (by decide) ?_
  have hmask : (chk &&& 0x1ffffff#32).toNat < 2 ^ 25 := by
    rw [BitVec.toNat_and]
    exact Nat.and_lt_two_pow _ (by decide)
  rw [BitVec.toNat_xor, BitVec.toNat_shiftLeft, BitVec.toNat_ofNat, Nat.shiftLeft_eq]
  refine Nat.xor_lt_two_pow ?_ ?_ <;> omega

theorem foldl_polymodStep_lt {ds : List ℕ} (hds : ∀ d ∈ ds, d < 2 ^ 30) {chk : BitVec 32}
    (hchk : chk.toNat < 2 ^ 30) : (ds.foldl polymodStep chk).toNat < 2 ^ 30 := by
  induction ds generalizing chk with
  | nil => exact hchk
  | cons d ds ih => exact ih (fun d hd => hds d (by simp [hd])) (polymodStep_lt chk (hds d (by simp)))

/-- The six symbols that bring the checksum of a text to `const`. -/
def checksumSymbols (const : BitVec 32) (hrp : String) (data : List ℕ) : List ℕ :=
  Radix.fixed 32 6 (bech32Polymod hrp (data ++ List.replicate 6 0) ^^^ const).toNat

theorem lt_of_mem_utf16Units {s : String} {u : ℕ} (h : u ∈ utf16Units s) : u < 2 ^ 16 := by
  obtain ⟨c, -, h⟩ := List.mem_flatMap.1 h
  have hc : c.toNat < 0x110000 := c.valid.elim (fun h => by
    exact lt_trans h (by norm_num)) fun h => h.2
  split_ifs at h with hsmall
  · rw [List.mem_singleton.1 h]
    exact hsmall
  · simp only [List.mem_cons, List.not_mem_nil, or_false] at h
    omega

theorem lt_of_mem_expandHrp {hrp : String} {v : ℕ} (h : v ∈ expandHrp hrp) : v < 2 ^ 30 := by
  simp only [expandHrp, List.mem_append, List.mem_cons, List.mem_map] at h
  rcases h with ⟨u, hu, rfl⟩ | rfl | ⟨u, hu, rfl⟩
  · have := lt_of_mem_utf16Units hu
    omega
  · norm_num
  · omega

/-- **Six symbols meet the checksum when they are the checksum symbols.** -/
theorem polymod_eq_iff {const : BitVec 32} (hconst : const.toNat < 2 ^ 30) {hrp : String}
    {data sum : List ℕ} (hdata : ∀ d ∈ data, d < 32) (hlen : sum.length = 6)
    (hsum : ∀ d ∈ sum, d < 32) :
    bech32Polymod hrp (data ++ sum) = const ↔ sum = checksumSymbols const hrp data := by
  have hsplit : bech32Polymod hrp (data ++ sum) =
      bech32Polymod hrp (data ++ List.replicate 6 0) ^^^ sum.foldl polymodStep 0 := by
    have happend (ds : List ℕ) : bech32Polymod hrp (data ++ ds) =
        ds.foldl polymodStep (bech32Polymod hrp data) := by
      rw [bech32Polymod, bech32Polymod, ← List.append_assoc, List.foldl_append]
    rw [happend, happend, foldl_polymodStep sum, hlen]
  have hbound : (bech32Polymod hrp (data ++ List.replicate 6 0) ^^^ const).toNat < 32 ^ 6 := by
    rw [BitVec.toNat_xor]
    refine Nat.xor_lt_two_pow (foldl_polymodStep_lt (fun d hd => ?_) (by decide)) hconst
    rcases List.mem_append.1 hd with hd | hd
    · exact lt_of_mem_expandHrp hd
    rcases List.mem_append.1 hd with hd | hd
    · have := hdata d hd
      omega
    · rw [List.eq_of_mem_replicate hd]
      norm_num
  have hsolve : bech32Polymod hrp (data ++ sum) = const ↔
      sum.foldl polymodStep 0 = bech32Polymod hrp (data ++ List.replicate 6 0) ^^^ const := by
    rw [hsplit]
    constructor
    · rintro rfl
      rw [← BitVec.xor_assoc, BitVec.xor_self, BitVec.zero_xor]
    · intro h
      rw [h, ← BitVec.xor_assoc, BitVec.xor_self, BitVec.zero_xor]
  rw [hsolve, ← BitVec.toNat_inj, toNat_foldl_polymodStep hlen.le hsum, checksumSymbols]
  constructor
  · intro h
    rw [← h, ← hlen, Radix.fixed_value hsum]
  · intro h
    rw [h, Radix.value_fixed_of_lt hbound]

/-! ### From five bits to eight -/

/-- Bits that are waiting in the accumulator, and the bytes so far. -/
structure BitBuffer where
  bits : ℕ
  acc : BitVec 32
  program : Bytes

/-- `while(bits>=8){ bits -= 8; program.push((acc>>bits)&0xff); }` -/
def drain (acc : BitVec 32) : ℕ → Bytes → ℕ × Bytes
  | bits + 8, program =>
    drain acc bits (program ++ [UInt8.ofNat (acc.sshiftRight bits &&& 0xff#32).toNat])
  | bits, program => (bits, program)

/-- One symbol of the program. -/
def regroupStep (s : BitBuffer) (value : ℕ) : BitBuffer :=
  let acc := (s.acc <<< 5) ||| BitVec.ofNat 32 value
  let (bits, program) := drain acc (s.bits + 5) s.program
  ⟨bits, acc, program⟩

/-- The symbols of a program as bytes. -/
def regroup (data : List ℕ) : BitBuffer := data.foldl regroupStep ⟨0, 0, []⟩

/-- The bits that the bytes leave in the accumulator. -/
def BitBuffer.rest (s : BitBuffer) : ℕ := s.acc.toNat % 2 ^ s.bits

/-- The number that bytes spell. -/
def bytesValue (bs : Bytes) : ℕ := Radix.value 256 (bs.map UInt8.toNat)

/-- The accumulator ends in the bits that were read, as many as it holds. -/
structure Regroups (data : List ℕ) (s : BitBuffer) : Prop where
  acc : s.acc.toNat = Radix.value 32 data % 2 ^ 32
  value : bytesValue s.program = Radix.value 32 data / 2 ^ s.bits
  bits : 8 * s.program.length + s.bits = 5 * data.length
  short : s.bits < 8

theorem toNat_shift_or {acc : BitVec 32} {n v : ℕ} (hacc : acc.toNat = n % 2 ^ 32) (hv : v < 32) :
    ((acc <<< 5) ||| BitVec.ofNat 32 v).toNat = (n * 32 + v) % 2 ^ 32 := by
  have hshift : (acc <<< 5).toNat = n % 2 ^ 27 * 32 := by
    rw [BitVec.toNat_shiftLeft, hacc, Nat.shiftLeft_eq]
    omega
  rw [BitVec.toNat_or, hshift, BitVec.toNat_ofNat, Nat.mod_eq_of_lt (by omega : v < 2 ^ 32),
    Nat.mul_comm, ← Nat.two_pow_add_eq_or_of_lt (i := 5) hv]
  omega

/-- A byte of the accumulator, whatever the shift has pulled in from its sign. -/
theorem toNat_shifted_byte {acc : BitVec 32} {n bits : ℕ} (hacc : acc.toNat = n % 2 ^ 32)
    (hbits : bits ≤ 24) :
    (acc.sshiftRight bits &&& 0xff#32).toNat = n / 2 ^ bits % 256 := by
  have hlow : acc.sshiftRight bits &&& 0xff#32 = acc >>> bits &&& 0xff#32 := by
    apply BitVec.eq_of_getLsbD_eq
    intro i hi
    have hff : (0xff#32).getLsbD i = decide (i < 8) := by
      revert i; decide
    rw [BitVec.getLsbD_and, BitVec.getLsbD_and, hff, BitVec.getLsbD_sshiftRight,
      BitVec.getLsbD_ushiftRight]
    by_cases h8 : i < 8
    · simp [h8, hi, show bits + i < 32 by omega]
    · simp [h8]
  have hpow : 2 ^ bits * 256 ∣ 2 ^ 32 := by
    have : (2 : ℕ) ^ bits * 2 ^ 8 ∣ 2 ^ 32 := by
      rw [← pow_add]
      exact pow_dvd_pow 2 (by omega)
    exact this
  rw [hlow, BitVec.toNat_and, BitVec.toNat_ushiftRight, hacc, Nat.shiftRight_eq_div_pow]
  rw [show (0xff#32 : BitVec 32).toNat = 2 ^ 8 - 1 from rfl, Nat.and_two_pow_sub_one_eq_mod,
    ← Nat.mod_mul_right_div_self, ← Nat.mod_mul_right_div_self, Nat.mod_mod_of_dvd _ hpow]

theorem bytesValue_concat (bs : Bytes) (b : UInt8) :
    bytesValue (bs ++ [b]) = bytesValue bs * 256 + b.toNat := by
  rw [bytesValue, List.map_append, List.map_singleton, Radix.value_concat, bytesValue]

theorem add_symbol_div {n v : ℕ} (hv : v < 32) (k : ℕ) :
    (n * 32 + v) / 2 ^ (k + 5) = n / 2 ^ k := by
  have hv5 : (n * 32 + v) / 2 ^ 5 = n := by omega
  rw [Nat.pow_add, Nat.mul_comm (2 ^ k), ← Nat.div_div_eq_div_mul, hv5]

/-- One symbol more: no byte is full yet, or one is. -/
theorem Regroups.step {data : List ℕ} {s : BitBuffer} (h : Regroups data s) {v : ℕ} (hv : v < 32) :
    Regroups (data ++ [v]) (regroupStep s v) := by
  have hacc := toNat_shift_or h.acc hv
  have hnum : Radix.value 32 (data ++ [v]) = Radix.value 32 data * 32 + v := Radix.value_concat _ _
  have hshort := h.short
  have hbits := h.bits
  by_cases hfew : s.bits ≤ 2
  · have hdrain : drain ((s.acc <<< 5) ||| BitVec.ofNat 32 v) (s.bits + 5) s.program =
        (s.bits + 5, s.program) := by
      interval_cases s.bits <;> rfl
    have hstep : regroupStep s v =
        ⟨s.bits + 5, (s.acc <<< 5) ||| BitVec.ofNat 32 v, s.program⟩ := by
      rw [regroupStep, hdrain]
    rw [hstep]
    refine ⟨by rw [hacc, hnum], ?_, ?_, by dsimp only; omega⟩
    · rw [hnum, add_symbol_div hv, h.value]
    · rw [List.length_append, List.length_singleton]
      dsimp only
      omega
  · obtain ⟨k, hk⟩ : ∃ k, s.bits = k + 3 := ⟨s.bits - 3, by omega⟩
    set acc := (s.acc <<< 5) ||| BitVec.ofNat 32 v with hdef
    have hdrain : drain acc (s.bits + 5) s.program =
        (k, s.program ++ [UInt8.ofNat (acc.sshiftRight k &&& 0xff#32).toNat]) := by
      have hk5 : k < 5 := by omega
      rw [hk, show k + 3 + 5 = k + 8 by omega]
      interval_cases k <;> rfl
    have hstep : regroupStep s v =
        ⟨k, acc, s.program ++ [UInt8.ofNat (acc.sshiftRight k &&& 0xff#32).toNat]⟩ := by
      rw [regroupStep, ← hdef, hdrain]
    have hbyte := toNat_shifted_byte hacc (by omega : k ≤ 24)
    rw [hstep]
    refine ⟨by rw [hacc, hnum], ?_, ?_, by dsimp only; omega⟩
    · have hfull : Radix.value 32 data / 2 ^ s.bits =
          (Radix.value 32 data * 32 + v) / 2 ^ k / 256 := by
        rw [hk, ← add_symbol_div hv, Nat.div_div_eq_div_mul, show k + 3 + 5 = k + 8 by omega,
          Nat.pow_add]
      rw [bytesValue_concat, hbyte, UInt8.toNat_ofNat', h.value, hfull, hnum]
      dsimp only
      omega
    · simp only [List.length_append, List.length_singleton]
      omega

/-- **The accumulator loses no bit**, for texts of any length. -/
theorem regroups {data : List ℕ} (h : ∀ d ∈ data, d < 32) : Regroups data (regroup data) := by
  induction data using List.reverseRecOn with
  | nil => exact ⟨rfl, rfl, rfl, by decide⟩
  | append_singleton data v ih =>
    rw [regroup, List.foldl_append, List.foldl_cons, List.foldl_nil]
    exact (ih fun d hd => h d (by simp [hd])).step (h v (by simp))

theorem Regroups.rest {data : List ℕ} {s : BitBuffer} (h : Regroups data s) :
    s.rest = Radix.value 32 data % 2 ^ s.bits := by
  have hshort := h.short
  rw [BitBuffer.rest, h.acc, Nat.mod_mod_of_dvd _ (pow_dvd_pow 2 (by omega))]

/-! ### Padding -/

/-- A program as five-bit symbols, the last one filled up with zero bits. -/
def toSymbols (program : Bytes) : List ℕ :=
  let n := (8 * program.length + 4) / 5
  Radix.fixed 32 n (bytesValue program * 2 ^ (5 * n - 8 * program.length))

/-- `bits>=5 || ((acc<<(8-bits))&0xff)` does not hold. -/
def BitBuffer.Padded (s : BitBuffer) : Prop :=
  s.bits < 5 ∧ (s.acc <<< (8 - s.bits)) &&& 0xff#32 = 0#32

instance (s : BitBuffer) : Decidable s.Padded := inferInstanceAs (Decidable (_ ∧ _))

theorem lt_of_mem_bytes {program : Bytes} {d : ℕ} (h : d ∈ program.map UInt8.toNat) : d < 256 := by
  obtain ⟨x, -, rfl⟩ := List.mem_map.1 h
  exact x.toNat_lt

theorem bytesValue_lt (program : Bytes) : bytesValue program < 256 ^ program.length := by
  have := @Radix.value_lt 256 (program.map UInt8.toNat) fun d => lt_of_mem_bytes
  rwa [List.length_map] at this

theorem padded_iff {data : List ℕ} {s : BitBuffer} (h : Regroups data s) :
    s.Padded ↔ s.bits < 5 ∧ s.rest = 0 := by
  have hshort := h.short
  refine and_congr_right fun _ => ?_
  have hpow : (256 : ℕ) = 2 ^ s.bits * 2 ^ (8 - s.bits) := by
    rw [← pow_add, show s.bits + (8 - s.bits) = 8 by omega]
    rfl
  have hmask : ((s.acc <<< (8 - s.bits)) &&& 0xff#32).toNat = s.rest * 2 ^ (8 - s.bits) := by
    rw [BitVec.toNat_and, show (0xff#32 : BitVec 32).toNat = 2 ^ 8 - 1 from rfl,
      Nat.and_two_pow_sub_one_eq_mod, BitVec.toNat_shiftLeft, Nat.shiftLeft_eq,
      Nat.mod_mod_of_dvd _ (by norm_num), show (2 : ℕ) ^ 8 = 256 from rfl, hpow,
      Nat.mul_mod_mul_right, BitBuffer.rest]
  rw [← BitVec.toNat_inj, hmask]
  simp

/-- **Symbols are those of their program exactly when they are well padded.** -/
theorem padded_regroup_iff {data : List ℕ} (h : ∀ d ∈ data, d < 32) (program : Bytes) :
    (regroup data).Padded ∧ (regroup data).program = program ↔ toSymbols program = data := by
  have hr := regroups h
  have hbits := hr.bits
  have hshort := hr.short
  have hvalue := hr.value
  rw [padded_iff hr, hr.rest]
  generalize regroup data = s at hbits hshort hvalue ⊢
  constructor
  · rintro ⟨⟨hfive, hzero⟩, rfl⟩
    have hlen : (8 * s.program.length + 4) / 5 = data.length := by omega
    have hpad : 5 * data.length - 8 * s.program.length = s.bits := by omega
    have hwhole : bytesValue s.program * 2 ^ s.bits = Radix.value 32 data := by
      rw [hvalue, Nat.div_mul_cancel (Nat.dvd_of_mod_eq_zero hzero)]
    rw [toSymbols, hlen, hpad, hwhole, Radix.fixed_value h]
  · rintro rfl
    have hlen : (toSymbols program).length = (8 * program.length + 4) / 5 := Radix.length_fixed _ _
    rw [hlen] at hbits
    have hprog : s.program.length = program.length := by omega
    have hpad : 5 * ((8 * program.length + 4) / 5) - 8 * program.length = s.bits := by omega
    have hroom : bytesValue program * 2 ^ s.bits < 32 ^ ((8 * program.length + 4) / 5) := by
      have hpow : 32 ^ ((8 * program.length + 4) / 5) = 256 ^ program.length * 2 ^ s.bits := by
        rw [show (32 : ℕ) = 2 ^ 5 from rfl, show (256 : ℕ) = 2 ^ 8 from rfl, ← pow_mul, ← pow_mul,
          ← pow_add]
        congr 1
        omega
      rw [hpow]
      exact Nat.mul_lt_mul_of_pos_right (bytesValue_lt program) (by positivity)
    have hwhole : Radix.value 32 (toSymbols program) = bytesValue program * 2 ^ s.bits := by
      rw [toSymbols, hpad, Radix.value_fixed_of_lt hroom]
    rw [hwhole, Nat.mul_div_cancel _ (by positivity)] at hvalue
    refine ⟨⟨by omega, by rw [hwhole, Nat.mul_mod_left]⟩, ?_⟩
    have hmap : s.program.map UInt8.toNat = program.map UInt8.toNat :=
      Radix.value_inj (by rw [List.length_map, List.length_map, hprog])
        (fun d => lt_of_mem_bytes) (fun d => lt_of_mem_bytes) hvalue
    exact List.map_injective_iff.2 (fun _ _ => UInt8.toNat_inj.1) hmap

end XChainSdk
