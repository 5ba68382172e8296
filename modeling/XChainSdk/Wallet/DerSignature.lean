import XChainSdk.Lib.Bytes
import XChainSdk.Lib.Radix

/-!
# Signatures of a fixed length and their strict encoding

A signer returns two numbers of 32 bytes each; a transaction carries them in the strict encoding,
in which every pair of numbers has one spelling and nodes refuse any other.

* `Der.readSignature` : the strict reader: short lengths, no negative numbers, no zero to spare,
  nothing left over.
* `compactToDer`, `trimLeading` : the program's writer.
* `Der.eq_of_number_eq` : a number has one strict spelling.
* `readSignature_iff_compactToDer` : the reader takes exactly what the writer writes.
-/

namespace XChainSdk

open Hash

/-! ### The strict reader -/

namespace Der

/-- The number that bytes spell, the most significant first. -/
def number (bytes : Bytes) : ℕ := Radix.value 256 (bytes.map UInt8.toNat)

/-- The bytes are a strict integer: there are some, the sign bit is clear, and a leading zero is
there for the sign bit only. -/
def isInteger : Bytes → Bool
  | [] => false
  | [b] => b < 0x80
  | b :: c :: _ => b < 0x80 && (b != 0 || 0x80 ≤ c)

/-- Reads an integer from the front, with what follows it. -/
def readInteger : Bytes → Option (ℕ × Bytes)
  | tag :: len :: rest =>
    if tag = 0x02 ∧ len < 0x80 ∧ len.toNat ≤ rest.length ∧ isInteger (rest.take len.toNat) then
      some (number (rest.take len.toNat), rest.drop len.toNat)
    else none
  | _ => none

/-- Reads a signature: a sequence of two integers, of at most 72 bytes. -/
def readSignature : Bytes → Option (ℕ × ℕ)
  | tag :: len :: body =>
    if tag = 0x30 ∧ len.toNat = body.length ∧ body.length ≤ 70 then
      match readInteger body with
      | none => none
      | some (r, rest) =>
        match readInteger rest with
        | some (s, []) => some (r, s)
        | _ => none
    else none
  | _ => none

end Der

/-! ### The writer -/

/-- The loop of `trimLeading`: a zero goes while the byte after it leaves the sign bit clear. -/
def dropZeros : Bytes → Bytes
  | b :: c :: rest => if b = 0 ∧ c < 0x80 then dropZeros (c :: rest) else b :: c :: rest
  | bytes => bytes

/-- `trimLeading` -/
def trimLeading (bytes : Bytes) : Bytes :=
  match dropZeros bytes with
  | [] => []
  | b :: rest => if 0x80 ≤ b then 0 :: b :: rest else b :: rest

/-- `compactToDer` -/
def compactToDer (compact : Bytes) : Bytes :=
  let r := trimLeading (compact.take 32)
  let s := trimLeading ((compact.drop 32).take 32)
  let inner := 0x02 :: UInt8.ofNat r.length :: (r ++ 0x02 :: UInt8.ofNat s.length :: s)
  0x30 :: UInt8.ofNat inner.length :: inner

/-! ### One spelling for a number -/

namespace Der

theorem number_cons (b : UInt8) (rest : Bytes) :
    number (b :: rest) = b.toNat * 256 ^ rest.length + number rest := by
  have h := Radix.value_append (b := 256) [b.toNat] (rest.map UInt8.toNat)
  rw [List.length_map] at h
  simpa [number, Radix.value] using h

@[simp] theorem number_zero_cons (rest : Bytes) : number (0 :: rest) = number rest := by
  simp [number_cons]

theorem number_lt (bytes : Bytes) : number bytes < 256 ^ bytes.length := by
  have hall : ∀ d ∈ bytes.map UInt8.toNat, d < 256 := by
    intro d hd
    obtain ⟨b, -, rfl⟩ := List.mem_map.1 hd
    exact b.toNat_lt
  have h := Radix.value_lt hall
  simpa [number] using h

/-- Bytes of one length that spell one number are the same. -/
theorem eq_of_length_eq {xs ys : Bytes} (hlen : xs.length = ys.length)
    (h : number xs = number ys) : xs = ys := by
  have hlt (bytes : Bytes) : ∀ d ∈ bytes.map UInt8.toNat, d < 256 := fun d hd => by
    obtain ⟨b, -, rfl⟩ := List.mem_map.1 hd
    exact b.toNat_lt
  have hmap := Radix.value_inj (by simpa using hlen) (hlt xs) (hlt ys) h
  exact List.map_injective_iff.2 (fun _ _ hb => UInt8.toNat_inj.1 hb) hmap

/-- A strict integer is not the number of a shorter one: its second half byte is in use. -/
theorem half_le_number {b : UInt8} {rest : Bytes} (h : isInteger (b :: rest) = true)
    (hrest : rest ≠ []) : 128 * 256 ^ (rest.length - 1) ≤ number (b :: rest) := by
  obtain ⟨c, rest, rfl⟩ := List.exists_cons_of_ne_nil hrest
  have hshape : b < 0x80 ∧ (b ≠ 0 ∨ 0x80 ≤ c) := by simpa [isInteger] using h
  rw [number_cons, number_cons]
  simp only [List.length_cons, Nat.add_sub_cancel]
  rcases hshape.2 with hb | hc
  · -- the first byte counts
    have hpos : 1 ≤ b.toNat := Nat.one_le_iff_ne_zero.2 fun h0 => hb (UInt8.toNat_inj.1 h0)
    calc 128 * 256 ^ rest.length ≤ 1 * 256 ^ (rest.length + 1) := by rw [pow_succ]; omega
      _ ≤ b.toNat * 256 ^ (rest.length + 1) := Nat.mul_le_mul_right _ hpos
      _ ≤ _ := Nat.le_add_right _ _
  · -- the sign bit of the second byte is what the leading zero is for
    have hc' : 128 ≤ c.toNat := UInt8.le_iff_toNat_le.1 hc
    calc 128 * 256 ^ rest.length ≤ c.toNat * 256 ^ rest.length := Nat.mul_le_mul_right _ hc'
      _ ≤ _ := by omega

theorem number_lt_half {b : UInt8} {rest : Bytes} (h : isInteger (b :: rest) = true) :
    number (b :: rest) < 128 * 256 ^ rest.length := by
  have hb : b.toNat < 128 := by
    cases rest with
    | nil => simpa [isInteger, UInt8.lt_iff_toNat_lt] using h
    | cons c rest =>
      have hshape : b < 0x80 ∧ (b ≠ 0 ∨ 0x80 ≤ c) := by simpa [isInteger] using h
      exact UInt8.lt_iff_toNat_lt.1 hshape.1
  have hrest := number_lt rest
  rw [number_cons]
  calc b.toNat * 256 ^ rest.length + number rest < (b.toNat + 1) * 256 ^ rest.length := by
        rw [add_mul]; omega
    _ ≤ 128 * 256 ^ rest.length := Nat.mul_le_mul_right _ (by omega)

/-- **A number has one strict spelling.** -/
theorem eq_of_number_eq {xs ys : Bytes} (hxs : isInteger xs = true) (hys : isInteger ys = true)
    (h : number xs = number ys) : xs = ys := by
  -- a longer spelling is of a larger number
  have hle {xs ys : Bytes} (hxs : isInteger xs = true) (hys : isInteger ys = true)
      (h : number xs = number ys) : ys.length ≤ xs.length := by
    cases xs with
    | nil => cases hxs
    | cons b xs =>
      cases ys with
      | nil => cases hys
      | cons c ys =>
        by_contra hlt
        simp only [List.length_cons, not_le, add_lt_add_iff_right] at hlt
        have hpos : ys ≠ [] := List.ne_nil_of_length_pos (by omega)
        have hbig := half_le_number hys hpos
        have hsmall := number_lt_half hxs
        have hpow : 256 ^ xs.length ≤ 256 ^ (ys.length - 1) :=
          Nat.pow_le_pow_right (by decide) (by omega)
        omega
  exact eq_of_length_eq (le_antisymm (hle hys hxs h.symm) (hle hxs hys h)) h

end Der

/-! ### Trimmed bytes -/

theorem number_dropZeros (bytes : Bytes) : Der.number (dropZeros bytes) = Der.number bytes := by
  fun_induction dropZeros bytes with
  | case1 b c rest h ih =>
    rw [ih, h.1, Der.number_zero_cons]
  | case2 b c rest h => rfl
  | case3 bytes h => rfl

theorem length_dropZeros_le (bytes : Bytes) : (dropZeros bytes).length ≤ bytes.length := by
  fun_induction dropZeros bytes with
  | case1 b c rest h ih => exact ih.trans (Nat.le_succ _)
  | case2 b c rest h => exact le_rfl
  | case3 bytes h => exact le_rfl

/-- After the loop a zero is followed by a set sign bit. -/
theorem dropZeros_shape {bytes : Bytes} (hne : bytes ≠ []) :
    ∃ b rest, dropZeros bytes = b :: rest ∧
      (0x80 ≤ b ∨ Der.isInteger (b :: rest) = true) := by
  fun_induction dropZeros bytes with
  | case1 b c rest h ih => exact ih (List.cons_ne_nil _ _)
  | case2 b c rest h =>
    refine ⟨b, c :: rest, rfl, ?_⟩
    by_cases hb : 0x80 ≤ b
    · exact .inl hb
    · refine .inr ?_
      have hlt : b < 0x80 := UInt8.not_le.1 hb
      by_cases h0 : b = 0
      · have hc : 0x80 ≤ c := UInt8.not_lt.1 fun hc => h ⟨h0, hc⟩
        simp [Der.isInteger, hlt, hc]
      · simp [Der.isInteger, hlt, h0]
  | case3 bytes h =>
    match bytes, h with
    | [], _ => exact absurd rfl hne
    | [b], _ =>
      refine ⟨b, [], rfl, ?_⟩
      by_cases hb : 0x80 ≤ b
      · exact .inl hb
      · exact .inr (by simpa [Der.isInteger] using UInt8.not_le.1 hb)
    | b :: c :: rest, h => exact absurd rfl (h b c rest)

/-- **Trimmed bytes are the strict spelling of the number.** -/
theorem trimLeading_spec {bytes : Bytes} (hne : bytes ≠ []) :
    Der.isInteger (trimLeading bytes) = true ∧
      Der.number (trimLeading bytes) = Der.number bytes ∧
      (trimLeading bytes).length ≤ bytes.length + 1 := by
  obtain ⟨b, rest, hdrop, hshape⟩ := dropZeros_shape hne
  have hnumber := number_dropZeros bytes
  have hlength := length_dropZeros_le bytes
  rw [hdrop] at hnumber hlength
  unfold trimLeading
  rw [hdrop]
  by_cases hb : 0x80 ≤ b
  · simp only [hb, if_true]
    refine ⟨by simp [Der.isInteger, hb], ?_, Nat.succ_le_succ hlength⟩
    rw [Der.number_zero_cons, hnumber]
  · simp only [hb, if_false]
    exact ⟨hshape.resolve_left hb, hnumber, Nat.le_succ_of_le hlength⟩

/-! ### What the reader takes -/

namespace Der

/-- An integer with a short length is read back. -/
theorem readInteger_cons {bytes : Bytes} (hint : isInteger bytes = true)
    (hlen : bytes.length < 0x80) (rest : Bytes) :
    readInteger (0x02 :: UInt8.ofNat bytes.length :: (bytes ++ rest)) =
      some (number bytes, rest) := by
  have hnat : (UInt8.ofNat bytes.length).toNat = bytes.length := by
    rw [UInt8.toNat_ofNat', Nat.mod_eq_of_lt (hlen.trans (by decide))]
  have hlt : UInt8.ofNat bytes.length < 0x80 := by
    rw [UInt8.lt_iff_toNat_lt, hnat]
    exact hlen
  simp only [readInteger, hnat, hlt, List.take_left', List.drop_left', hint, List.length_append,
    Nat.le_add_right, and_self, if_true]

/-- What is read as an integer is a tag, a length and strict bytes. -/
theorem readInteger_eq_some {input rest : Bytes} {n : ℕ} (h : readInteger input = some (n, rest)) :
    ∃ bytes, isInteger bytes = true ∧ number bytes = n ∧
      input = 0x02 :: UInt8.ofNat bytes.length :: (bytes ++ rest) := by
  unfold readInteger at h
  split at h
  · next tag len body =>
    split_ifs at h with hok
    obtain ⟨rfl, -, hle, hint⟩ := hok
    cases h
    refine ⟨body.take len.toNat, hint, rfl, ?_⟩
    rw [List.length_take_of_le hle, UInt8.ofNat_toNat, List.take_append_drop]
  · cases h

/-- A signature is read exactly from the strict spellings of its two numbers. -/
theorem readSignature_iff {r s : Bytes} (hr : isInteger r = true) (hs : isInteger s = true)
    (hlen : r.length + s.length ≤ 66) {sig : Bytes} :
    readSignature sig = some (number r, number s) ↔
      sig = 0x30 :: UInt8.ofNat (r.length + s.length + 4) :: 0x02 :: UInt8.ofNat r.length ::
        (r ++ 0x02 :: UInt8.ofNat s.length :: s) := by
  constructor
  · intro h
    unfold readSignature at h
    split at h
    · next tag len body =>
      split_ifs at h with hok
      obtain ⟨rfl, hbody, -⟩ := hok
      split at h
      · cases h
      · next n rest hfirst =>
        split at h
        · next m hsecond =>
          cases h
          obtain ⟨r', hr', hrn, rfl⟩ := readInteger_eq_some hfirst
          obtain ⟨s', hs', hsn, rfl⟩ := readInteger_eq_some hsecond
          obtain rfl := eq_of_number_eq hr' hr hrn
          obtain rfl := eq_of_number_eq hs' hs hsn
          have hlen' : len = UInt8.ofNat (r'.length + s'.length + 4) := by
            rw [← UInt8.ofNat_toNat (x := len), hbody]
            congr 1
            simp only [List.length_cons, List.length_append, List.length_nil]
            omega
          rw [hlen', List.append_nil]
        · cases h
    · cases h
  · rintro rfl
    have hnat : (UInt8.ofNat (r.length + s.length + 4)).toNat = r.length + s.length + 4 := by
      rw [UInt8.toNat_ofNat', Nat.mod_eq_of_lt (by omega)]
    have hsecond := readInteger_cons hs (by omega) []
    rw [List.append_nil] at hsecond
    have hfirst := readInteger_cons hr (by omega) (0x02 :: UInt8.ofNat s.length :: s)
    have hbody : (0x02 :: UInt8.ofNat r.length ::
        (r ++ 0x02 :: UInt8.ofNat s.length :: s)).length = r.length + s.length + 4 := by
      simp only [List.length_cons, List.length_append]
      omega
    have hle : r.length + s.length + 4 ≤ 70 := by omega
    simp only [readSignature, hnat, hbody, hle, and_self, if_true, hfirst, hsecond]

end Der

/-- **The strict reader takes exactly what the writer writes**: for every pair of 32-byte numbers
the one signature that is read as the pair is `compactToDer` of it. -/
theorem readSignature_iff_compactToDer (r s sig : Bytes) (hr : r.length = 32)
    (hs : s.length = 32) :
    Der.readSignature sig = some (Der.number r, Der.number s) ↔ sig = compactToDer (r ++ s) := by
  have hne {bytes : Bytes} (h : bytes.length = 32) : bytes ≠ [] := by
    rintro rfl
    cases h
  obtain ⟨hrint, hrnum, hrlen⟩ := trimLeading_spec (hne hr)
  obtain ⟨hsint, hsnum, hslen⟩ := trimLeading_spec (hne hs)
  rw [hr] at hrlen
  rw [hs] at hslen
  have htake : (r ++ s).take 32 = r := List.take_left' hr
  have hdrop : ((r ++ s).drop 32).take 32 = s := by
    rw [List.drop_left' hr, List.take_of_length_le hs.le]
  rw [← hrnum, ← hsnum, Der.readSignature_iff hrint hsint (by omega)]
  simp only [compactToDer, htake, hdrop, List.length_cons, List.length_append]
  have hsum : (trimLeading r).length + ((trimLeading s).length + 1 + 1) + 1 + 1 =
      (trimLeading r).length + (trimLeading s).length + 4 := by omega
  rw [hsum]

/-- Numbers with the sign bit set, and with zeros to spare. -/
theorem readSignature_iff_compactToDer_sample :
    Der.readSignature
        (compactToDer ((0x80 :: List.replicate 31 0) ++ (List.replicate 31 0 ++ [7]))) =
      some (Der.number (0x80 :: List.replicate 31 0), Der.number (List.replicate 31 0 ++ [7])) :=
  (readSignature_iff_compactToDer _ _ _ (by simp) (by simp)).2 rfl

end XChainSdk
