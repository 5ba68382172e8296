import XChainSdk.Js.Value
import XChainSdk.Lib.Radix

/-!
# Base58check

* `symbolValue`, `symbolOf` : the symbols of an alphabet and their values.
* `base58CheckDecode` : the payload of an address, as the source reads it through one large
  integer and its hexadecimal text.
* `base58CheckEncode` : the encoding rule; `base58CheckDecode_iff` says that exactly the encodings
  within the band of lengths are read, each to its own payload.
-/

namespace XChainSdk

open Hash

/-! ### Alphabets -/

/-- `alphabet.indexOf(char)`; `none` for `-1`. -/
def symbolValue (alphabet : String) (c : Char) : Option ℕ := alphabet.toList.findIdx? (· == c)

/-- The symbol of a value. -/
def symbolOf (alphabet : String) (v : ℕ) : Char := alphabet.toList.getD v ' '

variable {alphabet : String}

theorem symbolValue_eq_some (hnodup : alphabet.toList.Nodup) {c : Char} {v : ℕ} :
    symbolValue alphabet c = some v ↔ v < alphabet.toList.length ∧ symbolOf alphabet v = c := by
  rw [symbolValue, List.findIdx?_eq_some_iff_getElem]
  constructor
  · rintro ⟨hlt, heq, -⟩
    exact ⟨hlt, by simpa [symbolOf, hlt] using heq⟩
  · rintro ⟨hlt, rfl⟩
    have hget : symbolOf alphabet v = alphabet.toList[v] := by simp [symbolOf, hlt]
    refine ⟨hlt, by simp [hget], fun j hj => ?_⟩
    have hne : alphabet.toList[j] ≠ alphabet.toList[v] := fun h =>
      absurd ((hnodup.getElem_inj_iff).1 h) (by omega)
    simpa [hget] using hne

/-- Which texts are read symbol by symbol, and to what. -/
theorem mapM_symbolValue_iff (hnodup : alphabet.toList.Nodup) {cs : List Char} {ds : List ℕ} :
    cs.mapM (symbolValue alphabet) = some ds ↔
      (∀ d ∈ ds, d < alphabet.toList.length) ∧ ds.map (symbolOf alphabet) = cs := by
  induction cs generalizing ds with
  | nil =>
    constructor
    · intro h
      cases h
      exact ⟨by simp, rfl⟩
    · rintro ⟨-, h⟩
      rw [List.map_eq_nil_iff.1 h]
      rfl
  | cons c cs ih =>
    rw [List.mapM_cons, Option.bind_eq_bind, Option.bind_eq_some_iff]
    constructor
    · rintro ⟨v, hv, h⟩
      obtain ⟨vs, hvs, rfl⟩ : ∃ vs, cs.mapM (symbolValue alphabet) = some vs ∧ v :: vs = ds := by
        simpa [Option.bind_eq_some_iff] using h
      obtain ⟨hlt, hsym⟩ := (symbolValue_eq_some hnodup).1 hv
      obtain ⟨hall, hmap⟩ := ih.1 hvs
      exact ⟨by simpa using ⟨hlt, hall⟩, by rw [List.map_cons, hsym, hmap]⟩
    · rintro ⟨hall, hmap⟩
      obtain ⟨v, vs, rfl, hsym, hmap⟩ := List.map_eq_cons_iff.1 hmap
      refine ⟨v, (symbolValue_eq_some hnodup).2 ⟨hall v (by simp), hsym⟩, ?_⟩
      rw [ih.2 ⟨fun d hd => hall d (by simp [hd]), hmap⟩]
      rfl

/-! ### The reader -/

/-- `BASE58_ALPHABET` -/
def BASE58_ALPHABET : String := "123456789ABCDEFGHJKLMNPQRSTUVWXYZabcdefghijkmnopqrstuvwxyz"

/-- `num = num * 58n + BigInt(value)` over the characters; `none` for one outside the alphabet. -/
def base58Number (cs : List Char) : Option ℕ :=
  cs.foldlM (fun num c => (symbolValue BASE58_ALPHABET c).map fun v => num * 58 + v) 0

/-- `num.toString(16)`, brought to an even length. -/
def evenHex (num : ℕ) : List Char :=
  let hex := Nat.toDigits 16 num
  if hex.length % 2 = 1 then '0' :: hex else hex

/-- The bytes of the integer behind one zero byte for every leading `1`. -/
def base58Data (cs : List Char) : Option Bytes :=
  (base58Number cs).map fun num =>
    List.replicate (cs.takeWhile (· == '1')).length 0 ++
      if num = 0 then [] else hexDecodeChars (evenHex num)

/-- The first four bytes of the double SHA-256. -/
def base58Checksum (H : Host) (payload : Bytes) : Bytes :=
  (H.sha256 (H.sha256 payload).bytes).bytes.take 4

/-- `base58CheckDecode(address)`; `none` is `false`. -/
def base58CheckDecode (H : Host) (address : String) : Option Bytes := do
  guard (26 ≤ utf16Length address ∧ utf16Length address ≤ 48)
  let data ← base58Data address.toList
  guard (5 ≤ data.length)
  let payload := data.take (data.length - 4)
  guard (base58Checksum H payload = data.drop (data.length - 4))
  return payload

/-! ### The encoding -/

/-- Bytes in base 58. -/
def base58Encode (data : Bytes) : List Char :=
  (Radix.rebase 256 58 (data.map UInt8.toNat)).map (symbolOf BASE58_ALPHABET)

/-- The base58check encoding of a payload. -/
def base58CheckEncode (H : Host) (payload : Bytes) : String :=
  String.ofList (base58Encode (payload ++ base58Checksum H payload))

/-! ### Round trip -/

theorem base58Number_eq (cs : List Char) : base58Number cs =
    (cs.mapM (symbolValue BASE58_ALPHABET)).map (Radix.value 58) := by
  -- the fold reads the symbols from the left with the number so far as its accumulator
  have hgen : ∀ (n : ℕ), cs.foldlM
      (fun num c => (symbolValue BASE58_ALPHABET c).map fun v => num * 58 + v) n =
        (cs.mapM (symbolValue BASE58_ALPHABET)).map fun ds =>
          ds.foldl (fun n d => n * 58 + d) n := by
    induction cs with
    | nil => intro n; rfl
    | cons c cs ih =>
      intro n
      cases hv : symbolValue BASE58_ALPHABET c with
      | none => simp [hv]
      | some v =>
        rw [List.foldlM_cons, List.mapM_cons, hv]
        simp only [Option.map_some, Option.bind_eq_bind, Option.bind_some, ih]
        cases cs.mapM (symbolValue BASE58_ALPHABET) <;> simp
  exact hgen 0

theorem hexDigit_eq_digitChar {d : ℕ} (h : d < 16) : hexDigit d = Nat.digitChar d := by
  revert d; decide

theorem evenHex_step {n : ℕ} (h : 256 ≤ n) :
    evenHex n = evenHex (n / 256) ++ hexByte (UInt8.ofNat (n % 256)) := by
  have hdigits : Nat.toDigits 16 n = Nat.toDigits 16 (n / 256) ++
      [Nat.digitChar (n / 16 % 16), Nat.digitChar (n % 16)] := by
    rw [Nat.toDigits_of_base_le (by omega) (by omega : 16 ≤ n),
      Nat.toDigits_of_base_le (by omega) (by omega : 16 ≤ n / 16), Nat.div_div_eq_div_mul,
      List.append_assoc]
    rfl
  have hbyte : hexByte (UInt8.ofNat (n % 256)) =
      [Nat.digitChar (n / 16 % 16), Nat.digitChar (n % 16)] := by
    have hnat : (UInt8.ofNat (n % 256)).toNat = n % 256 := by
      rw [UInt8.toNat_ofNat']
      omega
    rw [hexByte, hnat, hexDigit_eq_digitChar (by omega), hexDigit_eq_digitChar (by omega)]
    rw [show n % 256 / 16 = n / 16 % 16 by omega, show n % 256 % 16 = n % 16 by omega]
  rw [evenHex, evenHex, hbyte, hdigits, List.length_append]
  simp only [List.length_cons, List.length_nil, Nat.add_mod_right]
  split_ifs <;> rfl

/-- The even hexadecimal text is that of the bytes of the number. -/
theorem evenHex_eq {n : ℕ} (h : 0 < n) :
    evenHex n = ((Radix.digits 256 n).map UInt8.ofNat).flatMap hexByte := by
  induction n using Nat.strongRecOn with
  | ind n ih =>
    by_cases hn : n < 256
    · have hsmall : ∀ n < 256, 0 < n → evenHex n = hexByte (UInt8.ofNat n) := by decide +kernel
      rw [hsmall n hn h, Radix.digits, Nat.digits_of_lt 256 n (by omega) hn]
      simp
    · have hstep : Radix.digits 256 n = Radix.digits 256 (n / 256) ++ [n % 256] := by
        rw [Radix.digits, Nat.digits_def' (by omega) h, List.reverse_cons]
        rfl
      rw [evenHex_step (by omega), ih (n / 256) (by omega) (by omega), hstep]
      simp

theorem integerBytes_eq (n : ℕ) : (if n = 0 then [] else hexDecodeChars (evenHex n)) =
    (Radix.digits 256 n).map UInt8.ofNat := by
  split_ifs with h
  · rw [h, Radix.digits, Nat.digits_zero]
    rfl
  · rw [evenHex_eq (by omega), hexDecodeChars_flatMap]

theorem map_toNat_ofNat {ds : List ℕ} (h : ∀ d ∈ ds, d < 256) :
    (ds.map UInt8.ofNat).map UInt8.toNat = ds := by
  rw [List.map_map]
  refine (List.map_congr_left fun d hd => ?_).trans (List.map_id _)
  rw [Function.comp_apply, UInt8.toNat_ofNat', Nat.mod_eq_of_lt (h d hd), id]

theorem map_ofNat_toNat (data : Bytes) : (data.map UInt8.toNat).map UInt8.ofNat = data := by
  rw [List.map_map]
  refine (List.map_congr_left fun d _ => ?_).trans (List.map_id _)
  rw [Function.comp_apply, UInt8.ofNat_toNat, id]

theorem nodup_base58 : BASE58_ALPHABET.toList.Nodup := by decide

theorem length_base58 : BASE58_ALPHABET.toList.length = 58 := by decide

/-- Leading ones are leading zeros. -/
theorem length_takeWhile_one {ds : List ℕ} (h : ∀ d ∈ ds, d < 58) :
    ((ds.map (symbolOf BASE58_ALPHABET)).takeWhile (· == '1')).length = Radix.zeros ds := by
  have hone : ∀ d < 58, (symbolOf BASE58_ALPHABET d == '1') = (d == 0) := by decide
  rw [List.takeWhile_map, List.length_map, Radix.zeros]
  congr 1
  induction ds with
  | nil => rfl
  | cons d ds ih =>
    simp only [List.takeWhile_cons, Function.comp_apply, hone d (h d (by simp)),
      ih fun e he => h e (by simp [he])]

/-- What a text of symbols holds: its digits in base 256. -/
theorem base58Data_symbols {ds : List ℕ} (h : ∀ d ∈ ds, d < 58) :
    base58Data (ds.map (symbolOf BASE58_ALPHABET)) =
      some ((Radix.rebase 58 256 ds).map UInt8.ofNat) := by
  have hread := (mapM_symbolValue_iff nodup_base58).2 ⟨by rwa [length_base58], rfl⟩
  rw [base58Data, base58Number_eq, hread, length_takeWhile_one h]
  simp only [Option.map_some, integerBytes_eq, Radix.rebase, List.map_append, List.map_replicate]
  rfl

theorem base58Data_iff {cs : List Char} {data : Bytes} :
    base58Data cs = some data ↔ base58Encode data = cs := by
  constructor
  · intro h
    obtain ⟨num, hnum, -⟩ : ∃ num, base58Number cs = some num ∧ _ := by
      simpa [base58Data] using h
    obtain ⟨ds, hds, -⟩ : ∃ ds, cs.mapM (symbolValue BASE58_ALPHABET) = some ds ∧ _ := by
      simpa [base58Number_eq] using hnum
    obtain ⟨hall, rfl⟩ := (mapM_symbolValue_iff nodup_base58).1 hds
    rw [length_base58] at hall
    rw [base58Data_symbols hall] at h
    cases h
    rw [base58Encode, map_toNat_ofNat fun d hd => Radix.lt_of_mem_rebase (by omega) hd,
      Radix.rebase_rebase (by omega) hall]
  · rintro rfl
    have hall : ∀ d ∈ data.map UInt8.toNat, d < 256 := fun d hd => by
      obtain ⟨x, -, rfl⟩ := List.mem_map.1 hd
      exact x.toNat_lt
    rw [base58Encode, base58Data_symbols fun d hd => Radix.lt_of_mem_rebase (by omega) hd,
      Radix.rebase_rebase (by omega) hall, map_ofNat_toNat]

theorem length_base58Checksum (H : Host) (payload : Bytes) :
    (base58Checksum H payload).length = 4 := by
  simp [base58Checksum]

theorem base58CheckDecode_eq_some {H : Host} {address : String} {payload : Bytes} :
    base58CheckDecode H address = some payload ↔
      (26 ≤ utf16Length address ∧ utf16Length address ≤ 48) ∧
        ∃ data, base58Data address.toList = some data ∧ 5 ≤ data.length ∧
          base58Checksum H (data.take (data.length - 4)) = data.drop (data.length - 4) ∧
          data.take (data.length - 4) = payload := by
  simp [base58CheckDecode, Option.bind_eq_some_iff, Option.guard_eq_some']

/-- **Exactly the encodings of a payload are read**, within the band of lengths. -/
theorem base58CheckDecode_iff (H : Host) (address : String) (payload : Bytes) :
    base58CheckDecode H address = some payload ↔
      payload ≠ [] ∧ 26 ≤ utf16Length address ∧ utf16Length address ≤ 48 ∧
        base58CheckEncode H payload = address := by
  have hlen := length_base58Checksum H payload
  have hencode : base58CheckEncode H payload = address ↔
      base58Data address.toList = some (payload ++ base58Checksum H payload) := by
    rw [base58Data_iff, base58CheckEncode]
    constructor
    · rintro rfl
      rw [String.toList_ofList]
    · intro h
      rw [h, String.ofList_toList]
  rw [hencode, base58CheckDecode_eq_some]
  constructor
  · rintro ⟨⟨hlo, hhi⟩, data, hdata, hfive, hsum, rfl⟩
    have hne : data.take (data.length - 4) ≠ [] := by
      rw [← List.length_pos_iff, List.length_take]
      omega
    refine ⟨hne, hlo, hhi, ?_⟩
    rw [hdata, hsum, List.take_append_drop]
  · rintro ⟨hne, hlo, hhi, hdata⟩
    have hpos := List.length_pos_iff.2 hne
    have hsub : (payload ++ base58Checksum H payload).length - 4 = payload.length := by
      rw [List.length_append, hlen]
      omega
    have hfive : 5 ≤ (payload ++ base58Checksum H payload).length := by
      rw [List.length_append, hlen]
      omega
    refine ⟨⟨hlo, hhi⟩, _, hdata, hfive, ?_, ?_⟩
    · rw [hsub, List.take_left, List.drop_left]
    · rw [hsub, List.take_left]

end XChainSdk
