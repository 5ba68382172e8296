import XChainSdk.Address.Bech32

/-!
# The address codecs

* `bech32Decode` : the reader of segwit addresses, `bech32Encode` the encoding rule.
* `bech32Decode_iff` : exactly the encodings of a valid segwit address within the band of lengths
  are read, in one case, each to its own address.
* `addressCodecs` : both codecs, and the accumulator that loses no bit.
-/

namespace XChainSdk

open Hash

/-- `{ hrp, version, program }` -/
structure SegwitAddress where
  hrp : String
  version : ℕ
  program : Bytes
  deriving DecidableEq

/-- The text before and after the last occurrence of a character. -/
def splitAtLast (sep : Char) (cs : List Char) : Option (List Char × List Char) :=
  let after := (cs.reverse.takeWhile (· != sep)).reverse
  if after.length = cs.length then none
  else some (cs.take (cs.length - after.length - 1), after)

/-- The checksum constant of a witness version. -/
def bech32Const (version : ℕ) : BitVec 32 := if version = 0 then BECH32_CONST else BECH32M_CONST

/-- The lengths of a witness program: 2 to 40 bytes, 20 or 32 for version 0. -/
def programLengthOk (version : ℕ) (program : Bytes) : Bool :=
  decide (2 ≤ program.length ∧ program.length ≤ 40) &&
    !(version == 0 && program.length != 20 && program.length != 32)

/-- `bech32Decode(address)`; `none` is `false`. -/
def bech32Decode (H : Host) (address : String) : Option SegwitAddress := do
  let str := H.toLowerCase address
  guard (address = str ∨ address = H.toUpperCase address)
  guard (8 ≤ utf16Length str ∧ utf16Length str ≤ 90)
  let (hrp, tail) ← splitAtLast '1' str.toList
  guard (hrp ≠ [] ∧ 6 ≤ utf16Length (String.ofList tail))
  let data ← tail.mapM (symbolValue BECH32_CHARSET)
  let chk := bech32Polymod (String.ofList hrp) data
  let version := data.headD 0
  guard (version ≤ 16)
  guard (chk = bech32Const version)
  let groups := regroup ((data.drop 1).take (data.length - 6 - 1))
  guard groups.Padded
  guard (programLengthOk version groups.program = true)
  return ⟨String.ofList hrp, version, groups.program⟩

/-! ### The encoding -/

/-- The addresses that have an encoding. -/
structure SegwitAddress.Valid (a : SegwitAddress) : Prop where
  hrp : a.hrp ≠ ""
  version : a.version ≤ 16
  program : programLengthOk a.version a.program = true

/-- The symbols of an address, its checksum behind them. -/
def SegwitAddress.symbols (a : SegwitAddress) : List ℕ :=
  let data := a.version :: toSymbols a.program
  data ++ checksumSymbols (bech32Const a.version) a.hrp data

/-- The encoding of an address. -/
def bech32Encode (a : SegwitAddress) : String :=
  String.ofList (a.hrp.toList ++ '1' :: a.symbols.map (symbolOf BECH32_CHARSET))

/-! ### Round trip -/

theorem nodup_bech32 : BECH32_CHARSET.toList.Nodup := by decide

theorem length_bech32 : BECH32_CHARSET.toList.length = 32 := by decide

theorem splitAtLast_eq_some {sep : Char} {cs pre post : List Char} :
    splitAtLast sep cs = some (pre, post) ↔ cs = pre ++ sep :: post ∧ sep ∉ post := by
  constructor
  · intro h
    simp only [splitAtLast] at h
    split_ifs at h with hall
    cases h
    have hsplit := List.takeWhile_append_dropWhile (p := (· != sep)) (l := cs.reverse)
    cases hdrop : cs.reverse.dropWhile (· != sep) with
    | nil =>
      rw [hdrop, List.append_nil] at hsplit
      rw [hsplit] at hall
      simp at hall
    | cons c rest =>
      have hc : (c != sep) = false := by
        have hhead := List.head_dropWhile_not (· != sep) (l := cs.reverse) (by simp [hdrop])
        simpa [hdrop] using hhead
      have hc' : c = sep := by simpa using hc
      have hcs : cs = rest.reverse ++ sep :: (cs.reverse.takeWhile (· != sep)).reverse := by
        have := congrArg List.reverse hsplit
        rw [hdrop, hc', List.reverse_append, List.reverse_reverse, List.reverse_cons,
          List.append_assoc] at this
        exact this.symm
      have htake (after : List Char) (he : cs = rest.reverse ++ sep :: after) :
          cs.take (cs.length - after.length - 1) = rest.reverse := by
        rw [he]
        refine List.take_left' ?_
        simp only [List.length_append, List.length_cons]
        omega
      refine ⟨?_, fun hmem => ?_⟩
      · rw [htake _ hcs]
        exact hcs
      · have := List.mem_takeWhile_imp (List.mem_reverse.1 hmem)
        simp at this
  · rintro ⟨rfl, hnot⟩
    have hafter : ((pre ++ sep :: post).reverse.takeWhile (· != sep)).reverse = post := by
      have hall : ∀ c ∈ post.reverse, (c != sep) = true := fun c hc => by
        have : c ≠ sep := fun he => hnot (he ▸ List.mem_reverse.1 hc)
        simpa using this
      rw [List.reverse_append, List.reverse_cons, List.append_assoc,
        List.takeWhile_append_of_pos hall]
      simp
    simp only [splitAtLast, hafter, List.length_append, List.length_cons]
    rw [if_neg (by omega), List.take_left' (by omega)]

/-- The separator is no symbol. -/
theorem one_notMem_symbols {ds : List ℕ} (h : ∀ d ∈ ds, d < 32) :
    '1' ∉ ds.map (symbolOf BECH32_CHARSET) := by
  have hne : ∀ d < 32, symbolOf BECH32_CHARSET d ≠ '1' := by decide
  intro hmem
  obtain ⟨d, hd, he⟩ := List.mem_map.1 hmem
  exact hne d (h d hd) he

/-- Symbols are single code units. -/
theorem utf16Length_symbols {ds : List ℕ} (h : ∀ d ∈ ds, d < 32) :
    utf16Length (String.ofList (ds.map (symbolOf BECH32_CHARSET))) = ds.length := by
  have hunit : ∀ d < 32, (if (symbolOf BECH32_CHARSET d).toNat < 0x10000 then 1 else 2) = 1 := by
    decide
  have hones : ds.map ((fun c : Char => if c.toNat < 0x10000 then 1 else 2) ∘
      symbolOf BECH32_CHARSET) = ds.map fun _ => 1 :=
    List.map_congr_left fun d hd => hunit d (h d hd)
  rw [utf16Length, String.toList_ofList, List.map_map, hones]
  simp

theorem bech32Decode_eq_some {H : Host} {address : String} {a : SegwitAddress} :
    bech32Decode H address = some a ↔
      (address = H.toLowerCase address ∨ address = H.toUpperCase address) ∧
        (8 ≤ utf16Length (H.toLowerCase address) ∧ utf16Length (H.toLowerCase address) ≤ 90) ∧
        ∃ hrp tail, splitAtLast '1' (H.toLowerCase address).toList = some (hrp, tail) ∧
          (hrp ≠ [] ∧ 6 ≤ utf16Length (String.ofList tail)) ∧
          ∃ data, tail.mapM (symbolValue BECH32_CHARSET) = some data ∧ data.headD 0 ≤ 16 ∧
            bech32Polymod (String.ofList hrp) data = bech32Const (data.headD 0) ∧
            (regroup ((data.drop 1).take (data.length - 6 - 1))).Padded ∧
            programLengthOk (data.headD 0)
              (regroup ((data.drop 1).take (data.length - 6 - 1))).program = true ∧
            ⟨String.ofList hrp, data.headD 0,
              (regroup ((data.drop 1).take (data.length - 6 - 1))).program⟩ = a := by
  simp only [bech32Decode, Option.bind_eq_bind, Option.bind_eq_some_iff, Option.guard_eq_some',
    Option.pure_def, Option.some.injEq, exists_and_left, Prod.exists, exists_const]

theorem lt_of_mem_toSymbols {program : Bytes} {d : ℕ} (h : d ∈ toSymbols program) : d < 32 :=
  Radix.lt_of_mem_fixed (by omega) h

theorem lt_of_mem_symbols {a : SegwitAddress} (hversion : a.version ≤ 16) {d : ℕ}
    (h : d ∈ a.symbols) : d < 32 := by
  rcases List.mem_append.1 h with h | h
  · rcases List.mem_cons.1 h with rfl | h
    · omega
    · exact lt_of_mem_toSymbols h
  · exact Radix.lt_of_mem_fixed (by omega) h

theorem bech32Const_lt (version : ℕ) : (bech32Const version).toNat < 2 ^ 30 := by
  unfold bech32Const
  split_ifs <;> decide

/-- A program is never empty. -/
theorem ne_nil_of_programLengthOk {version : ℕ} {program : Bytes}
    (h : programLengthOk version program = true) : program ≠ [] := by
  rintro rfl
  simp [programLengthOk] at h

/-- Which symbols an address is read from. -/
theorem reads_symbols_iff {hrp : String} {data : List ℕ} (hdata : ∀ d ∈ data, d < 32)
    (hsix : 6 ≤ data.length) {a : SegwitAddress} :
    (data.headD 0 ≤ 16 ∧ bech32Polymod hrp data = bech32Const (data.headD 0) ∧
      (regroup ((data.drop 1).take (data.length - 6 - 1))).Padded ∧
      programLengthOk (data.headD 0)
        (regroup ((data.drop 1).take (data.length - 6 - 1))).program = true ∧
      ⟨hrp, data.headD 0, (regroup ((data.drop 1).take (data.length - 6 - 1))).program⟩ = a) ↔
    a.version ≤ 16 ∧ programLengthOk a.version a.program = true ∧ a.hrp = hrp ∧
      a.symbols = data := by
  constructor
  · rintro ⟨hversion, hsum, hpad, hok, rfl⟩
    refine ⟨hversion, hok, rfl, ?_⟩
    have hseven : 7 ≤ data.length := by
      by_contra hlt
      have hbody : (data.drop 1).take (data.length - 6 - 1) = [] := by
        rw [show data.length - 6 - 1 = 0 by omega, List.take_zero]
      rw [hbody] at hok
      exact ne_nil_of_programLengthOk hok rfl
    obtain ⟨v, rest, rfl⟩ := List.exists_cons_of_length_pos (by omega : 0 < data.length)
    rw [List.length_cons] at hseven
    -- the symbols behind the version are the program and then the checksum
    obtain ⟨body, sum, hrest, hlen⟩ : ∃ body sum, rest = body ++ sum ∧ sum.length = 6 :=
      ⟨rest.take (rest.length - 6), rest.drop (rest.length - 6), by simp, by simp; omega⟩
    subst hrest
    have hbody : ((v :: (body ++ sum)).drop 1).take ((v :: (body ++ sum)).length - 6 - 1) = body := by
      rw [List.drop_one, List.tail_cons, List.take_left']
      simp only [List.length_cons, List.length_append]
      omega
    have hbodylt : ∀ d ∈ body, d < 32 := fun d hd => hdata d (by simp [hd])
    have hsumlt : ∀ d ∈ sum, d < 32 := fun d hd => hdata d (by simp [hd])
    have hfirst : ∀ d ∈ v :: body, d < 32 := fun d hd => hdata d (by
      rcases List.mem_cons.1 hd with rfl | hd
      · simp
      · simp [hd])
    rw [hbody] at hpad ⊢
    have hsymbols := (padded_regroup_iff hbodylt _).1 ⟨hpad, rfl⟩
    have hcheck := (polymod_eq_iff (bech32Const_lt _) hfirst hlen hsumlt).1 hsum
    simp only [SegwitAddress.symbols, hsymbols, List.headD_cons]
    rw [List.headD_cons] at hcheck
    rw [← hcheck, List.cons_append]
  · rintro ⟨hversion, hok, rfl, rfl⟩
    have hlen : (checksumSymbols (bech32Const a.version) a.hrp
        (a.version :: toSymbols a.program)).length = 6 := Radix.length_fixed _ _
    have hhead : a.symbols.headD 0 = a.version := rfl
    have hbody : (a.symbols.drop 1).take (a.symbols.length - 6 - 1) = toSymbols a.program := by
      rw [SegwitAddress.symbols, List.cons_append, List.drop_one, List.tail_cons, List.take_left']
      rw [List.length_cons, List.length_append, hlen]
      omega
    have hbodylt : ∀ d ∈ toSymbols a.program, d < 32 := fun d hd => lt_of_mem_toSymbols hd
    have hfirst : ∀ d ∈ a.version :: toSymbols a.program, d < 32 := fun d hd => by
      rcases List.mem_cons.1 hd with rfl | hd
      · omega
      · exact hbodylt d hd
    obtain ⟨hpad, hprogram⟩ := (padded_regroup_iff hbodylt a.program).2 rfl
    rw [hbody, hhead, hprogram]
    refine ⟨hversion, ?_, hpad, hok, rfl⟩
    exact (polymod_eq_iff (bech32Const_lt _) hfirst hlen
      fun d hd => Radix.lt_of_mem_fixed (by omega) hd).2 rfl

/-- **Exactly the encodings of a segwit address are read**, in one case and within the band of
lengths. -/
theorem bech32Decode_iff (H : Host) (address : String) (a : SegwitAddress) :
    bech32Decode H address = some a ↔
      (address = H.toLowerCase address ∨ address = H.toUpperCase address) ∧
        (8 ≤ utf16Length (H.toLowerCase address) ∧ utf16Length (H.toLowerCase address) ≤ 90) ∧
        a.Valid ∧ bech32Encode a = H.toLowerCase address := by
  rw [bech32Decode_eq_some]
  refine and_congr_right fun _ => and_congr_right fun _ => ?_
  constructor
  · rintro ⟨hrp, tail, hsplit, ⟨hne, hsix⟩, data, hread, haddr⟩
    obtain ⟨hstr, -⟩ := splitAtLast_eq_some.1 hsplit
    obtain ⟨hdata, rfl⟩ := (mapM_symbolValue_iff nodup_bech32).1 hread
    rw [length_bech32] at hdata
    rw [utf16Length_symbols hdata] at hsix
    obtain ⟨hversion, hok, hhrp, hsymbols⟩ := (reads_symbols_iff hdata hsix).1 haddr
    refine ⟨⟨?_, hversion, hok⟩, ?_⟩
    · rw [hhrp]
      intro hempty
      exact hne (by simpa using congrArg String.toList hempty)
    · rw [bech32Encode, hhrp, hsymbols, String.toList_ofList, ← hstr, String.ofList_toList]
  · rintro ⟨hvalid, hencode⟩
    have hdata : ∀ d ∈ a.symbols, d < 32 := fun d hd => lt_of_mem_symbols hvalid.version hd
    have hsix : 6 ≤ a.symbols.length := by
      rw [SegwitAddress.symbols, List.length_append, checksumSymbols, Radix.length_fixed]
      omega
    have hstr : (H.toLowerCase address).toList =
        a.hrp.toList ++ '1' :: a.symbols.map (symbolOf BECH32_CHARSET) := by
      rw [← hencode, bech32Encode, String.toList_ofList]
    refine ⟨a.hrp.toList, _, splitAtLast_eq_some.2 ⟨hstr, one_notMem_symbols hdata⟩, ⟨?_, ?_⟩,
      a.symbols, (mapM_symbolValue_iff nodup_bech32).2 ⟨by rwa [length_bech32], rfl⟩, ?_⟩
    · intro hempty
      exact hvalid.hrp (String.toList_eq_nil_iff.1 hempty)
    · rwa [utf16Length_symbols hdata]
    · exact (reads_symbols_iff hdata hsix).2
        ⟨hvalid.version, hvalid.program, String.ofList_toList.symm, rfl⟩

/-! ### Both codecs -/

/-- Program and waiting bits together are the bits of the symbols. -/
def BitBuffer.Holds (s : BitBuffer) (data : List ℕ) : Prop :=
  bytesValue s.program * 2 ^ s.bits + s.rest = Radix.value 32 data ∧
    8 * s.program.length + s.bits = 5 * data.length ∧ s.bits < 8

/-- **The address codecs are exact.**  Within their bands of lengths, both readers accept exactly
the encodings and return what was encoded; the 32-bit accumulator ends in the whole number of the
symbols, however many there are. -/
theorem addressCodecs (H : Host) :
    (∀ address a, bech32Decode H address = some a ↔
      (address = H.toLowerCase address ∨ address = H.toUpperCase address) ∧
        (8 ≤ utf16Length (H.toLowerCase address) ∧ utf16Length (H.toLowerCase address) ≤ 90) ∧
        a.Valid ∧ bech32Encode a = H.toLowerCase address) ∧
    (∀ address payload, base58CheckDecode H address = some payload ↔
      payload ≠ [] ∧ 26 ≤ utf16Length address ∧ utf16Length address ≤ 48 ∧
        base58CheckEncode H payload = address) ∧
    ∀ data : List (Fin 32), (regroup (data.map Fin.val)).Holds (data.map Fin.val) := by
  refine ⟨bech32Decode_iff H, base58CheckDecode_iff H, ?_⟩
  intro data
  have hlt : ∀ d ∈ data.map Fin.val, d < 32 := fun d hd => by
    obtain ⟨x, -, rfl⟩ := List.mem_map.1 hd
    exact x.isLt
  have hr := regroups hlt
  refine ⟨?_, hr.bits, hr.short⟩
  rw [hr.value, hr.rest, Nat.mul_comm, Nat.div_add_mod]

/-- Encodings outside the bands are not read: a payload of one byte, and a program of one byte. -/
theorem addressCodecs_shortPayload :
    base58CheckDecode plainHost (base58CheckEncode plainHost [0]) = none ∧
      bech32Decode plainHost (bech32Encode ⟨"bc", 0, [0]⟩) = none := by
  decide +kernel

/-- The account of the sample address. -/
example : bech32Decode plainHost "BC1QW508D6QEJXTDG4Y5R3ZARVARY0C5XW7KV8F3T4" =
    some ⟨"bc", 0, hexDecode "751e76e8199196d454941c45d1b3a323f1433bd6"⟩ := by
  decide +kernel

end XChainSdk
